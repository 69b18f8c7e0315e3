import QueryDepth.Proofs.Depth.Acyclic
import QueryDepth.Proofs.Depth.FragmentGraph
import QueryDepth.Proofs.Document.Reading
import QueryDepth.Proofs.Validation.Conservative

/-!
# What the standard rules exclude

A document is clean over a schema if no standard rule has anything to say at any visit. A validation
by the standard rules that ends without violations has found a clean document
(`isClean_of_validate`).

Three of the rules are read here, each through the visits that it looks at. The names of fragments
are distinct and so are the labels of operations, which includes the empty one; and every spread,
at any depth, is of a fragment that is defined.

Rules on names compare offsets: an earlier name is one with a smaller offset. They say something
about the order of definitions because a document that was read from a text has increasing offsets.
-/

namespace QueryDepth

/-- No standard rule has anything to say. -/
def Document.IsClean (s : Schema) (doc : Document) : Prop :=
  ∀ visit ∈ doc.visits s, ∀ rule ∈ standardRules, rule (.of s doc) visit = []

/-! ## Validations without violations -/

namespace StandardFindings

theorem silent_of_atVisits {ctx : RuleContext} {visits : List Visit}
    (h : atVisits ctx visits = ([], none)) :
    ∀ visit ∈ visits, ∀ rule ∈ standardRules, rule ctx visit = [] := by
  induction visits with
  | nil => exact nofun
  | cons visit rest ih =>
    unfold atVisits at h
    split at h
    · exact nomatch congrArg Prod.snd h
    · obtain ⟨hfound, hended⟩ := Prod.mk.inj h
      obtain ⟨hvisit, hrest⟩ := List.append_eq_nil_iff.1 hfound
      intro later hlater
      rcases List.mem_cons.1 hlater with rfl | hlater
      · exact List.flatMap_eq_nil_iff.1 hvisit
      · exact ih (Prod.ext hrest hended) later hlater

end StandardFindings

/-- **Nothing is found only in a clean document.** -/
theorem isClean_of_validate {s : Schema} {doc : Document} {standard : ValidationRun}
    (hstandard : s.validate doc true [] = .ok standard) (hnone : standard.violations = [])
    (hended : standard.failure = none) : doc.IsClean s := by
  rw [Schema.validate_standard (Schema.faults_of_validate hstandard)] at hstandard
  obtain rfl := Except.ok.inj hstandard
  have hfits := @length_le_of_runRules_nil doc (.of s doc)
    (by rw [hnone]; exact Nat.zero_le _)
  rw [runRules_nil_fits hfits] at hnone hended
  obtain ⟨hfirst, hrest⟩ := List.append_eq_nil_iff.1 hnone
  intro visit hvisit
  rcases List.mem_cons.1 hvisit with rfl | hvisit
  · exact List.flatMap_eq_nil_iff.1 hfirst
  · exact StandardFindings.silent_of_atVisits
      (Prod.ext hrest (Option.map_eq_none_iff.1 hended)) visit hvisit

/-! ## What is visited -/

mutual

/-- Every name that is spread in a selection is visited. -/
theorem Selection.exists_spread_visit (s : Schema) : ∀ (selection : Selection) (scope : Scope),
    ∀ name ∈ selection.node.spreads, ∃ parent sp,
      .spread parent sp ∈ selection.visits s scope ∧ sp.name.value = name
  | .field f [], _ => by
    rw [Selection.node, Node.spreads]
    exact nofun
  | .field f (selection :: rest), scope => by
    rw [Selection.node, Node.spreads, ← Selection.nodes]
    intro name hname
    obtain ⟨parent, sp, hvisit, hsp⟩ :=
      Selection.exists_spread_visits s (selection :: rest) _ name hname
    refine ⟨parent, sp, ?_, hsp⟩
    rw [Selection.visits]
    refine List.mem_append_left _ (List.mem_append_right _ ?_)
    rw [if_neg (by simp)]
    exact List.mem_cons_of_mem _ hvisit
  | .spread sp, scope => by
    rw [Selection.node, Node.spreads]
    intro name hname
    refine ⟨scope.parent, sp, ?_, (List.mem_singleton.1 hname).symm⟩
    rw [Selection.visits]
    exact List.mem_cons_self
  | .inlineFragment f selections, scope => by
    rw [Selection.node, Node.spreads]
    intro name hname
    obtain ⟨parent, sp, hvisit, hsp⟩ := Selection.exists_spread_visits s selections _ name hname
    refine ⟨parent, sp, ?_, hsp⟩
    rw [Selection.visits]
    exact List.mem_cons_of_mem _ (List.mem_append_right _ (List.mem_cons_of_mem _ hvisit))

theorem Selection.exists_spread_visits (s : Schema) : ∀ (selections : List Selection)
    (scope : Scope), ∀ name ∈ Node.spreadsAll (Selection.nodes selections), ∃ parent sp,
      .spread parent sp ∈ Selection.visitsAll s scope selections ∧ sp.name.value = name
  | [], _ => by
    rw [Selection.nodes, Node.spreadsAll]
    exact nofun
  | selection :: rest, scope => by
    rw [Selection.nodes, Node.spreadsAll, Selection.visitsAll]
    intro name hname
    rcases List.mem_append.1 hname with hname | hname
    · obtain ⟨parent, sp, hvisit, hsp⟩ := Selection.exists_spread_visit s selection scope name hname
      exact ⟨parent, sp, List.mem_append_left _ hvisit, hsp⟩
    · obtain ⟨parent, sp, hvisit, hsp⟩ := Selection.exists_spread_visits s rest scope name hname
      exact ⟨parent, sp, List.mem_append_right _ hvisit, hsp⟩

end

theorem Operation.exists_spread_visit (s : Schema) (op : Operation) : ∀ name ∈ op.node.spreads,
    ∃ parent sp, .spread parent sp ∈ op.visits s ∧ sp.name.value = name := by
  intro name hname
  let scope : Scope := ⟨((s.root? op.kind).bind s.type?).filter (·.body.isObject), none⟩
  obtain ⟨parent, sp, hvisit, hsp⟩ :=
    Selection.exists_spread_visits s op.selections scope name hname
  refine ⟨parent, sp, ?_, hsp⟩
  exact List.mem_append_left _ (List.mem_append_right _ (List.mem_cons_of_mem _ hvisit))

theorem Operation.mem_visits {s : Schema} (op : Operation) :
    .definition (.operation op) ∈ op.visits s :=
  List.mem_append_left _ (List.mem_append_left _ (List.mem_append_left _ List.mem_cons_self))

theorem Fragment.exists_spread_visit (s : Schema) (f : Fragment) : ∀ name ∈ f.node.spreads,
    ∃ parent sp, .spread parent sp ∈ f.visits s ∧ sp.name.value = name := by
  intro name hname
  let scope : Scope := ⟨(s.type? f.condition.value).filter (·.body.isOutput), none⟩
  obtain ⟨parent, sp, hvisit, hsp⟩ :=
    Selection.exists_spread_visits s f.selections scope name hname
  refine ⟨parent, sp, ?_, hsp⟩
  exact List.mem_append_right _ (List.mem_cons_of_mem _ hvisit)

namespace Document

variable {s : Schema} {doc : Document}

theorem mem_visits_of_definition {d : Definition} (hd : d ∈ doc.definitions) {visit : Visit}
    (hvisit : visit ∈ d.visits s) : visit ∈ doc.visits s :=
  List.mem_cons_of_mem _ (List.mem_append_left _ (List.mem_flatMap.2 ⟨d, hd, hvisit⟩))

theorem mem_visits_of_operation {op : Operation} (hop : op ∈ doc.operations) {visit : Visit}
    (hvisit : visit ∈ op.visits s) : visit ∈ doc.visits s := by
  obtain ⟨d, hd, hdop⟩ := List.mem_filterMap.1 hop
  cases d <;> cases hdop
  exact mem_visits_of_definition hd hvisit

theorem mem_visits_of_fragment {f : Fragment} (hf : f ∈ doc.fragments) {visit : Visit}
    (hvisit : visit ∈ f.visits s) : visit ∈ doc.visits s := by
  obtain ⟨d, hd, hdf⟩ := List.mem_filterMap.1 hf
  cases d <;> cases hdf
  exact mem_visits_of_definition hd hvisit

/-- A fragment that is looked up by name is a fragment of this name. -/
theorem mem_of_fragment? {name : String} {f : Fragment} (h : doc.fragment? name = some f) :
    f ∈ doc.fragments ∧ f.name.value = name := by
  refine ⟨List.mem_reverse.1 (List.mem_of_find?_eq_some h), ?_⟩
  simpa using List.find?_some h

/-- A fragment is found under a name if and only if one is defined. -/
theorem fragment?_isSome {name : String} : (doc.fragment? name).isSome ↔ doc.Defines name := by
  simp [fragment?, Defines]

end Document

/-! ## What is excluded -/

/-- In a list by offsets, what comes before an offset is a beginning of the list. -/
theorem mem_takeWhile_pos {names : List Name} (horder : names.Pairwise (·.pos < ·.pos)) {pos : Nat}
    {name : Name} (hname : name ∈ names) (hpos : name.pos < pos) :
    name ∈ names.takeWhile (·.pos < pos) := by
  induction names with
  | nil => exact absurd hname List.not_mem_nil
  | cons first rest ih =>
    obtain ⟨hfirst, hrest⟩ := List.pairwise_cons.1 horder
    rcases List.mem_cons.1 hname with rfl | hname
    · rw [List.takeWhile_cons_of_pos (by simpa using hpos)]
      exact List.mem_cons_self
    · have hbefore := Nat.lt_trans (hfirst name hname) hpos
      rw [List.takeWhile_cons_of_pos (by simpa using hbefore)]
      exact List.mem_cons_of_mem _ (ih hrest hname)

theorem value_ne_of_againViolation {message : String → String} {earlier : List Name} {name : Name}
    (h : againViolation message earlier name = []) : ∀ n ∈ earlier, n.value ≠ name.value := by
  unfold againViolation at h
  split at h
  · exact absurd h (List.cons_ne_nil _ _)
  · next hnone => simpa using hnone

/-- Names in the order of their offsets of which none comes again are distinct. -/
theorem nodup_values {names : List Name} (horder : names.Pairwise (·.pos < ·.pos))
    (h : ∀ name ∈ names, ∀ n ∈ names.takeWhile (·.pos < name.pos), n.value ≠ name.value) :
    (names.map (·.value)).Nodup := by
  refine List.pairwise_map.2 (horder.imp_of_mem ?_)
  intro first again hfirst hagain hlt
  exact h again hagain first (mem_takeWhile_pos horder hfirst hlt)

namespace Document.IsClean

variable {s : Schema} {doc : Document} (hclean : doc.IsClean s)

include hclean

theorem defines_of_visit {parent : Option NamedType} {sp : Spread}
    (hvisit : .spread parent sp ∈ doc.visits s) : doc.Defines sp.name.value := by
  have hsilent := hclean _ hvisit Rule.knownFragmentNames (by simp [standardRules, lateRules])
  rw [← fragment?_isSome]
  exact Decidable.byContradiction fun hnone =>
    absurd ((if_neg hnone).symm.trans hsilent) (List.cons_ne_nil _ _)

/-- Every spread in an operation is of a fragment that is defined. -/
theorem defines_of_operation {op : Operation} (hop : op ∈ doc.operations) {name : String}
    (hname : name ∈ op.node.spreads) : doc.Defines name := by
  obtain ⟨parent, sp, hvisit, rfl⟩ := op.exists_spread_visit s name hname
  exact hclean.defines_of_visit (mem_visits_of_operation hop hvisit)

/-- Every spread in a fragment is of a fragment that is defined. -/
theorem defines_of_fragment {f : Fragment} (hf : f ∈ doc.fragments) {name : String}
    (hname : name ∈ f.node.spreads) : doc.Defines name := by
  obtain ⟨parent, sp, hvisit, rfl⟩ := f.exists_spread_visit s name hname
  exact hclean.defines_of_visit (mem_visits_of_fragment hf hvisit)

/-- Fragments have names of their own. -/
theorem nodup_fragmentNames
    (horder : doc.fragments.Pairwise fun f g => f.pos < g.pos ∧ f.name.pos < g.name.pos) :
    (doc.fragments.map (·.name.value)).Nodup := by
  have hnames : (doc.fragments.map (·.name)).Pairwise (·.pos < ·.pos) :=
    List.pairwise_map.2 (horder.imp And.right)
  have hnodup := nodup_values hnames fun name hname => by
    obtain ⟨f, hf, rfl⟩ := List.mem_map.1 hname
    have hsilent := hclean (.definition (.fragment f))
      (mem_visits_of_fragment hf List.mem_cons_self) Rule.uniqueFragmentNames
      (by simp [standardRules, lateRules])
    rw [Rule.uniqueFragmentNames] at hsilent
    exact value_ne_of_againViolation hsilent
  rwa [List.map_map] at hnodup

/-- An operation without a name is the only one. -/
theorem length_operations_le {op : Operation} (hop : op ∈ doc.operations) (hnone : op.name = none) :
    doc.operations.length ≤ 1 := by
  have hsilent := hclean (.definition (.operation op)) (mem_visits_of_operation hop op.mem_visits)
    Rule.loneAnonymousOperation (by simp [standardRules, earlyRules])
  refine Nat.not_lt.1 fun hmany => ?_
  have hboth : op.name.isNone ∧ 1 < doc.operations.length := ⟨by rw [hnone]; rfl, hmany⟩
  exact absurd ((if_pos hboth).symm.trans hsilent) (List.cons_ne_nil _ _)

/-- Operations have labels of their own, the empty one included. -/
theorem nodup_labels (horder : (doc.operations.filterMap (·.name)).Pairwise (·.pos < ·.pos)) :
    (doc.operations.map Operation.label).Nodup := by
  by_cases hnamed : ∀ op ∈ doc.operations, op.name.isSome
  · have hnodup := nodup_values horder fun name hname => by
      obtain ⟨op, hop, hsome⟩ := List.mem_filterMap.1 hname
      have hsilent := hclean (.definition (.operation op))
        (mem_visits_of_operation hop op.mem_visits) Rule.uniqueOperationNames
        (by simp [standardRules, earlyRules])
      rw [Rule.uniqueOperationNames, hsome] at hsilent
      exact value_ne_of_againViolation hsilent
    have hlabels : doc.operations.map Operation.label =
        (doc.operations.filterMap (·.name)).map (·.value) := by
      rw [List.map_filterMap, ← List.filterMap_eq_map]
      refine List.filterMap_congr fun op hop => ?_
      obtain ⟨name, hname⟩ := Option.isSome_iff_exists.1 (hnamed op hop)
      simp only [Function.comp_apply, Operation.label, hname, Option.map_some, Option.getD_some]
    rwa [hlabels]
  · obtain ⟨op, hnone⟩ := not_forall.1 hnamed
    obtain ⟨hop, hnone⟩ := Classical.not_imp.1 hnone
    have hlone := hclean.length_operations_le hop (Option.not_isSome_iff_eq_none.1 hnone)
    obtain ⟨only, honly⟩ :=
      List.length_eq_one_iff.1 (Nat.le_antisymm hlone (List.length_pos_of_mem hop))
    rw [honly]
    exact List.pairwise_singleton _ _

end Document.IsClean

end QueryDepth
