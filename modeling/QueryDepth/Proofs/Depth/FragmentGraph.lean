import Mathlib.Logic.Relation
import QueryDepth.Proofs.Depth.Clamping
import QueryDepth.Proofs.Depth.Siblings
import QueryDepth.Proofs.Index

/-!
# Reports about fragments

The fragment graph of a policy has an edge from a fragment to each name that is spread in it below
fields that are not skipped. A walk knows nothing of this graph: it keeps the fragments it is in.

**Theorem (`run_fragment_reports`).** A walk reports a cyclic fragment only if the fragment is
defined, is reached from the operation and reaches itself, and a missing one only if it is reached
and not defined. If it reports nothing at all, every fragment that is reached is defined, and none
reaches itself.

For the first half the invariant is `Traced`: whatever is spread in a node is reached from the
operation, and from every fragment that is active there. For the second half, a walk without reports
follows every spread that it sees (`follow_shown`). So it follows all paths of the graph, and on
each it enters every fragment inside those before it; a path that comes back would be reported.
-/

namespace QueryDepth

open Relation

/-! ## The fragment graph -/

/-- The name is spread in the node, below groups and fields that are not skipped. -/
inductive Node.Shows (policy : Policy) : Node → String → Prop
  | spread {pos : Option Nat} {name : String} : Shows policy (.spread pos name) name
  | field {pos : Option Nat} {field name : String} {children : List Node} {child : Node} :
      policy.skips field = false → child ∈ children → Shows policy child name →
      Shows policy (.field pos field (some children)) name
  | group {pos : Option Nat} {name : String} {children : List Node} {child : Node} :
      child ∈ children → Shows policy child name → Shows policy (.group pos children) name

/-- The other name is spread in the fragment of the one name. -/
def Links (fragments : List (String × Node)) (policy : Policy) (name spread : String) : Prop :=
  ∃ fragment, fragments.lookup name = some fragment ∧ fragment.Shows policy spread

/-- The name is reached from the node. -/
def Node.Reaches (fragments : List (String × Node)) (policy : Policy) (node : Node)
    (name : String) : Prop :=
  ∃ first, node.Shows policy first ∧ ReflTransGen (Links fragments policy) first name

/-- Some fragment has this name. -/
def Document.Defines (doc : Document) (name : String) : Prop :=
  ∃ f ∈ doc.fragments, f.name.value = name

theorem Document.mem_keys_fragmentNodes {doc : Document} {name : String} :
    name ∈ doc.fragmentNodes.map Prod.fst ↔ doc.Defines name := by
  have hkeys : doc.fragmentNodes.map Prod.fst = doc.fragmentIndex.map Prod.fst := by
    unfold fragmentNodes
    rw [List.map_map]
    rfl
  rw [hkeys, fragmentIndex, Index.mem_keys_ofEntries, List.map_map, List.mem_map]
  rfl

/-- **A name has no fragment if and only if none is defined.** -/
theorem Document.lookup_fragmentNodes_eq_none {doc : Document} {name : String} :
    doc.fragmentNodes.lookup name = none ↔ ¬ doc.Defines name := by
  rw [List.lookup_eq_none_iff, ← mem_keys_fragmentNodes, List.mem_map]
  constructor
  · rintro hnone ⟨f, hf, rfl⟩
    simpa using hnone f hf
  · intro hnone f hf
    rw [bne_iff_ne]
    rintro rfl
    exact hnone ⟨f, hf, rfl⟩

theorem Document.defines_of_lookup {doc : Document} {name : String} {fragment : Node}
    (h : doc.fragmentNodes.lookup name = some fragment) : doc.Defines name :=
  mem_keys_fragmentNodes.1 (List.mem_map_of_mem (mem_of_lookup h))

/-! ## What is reported is so -/

/-- What is reported about a fragment holds in the graph, as seen from a root. -/
def DepthFault.IsFounded (fragments : List (String × Node)) (policy : Policy) (root : Node) :
    DepthFault → Prop
  | .tooDeep _ _ => True
  | .missingFragment name => root.Reaches fragments policy name ∧ fragments.lookup name = none
  | .cyclicFragment name _ =>
    root.Reaches fragments policy name ∧ fragments.lookup name ≠ none ∧
      TransGen (Links fragments policy) name name

/-- Below the limit the only report is of another kind. -/
theorem isFounded_of_within {ctx : WalkContext} {root : Node} {e : Expansion} {level : Int}
    (h : ¬ level > ctx.limit → ∀ r ∈ e.faultsAt ctx level,
      r.fault.IsFounded ctx.fragments ctx.policy root) :
    ∀ r ∈ e.faultsAt ctx level, r.fault.IsFounded ctx.fragments ctx.policy root := by
  by_cases hlevel : level > ctx.limit
  · intro r hr
    rw [Expansion.faultsAt_of_gt hlevel, List.mem_singleton] at hr
    rw [hr]
    trivial
  · exact h hlevel

/-- What is spread in the node is reached from the root and from every active fragment. -/
structure Node.Traced (fragments : List (String × Node)) (policy : Policy) (node root : Node)
    (active : List String) : Prop where
  reached : ∀ name, node.Shows policy name → root.Reaches fragments policy name
  led : ∀ name, node.Shows policy name → ∀ entered ∈ active,
    TransGen (Links fragments policy) entered name

namespace Node.Traced

variable {fragments : List (String × Node)} {policy : Policy} {root : Node} {active : List String}

theorem root_self : root.Traced fragments policy root [] where
  reached name hshows := ⟨name, hshows, .refl⟩
  led _ _ _ hentered := absurd hentered List.not_mem_nil

/-- A node that shows no more is traced alike. -/
theorem mono {node child : Node} (h : node.Traced fragments policy root active)
    (hshows : ∀ name, child.Shows policy name → node.Shows policy name) :
    child.Traced fragments policy root active where
  reached name hname := h.reached name (hshows name hname)
  led name hname := h.led name (hshows name hname)

/-- Through a spread, the invariant is carried into the fragment. -/
theorem fragment {pos : Option Nat} {name : String} {fragment : Node}
    (h : (Node.spread pos name).Traced fragments policy root active)
    (hlookup : fragments.lookup name = some fragment) :
    fragment.Traced fragments policy root (name :: active) where
  reached spread hspread := by
    obtain ⟨first, hfirst, hpath⟩ := h.reached name .spread
    exact ⟨first, hfirst, hpath.tail ⟨fragment, hlookup, hspread⟩⟩
  led spread hspread entered hentered := by
    have hlink : Links fragments policy name spread := ⟨fragment, hlookup, hspread⟩
    rcases List.mem_cons.1 hentered with rfl | hentered
    · exact .single hlink
    · exact (h.led name .spread entered hentered).tail hlink

end Node.Traced

/-- **Every report is founded in the graph.** -/
theorem isFounded_of_mem_faultsAt (ctx : WalkContext) (root : Node) (active : List String)
    (node : Node) : node.Traced ctx.fragments ctx.policy root active → ∀ level,
      ∀ r ∈ (node.expand ctx.fragments active).faultsAt ctx level,
        r.fault.IsFounded ctx.fragments ctx.policy root := by
  induction active, node using Node.expand_induct ctx.fragments with
  | leaf active pos name =>
    refine fun _ level => isFounded_of_within fun hlevel => ?_
    rw [Node.expand_leaf, Expansion.faultsAt_leaf _ _ hlevel]
    exact nofun
  | field active pos name children ih =>
    refine fun htraced level => isFounded_of_within fun hlevel r hr => ?_
    rw [Node.expand_field, Expansion.faultsAt_field _ _ _ hlevel] at hr
    cases hskip : ctx.policy.skips name with
    | true =>
      rw [if_pos hskip] at hr
      exact absurd hr List.not_mem_nil
    | false =>
      rw [hskip, if_neg Bool.false_ne_true] at hr
      obtain ⟨e, he, hr⟩ := Expansion.mem_faultsAll.1 hr
      obtain ⟨child, hchild, rfl⟩ := Node.mem_expandAll.1 he
      exact ih child hchild (htraced.mono fun _ => .field hskip hchild) (level + 1) r hr
  | group active pos children ih =>
    refine fun htraced level => isFounded_of_within fun hlevel r hr => ?_
    rw [Node.expand_group, Expansion.faultsAt_group _ _ hlevel] at hr
    obtain ⟨e, he, hr⟩ := Expansion.mem_faultsAll.1 hr
    obtain ⟨child, hchild, rfl⟩ := Node.mem_expandAll.1 he
    exact ih child hchild (htraced.mono fun _ => .group hchild) level r hr
  | missing active pos name hlookup =>
    refine fun htraced level => isFounded_of_within fun hlevel r hr => ?_
    rw [Node.expand_missing pos hlookup, Expansion.faultsAt_missing _ _ hlevel,
      List.mem_singleton] at hr
    rw [hr]
    exact ⟨htraced.reached name .spread, hlookup⟩
  | reentry active pos name fragment hlookup hname =>
    refine fun htraced level => isFounded_of_within fun hlevel r hr => ?_
    rw [Node.expand_reentry pos hlookup hname, Expansion.faultsAt_reentry _ _ hlevel,
      List.mem_singleton] at hr
    rw [hr]
    exact ⟨htraced.reached name .spread, Option.ne_none_iff_exists'.2 ⟨fragment, hlookup⟩,
      htraced.led name .spread name hname⟩
  | followed active pos name fragment hlookup hname ih =>
    refine fun htraced level => isFounded_of_within fun hlevel => ?_
    rw [Node.expand_followed pos hlookup hname, Expansion.faultsAt_followed _ _ hlevel]
    exact ih (htraced.fragment hlookup) level
  | other active pos kind =>
    refine fun _ level => isFounded_of_within fun hlevel => ?_
    rw [Node.expand_other, Expansion.faultsAt_other _ _ hlevel]
    exact nofun

/-! ## What is not reported is not so -/

variable {ctx : WalkContext}

/-- **A walk without reports follows every spread that it sees.** -/
theorem follow_shown {node : Node} {name : String} (h : node.Shows ctx.policy name) :
    ∀ {active : List String} {level : Int},
      (node.expand ctx.fragments active).faultsAt ctx level = [] →
      ∃ fragment inside, ctx.fragments.lookup name = some fragment ∧ name ∉ active ∧
        (fragment.expand ctx.fragments (name :: active)).faultsAt ctx inside = [] := by
  induction h with
  | @spread pos name =>
    intro active level hnone
    have hlevel := Expansion.not_gt_of_faultsAt_eq_nil hnone
    cases hlookup : ctx.fragments.lookup name with
    | none =>
      rw [Node.expand_missing pos hlookup, Expansion.faultsAt_missing _ _ hlevel] at hnone
      exact absurd hnone (List.cons_ne_nil _ _)
    | some fragment =>
      by_cases hname : name ∈ active
      · rw [Node.expand_reentry pos hlookup hname, Expansion.faultsAt_reentry _ _ hlevel] at hnone
        exact absurd hnone (List.cons_ne_nil _ _)
      · rw [Node.expand_followed pos hlookup hname, Expansion.faultsAt_followed _ _ hlevel] at hnone
        exact ⟨fragment, level, rfl, hname, hnone⟩
  | field hskip hchild _ ih =>
    intro active level hnone
    have hlevel := Expansion.not_gt_of_faultsAt_eq_nil hnone
    rw [Node.expand_field, Expansion.faultsAt_field _ _ _ hlevel, hskip,
      if_neg Bool.false_ne_true] at hnone
    exact ih (Expansion.faultsAt_of_faultsAll_eq_nil hnone
      (Node.mem_expandAll.2 ⟨_, hchild, rfl⟩))
  | group hchild _ ih =>
    intro active level hnone
    have hlevel := Expansion.not_gt_of_faultsAt_eq_nil hnone
    rw [Node.expand_group, Expansion.faultsAt_group _ _ hlevel] at hnone
    exact ih (Expansion.faultsAt_of_faultsAll_eq_nil hnone
      (Node.mem_expandAll.2 ⟨_, hchild, rfl⟩))

/-- The fragment is one of those that the walk is in, and the walk reports nothing inside it. -/
structure EntersCleanly (ctx : WalkContext) (active : List String) (name : String) : Prop where
  mem : name ∈ active
  clean : ∃ fragment level, ctx.fragments.lookup name = some fragment ∧
    (fragment.expand ctx.fragments active).faultsAt ctx level = []

namespace EntersCleanly

variable {active : List String} {name spread : String}

/-- Along a link the walk goes into a fragment that it is not in. -/
theorem link (h : EntersCleanly ctx active name)
    (hlink : Links ctx.fragments ctx.policy name spread) :
    spread ∉ active ∧ EntersCleanly ctx (spread :: active) spread := by
  obtain ⟨fragment, level, hlookup, hnone⟩ := h.clean
  obtain ⟨fragment', hlookup', hshows⟩ := hlink
  obtain rfl := Option.some.inj (hlookup.symm.trans hlookup')
  obtain ⟨inner, inside, hinner, hname, hclean⟩ := follow_shown hshows hnone
  exact ⟨hname, List.mem_cons_self, inner, inside, hinner, hclean⟩

/-- **On a path no fragment is met that the walk is in.** -/
theorem path (h : EntersCleanly ctx active name)
    (hpath : TransGen (Links ctx.fragments ctx.policy) name spread) :
    spread ∉ active ∧ ∃ more ⊇ active, EntersCleanly ctx more spread := by
  induction hpath with
  | single hlink =>
    obtain ⟨hnew, hclean⟩ := h.link hlink
    exact ⟨hnew, _, List.subset_cons_self .., hclean⟩
  | tail _ hlink ih =>
    obtain ⟨-, more, hmore, hclean⟩ := ih
    obtain ⟨hnew, hclean'⟩ := hclean.link hlink
    exact ⟨fun hold => hnew (hmore hold), _, List.subset_cons_of_subset _ hmore, hclean'⟩

theorem not_transGen_self (h : EntersCleanly ctx active name) :
    ¬ TransGen (Links ctx.fragments ctx.policy) name name :=
  fun hcycle => (h.path hcycle).1 h.mem

end EntersCleanly

/-- A walk without reports enters everything that is reached. -/
theorem entersCleanly_of_reaches {node : Node} {name : String} {level : Int}
    (hnone : (node.expand ctx.fragments []).faultsAt ctx level = [])
    (hreaches : node.Reaches ctx.fragments ctx.policy name) :
    ∃ active, EntersCleanly ctx active name := by
  obtain ⟨first, hshows, hpath⟩ := hreaches
  obtain ⟨fragment, inside, hlookup, -, hclean⟩ := follow_shown hshows hnone
  have hfirst : EntersCleanly ctx [first] first :=
    ⟨List.mem_cons_self, fragment, inside, hlookup, hclean⟩
  rcases reflTransGen_iff_eq_or_transGen.1 hpath with rfl | hpath
  · exact ⟨_, hfirst⟩
  · obtain ⟨-, active, -, hname⟩ := hfirst.path hpath
    exact ⟨active, hname⟩

/-! ## The reports of an operation -/

namespace Walk

/-- **Reports about fragments are right.** In the graph of the spreads that are seen below fields
that are not skipped, the walk of an operation reports a cyclic fragment only if it is defined,
reached and reaches itself, and a missing one only if it is reached and not defined. If the walk
reports nothing, every fragment that is reached is defined and none reaches itself. -/
theorem run_fragment_reports (doc : Document) (op : Operation) (name : String) (limit : Int)
    {policy : Policy} (hpure : policy.Pure) :
    ∃ depth s, run ⟨doc.fragmentNodes, limit, name, policy, none⟩ op.node 0 [] = (.ok depth, s) ∧
      (∀ r ∈ s.reports, ∀ fragment operation, r.fault = .cyclicFragment fragment operation →
        doc.Defines fragment ∧ op.node.Reaches doc.fragmentNodes policy fragment ∧
          TransGen (Links doc.fragmentNodes policy) fragment fragment) ∧
      (∀ r ∈ s.reports, ∀ fragment, r.fault = .missingFragment fragment →
        op.node.Reaches doc.fragmentNodes policy fragment ∧ ¬ doc.Defines fragment) ∧
      (s.reports = #[] → ∀ fragment, op.node.Reaches doc.fragmentNodes policy fragment →
        doc.Defines fragment ∧ ¬ TransGen (Links doc.fragmentNodes policy) fragment fragment) := by
  let ctx : WalkContext := ⟨doc.fragmentNodes, limit, name, policy, none⟩
  have hrun : run ctx op.node 0 [] = _ := run_fits rfl hpure op 0 rfl
  have hfounded := isFounded_of_mem_faultsAt ctx op.node [] op.node .root_self 0
  refine ⟨_, _, hrun, ?_⟩
  rw [reports_start_record]
  refine ⟨fun r hr fragment operation hfault => ?_, fun r hr fragment hfault => ?_, ?_⟩
  · have hcyclic := hfounded r (List.mem_toArray.1 hr)
    rw [hfault] at hcyclic
    obtain ⟨hreached, hfound, hcycle⟩ := hcyclic
    have hdefined := mt Document.lookup_fragmentNodes_eq_none.2 hfound
    exact ⟨not_not.1 hdefined, hreached, hcycle⟩
  · have hmissing := hfounded r (List.mem_toArray.1 hr)
    rw [hfault] at hmissing
    exact ⟨hmissing.1, Document.lookup_fragmentNodes_eq_none.1 hmissing.2⟩
  · intro hnone fragment hreaches
    have hclean : (doc.expansion op).faultsAt ctx 0 = [] := by simpa using hnone
    obtain ⟨active, henters⟩ : ∃ active, EntersCleanly ctx active fragment :=
      entersCleanly_of_reaches hclean hreaches
    obtain ⟨node, level, hlookup, -⟩ := henters.clean
    exact ⟨Document.defines_of_lookup hlookup, henters.not_transGen_self⟩

theorem run_fragment_reports_spiral : Policy.empty.Pure ∧
    (Document.spiral.Defines "F" ∧
      TransGen (Links Document.spiral.fragmentNodes .empty) "F" "F") ∧
    ¬ Document.spiral.Defines "G" ∧
    ¬ TransGen (Links Document.ladder.fragmentNodes .empty) "F" "F" := by
  obtain ⟨_, s, hrun, hcyclic, hmissing, -⟩ :=
    run_fragment_reports .spiral .spiral "Q" 1 Policy.pure_empty
  have hreports : s.reports = #[⟨.cyclicFragment "F" "Q", some 0⟩, ⟨.tooDeep "Q" 1, some 0⟩,
      ⟨.missingFragment "G", some 0⟩] := (congrArg (fun result => result.2.reports) hrun).symm
  obtain ⟨hdefined, -, hcycle⟩ :=
    hcyclic ⟨.cyclicFragment "F" "Q", some 0⟩ (by simp [hreports]) "F" "Q" rfl
  obtain ⟨-, hundefined⟩ := hmissing ⟨.missingFragment "G", some 0⟩ (by simp [hreports]) "G" rfl
  obtain ⟨_, t, hclean, -, -, hnone⟩ :=
    run_fragment_reports .ladder .ladder "Q" 5 Policy.pure_empty
  have hreaches : Operation.ladder.node.Reaches Document.ladder.fragmentNodes .empty "F" :=
    ⟨"F", .group (.head _) (.field rfl (.head _) .spread), .refl⟩
  have hempty : t.reports = #[] := (congrArg (fun result => result.2.reports) hclean).symm
  exact ⟨Policy.pure_empty, ⟨hdefined, hcycle⟩, hundefined, (hnone hempty "F" hreaches).2⟩

end Walk

end QueryDepth
