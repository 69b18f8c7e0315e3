import QueryDepth.Proofs.Depth.Siblings
import QueryDepth.Proofs.Depth.Inlining

/-!
# Runs of selections in inline fragments

An inline fragment holds selections without being a level of its own. So a run of consecutive
selections may be put into one, in any selection set of an operation or of a fragment, and nothing
changes but where the limit is exceeded: there the inline fragment is reported, once, and not the
selections in it.

**Theorem (`run_wrapped`).** If a run of selections of a document is put into an inline fragment,
every operation has the same depth, the same calls of predicates and the same reports about
fragments as before, and it exceeds the limit if it did before.

The place may be reached many times, at different levels, through spreads of the fragment that it is
in. So the proof follows the walk with any number of runs in groups (`Grouped`), in the node and in
all fragments. Walks over siblings are *alike* if they agree in what is to be kept. This is closed
under putting siblings side by side (`Alike.append`), under what may stand above them, and under
putting them into a group. Beyond the limit any siblings are alike, if there are some on both sides.
-/

namespace QueryDepth

/-! ## Putting selections into inline fragments -/

/-- A run of consecutive selections is put into an inline fragment, in this selection set or in one
further down. -/
inductive Selection.Wrapped : List Selection → List Selection → Prop
  | run {before run after : List Selection} (head : InlineHead) : run ≠ [] →
      Wrapped (before ++ run ++ after) (before ++ .inlineFragment head run :: after)
  | field {before after inner inner' : List Selection} {head : FieldHead} : Wrapped inner inner' →
      Wrapped (before ++ .field head inner :: after) (before ++ .field head inner' :: after)
  | inlineFragment {before after inner inner' : List Selection} {head : InlineHead} :
      Wrapped inner inner' →
      Wrapped (before ++ .inlineFragment head inner :: after)
        (before ++ .inlineFragment head inner' :: after)

/-- A run of selections is put into an inline fragment in one of the definitions. -/
inductive Document.Wrapped : Document → Document → Prop
  | operation {before after : List Definition} {op : Operation} {selections : List Selection} :
      Selection.Wrapped op.selections selections →
      Wrapped ⟨before ++ .operation op :: after⟩
        ⟨before ++ .operation { op with selections } :: after⟩
  | fragment {before after : List Definition} {f : Fragment} {selections : List Selection} :
      Selection.Wrapped f.selections selections →
      Wrapped ⟨before ++ .fragment f :: after⟩ ⟨before ++ .fragment { f with selections } :: after⟩

/-- Some runs of the one list of nodes are put into groups, at any places and any number of them. -/
inductive Node.Grouped : List Node → List Node → Prop
  | nil : Grouped [] []
  | leaf {pos : Option Nat} {name : String} {rest rest' : List Node} : Grouped rest rest' →
      Grouped (.field pos name none :: rest) (.field pos name none :: rest')
  | field {pos : Option Nat} {name : String} {children children' rest rest' : List Node} :
      Grouped children children' → Grouped rest rest' →
      Grouped (.field pos name (some children) :: rest) (.field pos name (some children') :: rest')
  | spread {pos : Option Nat} {name : String} {rest rest' : List Node} : Grouped rest rest' →
      Grouped (.spread pos name :: rest) (.spread pos name :: rest')
  | group {pos : Option Nat} {children children' rest rest' : List Node} :
      Grouped children children' → Grouped rest rest' →
      Grouped (.group pos children :: rest) (.group pos children' :: rest')
  | other {pos : Option Nat} {kind : String} {rest rest' : List Node} : Grouped rest rest' →
      Grouped (.other pos kind :: rest) (.other pos kind :: rest')
  | run {pos : Option Nat} {run run' rest rest' : List Node} : run ≠ [] →
      Grouped run run' → Grouped rest rest' → Grouped (run ++ rest) (.group pos run' :: rest')

/-- The fragments have the same names, in order, and in each some runs are put into groups. -/
def FragmentsGrouped : List (String × Node) → List (String × Node) → Prop :=
  List.Forall₂ (Index.SameKey fun f f' => Node.Grouped [f] [f'])

namespace Node.Grouped

theorem append {nodes nodes' more more' : List Node} (h : Grouped nodes nodes')
    (hmore : Grouped more more') : Grouped (nodes ++ more) (nodes' ++ more') := by
  induction h with
  | nil => exact hmore
  | leaf _ ih => exact .leaf ih
  | field hchildren _ _ ih => exact .field hchildren ih
  | spread _ ih => exact .spread ih
  | group hchildren _ _ ih => exact .group hchildren ih
  | other _ ih => exact .other ih
  | run hne hrun _ _ ih =>
    rw [List.append_assoc]
    exact .run hne hrun ih

mutual

theorem refl_single : ∀ node : Node, Grouped [node] [node]
  | .field _ _ none => .leaf .nil
  | .field _ _ (some children) => .field (refl children) .nil
  | .spread _ _ => .spread .nil
  | .group _ children => .group (refl children) .nil
  | .other _ _ => .other .nil

theorem refl : ∀ nodes : List Node, Grouped nodes nodes
  | [] => .nil
  | node :: nodes => (refl_single node).append (refl nodes)

end

end Node.Grouped

namespace Selection

theorem nodes_append (ss ss' : List Selection) : nodes (ss ++ ss') = nodes ss ++ nodes ss' := by
  simp [nodes_eq_map]

theorem Wrapped.ne_nil {ss ss' : List Selection} (h : Wrapped ss ss') : ss ≠ [] ∧ ss' ≠ [] := by
  cases h with
  | run head hne => simp [hne]
  | field | inlineFragment => simp

/-- Among nodes, a run in an inline fragment is a run in a group. -/
theorem Wrapped.grouped {ss ss' : List Selection} (h : Wrapped ss ss') :
    Node.Grouped (nodes ss) (nodes ss') := by
  induction h with
  | @run before run after head hne =>
    have hrun : nodes run ≠ [] := by simpa [nodes_eq_map] using hne
    rw [List.append_assoc, nodes_append, nodes_append, nodes_append]
    exact (Node.Grouped.refl _).append (.run hrun (.refl _) (.refl _))
  | @field before after inner inner' head hinner ih =>
    obtain ⟨hne, hne'⟩ := hinner.ne_nil
    rw [nodes_append, nodes_append, nodes, nodes, node_field head hne, node_field head hne']
    exact (Node.Grouped.refl _).append (.field ih (.refl _))
  | @inlineFragment before after inner inner' head _ ih =>
    rw [nodes_append, nodes_append, nodes, nodes, node, node]
    exact (Node.Grouped.refl _).append (.group ih (.refl _))

end Selection

namespace Document.Wrapped

variable {doc doc' : Document}

/-- The operations stand in their places, with runs in groups. -/
theorem operations (h : doc.Wrapped doc') :
    List.Forall₂ (fun op op' : Operation => Node.Grouped [op.node] [op'.node])
      doc.operations doc'.operations := by
  have hsame (ops : List Operation) :
      List.Forall₂ (fun op op' : Operation => Node.Grouped [op.node] [op'.node]) ops ops :=
    List.forall₂_same.2 fun op _ => .refl_single op.node
  cases h with
  | @operation before after op selections h =>
    simp only [Document.operations, List.filterMap_append, List.filterMap_cons,
      Definition.operation?]
    exact List.rel_append (hsame _) (.cons (.group h.grouped .nil) (hsame _))
  | fragment h =>
    simp only [Document.operations, List.filterMap_append, List.filterMap_cons,
      Definition.operation?]
    exact hsame _

/-- Every operation has one in its place, with runs in groups. -/
theorem exists_operation (h : doc.Wrapped doc') {i : Nat} {op : Operation}
    (hop : doc.operations[i]? = some op) :
    ∃ op', doc'.operations[i]? = some op' ∧ Node.Grouped [op.node] [op'.node] := by
  have hoperations := h.operations
  obtain ⟨hi, rfl⟩ := List.getElem?_eq_some_iff.1 hop
  have hi' : i < doc'.operations.length := hoperations.length_eq ▸ hi
  exact ⟨_, List.getElem?_eq_getElem hi', hoperations.get hi hi'⟩

/-- The fragments have their names, with runs in groups. -/
theorem fragmentNodes (h : doc.Wrapped doc') :
    FragmentsGrouped doc.fragmentNodes doc'.fragmentNodes := by
  have hsame (fs : List Fragment) : List.Forall₂ (Index.SameKey fun f f' => Node.Grouped [f] [f'])
      (fs.map fun f => (f.name.value, f.node)) (fs.map fun f => (f.name.value, f.node)) :=
    List.forall₂_same.2 fun e _ => ⟨rfl, .refl_single e.2⟩
  rw [Document.fragmentNodes_eq, Document.fragmentNodes_eq]
  refine Index.forall₂_ofEntries ?_
  cases h with
  | operation h =>
    simp only [Document.fragments, List.filterMap_append, List.filterMap_cons,
      Definition.fragment?]
    exact hsame _
  | @fragment before after f selections h =>
    simp only [Document.fragments, List.filterMap_append, List.filterMap_cons,
      Definition.fragment?, List.map_append, List.map_cons]
    exact List.rel_append (hsame _) (.cons ⟨rfl, .group h.grouped .nil⟩ (hsame _))

end Document.Wrapped

/-! ## Siblings that are walked alike -/

/-- The report is about a fragment that is missing or cyclic. -/
def DepthFault.isAboutFragment : DepthFault → Bool
  | .tooDeep _ _ => false
  | .missingFragment _ | .cyclicFragment _ _ => true

namespace Expansion

/-- Of these siblings a walk finds the same depth as of those, it makes the same calls of predicates
and the same reports about fragments, and it reports that the limit is exceeded if it does there. -/
structure Alike (ctx : WalkContext) (es es' : List Expansion) (level : Int) : Prop where
  empty : es = [] ↔ es' = []
  depth : depthAll ctx.limit ctx.policy es level = depthAll ctx.limit ctx.policy es' level
  calls : callsAll ctx es level = callsAll ctx es' level
  fragments : (faultsAll ctx es level).filter (·.fault.isAboutFragment) =
    (faultsAll ctx es' level).filter (·.fault.isAboutFragment)
  exceeds : Exceeds ctx (faultsAll ctx es level) ↔ Exceeds ctx (faultsAll ctx es' level)

theorem depthAll_append {limit level : Int} {policy : Policy} {es more : List Expansion}
    (hes : es ≠ []) (hmore : more ≠ []) : depthAll limit policy (es ++ more) level =
      max (depthAll limit policy es level) (depthAll limit policy more level) := by
  induction es with
  | nil => exact absurd rfl hes
  | cons e es ih =>
    cases es with
    | nil =>
      obtain ⟨e', rest, rfl⟩ := List.exists_cons_of_ne_nil hmore
      rfl
    | cons e' es =>
      have hrest := ih (List.cons_ne_nil e' es)
      simp only [List.cons_append, depthAll] at hrest ⊢
      rw [hrest, Int.max_assoc]

theorem callsAll_append (ctx : WalkContext) (es more : List Expansion) (level : Int) :
    callsAll ctx (es ++ more) level = callsAll ctx es level ++ callsAll ctx more level := by
  induction es with
  | nil => rfl
  | cons e es ih => rw [List.cons_append, callsAll_cons, callsAll_cons, ih, List.append_assoc]

theorem faultsAll_append (ctx : WalkContext) (es more : List Expansion) (level : Int) :
    faultsAll ctx (es ++ more) level = faultsAll ctx es level ++ faultsAll ctx more level := by
  simp [faultsAll_eq_flatMap]

namespace Alike

variable {ctx : WalkContext} {es es' es'' more more' : List Expansion} {level : Int}

theorem refl (ctx : WalkContext) (es : List Expansion) (level : Int) : Alike ctx es es level :=
  ⟨Iff.rfl, rfl, rfl, rfl, Iff.rfl⟩

theorem trans (h : Alike ctx es es' level) (h' : Alike ctx es' es'' level) :
    Alike ctx es es'' level where
  empty := h.empty.trans h'.empty
  depth := h.depth.trans h'.depth
  calls := h.calls.trans h'.calls
  fragments := h.fragments.trans h'.fragments
  exceeds := h.exceeds.trans h'.exceeds

/-- Siblings may be put side by side. -/
theorem append (h : Alike ctx es es' level) (hmore : Alike ctx more more' level) :
    Alike ctx (es ++ more) (es' ++ more') level where
  empty := by rw [List.append_eq_nil_iff, List.append_eq_nil_iff, h.empty, hmore.empty]
  depth := by
    by_cases hes : es = []
    · rw [hes, h.empty.1 hes]
      exact hmore.depth
    · by_cases hnone : more = []
      · rw [hnone, hmore.empty.1 hnone, List.append_nil, List.append_nil]
        exact h.depth
      · rw [depthAll_append hes hnone, depthAll_append (mt h.empty.2 hes) (mt hmore.empty.2 hnone),
          h.depth, hmore.depth]
  calls := by rw [callsAll_append, callsAll_append, h.calls, hmore.calls]
  fragments := by
    rw [faultsAll_append, faultsAll_append, List.filter_append, List.filter_append, h.fragments,
      hmore.fragments]
  exceeds := by
    rw [faultsAll_append, faultsAll_append, exceeds_append, exceeds_append, h.exceeds,
      hmore.exceeds]

theorem cons {e e' : Expansion} (h : Alike ctx [e] [e'] level)
    (hmore : Alike ctx more more' level) : Alike ctx (e :: more) (e' :: more') level :=
  h.append hmore

/-- Beyond the limit siblings are alike if there are some on both sides. -/
theorem of_gt (hlevel : level > ctx.limit) (hempty : es = [] ↔ es' = []) :
    Alike ctx es es' level := by
  have hcalls (es : List Expansion) : callsAll ctx es level = [] := by
    induction es with
    | nil => rfl
    | cons e es ih => rw [callsAll_cons, callsAt_of_gt hlevel, ih, List.append_nil]
  have hfragments (es : List Expansion) :
      (faultsAll ctx es level).filter (·.fault.isAboutFragment) = [] := by
    induction es with
    | nil => rfl
    | cons e es ih =>
      rw [faultsAll_cons, faultsAt_of_gt hlevel, List.filter_append, ih]
      rfl
  by_cases hes : es = []
  · rw [hes, hempty.1 hes]
    exact refl ctx [] level
  · have hes' : es' ≠ [] := mt hempty.2 hes
    exact {
      empty := hempty
      depth := by rw [depthAll_of_gt hlevel ctx.policy hes, depthAll_of_gt hlevel ctx.policy hes']
      calls := by rw [hcalls, hcalls]
      fragments := by rw [hfragments, hfragments]
      exceeds := iff_of_true (exceeds_faultsAll_of_gt hlevel hes)
        (exceeds_faultsAll_of_gt hlevel hes') }

/-- Only down to the limit there is something to show. -/
theorem of_within (hempty : es = [] ↔ es' = [])
    (h : ¬ level > ctx.limit → Alike ctx es es' level) : Alike ctx es es' level := by
  by_cases hlevel : level > ctx.limit
  · exact of_gt hlevel hempty
  · exact h hlevel

theorem group {pos : Option Nat} (h : Alike ctx es es' level) :
    Alike ctx [.group pos es] [.group pos es'] level := by
  refine of_within (by simp) fun hlevel => ⟨by simp, ?_, ?_, ?_, ?_⟩
  · simpa [depthAll, depthAt, hlevel] using h.depth
  · simpa [callsAt_group _ _ hlevel] using h.calls
  · simpa [faultsAt_group _ _ hlevel] using h.fragments
  · simpa [faultsAt_group _ _ hlevel] using h.exceeds

/-- A group of its own around some siblings does not matter. -/
theorem regroup {pos : Option Nat} (hne : es ≠ []) : Alike ctx es [.group pos es] level := by
  refine of_within (by simp [hne]) fun hlevel => ⟨by simp [hne], ?_, ?_, ?_, ?_⟩
  · simp [depthAll, depthAt, hlevel]
  · simp [callsAt_group _ _ hlevel]
  · simp [faultsAt_group _ _ hlevel]
  · simp [faultsAt_group _ _ hlevel]

theorem field {pos : Option Nat} {name : String} (h : Alike ctx es es' (level + 1)) :
    Alike ctx [.field pos name es] [.field pos name es'] level := by
  refine of_within (by simp) fun hlevel => ?_
  by_cases hskip : ctx.policy.skips name = true
  · -- nothing below the field is looked at
    refine ⟨by simp, ?_, ?_, ?_, ?_⟩
    · simp [depthAll, depthAt, hlevel, hskip]
    · simp [callsAt_field _ _ _ hlevel, hskip]
    · simp [faultsAt_field _ _ _ hlevel, hskip]
    · simp [faultsAt_field _ _ _ hlevel, hskip]
  · refine ⟨by simp, ?_, ?_, ?_, ?_⟩
    · simp [depthAll, depthAt, hlevel, hskip, h.depth]
    · simp [callsAt_field _ _ _ hlevel, hskip, h.calls]
    · simpa [faultsAt_field _ _ _ hlevel, hskip] using h.fragments
    · simpa [faultsAt_field _ _ _ hlevel, hskip] using h.exceeds

theorem followed {pos : Option Nat} {name : String} {e e' : Expansion}
    (h : Alike ctx [e] [e'] level) :
    Alike ctx [.followed pos name e] [.followed pos name e'] level := by
  refine of_within (by simp) fun hlevel => ⟨by simp, ?_, ?_, ?_, ?_⟩
  · simpa [depthAll, depthAt, hlevel] using h.depth
  · simpa [callsAt_followed _ _ hlevel] using h.calls
  · simpa [faultsAt_followed _ _ hlevel] using h.fragments
  · simpa [faultsAt_followed _ _ hlevel] using h.exceeds

/-- What single nodes that are alike agree in. -/
theorem single {e e' : Expansion} (h : Alike ctx [e] [e'] level) :
    e.depthAt ctx.limit ctx.policy level = e'.depthAt ctx.limit ctx.policy level ∧
      e.callsAt ctx level = e'.callsAt ctx level ∧
      (e.faultsAt ctx level).filter (·.fault.isAboutFragment) =
        (e'.faultsAt ctx level).filter (·.fault.isAboutFragment) ∧
      (Exceeds ctx (e.faultsAt ctx level) ↔ Exceeds ctx (e'.faultsAt ctx level)) :=
  ⟨h.depth, by simpa using h.calls, by simpa using h.fragments, by simpa using h.exceeds⟩

end Alike

end Expansion

namespace Node

variable {fragments fragments' : List (String × Node)}

theorem expandAll_append (fragments : List (String × Node)) (active : List String)
    (nodes more : List Node) : expandAll fragments active (nodes ++ more) =
      expandAll fragments active nodes ++ expandAll fragments active more := by
  simp [expandAll_eq_map]

/-- **With runs in groups, siblings are walked alike.** -/
theorem alike_grouped (hfragments : FragmentsGrouped fragments fragments') (ctx : WalkContext)
    (active : List String) {nodes nodes' : List Node} (h : Grouped nodes nodes') (level : Int) :
    Expansion.Alike ctx (expandAll fragments active nodes) (expandAll fragments' active nodes')
      level := by
  -- over the fragments that are left to enter, and inside that over the runs that are grouped
  induction hcount : unentered fragments active using Nat.strongRecOn
    generalizing active nodes nodes' level with
  | _ count ihEnter =>
    subst hcount
    induction h generalizing level with
    | nil =>
      rw [expandAll, expandAll]
      exact .refl ctx [] level
    | leaf _ ih =>
      rw [expandAll, expandAll, expand_leaf, expand_leaf]
      exact .cons (.refl ctx [_] level) (ih level)
    | field _ _ ihChildren ih =>
      rw [expandAll, expandAll, expand_field, expand_field]
      exact .cons (.field (ihChildren (level + 1))) (ih level)
    | group _ _ ihChildren ih =>
      rw [expandAll, expandAll, expand_group, expand_group]
      exact .cons (.group (ihChildren level)) (ih level)
    | other _ ih =>
      rw [expandAll, expandAll, expand_other, expand_other]
      exact .cons (.refl ctx [_] level) (ih level)
    | @run pos run run' rest rest' hne _ _ ihRun ih =>
      rw [expandAll_append, expandAll, expand_group]
      have hrun' : expandAll fragments' active run' ≠ [] :=
        mt (ihRun level).empty.2 (expandAll_ne_nil hne)
      exact .append ((ihRun level).trans (.regroup hrun')) (ih level)
    | @spread pos name rest rest' _ ih =>
      rw [expandAll, expandAll]
      refine .cons ?_ (ih level)
      cases hlookup : fragments.lookup name with
      | none =>
        have hlookup' := Index.lookup_eq_none hfragments hlookup
        rw [expand_missing pos hlookup, expand_missing pos hlookup']
        exact .refl ctx [_] level
      | some fragment =>
        obtain ⟨fragment', hlookup', hfragment⟩ := Index.exists_lookup hfragments hlookup
        by_cases hname : name ∈ active
        · rw [expand_reentry pos hlookup hname, expand_reentry pos hlookup' hname]
          exact .refl ctx [_] level
        · have hfewer := unentered_cons_lt hlookup hname
          have hinside := ihEnter _ hfewer (name :: active) hfragment level rfl
          rw [expand_followed pos hlookup hname, expand_followed pos hlookup' hname]
          simp only [expandAll] at hinside
          exact .followed hinside

end Node

/-! ## Walking an operation -/

namespace Walk

/-- **Inline fragments are transparent.** A run of selections of a document is put into an inline
fragment. Then a walk of the operation that stands in the place of another returns the same depth
with the same calls of predicates and the same reports about fragments, and it reports that the
limit is exceeded if and only if the other does. -/
theorem run_wrapped {doc doc' : Document} (hwrapped : doc.Wrapped doc') {i : Nat} {op : Operation}
    (hop : doc.operations[i]? = some op) (name : String) (limit : Int) {policy : Policy}
    (hpure : policy.Pure) : ∃ op' depth s s', doc'.operations[i]? = some op' ∧
      run ⟨doc.fragmentNodes, limit, name, policy, none⟩ op.node 0 [] = (.ok depth, s) ∧
      run ⟨doc'.fragmentNodes, limit, name, policy, none⟩ op'.node 0 [] = (.ok depth, s') ∧
      s'.calls = s.calls ∧
      s'.reports.toList.filter (·.fault.isAboutFragment) =
        s.reports.toList.filter (·.fault.isAboutFragment) ∧
      ((∃ r ∈ s'.reports, r.fault = .tooDeep name limit) ↔
        ∃ r ∈ s.reports, r.fault = .tooDeep name limit) := by
  let ctx : WalkContext := ⟨doc.fragmentNodes, limit, name, policy, none⟩
  let ctx' : WalkContext := ⟨doc'.fragmentNodes, limit, name, policy, none⟩
  obtain ⟨op', hop', hgrouped⟩ := hwrapped.exists_operation hop
  have hrun : run ctx op.node 0 [] = _ := run_fits rfl hpure op 0 rfl
  have hrun' : run ctx' op'.node 0 [] = _ := run_fits rfl hpure op' 0 rfl
  have halike := Node.alike_grouped hwrapped.fragmentNodes ctx [] hgrouped 0
  simp only [Node.expandAll] at halike
  obtain ⟨hdepth, hcalls, hfragments, hexceeds⟩ := halike.single
  have hsame : (doc'.expansion op').depthAt limit policy 0 =
      (doc.expansion op).depthAt limit policy 0 := hdepth.symm
  refine ⟨op', _, _, _, hop', hrun, hrun'.trans (by rw [← hsame]), ?_, ?_, ?_⟩
  · rw [calls_start_record, calls_start_record]
    exact congrArg List.toArray hcalls.symm
  · rw [reports_start_record, reports_start_record]
    exact hfragments.symm
  · rw [reports_start_record, reports_start_record]
    simp only [List.mem_toArray]
    exact hexceeds.symm

end Walk

/-- `Document.spiral` with two fields beyond the limit instead of one. -/
def Document.loose : Document :=
  ⟨[.operation .spiral, .fragment (.bare "F" "T"
    [.bareSpread "F", .bareField "b" [.bareField "c" [], .bareField "d" []]])]⟩

/-- `Document.loose` with these two fields in an inline fragment. -/
def Document.bundled : Document :=
  ⟨[.operation .spiral, .fragment (.bare "F" "T"
    [.bareSpread "F", .bareField "b" [.inlineFragment ⟨0, some ⟨0, "T"⟩, [], 0⟩
      [.bareField "c" [], .bareField "d" []]]])]⟩

/-- Beyond the limit the two fields are reported, or the inline fragment instead of them. -/
theorem Walk.run_wrapped_loose : Document.loose.Wrapped .bundled ∧
    Document.loose.operations[0]? = some .spiral ∧ Policy.empty.Pure ∧
    ∃ s s',
      run ⟨Document.loose.fragmentNodes, 1, "Q", .empty, none⟩ Operation.spiral.node 0 [] =
        (.ok 1, s) ∧
      run ⟨Document.bundled.fragmentNodes, 1, "Q", .empty, none⟩ Operation.spiral.node 0 [] =
        (.ok 1, s') ∧
      s.reports.toList = [⟨.cyclicFragment "F" "Q", some 0⟩, ⟨.tooDeep "Q" 1, some 0⟩,
        ⟨.tooDeep "Q" 1, some 0⟩, ⟨.missingFragment "G", some 0⟩] ∧
      s'.reports.toList.filter (·.fault.isAboutFragment) =
        [⟨.cyclicFragment "F" "Q", some 0⟩, ⟨.missingFragment "G", some 0⟩] ∧
      ∃ r ∈ s'.reports, r.fault = .tooDeep "Q" 1 := by
  have hwrapped : Document.loose.Wrapped .bundled := by
    refine @Document.Wrapped.fragment [.operation .spiral] []
      (.bare "F" "T" [.bareSpread "F", .bareField "b" [.bareField "c" [], .bareField "d" []]])
      [.bareSpread "F", .bareField "b" [.inlineFragment ⟨0, some ⟨0, "T"⟩, [], 0⟩
        [.bareField "c" [], .bareField "d" []]]] ?_
    refine @Selection.Wrapped.field [.bareSpread "F"] [] _ _ _ ?_
    exact @Selection.Wrapped.run [] [.bareField "c" [], .bareField "d" []] [] _
      (List.cons_ne_nil _ _)
  have hop : Document.loose.operations[0]? = some .spiral := rfl
  obtain ⟨op', depth, s, s', hop', hrun, hrun', -, hfragments, hexceeds⟩ :=
    run_wrapped hwrapped hop "Q" 1 Policy.pure_empty
  obtain rfl : op' = .spiral := Option.some.inj hop'.symm
  obtain rfl : depth = 1 := Except.ok.inj (congrArg Prod.fst hrun.symm)
  have hs : s.reports.toList = [⟨.cyclicFragment "F" "Q", some 0⟩, ⟨.tooDeep "Q" 1, some 0⟩,
      ⟨.tooDeep "Q" 1, some 0⟩, ⟨.missingFragment "G", some 0⟩] :=
    congrArg (·.2.reports.toList) hrun.symm
  refine ⟨hwrapped, hop, Policy.pure_empty, s, s', hrun, hrun', hs, ?_, ?_⟩
  · rw [hfragments, hs]
    rfl
  · refine hexceeds.2 ⟨⟨.tooDeep "Q" 1, some 0⟩, ?_, rfl⟩
    rw [← Array.mem_toList_iff, hs]
    simp

end QueryDepth
