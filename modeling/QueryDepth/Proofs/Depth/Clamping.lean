import QueryDepth.Proofs.Depth.Limit

/-!
# Depths under two limits

The depth under a limit is a function of the depth under any larger one: it is cut to what the limit
leaves below the node. This holds whatever the walks report, although they cut the tree at different
levels and fail at different nodes.

**Theorem (`run_clamp`).** Under the smaller of two limits a walk gives the smaller of the depth
under the larger one and the room below its node. And the depth of an operation is the smaller of
its true depth and the limit, as long as all that is reported is that the limit is exceeded.

The first half is `depthAt_clamp`. For the second half, a walk that reports nothing has seen every
path, so it finds all the nesting there is (`depthAt_eq_nesting`); and one that reports exceeds the
limit, where the depth is what the limit leaves.
-/

namespace QueryDepth

namespace Expansion

/-! ## Walks without reports -/

mutual

/-- A walk that reports nothing finds all nesting. -/
theorem depthAt_eq_nesting {ctx : WalkContext} : ∀ (e : Expansion) (level : Int),
    e.faultsAt ctx level = [] → e.depthAt ctx.limit ctx.policy level = e.nesting ctx.policy
  | e, level, hnone => by
    have hlevel := not_gt_of_faultsAt_eq_nil hnone
    match e with
    | .leaf pos name | .other pos name =>
      rw [depthAt, if_neg hlevel, nesting]
      rfl
    | .field pos name children =>
      rw [faultsAt_field _ _ _ hlevel] at hnone
      rw [depthAt, if_neg hlevel, nesting]
      by_cases hskip : ctx.policy.skips name = true
      · rw [if_pos hskip, if_pos hskip]
        rfl
      · rw [if_neg hskip] at hnone
        rw [if_neg hskip, if_neg hskip, depthAll_eq_nestingAll children (level + 1) hnone]
        omega
    | .group pos children =>
      rw [faultsAt_group _ _ hlevel] at hnone
      rw [depthAt, if_neg hlevel, nesting]
      exact depthAll_eq_nestingAll children level hnone
    | .followed pos name fragment =>
      rw [faultsAt_followed _ _ hlevel] at hnone
      rw [depthAt, if_neg hlevel, nesting]
      exact depthAt_eq_nesting fragment level hnone
    | .missing pos name =>
      rw [faultsAt_missing _ _ hlevel] at hnone
      exact absurd hnone (List.cons_ne_nil _ _)
    | .reentry pos name =>
      rw [faultsAt_reentry _ _ hlevel] at hnone
      exact absurd hnone (List.cons_ne_nil _ _)

theorem depthAll_eq_nestingAll {ctx : WalkContext} : ∀ (es : List Expansion) (level : Int),
    faultsAll ctx es level = [] →
      depthAll ctx.limit ctx.policy es level = nestingAll ctx.policy es
  | [], level, _ => rfl
  | [e], level, hnone => by
    rw [faultsAll_cons, faultsAll_nil, List.append_nil] at hnone
    rw [depthAll, depthAt_eq_nesting e level hnone, nestingAll, nestingAll, Nat.max_zero]
  | e :: e' :: more, level, hnone => by
    rw [faultsAll_cons] at hnone
    obtain ⟨hfirst, hrest⟩ := List.append_eq_nil_iff.1 hnone
    have hmax : nestingAll ctx.policy (e :: e' :: more) =
      max (e.nesting ctx.policy) (nestingAll ctx.policy (e' :: more)) := rfl
    rw [depthAll, depthAt_eq_nesting e level hfirst,
      depthAll_eq_nestingAll (e' :: more) level hrest, hmax]
    omega

end

/-- A walk that reports nothing but that the limit is exceeded finds the nesting, as far as the
limit allows. -/
theorem depthAt_eq_min_nesting {ctx : WalkContext} {e : Expansion} {level : Int}
    (hbranch : e.Every IsBranching) (hlevel : level ≤ ctx.limit)
    (hdeep : ∀ r ∈ e.faultsAt ctx level, r.fault = .tooDeep ctx.operation ctx.limit) :
    e.depthAt ctx.limit ctx.policy level =
      min (e.nesting ctx.policy : Int) (ctx.limit - level) := by
  have hiff := exceeds_iff e level hbranch hlevel
  cases hfaults : e.faultsAt ctx level with
  | nil =>
    rw [hfaults] at hiff
    have hshallow : ¬ ctx.limit - level < e.nesting ctx.policy :=
      fun h => exceeds_nil ctx (hiff.2 h)
    rw [depthAt_eq_nesting e level hfaults]
    exact (Int.min_eq_left (by omega)).symm
  | cons r rest =>
    have hr : r ∈ e.faultsAt ctx level := hfaults ▸ List.mem_cons_self
    have hexceeds : ctx.limit - level < e.nesting ctx.policy := hiff.1 ⟨r, hr, hdeep r hr⟩
    rw [depthAt_eq_of_lt_nesting hbranch hlevel hexceeds]
    exact (Int.min_eq_right (by omega)).symm

end Expansion

namespace Walk

/-! ## Walks under two limits -/

/-- **A smaller limit clamps the depth.** From any node at a level, inside any fragments, the depth
under a limit is the smaller of the depth under a larger limit and the room that is left. The depth
of an operation is the smaller of its true depth and the limit, unless a missing or a cyclic spread
is reported. -/
theorem run_clamp {fragments : List (String × Node)} {node : Node} {policy : Policy}
    (hfragments : ∀ f ∈ fragments, f.2.Every fun node => node.IsWalkable ∧ node.IsBranching)
    (hnode : node.Every fun node => node.IsWalkable ∧ node.IsBranching) (hpure : policy.Pure)
    (operation : String) (active : List String) {level limit large : Int} (hlevel : level ≤ limit)
    (hlimit : limit ≤ large) :
    (∃ depth s s', run ⟨fragments, large, operation, policy, none⟩ node level active =
        (.ok depth, s) ∧
      run ⟨fragments, limit, operation, policy, none⟩ node level active =
        (.ok (min depth (limit - level)), s')) ∧
    ∀ (doc : Document) (op : Operation) (name : String) (bound : Int), 0 ≤ bound →
      IsGreatest {n | op.node.Path doc.fragmentNodes policy [] n} (doc.trueDepth policy op) ∧
      ∃ depth s, run ⟨doc.fragmentNodes, bound, name, policy, none⟩ op.node 0 [] = (.ok depth, s) ∧
        ((∀ r ∈ s.reports, r.fault = .tooDeep name bound) →
          depth = min (doc.trueDepth policy op : Int) bound) := by
  constructor
  · have hwalk := every_isWalkable_expand hfragments hnode active
    have hbranch := every_isBranching_expand hfragments hnode active
    have hlarge : run ⟨fragments, large, operation, policy, none⟩ node level active = _ :=
      run_unbounded rfl hpure hwalk level
    have hsmall : run ⟨fragments, limit, operation, policy, none⟩ node level active = _ :=
      run_unbounded rfl hpure hwalk level
    rw [Expansion.depthAt_clamp hlimit policy _ level hbranch hlevel] at hsmall
    exact ⟨_, _, _, hlarge, hsmall⟩
  · intro doc op name bound hbound
    let ctx : WalkContext := ⟨doc.fragmentNodes, bound, name, policy, none⟩
    have hrun : run ctx op.node 0 [] = _ := run_fits rfl hpure op 0 rfl
    refine ⟨doc.isGreatest_trueDepth policy op, _, _, hrun, fun hdeep => ?_⟩
    rw [reports_start_record] at hdeep
    have hfaults : ∀ r ∈ (doc.expansion op).faultsAt ctx 0, r.fault = .tooDeep name bound :=
      fun r hr => hdeep r (List.mem_toArray.2 hr)
    have hdepth := Expansion.depthAt_eq_min_nesting (doc.branching_expansion op) hbound hfaults
    rw [Int.sub_zero] at hdepth
    exact hdepth

end Walk

/-- A query that is deep only through a fragment. -/
def Operation.ladder : Operation := .bare "Q" [.bareField "a" [.bareSpread "F"]]

def Document.ladder : Document :=
  ⟨[.operation .ladder,
    .fragment (.bare "F" "T" [.bareField "b" [.bareField "c" []], .bareField "d" []])]⟩

theorem Document.fragmentNodes_ladder : ladder.fragmentNodes =
    [("F", .group (some 0)
      [.field (some 0) "b" (some [.field (some 0) "c" none]), .field (some 0) "d" none])] := rfl

theorem Document.trueDepth_ladder : ladder.trueDepth .empty .ladder = 2 := by
  simp [trueDepth, expansion, fragmentNodes_ladder, Operation.ladder, Operation.bare,
    Operation.node, Selection.bareField, Selection.bareSpread, Selection.node, Selection.nodes,
    Node.expand_spread, Expansion.nesting, Expansion.nestingAll, Policy.skips, Policy.empty,
    isIntrospectionName]

theorem Walk.run_clamp_ladder :
    (∀ f ∈ Document.ladder.fragmentNodes, f.2.Every fun node =>
      node.IsWalkable ∧ node.IsBranching) ∧
    (Operation.ladder.node.Every fun node => node.IsWalkable ∧ node.IsBranching) ∧
    Policy.empty.Pure ∧ (0 : Int) ≤ 1 ∧ (1 : Int) ≤ 5 ∧
    Document.ladder.trueDepth .empty .ladder = 2 ∧
    ∃ s s', run ⟨Document.ladder.fragmentNodes, 5, "Q", .empty, none⟩ Operation.ladder.node 0 [] =
        (.ok 2, s) ∧
      run ⟨Document.ladder.fragmentNodes, 1, "Q", .empty, none⟩ Operation.ladder.node 0 [] =
        (.ok 1, s') ∧
      (∀ r ∈ s'.reports, r.fault = .tooDeep "Q" 1) ∧ (1 : Int) = min (2 : Nat) 1 := by
  have hfragments := Document.ladder.every_fragmentNodes
  have hnode := Document.every_node .ladder
  obtain ⟨⟨depth, s, s', hlarge, hsmall⟩, hoperation⟩ := run_clamp hfragments hnode
    Policy.pure_empty "Q" [] (show (0 : Int) ≤ 1 by decide) (show (1 : Int) ≤ 5 by decide)
  obtain rfl : depth = 2 := Except.ok.inj (congrArg Prod.fst hlarge.symm)
  obtain ⟨-, depth, t, hrun, hdepth⟩ := hoperation .ladder .ladder "Q" 1 (by decide)
  rw [hsmall] at hrun
  obtain ⟨hsame, rfl⟩ := Prod.mk.inj hrun
  have hreports : ∀ r ∈ s'.reports, r.fault = .tooDeep "Q" 1 := by
    have hs' : s'.reports = #[⟨.tooDeep "Q" 1, some 0⟩] :=
      (congrArg (fun result => result.2.reports) hsmall).symm
    simp [hs']
  have hmin := hdepth hreports
  rw [Document.trueDepth_ladder, ← Except.ok.inj hsame] at hmin
  exact ⟨hfragments, hnode, Policy.pure_empty, by decide, by decide, Document.trueDepth_ladder, s,
    s', hlarge, hsmall, hreports, hmin⟩

end QueryDepth
