import Mathlib.Data.List.Basic
import QueryDepth.Proofs.Depth.Limit

/-!
# Walks under two policies

A policy that skips more turns more fields into leaves. That takes subtrees away with everything
that is reported in them, and what is left stays in order.

**Theorem (`depthAt_widen`, `faultsAt_widen`).** If every name that one policy skips is skipped by
another, the depth under the other is at most as great, and its reports are among those under the
one, in the same order.

The one place where the walks part is a field that only the wider policy skips. It counts zero
there, and at least zero under the other policy: one more than what is below it, which may have
failed but counts `failedDepth` then.
-/

namespace QueryDepth.Expansion

variable {policy wider : Policy}

mutual

/-- **Skipping more never makes deeper.** -/
theorem depthAt_widen (hskips : ∀ name, policy.skips name = true → wider.skips name = true)
    (limit : Int) : ∀ (e : Expansion) (level : Int),
    e.depthAt limit wider level ≤ e.depthAt limit policy level
  | e, level => by
    by_cases hlevel : level > limit
    · exact Int.le_of_eq ((depthAt_of_gt hlevel wider e).trans (depthAt_of_gt hlevel policy e).symm)
    match e with
    | .leaf pos name | .missing pos name | .reentry pos name | .other pos name =>
      exact Int.le_refl _
    | .field pos name children =>
      rw [depthAt, depthAt, if_neg hlevel, if_neg hlevel]
      have hfailed := failedDepth_le_depthAll limit policy children (level + 1)
      unfold failedDepth at hfailed
      cases hpolicy : policy.skips name with
      | true => simp [hskips name hpolicy]
      | false =>
        have hchildren := depthAll_widen hskips limit children (level + 1)
        rw [if_neg Bool.false_ne_true]
        split <;> omega
    | .group pos children =>
      rw [depthAt, depthAt, if_neg hlevel, if_neg hlevel]
      exact depthAll_widen hskips limit children level
    | .followed pos name fragment =>
      rw [depthAt, depthAt, if_neg hlevel, if_neg hlevel]
      exact depthAt_widen hskips limit fragment level

theorem depthAll_widen (hskips : ∀ name, policy.skips name = true → wider.skips name = true)
    (limit : Int) : ∀ (es : List Expansion) (level : Int),
    depthAll limit wider es level ≤ depthAll limit policy es level
  | [], level => Int.le_refl _
  | [e], level => depthAt_widen hskips limit e level
  | e :: e' :: more, level => by
    have hfirst := depthAt_widen hskips limit e level
    have hrest := depthAll_widen hskips limit (e' :: more) level
    rw [depthAll, depthAll]
    omega

end

mutual

/-- **Skipping more only takes reports away.** -/
theorem faultsAt_widen (hskips : ∀ name, policy.skips name = true → wider.skips name = true)
    (fragments : List (String × Node)) (limit : Int)
    (operation : String) (room : Option Nat) : ∀ (e : Expansion) (level : Int),
      (e.faultsAt ⟨fragments, limit, operation, wider, room⟩ level).Sublist
        (e.faultsAt ⟨fragments, limit, operation, policy, room⟩ level)
  | e, level => by
    by_cases hlevel : level > limit
    · rw [faultsAt_of_gt hlevel, faultsAt_of_gt hlevel]
    match e with
    | .leaf pos name | .missing pos name | .reentry pos name | .other pos name =>
      exact List.Sublist.refl _
    | .field pos name children =>
      rw [faultsAt_field _ _ _ hlevel, faultsAt_field _ _ _ hlevel]
      cases hpolicy : policy.skips name with
      | true =>
        rw [if_pos (hskips name hpolicy)]
        exact List.nil_sublist _
      | false =>
        have hchildren := faultsAll_widen hskips fragments limit operation room children (level + 1)
        rw [if_neg Bool.false_ne_true]
        split
        · exact List.nil_sublist _
        · exact hchildren
    | .group pos children =>
      rw [faultsAt_group _ _ hlevel, faultsAt_group _ _ hlevel]
      exact faultsAll_widen hskips fragments limit operation room children level
    | .followed pos name fragment =>
      rw [faultsAt_followed _ _ hlevel, faultsAt_followed _ _ hlevel]
      exact faultsAt_widen hskips fragments limit operation room fragment level

theorem faultsAll_widen (hskips : ∀ name, policy.skips name = true → wider.skips name = true)
    (fragments : List (String × Node)) (limit : Int)
    (operation : String) (room : Option Nat) : ∀ (es : List Expansion) (level : Int),
      (faultsAll ⟨fragments, limit, operation, wider, room⟩ es level).Sublist
        (faultsAll ⟨fragments, limit, operation, policy, room⟩ es level)
  | [], level => List.Sublist.refl _
  | e :: es, level => by
    rw [faultsAll_cons, faultsAll_cons]
    exact (faultsAt_widen hskips fragments limit operation room e level).append
      (faultsAll_widen hskips fragments limit operation room es level)

end

end QueryDepth.Expansion

namespace QueryDepth.Walk

/-- **A walk under a wider policy.** It is at most as deep and reports a subsequence, and it is the
same if the policies skip the same. -/
theorem run_widen {policy wider : Policy} (hpure : policy.Pure) (hwider : wider.Pure)
    (hskips : ∀ name, policy.skips name = true → wider.skips name = true)
    {fragments : List (String × Node)} {node : Node}
    (hfragments : ∀ f ∈ fragments, f.2.Every Node.IsWalkable) (hnode : node.Every Node.IsWalkable)
    (operation : String) (limit level : Int) (active : List String) : ∃ depth s depth' s',
      run ⟨fragments, limit, operation, policy, none⟩ node level active = (.ok depth, s) ∧
      run ⟨fragments, limit, operation, wider, none⟩ node level active = (.ok depth', s') ∧
      depth' ≤ depth ∧ s'.reports.toList.Sublist s.reports.toList ∧
      ((∀ name, wider.skips name = true → policy.skips name = true) →
        depth' = depth ∧ s'.reports = s.reports) := by
  have hwalk : (node.expand fragments active).Every Expansion.IsWalkable :=
    every_expand (isWalkable_expand fragments) hfragments active node hnode
  have hrun : run ⟨fragments, limit, operation, policy, none⟩ node level active = _ :=
    run_unbounded rfl hpure hwalk level
  have hrun' : run ⟨fragments, limit, operation, wider, none⟩ node level active = _ :=
    run_unbounded rfl hwider hwalk level
  refine ⟨_, _, _, _, hrun, hrun', Expansion.depthAt_widen hskips .., ?_, fun hsame => ⟨?_, ?_⟩⟩
  · rw [reports_start_record, reports_start_record]
    exact Expansion.faultsAt_widen hskips ..
  · exact Int.le_antisymm (Expansion.depthAt_widen hskips ..) (Expansion.depthAt_widen hsame ..)
  · rw [reports_start_record, reports_start_record]
    exact congrArg List.toArray
      ((Expansion.faultsAt_widen hskips ..).antisymm (Expansion.faultsAt_widen hsame ..))

end QueryDepth.Walk
