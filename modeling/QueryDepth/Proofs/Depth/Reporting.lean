import QueryDepth.Proofs.Depth.Returning
import QueryDepth.Proofs.Depth.Sites

/-!
# What a walk can report

A walk may be stopped by the policy, by a node of another kind, or for want of room. Whatever stops
it, it has reported a beginning of what is wrong with its tree, and all of it if nothing does.

**Theorem (`reports_run`).** The reports of a walk are a prefix of the faults of the expansion. In
particular each is the fault of a site of the tree (`exists_site_of_report`), under any policy.

`Reports` says this of any action. It is closed under sequencing because an action that comes to its
end has made all its reports.
-/

namespace QueryDepth

namespace Walk

variable {α β : Type} {ctx : WalkContext}

/-- The action reports a beginning of these faults, and all of them if it comes to its end. -/
def Reports (w : Walk α) (faults : List PlacedFault) : Prop :=
  ∀ s, ∃ made, (w s).2.reports.toList = s.reports.toList ++ made ∧ made <+: faults ∧
    ∀ a, (w s).1 = .ok a → made = faults

theorem reports_pure (a : α) : Reports (pure a) [] := fun _ =>
  ⟨[], (List.append_nil _).symm, List.prefix_rfl, fun _ _ => rfl⟩

theorem reports_throw (stop : Stop) (faults : List PlacedFault) :
    Reports (throw stop : Walk α) faults := fun _ =>
  ⟨[], (List.append_nil _).symm, List.nil_prefix, fun _ h => nomatch h⟩

theorem Reports.bind {w : Walk α} {next : α → Walk β} {faults more : List PlacedFault}
    (hw : Reports w faults) (hnext : ∀ s a t, w s = (.ok a, t) → Reports (next a) more) :
    Reports (w >>= next) (faults ++ more) := by
  intro s
  obtain ⟨made, hmade, hprefix, hall⟩ := hw s
  rw [bind_apply]
  rcases hfirst : w s with ⟨e | a, t⟩
  · rw [hfirst] at hmade
    exact ⟨made, hmade, hprefix.trans (List.prefix_append _ _), fun _ h => nomatch h⟩
  · rw [hfirst] at hmade hall
    obtain rfl := hall a rfl
    obtain ⟨made', hmade', hprefix', hall'⟩ := hnext s a t hfirst t
    refine ⟨made ++ made', ?_, (List.prefix_append_right_inj _).2 hprefix', fun b hb => ?_⟩
    · rw [hmade', hmade, List.append_assoc]
    · rw [hall' b hb]

theorem reports_report (ctx : WalkContext) (fault : DepthFault) (pos : Option Nat) :
    Reports (report ctx fault pos) [⟨fault, pos⟩] := by
  intro s
  rw [report_apply]
  split
  · exact ⟨_, Array.toList_push, List.prefix_rfl, fun _ _ => rfl⟩
  · exact ⟨[], (List.append_nil _).symm, List.nil_prefix, fun _ h => nomatch h⟩

theorem reports_ignored (ctx : WalkContext) (name : String) : Reports (ignored ctx name) [] := by
  intro s
  rw [ignored_apply]
  exact ⟨[], (List.append_nil _).symm, List.prefix_rfl, fun _ _ => rfl⟩

theorem reports_failed (ctx : WalkContext) (fault : DepthFault) (pos : Option Nat) :
    Reports (failed ctx fault pos) [⟨fault, pos⟩] :=
  (reports_report ctx fault pos).bind fun _ _ _ _ => reports_pure failedDepth

end Walk

namespace Expansion

open Walk

mutual

/-- **A walk over an expansion reports a beginning of its faults.** -/
theorem reports_walk (ctx : WalkContext) : ∀ (e : Expansion) (level : Int),
    Reports (e.walk ctx level) (e.faultsAt ctx level)
  | e, level => by
    by_cases hlevel : level > ctx.limit
    · rw [walk_of_gt hlevel, faultsAt_of_gt hlevel]
      exact reports_failed ctx _ e.pos
    match e with
    | .leaf pos name =>
      rw [walk, guarded_of_not_gt hlevel, faultsAt_leaf _ _ hlevel]
      exact (reports_ignored ctx name).bind fun _ _ _ _ => reports_pure 0
    | .field pos name children =>
      rw [walk, guarded_of_not_gt hlevel, faultsAt_field _ _ _ hlevel]
      cases hskips : ctx.policy.skips name with
      | true =>
        refine (reports_ignored ctx name).bind fun s skip t hskip => ?_
        rw [returns_ignored ctx name s skip t hskip, hskips]
        exact reports_pure 0
      | false =>
        refine (reports_ignored ctx name).bind fun s skip t hskip => ?_
        rw [returns_ignored ctx name s skip t hskip, hskips]
        have hbelow := (reports_walkAll ctx children (level + 1)).bind
          fun _ d _ _ => reports_pure (1 + d)
        rw [List.append_nil] at hbelow
        exact hbelow
    | .group pos children =>
      rw [walk, guarded_of_not_gt hlevel, faultsAt_group _ _ hlevel]
      exact reports_walkAll ctx children level
    | .followed pos name fragment =>
      rw [walk, guarded_of_not_gt hlevel, faultsAt_followed _ _ hlevel]
      exact reports_walk ctx fragment level
    | .missing pos name =>
      rw [walk, guarded_of_not_gt hlevel, faultsAt_missing _ _ hlevel]
      exact reports_failed ctx _ pos
    | .reentry pos name =>
      rw [walk, guarded_of_not_gt hlevel, faultsAt_reentry _ _ hlevel]
      exact reports_failed ctx _ pos
    | .other pos kind =>
      rw [walk, guarded_of_not_gt hlevel]
      exact reports_throw _ _

theorem reports_walkAll (ctx : WalkContext) : ∀ (es : List Expansion) (level : Int),
    Reports (walkAll ctx es level) (faultsAll ctx es level)
  | [], level => reports_pure 0
  | [e], level => by
    rw [walkAll, faultsAll_cons, faultsAll_nil, List.append_nil]
    exact reports_walk ctx e level
  | e :: e' :: more, level => by
    rw [walkAll, faultsAll_cons, ← List.append_nil (faultsAll ctx (e' :: more) level)]
    exact (reports_walk ctx e level).bind fun _ first _ _ =>
      (reports_walkAll ctx (e' :: more) level).bind fun _ rest _ _ => reports_pure (max first rest)

end

end Expansion

namespace Walk

/-- **The reports of a walk are a beginning of the faults of its tree.** -/
theorem reports_run (ctx : WalkContext) (node : Node) (level : Int) (active : List String) :
    (run ctx node level active).2.reports.toList <+:
      (node.expand ctx.fragments active).faultsAt ctx level := by
  obtain ⟨made, hmade, hprefix, -⟩ := Expansion.reports_walk ctx
    (node.expand ctx.fragments active) level (start active)
  rw [run_eq_walk, hmade]
  exact hprefix

/-- Every report is the fault of a site. -/
theorem exists_site_of_report {ctx : WalkContext} {node : Node} {level : Int}
    {active : List String} {r : PlacedFault}
    (hr : r ∈ (run ctx node level active).2.reports.toList) :
    ∃ address site, (Site.mk node level active).Leads ctx.fragments ctx.limit ctx.policy
      address site ∧ site.fault? ctx = some r := by
  obtain ⟨sites, hsites, hvisits⟩ : ∃ sites, (Site.mk node level active).Enumerates ctx.fragments
      ctx.limit ctx.policy sites ∧ _ := Site.exists_enumeration _
  have hmem : r ∈ ((Site.mk node level active).visits ctx.fragments ctx.limit
      ctx.policy).filterMap ctx.faultOf := (reports_run ctx node level active).subset hr
  rw [← hvisits, List.filterMap_map, List.mem_filterMap] at hmem
  obtain ⟨⟨address, site⟩, hsite, hfault⟩ := hmem
  exact ⟨address, site, (hsites.mem_iff address site).1 hsite,
    (Site.faultOf_visit ctx site).symm.trans hfault⟩

end Walk

end QueryDepth
