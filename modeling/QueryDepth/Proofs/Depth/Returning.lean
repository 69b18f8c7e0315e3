import QueryDepth.Proofs.Depth.Measuring

/-!
# What a walk can return

A walk may be stopped in many ways: by the policy, by a node of another kind, or because there is no
room for another report. But if it returns a depth, it is the one that the expansion has.

**Theorem (`eq_depthAt_of_run`, `eq_depths_of_handed`).** The only depth that a walk can return is
`depthAt`, and the only depths that a rule can hand over are those of the operations.

`Returns` says this of any action and is closed under sequencing. The one step that needs an
argument is the question to the policy: `skips` is what it says if it says anything
(`skips_of_answer`).
-/

namespace QueryDepth

namespace Walk

variable {α β : Type} {ctx : WalkContext}

/-- The action returns nothing but `a`. It may be stopped. -/
def Returns (w : Walk α) (a : α) : Prop := ∀ s b t, w s = (.ok b, t) → b = a

theorem returns_pure (a : α) : Returns (pure a) a := by
  intro s b t h
  cases h
  rfl

theorem returns_throw (stop : Stop) (a : α) : Returns (throw stop) a := by
  intro s b t h
  cases h

theorem Returns.bind {w : Walk α} {next : α → Walk β} {a : α} {b : β} (hw : Returns w a)
    (hnext : Returns (next a) b) : Returns (w >>= next) b := by
  intro s c u h
  rw [bind_apply] at h
  rcases hfirst : w s with ⟨_ | a', t⟩
  · rw [hfirst] at h
    cases h
  · rw [hfirst] at h
    obtain rfl := hw s a' t hfirst
    exact hnext t c u h

theorem returns_ignored (ctx : WalkContext) (name : String) :
    Returns (ignored ctx name) (ctx.policy.skips name) := by
  intro s b t h
  rw [ignored_apply] at h
  cases hanswer : (ctx.policy.ignores name).answer with
  | error message =>
    rw [hanswer] at h
    cases h
  | ok answer =>
    rw [hanswer] at h
    cases h
    exact (Policy.skips_of_answer hanswer).symm

theorem returns_failed (ctx : WalkContext) (fault : DepthFault) (pos : Option Nat) :
    Returns (failed ctx fault pos) failedDepth :=
  have hreport : Returns (report ctx fault pos) () := fun _ _ _ _ => rfl
  hreport.bind (returns_pure failedDepth)

end Walk

namespace Expansion

open Walk

mutual

/-- **A walk over an expansion returns nothing but its depth.** -/
theorem returns_walk (ctx : WalkContext) : ∀ (e : Expansion) (level : Int),
    Returns (e.walk ctx level) (e.depthAt ctx.limit ctx.policy level)
  | e, level => by
    by_cases hlevel : level > ctx.limit
    · rw [walk_of_gt hlevel, depthAt_of_gt hlevel]
      exact returns_failed ctx _ e.pos
    match e with
    | .leaf pos name =>
      rw [walk, guarded_of_not_gt hlevel, depthAt, if_neg hlevel]
      exact (returns_ignored ctx name).bind (returns_pure 0)
    | .field pos name children =>
      rw [walk, guarded_of_not_gt hlevel, depthAt, if_neg hlevel]
      refine (returns_ignored ctx name).bind ?_
      by_cases hskip : ctx.policy.skips name = true
      · rw [if_pos hskip, if_pos hskip]
        exact returns_pure 0
      · rw [if_neg hskip, if_neg hskip]
        exact (returns_walkAll ctx children (level + 1)).bind (returns_pure _)
    | .group pos children =>
      rw [walk, guarded_of_not_gt hlevel, depthAt, if_neg hlevel]
      exact returns_walkAll ctx children level
    | .followed pos name fragment =>
      rw [walk, guarded_of_not_gt hlevel, depthAt, if_neg hlevel]
      exact returns_walk ctx fragment level
    | .missing pos name | .reentry pos name =>
      rw [walk, guarded_of_not_gt hlevel, depthAt]
      exact returns_failed ctx _ pos
    | .other pos kind =>
      rw [walk, guarded_of_not_gt hlevel]
      exact returns_throw _ _

theorem returns_walkAll (ctx : WalkContext) : ∀ (es : List Expansion) (level : Int),
    Returns (walkAll ctx es level) (depthAll ctx.limit ctx.policy es level)
  | [], level => returns_pure 0
  | [e], level => by
    rw [walkAll, depthAll]
    exact returns_walk ctx e level
  | e :: e' :: more, level => by
    rw [walkAll, depthAll]
    exact (returns_walk ctx e level).bind
      ((returns_walkAll ctx (e' :: more) level).bind (returns_pure _))

end

end Expansion

/-- **A walk returns nothing but the depth of the expansion.** -/
theorem Walk.eq_depthAt_of_run {ctx : WalkContext} {node : Node} {level : Int}
    {active : List String} {depth : Int} {s : WalkState}
    (h : run ctx node level active = (.ok depth, s)) :
    depth = (node.expand ctx.fragments active).depthAt ctx.limit ctx.policy level := by
  rw [run_eq_walk] at h
  exact Expansion.returns_walk ctx _ level _ _ _ h

namespace DepthRule

variable {rule : DepthRule} {room : Option Nat} {depths : DepthMap}

/-- **A rule records nothing but the depths of its operations**, in order. -/
theorem eq_depths_of_measureAll {fragments operations : List (String × Node)}
    (h : (rule.measureAll fragments operations room).depths = .ok depths) :
    depths = operations.map fun (name, node) =>
      (name, (node.expand fragments []).depthAt rule.limit rule.policy 0) := by
  induction operations generalizing room depths with
  | nil =>
    cases h
    rfl
  | cons operation rest ih =>
    rw [measureAll] at h
    split at h
    next result walked hwalk =>
      cases result with
      | error stop => cases h
      | ok depth =>
        dsimp only at h
        generalize hmore : (rule.measureAll fragments rest
          (room.map (· - walked.reports.size))).depths = left at h
        cases left with
        | error stop => cases h
        | ok more =>
          cases h
          rw [List.map_cons, ← ih hmore, Walk.eq_depthAt_of_run hwalk]
          rfl

/-- **Nothing but the depths of a document is handed over.** -/
theorem eq_depths_of_handed {doc : Document} (h : (rule.run doc room).handed = some depths) :
    depths = rule.depths doc := by
  have hmeasured : (rule.measureAll doc.fragmentNodes doc.operationNodes room).depths =
      .ok depths := by
    unfold run at h
    dsimp only at h
    split at h
    · cases h
    · next measured hmeasured =>
      rw [hmeasured]
      split at h
      · cases h
      · split at h <;> cases h <;> rfl
  rw [eq_depths_of_measureAll hmeasured, Document.operationNodes, List.map_map]
  rfl

end DepthRule

end QueryDepth
