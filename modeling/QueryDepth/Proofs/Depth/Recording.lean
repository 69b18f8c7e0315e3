import QueryDepth.Proofs.Depth.Shape
import QueryDepth.Proofs.Ignore.Skips

/-!
# What a walk records

Under a pure policy the result of a walk is a function of the expansion: `visits` lists the nodes
that the walk comes to with their levels, `depthAt` is its depth, and the reports and the calls of
predicates are those of the visits, in order.

**Theorem (`yields_walk`).** The walk over an expansion gives `depthAt` and records what its
visits give, if there is room for the reports. Otherwise it is stopped as full, after exactly the
reports that there was room for.

`Yields` says this of any action. It is closed under sequencing, because an action that is full
passes its stop on, and an action that fits leaves less room to the next.
-/

namespace QueryDepth

/-! ## Actions with a fixed record -/

/-- Appends reports and calls to what is recorded. -/
def WalkState.record (s : WalkState) (faults : List PlacedFault) (calls : List Call) : WalkState :=
  { s with reports := s.reports ++ faults.toArray, calls := s.calls ++ calls.toArray }

namespace WalkState

@[simp] theorem record_nil (s : WalkState) : s.record [] [] = s := by
  simp [record]

@[simp] theorem record_record (s : WalkState) (faults faults' : List PlacedFault)
    (calls calls' : List Call) :
    (s.record faults calls).record faults' calls' =
      s.record (faults ++ faults') (calls ++ calls') := by
  simp [record, Array.append_assoc]

@[simp] theorem size_reports_record (s : WalkState) (faults : List PlacedFault)
    (calls : List Call) :
    (s.record faults calls).reports.size = s.reports.size + faults.length := by
  simp [record]

end WalkState

/-- Where a node begins. -/
def Expansion.pos : Expansion → Option Nat
  | .leaf p _ | .field p _ _ | .group p _ | .followed p _ _ | .missing p _ | .reentry p _
  | .other p _ => p

theorem Node.pos_expand {fragments : List (String × Node)} (active : List String) (node : Node) :
    (node.expand fragments active).pos = node.pos := by
  cases node with
  | field pos name children => cases children <;> simp [Expansion.pos, Node.pos]
  | group pos children => simp [Expansion.pos, Node.pos]
  | other pos kind => simp [Expansion.pos, Node.pos]
  | spread pos name =>
    rw [Node.expand_spread]
    split
    · rfl
    · split <;> rfl

theorem WalkContext.holds_iff {ctx : WalkContext} {count : Nat} :
    ctx.holds count = true ↔ ∀ room ∈ ctx.room, count ≤ room := by
  unfold holds
  cases ctx.room <;> simp

theorem WalkContext.holds_zero (ctx : WalkContext) : ctx.holds 0 = true := by
  unfold holds
  split <;> simp

theorem WalkContext.holds_of_le {ctx : WalkContext} {m n : Nat} (hmn : m ≤ n)
    (h : ctx.holds n = true) : ctx.holds m = true := by
  unfold holds at h ⊢
  split
  · rfl
  · simp_all
    omega

namespace Walk

variable {α β : Type} {ctx : WalkContext}

/-- The action ends with `a` and records these reports and calls, if there is room for them. If
not, it is stopped as soon as the room is used up. -/
structure Yields (ctx : WalkContext) (w : Walk α) (a : α) (faults : List PlacedFault)
    (calls : List Call) : Prop where
  fits : ∀ s, ctx.holds (s.reports.size + faults.length) = true →
    w s = (.ok a, s.record faults calls)
  full : ∀ s, ctx.holds s.reports.size = true →
    ctx.holds (s.reports.size + faults.length) = false →
    ∃ faults' calls', w s = (.error .full, s.record faults' calls') ∧ faults' <+: faults ∧
      ctx.room = some (s.reports.size + faults'.length)

theorem yields_pure (a : α) : Yields ctx (pure a) a [] [] where
  fits s _ := by
    rw [WalkState.record_nil]
    rfl
  full s hs hfull := by simp_all

theorem yields_report (ctx : WalkContext) (fault : DepthFault) (pos : Option Nat) :
    Yields ctx (report ctx fault pos) () [⟨fault, pos⟩] [] where
  fits s hs := by
    have hroom : ctx.holds (s.reports.size + 1) = true := hs
    rw [report_apply, if_pos hroom]
    simp [WalkState.record]
  full s hs hfull := by
    refine ⟨[], [], ?_, List.nil_prefix, ?_⟩
    · rw [report_apply, if_neg (by simpa using hfull), WalkState.record_nil]
    · unfold WalkContext.holds at hs hfull
      cases hroom : ctx.room with
      | none => simp [hroom] at hfull
      | some room =>
        simp only [hroom, decide_eq_true_eq, decide_eq_false_iff_not,
          List.length_singleton] at hs hfull
        simp only [List.length_nil, Option.some.injEq]
        omega

theorem yields_ignored (hpure : ctx.policy.Pure) (name : String) :
    Yields ctx (ignored ctx name) (ctx.policy.skips name) [] (ctx.policy.ignores name).calls where
  fits s _ := by
    rw [ignored_apply, Policy.answer_ignores hpure name]
    simp [WalkState.record]
  full s hs hfull := by simp_all

theorem Yields.bind {w : Walk α} {k : α → Walk β} {a : α} {b : β}
    {faults faults' : List PlacedFault} {calls calls' : List Call}
    (hw : Yields ctx w a faults calls) (hk : Yields ctx (k a) b faults' calls') :
    Yields ctx (w >>= k) b (faults ++ faults') (calls ++ calls') where
  fits s hs := by
    have hfirst : ctx.holds (s.reports.size + faults.length) = true :=
      WalkContext.holds_of_le (by simp) hs
    rw [bind_apply, hw.fits s hfirst]
    simp only
    rw [hk.fits _ (by simpa [Nat.add_assoc] using hs), WalkState.record_record]
  full s hs hfull := by
    rw [bind_apply]
    cases hfirst : ctx.holds (s.reports.size + faults.length) with
    | true =>
      obtain ⟨some', calls'', hstop, hprefix, hroom⟩ := hk.full (s.record faults calls)
        (by simpa using hfirst) (by simpa [Nat.add_assoc] using hfull)
      rw [hw.fits s hfirst]
      have hlonger := (List.prefix_append_right_inj faults).2 hprefix
      refine ⟨faults ++ some', calls ++ calls'', ?_, hlonger, ?_⟩
      · simp only [hstop, WalkState.record_record]
      · rw [hroom]
        simp [Nat.add_assoc]
    | false =>
      obtain ⟨some', calls'', hstop, hprefix, hroom⟩ := hw.full s hs hfirst
      refine ⟨some', calls'', ?_, hprefix.trans (List.prefix_append faults faults'), hroom⟩
      simp only [hstop]

theorem Yields.map {w : Walk α} {a : α} {faults : List PlacedFault} {calls : List Call}
    (hw : Yields ctx w a faults calls) (f : α → β) :
    Yields ctx (do return f (← w)) (f a) faults calls := by
  have hk : Yields ctx (pure (f a)) (f a) [] [] := yields_pure (f a)
  simpa using hw.bind (k := fun x => pure (f x)) hk

/-- What is done with the answer of a pure policy is done with `skips`. -/
theorem Yields.ignored {k : Bool → Walk β} {b : β} {name : String} {faults : List PlacedFault}
    {calls : List Call} (hpure : ctx.policy.Pure)
    (hk : Yields ctx (k (ctx.policy.skips name)) b faults calls) :
    Yields ctx (ignored ctx name >>= k) b faults ((ctx.policy.ignores name).calls ++ calls) := by
  simpa using (yields_ignored hpure name).bind hk

theorem yields_failed (ctx : WalkContext) (fault : DepthFault) (pos : Option Nat) :
    Yields ctx (failed ctx fault pos) failedDepth [⟨fault, pos⟩] [] :=
  (yields_report ctx fault pos).bind (yields_pure failedDepth)

end Walk

/-! ## What is visited, and the depth -/

/-- What the walk reports when it comes to a node with so many fields above it. -/
def WalkContext.faultOf (ctx : WalkContext) : Expansion × Int → Option PlacedFault
  | (e, level) =>
    if level > ctx.limit then some ⟨.tooDeep ctx.operation ctx.limit, e.pos⟩
    else match e with
      | .missing pos name => some ⟨.missingFragment name, pos⟩
      | .reentry pos name => some ⟨.cyclicFragment name ctx.operation, pos⟩
      | _ => none

/-- The calls of predicates that the walk makes for a node. -/
def WalkContext.callsOf (ctx : WalkContext) : Expansion × Int → List Call
  | (e, level) =>
    if level > ctx.limit then []
    else match e with
      | .leaf _ name | .field _ name _ => (ctx.policy.ignores name).calls
      | _ => []

namespace Expansion

section

variable (limit : Int) (policy : Policy)

mutual

/-- The nodes that a walk comes to, with the number of fields above them. -/
def visits : Expansion → Int → List (Expansion × Int)
  | .leaf pos name, level => [(.leaf pos name, level)]
  | .field pos name children, level =>
    (.field pos name children, level) ::
      if level > limit ∨ policy.skips name then [] else visitsAll children (level + 1)
  | .group pos children, level =>
    (.group pos children, level) :: if level > limit then [] else visitsAll children level
  | .followed pos name fragment, level =>
    (.followed pos name fragment, level) :: if level > limit then [] else visits fragment level
  | .missing pos name, level => [(.missing pos name, level)]
  | .reentry pos name, level => [(.reentry pos name, level)]
  | .other pos kind, level => [(.other pos kind, level)]

def visitsAll : List Expansion → Int → List (Expansion × Int)
  | [], _ => []
  | e :: es, level => visits e level ++ visitsAll es level

end

mutual

/-- The depth that the walk finds. -/
def depthAt : Expansion → Int → Int
  | .leaf _ _, level => if level > limit then failedDepth else 0
  | .field _ name children, level =>
    if level > limit then failedDepth
    else if policy.skips name then 0 else 1 + depthAll children (level + 1)
  | .group _ children, level => if level > limit then failedDepth else depthAll children level
  | .followed _ _ fragment, level => if level > limit then failedDepth else depthAt fragment level
  | .missing _ _, _ | .reentry _ _, _ => failedDepth
  | .other _ _, level => if level > limit then failedDepth else 0

def depthAll : List Expansion → Int → Int
  | [], _ => 0
  | [e], level => depthAt e level
  | e :: e' :: more, level => max (depthAt e level) (depthAll (e' :: more) level)

end

end

/-- The reports of a walk. -/
def faultsAt (ctx : WalkContext) (e : Expansion) (level : Int) : List PlacedFault :=
  (e.visits ctx.limit ctx.policy level).filterMap ctx.faultOf

def faultsAll (ctx : WalkContext) (es : List Expansion) (level : Int) : List PlacedFault :=
  (visitsAll ctx.limit ctx.policy es level).filterMap ctx.faultOf

/-- The calls of predicates that a walk makes. -/
def callsAt (ctx : WalkContext) (e : Expansion) (level : Int) : List Call :=
  (e.visits ctx.limit ctx.policy level).flatMap ctx.callsOf

def callsAll (ctx : WalkContext) (es : List Expansion) (level : Int) : List Call :=
  (visitsAll ctx.limit ctx.policy es level).flatMap ctx.callsOf

@[simp] theorem faultsAll_nil (ctx : WalkContext) (level : Int) : faultsAll ctx [] level = [] := rfl

@[simp] theorem faultsAll_cons (ctx : WalkContext) (e : Expansion) (es : List Expansion)
    (level : Int) :
    faultsAll ctx (e :: es) level = e.faultsAt ctx level ++ faultsAll ctx es level := by
  simp [faultsAll, faultsAt, visitsAll]

@[simp] theorem callsAll_nil (ctx : WalkContext) (level : Int) : callsAll ctx [] level = [] := rfl

@[simp] theorem callsAll_cons (ctx : WalkContext) (e : Expansion) (es : List Expansion)
    (level : Int) :
    callsAll ctx (e :: es) level = e.callsAt ctx level ++ callsAll ctx es level := by
  simp [callsAll, callsAt, visitsAll]

/-! ### Below the limit only the node itself is seen -/

section

variable {ctx : WalkContext} {level : Int}

theorem walk_of_gt (h : level > ctx.limit) (e : Expansion) :
    e.walk ctx level = Walk.failed ctx (.tooDeep ctx.operation ctx.limit) e.pos := by
  cases e <;> rw [walk, Walk.guarded, if_pos h] <;> rfl

theorem visits_of_gt {limit : Int} (h : level > limit) (policy : Policy) (e : Expansion) :
    e.visits limit policy level = [(e, level)] := by
  cases e <;> simp [visits, h]

theorem depthAt_of_gt {limit : Int} (h : level > limit) (policy : Policy) (e : Expansion) :
    e.depthAt limit policy level = failedDepth := by
  cases e <;> simp [depthAt, h]

theorem faultsAt_of_gt (h : level > ctx.limit) (e : Expansion) :
    e.faultsAt ctx level = [⟨.tooDeep ctx.operation ctx.limit, e.pos⟩] := by
  simp [faultsAt, visits_of_gt h, WalkContext.faultOf, h]

theorem not_gt_of_faultsAt_eq_nil {e : Expansion} (hnone : e.faultsAt ctx level = []) :
    ¬ level > ctx.limit := by
  intro hlevel
  rw [faultsAt_of_gt hlevel] at hnone
  exact List.cons_ne_nil _ _ hnone

theorem callsAt_of_gt (h : level > ctx.limit) (e : Expansion) : e.callsAt ctx level = [] := by
  simp [callsAt, visits_of_gt h, WalkContext.callsOf, h]

/-! ### Down to the limit a node is looked into -/

theorem guarded_of_not_gt (h : ¬ level > ctx.limit) (pos : Option Nat) (inside : Walk Int) :
    Walk.guarded ctx pos level inside = inside := if_neg h

variable (pos : Option Nat) (name : String) (children : List Expansion)

theorem faultsAt_leaf (h : ¬ level > ctx.limit) : faultsAt ctx (.leaf pos name) level = [] := by
  simp [faultsAt, visits, WalkContext.faultOf, h]

theorem callsAt_leaf (h : ¬ level > ctx.limit) :
    callsAt ctx (.leaf pos name) level = (ctx.policy.ignores name).calls := by
  simp [callsAt, visits, WalkContext.callsOf, h]

theorem faultsAt_other (h : ¬ level > ctx.limit) : faultsAt ctx (.other pos name) level = [] := by
  simp [faultsAt, visits, WalkContext.faultOf, h]

theorem faultsAt_field (h : ¬ level > ctx.limit) :
    faultsAt ctx (.field pos name children) level =
      if ctx.policy.skips name then [] else faultsAll ctx children (level + 1) := by
  by_cases hskip : ctx.policy.skips name <;>
    simp [faultsAt, faultsAll, visits, WalkContext.faultOf, h, hskip]

theorem callsAt_field (h : ¬ level > ctx.limit) :
    callsAt ctx (.field pos name children) level = (ctx.policy.ignores name).calls ++
      if ctx.policy.skips name then [] else callsAll ctx children (level + 1) := by
  by_cases hskip : ctx.policy.skips name <;>
    simp [callsAt, callsAll, visits, WalkContext.callsOf, h, hskip]

theorem faultsAt_group (h : ¬ level > ctx.limit) :
    faultsAt ctx (.group pos children) level = faultsAll ctx children level := by
  simp [faultsAt, faultsAll, visits, WalkContext.faultOf, h]

theorem callsAt_group (h : ¬ level > ctx.limit) :
    callsAt ctx (.group pos children) level = callsAll ctx children level := by
  simp [callsAt, callsAll, visits, WalkContext.callsOf, h]

theorem faultsAt_followed (h : ¬ level > ctx.limit) (fragment : Expansion) :
    faultsAt ctx (.followed pos name fragment) level = fragment.faultsAt ctx level := by
  simp [faultsAt, visits, WalkContext.faultOf, h]

theorem callsAt_followed (h : ¬ level > ctx.limit) (fragment : Expansion) :
    callsAt ctx (.followed pos name fragment) level = fragment.callsAt ctx level := by
  simp [callsAt, visits, WalkContext.callsOf, h]

theorem faultsAt_missing (h : ¬ level > ctx.limit) :
    faultsAt ctx (.missing pos name) level = [⟨.missingFragment name, pos⟩] := by
  simp [faultsAt, visits, WalkContext.faultOf, h]

theorem callsAt_missing (h : ¬ level > ctx.limit) : callsAt ctx (.missing pos name) level = [] := by
  simp [callsAt, visits, WalkContext.callsOf, h]

theorem faultsAt_reentry (h : ¬ level > ctx.limit) :
    faultsAt ctx (.reentry pos name) level = [⟨.cyclicFragment name ctx.operation, pos⟩] := by
  simp [faultsAt, visits, WalkContext.faultOf, h]

theorem callsAt_reentry (h : ¬ level > ctx.limit) : callsAt ctx (.reentry pos name) level = [] := by
  simp [callsAt, visits, WalkContext.callsOf, h]

end

/-! ## The record of a walk over an expansion -/

open Walk

mutual

/-- **The walk over an expansion records its visits.** -/
theorem yields_walk {ctx : WalkContext} (hpure : ctx.policy.Pure) :
    ∀ (e : Expansion) (level : Int), e.Every IsWalkable →
      Yields ctx (e.walk ctx level) (e.depthAt ctx.limit ctx.policy level) (e.faultsAt ctx level)
        (e.callsAt ctx level)
  | e, level, hwalk => by
    by_cases hlevel : level > ctx.limit
    · rw [walk_of_gt hlevel, depthAt_of_gt hlevel ctx.policy, faultsAt_of_gt hlevel,
        callsAt_of_gt hlevel]
      exact yields_failed ctx _ e.pos
    cases hwalk with
    | @leaf pos name _ =>
      rw [walk, guarded_of_not_gt hlevel, depthAt, if_neg hlevel, faultsAt_leaf _ _ hlevel,
        callsAt_leaf _ _ hlevel]
      exact (yields_ignored hpure name).map fun _ => 0
    | @field pos name children _ hchildren =>
      rw [walk, guarded_of_not_gt hlevel, depthAt, if_neg hlevel, faultsAt_field _ _ _ hlevel,
        callsAt_field _ _ _ hlevel]
      refine Yields.ignored hpure ?_
      by_cases hskip : ctx.policy.skips name = true
      · simp only [hskip, if_true]
        exact yields_pure 0
      · simp only [hskip, if_false, Bool.false_eq_true]
        exact (yields_walkAll hpure children (level + 1) hchildren).map (1 + ·)
    | @group pos children _ hchildren =>
      rw [walk, guarded_of_not_gt hlevel, depthAt, if_neg hlevel, faultsAt_group _ _ hlevel,
        callsAt_group _ _ hlevel]
      exact yields_walkAll hpure children level hchildren
    | @followed pos name fragment _ hfragment =>
      rw [walk, guarded_of_not_gt hlevel, depthAt, if_neg hlevel, faultsAt_followed _ _ hlevel,
        callsAt_followed _ _ hlevel]
      exact yields_walk hpure fragment level hfragment
    | @missing pos name _ =>
      rw [walk, guarded_of_not_gt hlevel, depthAt, faultsAt_missing _ _ hlevel,
        callsAt_missing _ _ hlevel]
      exact yields_failed ctx _ pos
    | @reentry pos name _ =>
      rw [walk, guarded_of_not_gt hlevel, depthAt, faultsAt_reentry _ _ hlevel,
        callsAt_reentry _ _ hlevel]
      exact yields_failed ctx _ pos
    | other hother => exact hother.elim

theorem yields_walkAll {ctx : WalkContext} (hpure : ctx.policy.Pure) :
    ∀ (es : List Expansion) (level : Int), (∀ e ∈ es, e.Every IsWalkable) →
      Yields ctx (walkAll ctx es level) (depthAll ctx.limit ctx.policy es level)
        (faultsAll ctx es level) (callsAll ctx es level)
  | [], level, _ => yields_pure 0
  | [e], level, h => by
    have hfirst := yields_walk hpure e level (h e List.mem_cons_self)
    simpa [walkAll, depthAll] using hfirst
  | e :: e' :: more, level, h => by
    have hfirst := yields_walk hpure e level (h e List.mem_cons_self)
    have hrest := yields_walkAll hpure (e' :: more) level
      fun e he => h e (List.mem_cons_of_mem _ he)
    rw [walkAll, depthAll, faultsAll_cons, callsAll_cons]
    exact hfirst.bind (hrest.map (max (e.depthAt ctx.limit ctx.policy level)))

end

end Expansion

/-! ## The record of a walk from a node -/

namespace Walk

theorem reports_start_record (active : List String) (faults : List PlacedFault)
    (calls : List Call) : ((start active).record faults calls).reports = faults.toArray := by
  simp [WalkState.record, start]

theorem calls_start_record (active : List String) (faults : List PlacedFault)
    (calls : List Call) : ((start active).record faults calls).calls = calls.toArray := by
  simp [WalkState.record, start]

/-- With room for any number of reports, a walk records the visits of the expansion. -/
theorem run_unbounded {ctx : WalkContext} (hroom : ctx.room = none) (hpure : ctx.policy.Pure)
    {node : Node} {active : List String}
    (hwalk : (node.expand ctx.fragments active).Every Expansion.IsWalkable) (level : Int) :
    run ctx node level active =
      (.ok ((node.expand ctx.fragments active).depthAt ctx.limit ctx.policy level),
        (start active).record ((node.expand ctx.fragments active).faultsAt ctx level)
          ((node.expand ctx.fragments active).callsAt ctx level)) := by
  have hyields := Expansion.yields_walk hpure (node.expand ctx.fragments active) level hwalk
  rw [run_eq_walk]
  exact hyields.fits (start active) (WalkContext.holds_iff.2 (by simp [hroom]))

theorem run_walkable {ctx : WalkContext} (hroom : ctx.room = none) (hpure : ctx.policy.Pure)
    (hfragments : ∀ f ∈ ctx.fragments, f.2.Every Node.IsWalkable) {node : Node}
    (hnode : node.Every Node.IsWalkable) (level : Int) (active : List String) :
    run ctx node level active =
      (.ok ((node.expand ctx.fragments active).depthAt ctx.limit ctx.policy level),
        (start active).record ((node.expand ctx.fragments active).faultsAt ctx level)
          ((node.expand ctx.fragments active).callsAt ctx level)) :=
  run_unbounded hroom hpure
    (every_expand (isWalkable_expand ctx.fragments) hfragments active node hnode) level

end Walk

/-! ## The record of the walk of an operation -/

namespace Walk

variable {ctx : WalkContext} {doc : Document}

theorem run_operation (hfragments : ctx.fragments = doc.fragmentNodes) (op : Operation)
    (level : Int) :
    run ctx op.node level [] = (doc.expansion op).walk ctx level (start []) := by
  rw [run_eq_walk, hfragments]
  rfl

/-- With enough room, the walk of an operation records the visits of its expansion. -/
theorem run_fits (hfragments : ctx.fragments = doc.fragmentNodes) (hpure : ctx.policy.Pure)
    (op : Operation) (level : Int)
    (hroom : ctx.holds ((doc.expansion op).faultsAt ctx level).length = true) :
    run ctx op.node level [] = (.ok ((doc.expansion op).depthAt ctx.limit ctx.policy level),
      (start []).record ((doc.expansion op).faultsAt ctx level)
        ((doc.expansion op).callsAt ctx level)) := by
  rw [run_operation hfragments]
  have hyields := Expansion.yields_walk hpure (doc.expansion op) level (doc.walkable_expansion op)
  exact hyields.fits (start []) (by simpa [start] using hroom)

/-- Without it, the walk is stopped once there is no more room. -/
theorem run_full (hfragments : ctx.fragments = doc.fragmentNodes) (hpure : ctx.policy.Pure)
    (op : Operation) (level : Int)
    (hroom : ctx.holds ((doc.expansion op).faultsAt ctx level).length = false) :
    ∃ faults calls, run ctx op.node level [] = (.error .full, (start []).record faults calls) ∧
      faults <+: (doc.expansion op).faultsAt ctx level ∧ ctx.room = some faults.length := by
  rw [run_operation hfragments]
  have hyields := Expansion.yields_walk hpure (doc.expansion op) level (doc.walkable_expansion op)
  simpa [start] using
    hyields.full (start []) (WalkContext.holds_zero ctx) (by simpa [start] using hroom)

end Walk

end QueryDepth
