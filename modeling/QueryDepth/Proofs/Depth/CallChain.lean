import QueryDepth.Proofs.Depth.Limit

/-!
# Chains of nested calls

A call of the walk is a *frame*: a node, its level and the fragments that the walk is in. `Calls`
says which calls a call can make, and a call chain is a sequence of calls, each made by the one
before it.

**Theorem (`run_terminates`).** Every walk comes to an end within its budget, and a larger budget
changes nothing. On every call chain each fragment is entered at most once, so that no chain is
longer than the number of fragments and one times the greatest height. The limit plays no part.

A step of a chain into a child makes the node smaller, and a step into a fragment leaves one
fragment fewer to enter. `need` combines both and goes down with each step. The chains are those of
the walk itself: where it runs out of a budget, there is a chain as long as that budget
(`exists_callChain`).
-/

namespace QueryDepth.Walk

/-! ## Frames and calls -/

/-- A call of `measure`, and the fragments that the walk is in when it is made. -/
structure Frame where
  node : Node
  level : Int
  active : List String

variable {ctx : WalkContext} {f g : Frame} {names entered : List String} {frames : List Frame}

/-- The calls that a call makes, with the fragment that is entered for it. -/
inductive Calls (ctx : WalkContext) : Frame → List String → Frame → Prop
  | field {pos : Option Nat} {name : String} {children : List Node} {child : Node} {level : Int}
      {active : List String} :
      level ≤ ctx.limit → (ctx.policy.ignores name).answer = .ok false → child ∈ children →
      Calls ctx ⟨.field pos name (some children), level, active⟩ [] ⟨child, level + 1, active⟩
  | group {pos : Option Nat} {children : List Node} {child : Node} {level : Int}
      {active : List String} :
      level ≤ ctx.limit → child ∈ children →
      Calls ctx ⟨.group pos children, level, active⟩ [] ⟨child, level, active⟩
  | spread {pos : Option Nat} {name : String} {fragment : Node} {level : Int}
      {active : List String} :
      level ≤ ctx.limit → ctx.fragments.lookup name = some fragment → name ∉ active →
      Calls ctx ⟨.spread pos name, level, active⟩ [name] ⟨fragment, level, name :: active⟩

/-- Calls nest from a frame through the others, the innermost last, and enter these fragments. -/
inductive CallChain (ctx : WalkContext) : Frame → List Frame → List String → Prop
  | nil (f : Frame) : CallChain ctx f [] []
  | cons {f g : Frame} {names : List String} {frames : List Frame} {entered : List String} :
      Calls ctx f names g → CallChain ctx g frames entered →
      CallChain ctx f (g :: frames) (names ++ entered)

/-! ## What a step does -/

theorem Calls.active_eq (h : Calls ctx f names g) : g.active = names ++ f.active := by
  cases h <;> rfl

/-- What is entered was not active, and it is entered once. -/
theorem Calls.nodup (h : Calls ctx f names g) :
    names.Nodup ∧ ∀ name ∈ names, name ∉ f.active := by
  cases h with
  | field => exact ⟨List.nodup_nil, nofun⟩
  | group => exact ⟨List.nodup_nil, nofun⟩
  | spread _ _ hname =>
    refine ⟨by simp, fun name hmem => ?_⟩
    rw [List.mem_singleton.1 hmem]
    exact hname

/-- Each step needs less of the budget. -/
theorem Calls.need_lt (h : Calls ctx f names g) :
    need ctx.fragments g.active g.node.height < need ctx.fragments f.active f.node.height := by
  cases h with
  | field _ _ hchild =>
    have hheight := height_le_heights hchild
    unfold need
    simp only [Node.height]
    omega
  | group _ hchild =>
    have hheight := height_le_heights hchild
    unfold need
    simp only [Node.height]
    omega
  | spread _ hlookup hname => exact need_fragment hlookup hname

/-! ## What a chain does -/

/-- **On a chain every fragment is entered at most once**, and none that was active before. -/
theorem CallChain.nodup (h : CallChain ctx f frames entered) :
    entered.Nodup ∧ ∀ name ∈ entered, name ∉ f.active := by
  induction h with
  | nil f => exact ⟨List.nodup_nil, nofun⟩
  | @cons f g names frames entered hcall _ ih =>
    obtain ⟨hnames, hnew⟩ := hcall.nodup
    obtain ⟨hentered, hfresh⟩ := ih
    rw [hcall.active_eq] at hfresh
    refine ⟨List.nodup_append.2 ⟨hnames, hentered, ?_⟩, ?_⟩
    · rintro name hname _ hname' rfl
      exact hfresh name hname' (List.mem_append_left _ hname)
    · intro name hname
      rcases List.mem_append.1 hname with hname | hname
      · exact hnew name hname
      · exact fun hactive => hfresh name hname (List.mem_append_right _ hactive)

/-- **A chain is no longer than what its first call needs.** -/
theorem CallChain.length_lt (h : CallChain ctx f frames entered) :
    frames.length < need ctx.fragments f.active f.node.height := by
  induction h with
  | nil f =>
    have hpos := height_pos f.node
    unfold need
    simp only [List.length_nil]
    omega
  | cons hcall _ ih =>
    have hless := hcall.need_lt
    simp only [List.length_cons]
    omega

/-! ## Leaving a call -/

section

variable {α β : Type}

/-- The action leaves the fragments that the walk is in as they are, however it ends. -/
def Restores (w : Walk α) : Prop := ∀ s, (w s).2.active = s.active

theorem Oblivious.restores {w : Walk α} (h : Oblivious w) : Restores w := h.active_eq

theorem Restores.bind {w : Walk α} {k : α → Walk β} (hw : Restores w) (hk : ∀ a, Restores (k a)) :
    Restores (w >>= k) := by
  intro s
  have hfirst := hw s
  rw [bind_apply]
  rcases hrun : w s with ⟨_ | a, t⟩
  · rw [hrun] at hfirst
    exact hfirst
  · rw [hrun] at hfirst
    exact (hk a t).trans hfirst

end

theorem Restores.guarded {inside : Walk Int} (h : Restores inside) (pos : Option Nat)
    (level : Int) : Restores (guarded ctx pos level inside) := by
  unfold Walk.guarded
  split
  · exact (oblivious_failed ctx _ pos).restores
  · exact h

theorem restores_deepest {step : Node → Walk Int} :
    ∀ {nodes : List Node}, (∀ node ∈ nodes, Restores (step node)) → Restores (deepest step nodes)
  | [], _ => (oblivious_pure 0).restores
  | [node], h => h node List.mem_cons_self
  | node :: node' :: more, h => by
    have hrest : ∀ n ∈ node' :: more, Restores (step n) := fun n hn =>
      h n (List.mem_cons_of_mem _ hn)
    exact (h node List.mem_cons_self).bind fun first =>
      (restores_deepest hrest).bind fun rest => (oblivious_pure (max first rest)).restores

theorem active_within {part : Walk Int} (hpart : Restores part) {name : String} {s : WalkState}
    (hname : name ∉ s.active) : (within name part s).2.active = s.active := by
  have hinside := hpart { s with active := name :: s.active }
  change (part { s with active := name :: s.active }).2.active.filter (· ≠ name) = s.active
  rw [hinside]
  exact leave_entered hname

/-- **Walks restore the active fragments**, within any budget. -/
theorem restores_measure (ctx : WalkContext) : ∀ (fuel : Nat) (node : Node) (level : Int),
    Restores (measure ctx fuel node level) := by
  intro fuel
  induction fuel with
  | zero => exact fun node level => (oblivious_throw .budget).restores
  | succ fuel ih =>
    intro node level
    cases node with
    | field pos name children =>
      cases children with
      | none =>
        rw [measure_leaf]
        refine ((oblivious_ignored ctx name).restores.bind fun skip => ?_).guarded pos level
        split <;> exact (oblivious_pure 0).restores
      | some children =>
        rw [measure_field]
        refine ((oblivious_ignored ctx name).restores.bind fun skip => ?_).guarded pos level
        split
        · exact (oblivious_pure 0).restores
        · exact (restores_deepest fun n _ => ih n (level + 1)).bind fun d =>
            (oblivious_pure (1 + d)).restores
    | group pos children =>
      rw [measure_group]
      exact (restores_deepest fun n _ => ih n level).guarded pos level
    | spread pos name =>
      rw [measure_spread]
      refine Restores.guarded ?_ pos level
      cases ctx.fragments.lookup name with
      | none => exact (oblivious_failed ctx _ pos).restores
      | some fragment =>
        intro s
        change ((if name ∈ s.active then _ else _ : Walk Int) s).2.active = s.active
        by_cases hname : name ∈ s.active
        · rw [if_pos hname]
          exact (oblivious_failed ctx _ pos).restores s
        · rw [if_neg hname]
          exact active_within (ih fragment level) hname
    | other pos kind =>
      rw [measure_other]
      exact Restores.guarded (oblivious_throw _).restores pos level

/-! ## Running out of budget

Only a call that is nested too deeply runs out of the budget, so this is followed back from the
result of an action to the part that it comes from. -/

section

variable {α β : Type} {s t : WalkState}

/-- The action runs out of the budget. -/
def Exhausts (w : Walk α) (s : WalkState) : Prop := (w s).1 = .error .budget

theorem not_exhausts_pure (a : α) : ¬ Exhausts (pure a) s := nofun

theorem Exhausts.of_bind {w : Walk α} {k : α → Walk β} (h : Exhausts (w >>= k) s) :
    Exhausts w s ∨ ∃ a t, w s = (.ok a, t) ∧ Exhausts (k a) t := by
  unfold Exhausts at h ⊢
  rw [bind_apply] at h
  rcases hw : w s with ⟨stop | a, t⟩ <;> rw [hw] at h
  · exact .inl (by simpa using h)
  · exact .inr ⟨a, t, rfl, by simpa using h⟩

theorem not_exhausts_failed {fault : DepthFault} {pos : Option Nat} :
    ¬ Exhausts (failed ctx fault pos) s := by
  intro h
  rcases h.of_bind with h | ⟨_, _, _, h⟩
  · unfold Exhausts at h
    rw [report_apply] at h
    split at h <;> exact nomatch h
  · exact not_exhausts_pure failedDepth h

theorem Exhausts.of_guarded {pos : Option Nat} {level : Int} {inside : Walk Int}
    (h : Exhausts (guarded ctx pos level inside) s) : level ≤ ctx.limit ∧ Exhausts inside s := by
  by_cases hlevel : level > ctx.limit
  · have hfailed : guarded ctx pos level inside = failed ctx _ pos := if_pos hlevel
    rw [hfailed] at h
    exact absurd h not_exhausts_failed
  · have hinside : guarded ctx pos level inside = inside := if_neg hlevel
    rw [hinside] at h
    exact ⟨Int.not_lt.1 hlevel, h⟩

/-- Asking the policy does not run out. -/
theorem Exhausts.of_ignored {name : String} {k : Bool → Walk Int}
    (h : Exhausts (ignored ctx name >>= k) s) :
    ∃ skip t, (ctx.policy.ignores name).answer = .ok skip ∧ t.active = s.active ∧
      Exhausts (k skip) t := by
  have hactive := (oblivious_ignored ctx name).active_eq s
  rcases h.of_bind with h | ⟨skip, t, hrun, h⟩
  · unfold Exhausts at h
    rw [ignored_apply] at h
    cases hanswer : (ctx.policy.ignores name).answer <;> simp [hanswer] at h
  · rw [hrun] at hactive
    rw [ignored_apply] at hrun
    obtain ⟨hanswer, -⟩ := Prod.mk.inj hrun
    refine ⟨skip, t, ?_, hactive, h⟩
    split at hanswer
    · next heq => rw [heq, Except.ok.inj hanswer]
    · exact nomatch hanswer

/-- One of the nodes runs out, with the same active fragments. -/
theorem Exhausts.of_deepest {step : Node → Walk Int} : ∀ {nodes : List Node} {s : WalkState},
    (∀ node ∈ nodes, Restores (step node)) → Exhausts (deepest step nodes) s →
      ∃ node ∈ nodes, ∃ t, t.active = s.active ∧ Exhausts (step node) t
  | [], _, _, h => absurd h (not_exhausts_pure 0)
  | [node], s, _, h => ⟨node, List.mem_cons_self, s, rfl, h⟩
  | node :: node' :: more, s, hrestores, h => by
    rcases h.of_bind with h | ⟨first, t, hrun, h⟩
    · exact ⟨node, List.mem_cons_self, s, rfl, h⟩
    have ht : t.active = s.active := by
      have hactive := hrestores node List.mem_cons_self s
      rw [hrun] at hactive
      exact hactive
    rcases h.of_bind with h | ⟨rest, _, _, h⟩
    · obtain ⟨n, hn, u, hu, h⟩ := Exhausts.of_deepest
        (fun n hn => hrestores n (List.mem_cons_of_mem _ hn)) h
      exact ⟨n, List.mem_cons_of_mem _ hn, u, hu.trans ht, h⟩
    · exact absurd h (not_exhausts_pure (max first rest))

end

/-- **A call that runs out makes a call that runs out**, of a budget smaller by one. -/
theorem Exhausts.of_measure {fuel : Nat} {node : Node} {level : Int} {s : WalkState}
    (h : Exhausts (measure ctx (fuel + 1) node level) s) :
    ∃ names child inside t, Calls ctx ⟨node, level, s.active⟩ names ⟨child, inside, t.active⟩ ∧
      Exhausts (measure ctx fuel child inside) t := by
  cases node with
  | field pos name children =>
    cases children with
    | none =>
      rw [measure_leaf] at h
      obtain ⟨-, h⟩ := h.of_guarded
      obtain ⟨skip, t, -, -, h⟩ := h.of_ignored
      cases skip <;> exact absurd h (not_exhausts_pure 0)
    | some children =>
      rw [measure_field] at h
      obtain ⟨hlevel, h⟩ := h.of_guarded
      obtain ⟨skip, t, hanswer, ht, h⟩ := h.of_ignored
      cases skip with
      | true => exact absurd h (not_exhausts_pure 0)
      | false =>
        rcases h.of_bind with h | ⟨depth, _, _, h⟩
        · obtain ⟨child, hchild, u, hu, h⟩ :=
            h.of_deepest fun n _ => restores_measure ctx fuel n (level + 1)
          refine ⟨[], child, level + 1, u, ?_, h⟩
          rw [hu, ht]
          exact .field hlevel hanswer hchild
        · exact absurd h (not_exhausts_pure (1 + depth))
  | group pos children =>
    rw [measure_group] at h
    obtain ⟨hlevel, h⟩ := h.of_guarded
    obtain ⟨child, hchild, u, hu, h⟩ := h.of_deepest fun n _ => restores_measure ctx fuel n level
    refine ⟨[], child, level, u, ?_, h⟩
    rw [hu]
    exact .group hlevel hchild
  | spread pos name =>
    rw [measure_spread] at h
    obtain ⟨hlevel, h⟩ := h.of_guarded
    cases hlookup : ctx.fragments.lookup name with
    | none =>
      rw [hlookup] at h
      exact absurd h not_exhausts_failed
    | some fragment =>
      rw [hlookup] at h
      change Exhausts (if name ∈ s.active then _ else _ : Walk Int) s at h
      by_cases hname : name ∈ s.active
      · rw [if_pos hname] at h
        exact absurd h not_exhausts_failed
      · rw [if_neg hname] at h
        exact ⟨[name], fragment, level, { s with active := name :: s.active },
          .spread hlevel hlookup hname, h⟩
  | other pos kind =>
    rw [measure_other] at h
    exact nomatch h.of_guarded.2

/-- **A walk that runs out of its budget makes a chain of calls as long as the budget.** -/
theorem exists_callChain {fuel : Nat} : ∀ {node : Node} {level : Int} {s : WalkState},
    Exhausts (measure ctx fuel node level) s →
      ∃ frames entered, CallChain ctx ⟨node, level, s.active⟩ frames entered ∧
        frames.length = fuel := by
  induction fuel with
  | zero => exact fun _ => ⟨[], [], .nil _, rfl⟩
  | succ fuel ih =>
    intro node level s h
    obtain ⟨names, child, inside, t, hcall, h⟩ := h.of_measure
    obtain ⟨frames, entered, hchain, hlength⟩ := ih h
    exact ⟨_, _, .cons hcall hchain, congrArg (· + 1) hlength⟩

/-! ## Every walk ends -/

/-- **Every walk ends, and no chain of its calls is long.** From any node, inside any fragments and
under any limit and policy, a walk ends within its budget, and no larger budget changes its end. A
chain of calls enters every fragment at most once, and it is no longer than the budget. Where a
smaller budget runs out, there is such a chain beyond it. -/
theorem run_terminates (ctx : WalkContext) (node : Node) (level : Int) (active : List String) :
    (run ctx node level active).1 ≠ .error .budget ∧
    (∀ fuel, budget ctx.fragments node ≤ fuel →
      measure ctx fuel node level (start active) = run ctx node level active) ∧
    (∀ frames entered, CallChain ctx ⟨node, level, active⟩ frames entered →
      entered.Nodup ∧ (∀ name ∈ entered, name ∉ active) ∧
        frames.length + 1 ≤ (ctx.fragments.length + 1) *
          max node.height (Node.heights (ctx.fragments.map Prod.snd))) ∧
    ∀ fuel, (measure ctx fuel node level (start active)).1 = .error .budget →
      ∃ frames entered, CallChain ctx ⟨node, level, active⟩ frames entered ∧
        frames.length = fuel := by
  have hneed := need_le_budget ctx.fragments active node
  have hbound : ∀ frames entered, CallChain ctx ⟨node, level, active⟩ frames entered →
      frames.length < budget ctx.fragments node :=
    fun frames entered hchain => Nat.lt_of_lt_of_le hchain.length_lt hneed
  refine ⟨fun hout => ?_, fun fuel hfuel => ?_, fun frames entered hchain => ?_,
    fun fuel hout => ?_⟩
  · obtain ⟨frames, entered, hchain, hlength⟩ := exists_callChain (s := start active) hout
    exact Nat.lt_irrefl _ (hlength ▸ hbound frames entered hchain)
  · rw [run_eq_walk]
    exact measure_eq_walk ctx fuel node level (start active) (Nat.le_trans hneed hfuel)
  · obtain ⟨hnodup, hnew⟩ := hchain.nodup
    exact ⟨hnodup, hnew, hbound frames entered hchain⟩
  · exact exists_callChain (s := start active) hout

/-- A chain into a fragment that spreads itself, under a limit that it does not reach. -/
theorem run_terminates_spiral : ∃ frames,
    CallChain ⟨Document.spiral.fragmentNodes, 1000000, "Q", .empty, none⟩
      ⟨Operation.spiral.node, 0, []⟩ frames ["F"] ∧ frames.length = 4 ∧ ["F"].Nodup ∧
    frames.length + 1 ≤ 6 ∧
    (run ⟨Document.spiral.fragmentNodes, 1000000, "Q", .empty, none⟩ Operation.spiral.node 0 []).1 ≠
      .error .budget := by
  obtain ⟨hend, -, hchain, -⟩ := run_terminates
    ⟨Document.spiral.fragmentNodes, 1000000, "Q", .empty, none⟩ Operation.spiral.node 0 []
  have hspiral : CallChain ⟨Document.spiral.fragmentNodes, 1000000, "Q", .empty, none⟩
      ⟨Operation.spiral.node, 0, []⟩ _ ["F"] :=
    .cons (.group (by decide) (.head _)) <| .cons (.field (by decide) rfl (.head _)) <|
      .cons (.spread (by decide) rfl (by decide)) <| .cons (.group (by decide) (.head _)) (.nil _)
  obtain ⟨hnodup, -, hlength⟩ := hchain _ _ hspiral
  exact ⟨_, hspiral, rfl, hnodup, hlength, hend⟩

end QueryDepth.Walk
