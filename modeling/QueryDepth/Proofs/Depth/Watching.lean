import Mathlib.Control.Monad.Writer
import QueryDepth.Proofs.Depth.CallChain

/-!
# What is active during a walk

A *watched* walk keeps the moments that it goes through: the beginning and the end of every call and
of every action in it, each with the path of fragments that were entered on the way to the running
call. Apart from its moments a watched walk is the walk.

**Theorem (`run_active`).** However a walk ends, it leaves those fragments active that it was given.
At every moment of it the active fragments are those of the path to the running call, followed by
those that were given. The path is what a chain of calls from the first call to the running one
enters, so that every fragment is on it at most once, and none that was given.

The proof compares each watched action with the walk's own (`Shadows`). Only entering a fragment
changes what is active, and only a fragment that is not active is entered, so leaving it removes it
and nothing else.
-/

namespace QueryDepth.Walk

/-! ## Watched walks -/

/-- What is seen at a moment: the running call, with the fragments that are active now, and the
fragments that were entered on the way to this call, the innermost first. -/
structure Moment where
  path : List String
  frame : Frame

/-- A walk that keeps the moments that it goes through. -/
abbrev Watched := ExceptT Stop (StateT WalkState (Writer (List Moment)))

namespace Watched

variable {α β : Type}

/-- What is seen of a call in a state. -/
def look (path : List String) (node : Node) (level : Int) (s : WalkState) : Moment :=
  ⟨path, node, level, s.active⟩

/-- A part of the walk during which nothing is seen. -/
def unseen (w : Walk α) : Watched α := fun s => (w s, [])

/-- Looks before and after an action, however it ends. -/
def around (moment : WalkState → Moment) (w : Watched α) : Watched α := fun s =>
  let (ending, moments) := w s
  (ending, moment s :: moments ++ [moment ending.2])

/-- Runs a part of the walk inside a fragment, and leaves the fragment however that part ends. -/
def within (name : String) (part : Watched α) : Watched α := fun s =>
  let ((result, t), moments) := part { s with active := name :: s.active }
  ((result, { t with active := t.active.filter (· ≠ name) }), moments)

/-- The greatest result over some nodes, zero if there are none. -/
def deepest (step : Node → Watched Int) : List Node → Watched Int
  | [] => return 0
  | [n] => step n
  | n :: m :: more => do
    let first ← step n
    let rest ← deepest step (m :: more)
    return max first rest

/-- The depth of a node, watched. The path grows where a fragment is entered. -/
def measure (ctx : WalkContext) : Nat → List String → Node → Int → Watched Int
  | 0, path, node, level => around (look path node level) (throw .budget)
  | budget + 1, path, node, level =>
    let act {α : Type} (w : Walk α) : Watched α := around (look path node level) (unseen w)
    around (look path node level) do
      if level > ctx.limit then act (failed ctx (.tooDeep ctx.operation ctx.limit) node.pos)
      else match node with
        | .field _ name children =>
          if ← act (ignored ctx name) then return 0
          else match children with
            | none => return 0
            | some children =>
              return 1 + (← deepest (fun n => measure ctx budget path n (level + 1)) children)
        | .group _ children => deepest (fun n => measure ctx budget path n level) children
        | .spread pos name =>
          match ctx.fragments.lookup name with
          | none => act (failed ctx (.missingFragment name) pos)
          | some fragment =>
            if name ∈ (← act get).active then
              act (failed ctx (.cyclicFragment name ctx.operation) pos)
            else within name (measure ctx budget (name :: path) fragment level)
        | .other _ kind => throw (.unhandled kind)

/-- Walks from a node, watched, with some fragments already active. -/
def run (ctx : WalkContext) (node : Node) (level : Int) (active : List String) :
    (Except Stop Int × WalkState) × List Moment :=
  measure ctx (budget ctx.fragments node) [] node level (start active)

theorem bind_apply (w : Watched α) (next : α → Watched β) (s : WalkState) :
    (w >>= next) s = match w s with
      | ((.ok a, t), moments) => ((next a t).1, moments ++ (next a t).2)
      | ((.error e, t), moments) => ((.error e, t), moments) := by
  let rest : (Except Stop β × WalkState) × List Moment :=
    ExceptT.bindCont next (w s).1.1 (w s).1.2
  change (rest.1, (w s).2 ++ rest.2) = _
  rcases h : w s with ⟨⟨e | a, t⟩, moments⟩
  · simp only [rest, h]
    exact congrArg (Prod.mk _) (List.append_nil moments)
  · simp only [rest, h]
    rfl

end Watched

/-! ## Watched walks and walks -/

/-- Where these fragments are active, the watched action does what the walk's action does, leaves
them active, and goes only through moments with the property. -/
def Shadows {α : Type} (active : List String) (P : Moment → Prop) (w : Watched α) (v : Walk α) :
    Prop :=
  ∀ s, s.active = active → (w s).1 = v s ∧ (v s).2.active = active ∧ ∀ m ∈ (w s).2, P m

namespace Shadows

variable {α β : Type} {ctx : WalkContext} {active : List String} {P : Moment → Prop}
  {w : Watched α} {v : Walk α} {moment : WalkState → Moment}

protected theorem pure (a : α) : Shadows active P (pure a) (pure a) :=
  fun _ hs => ⟨rfl, hs, nofun⟩

protected theorem throw (stop : Stop) : Shadows active P (throw stop : Watched α) (throw stop) :=
  fun _ hs => ⟨rfl, hs, nofun⟩

theorem unseen (h : Restores v) : Shadows active P (Watched.unseen v) v :=
  fun s hs => ⟨rfl, (h s).trans hs, nofun⟩

theorem around (h : Shadows active P w v) (hmoment : ∀ s, s.active = active → P (moment s)) :
    Shadows active P (Watched.around moment w) v := by
  intro s hs
  obtain ⟨hsame, hactive, hseen⟩ := h s hs
  refine ⟨hsame, hactive, fun m hm => ?_⟩
  change m ∈ moment s :: (w s).2 ++ [moment (w s).1.2] at hm
  rw [hsame] at hm
  rcases List.mem_append.1 hm with hm | hm
  · rcases List.mem_cons.1 hm with rfl | hm
    · exact hmoment s hs
    · exact hseen m hm
  · rw [List.mem_singleton.1 hm]
    exact hmoment _ hactive

/-- What comes next may count on what the first action can give. -/
theorem bind {next : α → Watched β} {next' : α → Walk β} (h : Shadows active P w v)
    (hnext : ∀ a s, s.active = active → (v s).1 = .ok a → Shadows active P (next a) (next' a)) :
    Shadows active P (w >>= next) (v >>= next') := by
  intro s hs
  obtain ⟨hsame, hactive, hseen⟩ := h s hs
  rw [Watched.bind_apply, bind_apply]
  rcases hrun : w s with ⟨⟨e | a, t⟩, moments⟩
  · rw [hrun] at hsame hseen
    rw [← hsame] at hactive ⊢
    exact ⟨rfl, hactive, hseen⟩
  · rw [hrun] at hsame hseen
    have hgives := hnext a s hs (by rw [← hsame])
    rw [← hsame] at hactive ⊢
    obtain ⟨hsame', hactive', hseen'⟩ := hgives t hactive
    refine ⟨hsame', hactive', fun m hm => ?_⟩
    rcases List.mem_append.1 hm with hm | hm
    · exact hseen m hm
    · exact hseen' m hm

theorem deepest {step : Node → Watched Int} {step' : Node → Walk Int} :
    ∀ {nodes : List Node}, (∀ node ∈ nodes, Shadows active P (step node) (step' node)) →
      Shadows active P (Watched.deepest step nodes) (Walk.deepest step' nodes)
  | [], _ => .pure 0
  | [node], h => h node List.mem_cons_self
  | node :: node' :: more, h => by
    have hrest : ∀ n ∈ node' :: more, Shadows active P (step n) (step' n) := fun n hn =>
      h n (List.mem_cons_of_mem _ hn)
    exact (h node List.mem_cons_self).bind fun first _ _ _ =>
      (deepest hrest).bind fun rest _ _ _ => .pure (max first rest)

/-- A fragment that was not active is active inside, and is not afterwards. -/
theorem within {name : String} (h : Shadows (name :: active) P w v) (hname : name ∉ active) :
    Shadows active P (Watched.within name w) (Walk.within name v) := by
  intro s hs
  obtain ⟨hsame, hactive, hseen⟩ := h { s with active := name :: s.active } (by rw [hs])
  refine ⟨?_, ?_, hseen⟩
  · unfold Watched.within Walk.within
    rw [← hsame]
    rfl
  · change (v { s with active := name :: s.active }).2.active.filter (· ≠ name) = active
    rw [hactive]
    exact leave_entered hname

/-- A node below the limit is reported, whatever is done with another one. -/
theorem guarded {w w' : Watched Int} {v : Walk Int} {pos : Option Nat} {level : Int}
    (hdeep : Shadows active P w' (failed ctx (.tooDeep ctx.operation ctx.limit) pos))
    (h : level ≤ ctx.limit → Shadows active P w v) :
    Shadows active P (if level > ctx.limit then w' else w) (guarded ctx pos level v) := by
  unfold Walk.guarded
  by_cases hlevel : level > ctx.limit
  · rw [if_pos hlevel, if_pos hlevel]
    exact hdeep
  · rw [if_neg hlevel, if_neg hlevel]
    exact h (Int.not_lt.1 hlevel)

end Shadows

/-! ## Moments on chains of calls -/

variable {ctx : WalkContext} {f g : Frame} {names entered path active : List String}
  {frames : List Frame} {m : Moment}

/-- Nested calls from a frame lead to the running call, which has the fragments that are active now,
and what they enter continues the path. -/
def OnChain (ctx : WalkContext) (f : Frame) (path : List String) (m : Moment) : Prop :=
  ∃ frames entered, CallChain ctx f frames entered ∧ frames.getLastD f = m.frame ∧
    m.path = entered.reverse ++ path

/-- A call enters at most one fragment. -/
theorem Calls.reverse_eq (h : Calls ctx f names g) : names.reverse = names := by
  cases h <;> rfl

/-- Entered fragments are active in the last call of a chain, on top of those of the first. -/
theorem CallChain.active_eq (h : CallChain ctx f frames entered) :
    (frames.getLastD f).active = entered.reverse ++ f.active := by
  induction h with
  | nil f => rfl
  | @cons f g names frames entered hcall _ ih =>
    rw [List.getLastD_cons, ih, hcall.active_eq, List.reverse_append, hcall.reverse_eq,
      List.append_assoc]

theorem onChain_look (ctx : WalkContext) (path : List String) (node : Node) (level : Int)
    {s : WalkState} (hs : s.active = active) :
    OnChain ctx ⟨node, level, active⟩ path (Watched.look path node level s) := by
  refine ⟨[], [], .nil _, ?_, rfl⟩
  rw [← hs]
  rfl

/-- The moments of a call that another call makes are moments of that call. -/
theorem OnChain.of_calls (hcall : Calls ctx f names g) (h : OnChain ctx g (names ++ path) m) :
    OnChain ctx f path m := by
  obtain ⟨frames, entered, hchain, hlast, hpath⟩ := h
  refine ⟨g :: frames, names ++ entered, .cons hcall hchain, ?_, ?_⟩
  · rw [List.getLastD_cons, hlast]
  · rw [hpath, List.reverse_append, hcall.reverse_eq, List.append_assoc]

theorem Shadows.of_calls {α : Type} {w : Watched α} {v : Walk α} (hcall : Calls ctx f names g)
    (h : Shadows active (OnChain ctx g (names ++ path)) w v) :
    Shadows active (OnChain ctx f path) w v := by
  intro s hs
  obtain ⟨hsame, hactive, hseen⟩ := h s hs
  exact ⟨hsame, hactive, fun m hm => (hseen m hm).of_calls hcall⟩

/-- What the policy answers, if it answers. -/
theorem answer_of_ignored {name : String} {skip : Bool} {s : WalkState}
    (h : (ignored ctx name s).1 = .ok skip) : (ctx.policy.ignores name).answer = .ok skip := by
  rw [ignored_apply] at h
  cases hanswer : (ctx.policy.ignores name).answer with
  | ok answer => simpa [hanswer] using h
  | error message => simp [hanswer] at h

/-- An action of a call that enters nothing is seen during this call. -/
theorem Shadows.act {α : Type} {v : Walk α} (hv : Restores v) (ctx : WalkContext)
    (path : List String) (node : Node) (level : Int) (active : List String) :
    Shadows active (OnChain ctx ⟨node, level, active⟩ path)
      (Watched.around (Watched.look path node level) (Watched.unseen v)) v :=
  (Shadows.unseen hv).around fun _ => onChain_look ctx path node level

theorem restores_failed (ctx : WalkContext) (fault : DepthFault) (pos : Option Nat) :
    Restores (failed ctx fault pos) := (oblivious_failed ctx fault pos).restores

theorem restores_ignored (ctx : WalkContext) (name : String) : Restores (ignored ctx name) :=
  (oblivious_ignored ctx name).restores

/-- **A watched walk is the walk, and all its moments are on chains of calls.** -/
theorem shadows_measure (ctx : WalkContext) : ∀ (fuel : Nat) (path : List String) (node : Node)
    (level : Int) (active : List String),
    Shadows active (OnChain ctx ⟨node, level, active⟩ path)
      (Watched.measure ctx fuel path node level) (measure ctx fuel node level) := by
  intro fuel
  induction fuel with
  | zero =>
    intro path node level active
    exact (Shadows.throw .budget).around fun _ => onChain_look ctx path node level
  | succ fuel ih =>
    intro path node level active
    have hfailed : ∀ {fault : DepthFault} {pos : Option Nat},
        Shadows active (OnChain ctx ⟨node, level, active⟩ path)
          (Watched.around (Watched.look path node level) (Watched.unseen (failed ctx fault pos)))
          (failed ctx fault pos) := .act (restores_failed ctx _ _) ctx path node level active
    refine Shadows.around ?_ fun _ => onChain_look ctx path node level
    cases node with
    | field pos name children =>
      have hignored := Shadows.act (restores_ignored ctx name) ctx path
        (.field pos name children) level active
      cases children with
      | none =>
        rw [measure_leaf]
        refine hfailed.guarded fun hlevel => hignored.bind fun skip s hs hskip => ?_
        cases skip <;> exact .pure 0
      | some children =>
        rw [measure_field]
        refine hfailed.guarded fun hlevel => hignored.bind fun skip s hs hskip => ?_
        cases skip with
        | true => exact .pure 0
        | false =>
          have hanswer := answer_of_ignored hskip
          have hchildren : ∀ child ∈ children,
              Shadows active (OnChain ctx ⟨.field pos name (some children), level, active⟩ path)
                (Watched.measure ctx fuel path child (level + 1))
                (measure ctx fuel child (level + 1)) :=
            fun child hchild => (ih path child (level + 1) active).of_calls
              (.field hlevel hanswer hchild)
          exact (Shadows.deepest hchildren).bind fun depth _ _ _ => .pure (1 + depth)
    | group pos children =>
      rw [measure_group]
      refine hfailed.guarded fun hlevel => ?_
      exact Shadows.deepest fun child hchild => (ih path child level active).of_calls
        (.group hlevel hchild)
    | spread pos name =>
      rw [measure_spread]
      refine hfailed.guarded fun hlevel => ?_
      cases hlookup : ctx.fragments.lookup name with
      | none => exact hfailed
      | some fragment =>
        have hget := Shadows.act (v := get) (fun _ => rfl) ctx path (.spread pos name) level active
        refine hget.bind fun t s hs ht => ?_
        obtain rfl : s = t := Except.ok.inj ht
        rw [hs]
        by_cases hname : name ∈ active
        · rw [if_pos hname, if_pos hname]
          exact hfailed
        · rw [if_neg hname, if_neg hname]
          have hcall : Calls ctx ⟨.spread pos name, level, active⟩ [name]
              ⟨fragment, level, name :: active⟩ := .spread hlevel hlookup hname
          exact ((ih (name :: path) fragment level (name :: active)).of_calls hcall).within hname
    | other pos kind =>
      rw [measure_other]
      exact hfailed.guarded fun _ => .throw _

/-- **The active fragments are those of the path, and are restored on every exit.** A walk leaves
those fragments active that it was given, whether it comes to a depth or is stopped. Watched, it is
the same walk, and at each of its moments the active fragments are the path to the running call and
then the given ones. A chain of calls to the running one enters the path, each fragment once and
none of those that were given. -/
theorem run_active (ctx : WalkContext) (node : Node) (level : Int) (active : List String) :
    (run ctx node level active).2.active = active ∧
    (Watched.run ctx node level active).1 = run ctx node level active ∧
    ∀ m ∈ (Watched.run ctx node level active).2,
      m.frame.active = m.path ++ active ∧ m.path.Nodup ∧ (∀ name ∈ m.path, name ∉ active) ∧
      ∃ frames, CallChain ctx ⟨node, level, active⟩ frames m.path.reverse ∧
        frames.getLastD ⟨node, level, active⟩ = m.frame := by
  obtain ⟨hsame, hactive, hseen⟩ :=
    shadows_measure ctx (budget ctx.fragments node) [] node level active (start active) rfl
  refine ⟨hactive, hsame, fun m hm => ?_⟩
  obtain ⟨frames, entered, hchain, hlast, hpath⟩ := hseen m hm
  rw [List.append_nil] at hpath
  obtain ⟨hnodup, hnew⟩ := hchain.nodup
  have hentered : m.path.reverse = entered := by rw [hpath, List.reverse_reverse]
  refine ⟨?_, ?_, fun name hname => ?_, frames, ?_, hlast⟩
  · rw [← hlast, hchain.active_eq, hpath]
  · rw [hpath]
    exact (List.reverse_perm entered).nodup_iff.2 hnodup
  · rw [hpath] at hname
    exact hnew name (List.mem_reverse.1 hname)
  · rw [hentered]
    exact hchain

/-- A fragment that spreads itself is entered once, and left before its sibling is looked at. -/
example : ((Watched.run ⟨Document.spiral.fragmentNodes, 1000000, "Q", .empty, none⟩
    Operation.spiral.node 0 []).2.map fun m => m.frame.active) =
      List.replicate 7 [] ++ List.replicate 16 ["F"] ++ List.replicate 7 [] := by decide

end QueryDepth.Walk
