import QueryDepth.Depth.Walk

/-!
# The fragment-expanded tree

Following every spread into its fragment turns a node into a tree without names to resolve, the
*expansion* of the node. A spread of no fragment, and a spread that re-enters a fragment it is
inside of, end a branch of the tree. Expansion is well-founded: each entered fragment leaves one
entry fewer to enter, and between two spreads the node gets smaller.

**Theorem (`run_eq_walk`).** A walk from a node is the plain recursion `Expansion.walk` over the
node's expansion. In particular no walk uses up its budget, and none depends on fragments other
than through the expansion.

The proof compares the budget that is left with `need`, what the node and the fragments not yet
entered can use up. It also needs that the recursion over an expansion neither reads nor changes
the active fragments (`Oblivious`), so that each sibling starts with the same ones.
-/

namespace QueryDepth

/-- A node with its spreads followed. -/
inductive Expansion where
  /-- A field without a selection set. -/
  | leaf (pos : Option Nat) (name : String)
  | field (pos : Option Nat) (name : String) (children : List Expansion)
  | group (pos : Option Nat) (children : List Expansion)
  /-- A spread and the fragment that it leads into. -/
  | followed (pos : Option Nat) (name : String) (fragment : Expansion)
  /-- A spread of no fragment. -/
  | missing (pos : Option Nat) (name : String)
  /-- A spread of a fragment that is entered already. -/
  | reentry (pos : Option Nat) (name : String)
  | other (pos : Option Nat) (kind : String)

variable {fragments : List (String × Node)} {active : List String} {name : String}

/-! ## Expanding a node -/

/-- How many entries of an index are not active. -/
def unentered {α : Type} (fragments : List (String × α)) (active : List String) : Nat :=
  (fragments.filter fun f => f.1 ∉ active).length

theorem mem_of_lookup {α β : Type} [BEq α] [LawfulBEq α] {key : α} {value : β} {l : List (α × β)}
    (h : l.lookup key = some value) : (key, value) ∈ l := by
  obtain ⟨l₁, l₂, rfl, -⟩ := List.lookup_eq_some_iff.1 h
  exact List.mem_append_right _ List.mem_cons_self

/-- Entering a fragment leaves fewer to enter. -/
theorem unentered_cons_lt {α : Type} {fragments : List (String × α)} {fragment : α}
    (h : fragments.lookup name = some fragment) (hname : name ∉ active) :
    unentered fragments (name :: active) < unentered fragments active := by
  have hsplit : (fragments.filter fun f => f.1 ∉ name :: active) =
      (fragments.filter fun f => f.1 ∉ active).filter fun f => f.1 ≠ name := by
    rw [List.filter_filter]
    exact List.filter_congr fun f _ => by simp [not_or]
  unfold unentered
  rw [hsplit, List.length_filter_lt_length_iff_exists]
  exact ⟨(name, fragment), List.mem_filter.2 ⟨mem_of_lookup h, by simpa using hname⟩, by simp⟩

namespace Node

mutual

/-- The expansion of a node inside some active fragments. -/
def expand (fragments : List (String × Node)) (active : List String) : Node → Expansion
  | .field pos name none => .leaf pos name
  | .field pos name (some children) => .field pos name (expandAll fragments active children)
  | .group pos children => .group pos (expandAll fragments active children)
  | .spread pos name =>
    match _h : fragments.lookup name with
    | none => .missing pos name
    | some fragment =>
      if _hname : name ∈ active then .reentry pos name
      else .followed pos name (expand fragments (name :: active) fragment)
  | .other pos kind => .other pos kind
termination_by node => (unentered fragments active, sizeOf node)
decreasing_by
  · exact Prod.Lex.right _ (by simp only [field.sizeOf_spec, Option.some.sizeOf_spec]; omega)
  · exact Prod.Lex.right _ (by simp only [group.sizeOf_spec]; omega)
  · exact Prod.Lex.left _ _ (unentered_cons_lt _h _hname)

def expandAll (fragments : List (String × Node)) (active : List String) :
    List Node → List Expansion
  | [] => []
  | node :: nodes => expand fragments active node :: expandAll fragments active nodes
termination_by nodes => (unentered fragments active, sizeOf nodes)
decreasing_by
  · exact Prod.Lex.right _ (by simp only [List.cons.sizeOf_spec]; omega)
  · exact Prod.Lex.right _ (by simp only [List.cons.sizeOf_spec]; omega)

end

attribute [simp] expandAll

@[simp] theorem expand_leaf (pos : Option Nat) :
    expand fragments active (.field pos name none) = .leaf pos name := by
  rw [expand]

@[simp] theorem expand_field (pos : Option Nat) (children : List Node) :
    expand fragments active (.field pos name (some children)) =
      .field pos name (expandAll fragments active children) := by
  rw [expand]

@[simp] theorem expand_group (pos : Option Nat) (children : List Node) :
    expand fragments active (.group pos children) =
      .group pos (expandAll fragments active children) := by
  rw [expand]

@[simp] theorem expand_other (pos : Option Nat) (kind : String) :
    expand fragments active (.other pos kind) = .other pos kind := by
  rw [expand]

/-- A spread is missing, or entered already, or followed. -/
theorem expand_spread (pos : Option Nat) :
    expand fragments active (.spread pos name) =
      match fragments.lookup name with
      | none => .missing pos name
      | some fragment =>
        if name ∈ active then .reentry pos name
        else .followed pos name (expand fragments (name :: active) fragment) := by
  rw [expand]
  split
  · next h => rw [h]
  · next h =>
    rw [h]
    split <;> rfl

theorem expand_missing (pos : Option Nat) (h : fragments.lookup name = none) :
    expand fragments active (.spread pos name) = .missing pos name := by
  rw [expand_spread, h]

theorem expand_reentry (pos : Option Nat) {fragment : Node}
    (h : fragments.lookup name = some fragment) (hname : name ∈ active) :
    expand fragments active (.spread pos name) = .reentry pos name := by
  rw [expand_spread, h]
  exact if_pos hname

theorem expand_followed (pos : Option Nat) {fragment : Node}
    (h : fragments.lookup name = some fragment) (hname : name ∉ active) :
    expand fragments active (.spread pos name) =
      .followed pos name (expand fragments (name :: active) fragment) := by
  rw [expand_spread, h]
  exact if_neg hname

theorem expandAll_eq_map (fragments : List (String × Node)) (active : List String)
    (nodes : List Node) :
    expandAll fragments active nodes = nodes.map (expand fragments active) := by
  induction nodes with
  | nil => simp
  | cons node nodes ih => simp [ih]

@[simp] theorem mem_expandAll {e : Expansion} {nodes : List Node} :
    e ∈ expandAll fragments active nodes ↔ ∃ node ∈ nodes, node.expand fragments active = e := by
  induction nodes with
  | nil => simp
  | cons node nodes ih => simp [ih, eq_comm]

/-- Induction along an expansion: over the children of a node, and into an entered fragment. -/
theorem expand_induct (fragments : List (String × Node)) {motive : List String → Node → Prop}
    (leaf : ∀ active pos name, motive active (.field pos name none))
    (field : ∀ active pos name children, (∀ node ∈ children, motive active node) →
      motive active (.field pos name (some children)))
    (group : ∀ active pos children, (∀ node ∈ children, motive active node) →
      motive active (.group pos children))
    (missing : ∀ active pos name, fragments.lookup name = none →
      motive active (.spread pos name))
    (reentry : ∀ active pos name fragment, fragments.lookup name = some fragment →
      name ∈ active → motive active (.spread pos name))
    (followed : ∀ active pos name fragment, fragments.lookup name = some fragment →
      name ∉ active → motive (name :: active) fragment → motive active (.spread pos name))
    (other : ∀ active pos kind, motive active (.other pos kind)) :
    ∀ active node, motive active node :=
  (expand.mutual_induct fragments motive (fun active nodes => ∀ node ∈ nodes, motive active node)
    leaf field group missing reentry followed other (fun _ _ h => nomatch h)
    fun active node nodes hnode hnodes n hn => by
      rcases List.mem_cons.1 hn with rfl | hn
      · exact hnode
      · exact hnodes n hn).1

end Node

/-! ## Walking over an expansion -/

namespace Walk

/-- A node below the limit is reported; any other is walked. -/
def guarded (ctx : WalkContext) (pos : Option Nat) (level : Int) (inside : Walk Int) : Walk Int :=
  if level > ctx.limit then do
    report ctx (.tooDeep ctx.operation ctx.limit) pos
    return failedDepth
  else inside

/-- Reports a spread that leads nowhere. -/
def failed (ctx : WalkContext) (fault : DepthFault) (pos : Option Nat) : Walk Int := do
  report ctx fault pos
  return failedDepth

end Walk

namespace Expansion

open Walk

mutual

/-- The walk over an expansion: no fragment is looked up and none is marked as active. -/
def walk (ctx : WalkContext) : Expansion → Int → Walk Int
  | .leaf pos name, level => guarded ctx pos level do
    let _ ← ignored ctx name
    return 0
  | .field pos name children, level => guarded ctx pos level do
    if ← ignored ctx name then return 0
    else return 1 + (← walkAll ctx children (level + 1))
  | .group pos children, level => guarded ctx pos level (walkAll ctx children level)
  | .followed pos _ fragment, level => guarded ctx pos level (walk ctx fragment level)
  | .missing pos name, level => guarded ctx pos level (failed ctx (.missingFragment name) pos)
  | .reentry pos name, level =>
    guarded ctx pos level (failed ctx (.cyclicFragment name ctx.operation) pos)
  | .other pos kind, level => guarded ctx pos level (throw (.unhandled kind))

/-- The greatest result over some expansions, zero if there are none. -/
def walkAll (ctx : WalkContext) : List Expansion → Int → Walk Int
  | [], _ => return 0
  | [e], level => walk ctx e level
  | e :: e' :: more, level => do
    let first ← walk ctx e level
    let rest ← walkAll ctx (e' :: more) level
    return max first rest

end

end Expansion

/-! ## What the steps of a walk do -/

/-- There is room for this many reports. -/
def WalkContext.holds (ctx : WalkContext) (count : Nat) : Bool :=
  match ctx.room with
  | none => true
  | some room => count ≤ room

namespace Walk

variable {α β : Type} {ctx : WalkContext}

theorem bind_apply (w : Walk α) (next : α → Walk β) (s : WalkState) :
    (w >>= next) s = match w s with
      | (.ok a, t) => next a t
      | (.error e, t) => (.error e, t) := by
  change ExceptT.bindCont next (w s).1 (w s).2 = _
  rcases w s with ⟨_ | _, t⟩ <;> rfl

theorem report_apply (ctx : WalkContext) (fault : DepthFault) (pos : Option Nat) (s : WalkState) :
    report ctx fault pos s =
      if ctx.holds (s.reports.size + 1) then
        (.ok (), { s with reports := s.reports.push ⟨fault, pos⟩ })
      else (.error .full, s) := by
  rcases ctx with ⟨_, _, _, _, _ | room⟩
  · rfl
  · change (if decide (s.reports.size < room) = true then _ else _ : Walk Unit) s = _
    by_cases h : s.reports.size < room
    · simp [WalkContext.holds, h, Nat.succ_le_of_lt h]
      rfl
    · have h' : ¬ s.reports.size + 1 ≤ room := h
      simp [WalkContext.holds, h, h']
      rfl

theorem ignored_apply (ctx : WalkContext) (name : String) (s : WalkState) :
    ignored ctx name s =
      (match (ctx.policy.ignores name).answer with
        | .ok b => .ok b
        | .error message => .error (.predicate message),
       { s with calls := s.calls ++ (ctx.policy.ignores name).calls.toArray }) := by
  unfold ignored
  cases (ctx.policy.ignores name).answer <;> rfl

/-! ## Actions that leave the active fragments alone -/

/-- The action neither reads nor changes the active fragments. -/
def Oblivious (w : Walk α) : Prop :=
  ∀ s active, w { s with active } = ((w s).1, { (w s).2 with active })

theorem Oblivious.active_eq {w : Walk α} (h : Oblivious w) (s : WalkState) :
    (w s).2.active = s.active := by
  have hs : w s = ((w s).1, { (w s).2 with active := s.active }) := h s s.active
  rw [hs]

theorem oblivious_pure (a : α) : Oblivious (pure a : Walk α) := fun _ _ => rfl

theorem oblivious_throw (stop : Stop) : Oblivious (throw stop : Walk α) := fun _ _ => rfl

theorem Oblivious.bind {w : Walk α} {next : α → Walk β} (hw : Oblivious w)
    (hnext : ∀ a, Oblivious (next a)) : Oblivious (w >>= next) := by
  intro s active
  rw [bind_apply, bind_apply, hw s active]
  rcases w s with ⟨_ | a, t⟩
  · rfl
  · exact hnext a t active

theorem oblivious_report (ctx : WalkContext) (fault : DepthFault) (pos : Option Nat) :
    Oblivious (report ctx fault pos) := by
  intro s active
  rw [report_apply, report_apply]
  split <;> rfl

theorem oblivious_ignored (ctx : WalkContext) (name : String) :
    Oblivious (ignored ctx name) := by
  intro s active
  rw [ignored_apply, ignored_apply]

theorem oblivious_failed (ctx : WalkContext) (fault : DepthFault) (pos : Option Nat) :
    Oblivious (failed ctx fault pos) :=
  (oblivious_report ctx fault pos).bind fun _ => oblivious_pure failedDepth

theorem Oblivious.guarded {inside : Walk Int} (h : Oblivious inside) (pos : Option Nat)
    (level : Int) : Oblivious (guarded ctx pos level inside) := by
  unfold Walk.guarded
  split
  · exact oblivious_failed ctx _ pos
  · exact h

end Walk

namespace Expansion

open Walk

mutual

theorem oblivious_walk (ctx : WalkContext) : ∀ (e : Expansion) (level : Int),
    Oblivious (e.walk ctx level)
  | .leaf pos name, level => by
    rw [walk]
    exact ((oblivious_ignored ctx name).bind fun _ => oblivious_pure 0).guarded pos level
  | .field pos name children, level => by
    rw [walk]
    refine ((oblivious_ignored ctx name).bind fun skip => ?_).guarded pos level
    split
    · exact oblivious_pure 0
    · exact (oblivious_walkAll ctx children (level + 1)).bind fun d => oblivious_pure (1 + d)
  | .group pos children, level => by
    rw [walk]
    exact (oblivious_walkAll ctx children level).guarded pos level
  | .followed pos _ fragment, level => by
    rw [walk]
    exact (oblivious_walk ctx fragment level).guarded pos level
  | .missing pos name, level => by
    rw [walk]
    exact (oblivious_failed ctx _ pos).guarded pos level
  | .reentry pos name, level => by
    rw [walk]
    exact (oblivious_failed ctx _ pos).guarded pos level
  | .other pos kind, level => by
    rw [walk]
    exact (oblivious_throw _).guarded pos level

theorem oblivious_walkAll (ctx : WalkContext) : ∀ (es : List Expansion) (level : Int),
    Oblivious (walkAll ctx es level)
  | [], level => oblivious_pure 0
  | [e], level => oblivious_walk ctx e level
  | e :: e' :: more, level => by
    rw [walkAll]
    exact (oblivious_walk ctx e level).bind fun first =>
      (oblivious_walkAll ctx (e' :: more) level).bind fun rest => oblivious_pure (max first rest)

end

end Expansion

/-! ## A walk is the walk over the expansion -/

namespace Walk

variable {ctx : WalkContext}

/-- What a walk from a node can use up of its budget: the levels of the node, and for each
fragment that is not entered yet those of the tallest one. -/
def need (fragments : List (String × Node)) (active : List String) (levels : Nat) : Nat :=
  levels + unentered fragments active * Node.heights (fragments.map Prod.snd)

theorem height_le_heights {node : Node} : ∀ {nodes : List Node}, node ∈ nodes →
    node.height ≤ Node.heights nodes
  | _ :: _, .head _ => by rw [Node.heights]; exact Nat.le_max_left ..
  | _ :: _, .tail _ h => by
    rw [Node.heights]
    exact Nat.le_trans (height_le_heights h) (Nat.le_max_right ..)

/-- Entering a fragment fits into what the spread of it may use up. -/
theorem need_fragment {fragment : Node} (h : fragments.lookup name = some fragment)
    (hname : name ∉ active) :
    need fragments (name :: active) fragment.height + 1 ≤ need fragments active 1 := by
  have hlt := unentered_cons_lt h hname
  have hheight : fragment.height ≤ Node.heights (fragments.map Prod.snd) :=
    height_le_heights (List.mem_map.2 ⟨_, mem_of_lookup h, rfl⟩)
  have hmul := Nat.mul_le_mul_right (Node.heights (fragments.map Prod.snd)) hlt
  rw [Nat.succ_mul] at hmul
  unfold need
  omega

theorem need_le_budget (fragments : List (String × Node)) (active : List String) (node : Node) :
    need fragments active node.height ≤ budget fragments node := by
  have hlen : unentered fragments active ≤ fragments.length := List.length_filter_le ..
  have hheight := Nat.le_max_left node.height (Node.heights (fragments.map Prod.snd))
  have htallest := Nat.le_max_right node.height (Node.heights (fragments.map Prod.snd))
  have hmul := Nat.mul_le_mul hlen htallest
  unfold need budget
  rw [Nat.succ_mul]
  omega

/-- Siblings start with the same active fragments, so what holds of each holds of all. -/
theorem deepest_eq_walkAll {step : Node → Walk Int} {level : Int} :
    ∀ (nodes : List Node) (s : WalkState),
      (∀ node ∈ nodes, ∀ s : WalkState, s.active = active →
        step node s = (node.expand fragments active).walk ctx level s) → s.active = active →
      deepest step nodes s = Expansion.walkAll ctx (Node.expandAll fragments active nodes) level s
  | [], s, _, _ => by simp only [deepest, Node.expandAll, Expansion.walkAll]
  | [node], s, h, hs => by
    simp only [deepest, Node.expandAll, Expansion.walkAll]
    exact h node List.mem_cons_self s hs
  | node :: node' :: more, s, h, hs => by
    have hfirst := h node List.mem_cons_self s hs
    have hactive := (Expansion.oblivious_walk ctx (node.expand fragments active) level).active_eq s
    simp only [deepest, Node.expandAll, Expansion.walkAll, bind_apply]
    rw [hfirst]
    rcases hwalk : (node.expand fragments active).walk ctx level s with ⟨_ | first, t⟩
    · rfl
    · rw [hwalk] at hactive
      have hrest := deepest_eq_walkAll (node' :: more) t
        (fun n hn => h n (List.mem_cons_of_mem _ hn)) (hactive.trans hs)
      simp only [Node.expandAll] at hrest
      simp only [hrest]

/-- Leaving a fragment that was not active restores the active fragments. -/
theorem leave_entered (hname : name ∉ active) : (name :: active).filter (· ≠ name) = active := by
  rw [List.filter_cons_of_neg (by simp)]
  exact List.filter_eq_self.2 fun a ha => by simpa using ne_of_mem_of_not_mem ha hname

/-- Being inside a fragment shows nowhere but in the active fragments. -/
theorem within_eq {part : Walk Int} {e : Expansion} {level : Int} {s : WalkState}
    (hname : name ∉ s.active)
    (h : part { s with active := name :: s.active } =
      e.walk ctx level { s with active := name :: s.active }) :
    within name part s = e.walk ctx level s := by
  have hob := Expansion.oblivious_walk ctx e level
  unfold within
  rw [h, hob s (name :: s.active)]
  simp only [leave_entered hname]
  rw [← hob s s.active]

theorem measure_leaf (ctx : WalkContext) (fuel : Nat) (pos : Option Nat) (name : String)
    (level : Int) : measure ctx (fuel + 1) (.field pos name none) level = guarded ctx pos level do
      if ← ignored ctx name then return 0 else return 0 := rfl

theorem measure_field (ctx : WalkContext) (fuel : Nat) (pos : Option Nat) (name : String)
    (children : List Node) (level : Int) :
    measure ctx (fuel + 1) (.field pos name (some children)) level = guarded ctx pos level do
      if ← ignored ctx name then return 0
      else return 1 + (← deepest (fun n => measure ctx fuel n (level + 1)) children) := rfl

theorem measure_group (ctx : WalkContext) (fuel : Nat) (pos : Option Nat) (children : List Node)
    (level : Int) : measure ctx (fuel + 1) (.group pos children) level =
      guarded ctx pos level (deepest (fun n => measure ctx fuel n level) children) := rfl

theorem measure_spread (ctx : WalkContext) (fuel : Nat) (pos : Option Nat) (name : String)
    (level : Int) : measure ctx (fuel + 1) (.spread pos name) level = guarded ctx pos level
      (match ctx.fragments.lookup name with
      | none => failed ctx (.missingFragment name) pos
      | some fragment => do
        if name ∈ (← get).active then failed ctx (.cyclicFragment name ctx.operation) pos
        else within name (measure ctx fuel fragment level)) := rfl

theorem measure_other (ctx : WalkContext) (fuel : Nat) (pos : Option Nat) (kind : String)
    (level : Int) : measure ctx (fuel + 1) (.other pos kind) level =
      guarded ctx pos level (throw (.unhandled kind)) := rfl

theorem guarded_congr {pos : Option Nat} {level : Int} {inside inside' : Walk Int} {s : WalkState}
    (h : inside s = inside' s) :
    guarded ctx pos level inside s = guarded ctx pos level inside' s := by
  unfold guarded
  split
  · rfl
  · exact h

theorem height_pos : ∀ node : Node, 0 < node.height
  | .field _ _ none | .field _ _ (some _) | .spread _ _ | .group _ _ | .other _ _ => by
    simp [Node.height]

/-- **A budget that covers `need` is enough**, and with it a walk is the walk over the expansion. -/
theorem measure_eq_walk (ctx : WalkContext) : ∀ (fuel : Nat) (node : Node) (level : Int)
    (s : WalkState), need ctx.fragments s.active node.height ≤ fuel →
      measure ctx fuel node level s = (node.expand ctx.fragments s.active).walk ctx level s := by
  intro fuel
  induction fuel with
  | zero =>
    intro node level s hfuel
    have hpos := height_pos node
    unfold need at hfuel
    omega
  | succ fuel ih =>
    -- What is left is enough for the children of a node.
    have hchildren : ∀ (nodes : List Node) (s : WalkState) (level : Int),
        need ctx.fragments s.active (Node.heights nodes) ≤ fuel →
        deepest (fun n => measure ctx fuel n level) nodes s =
          Expansion.walkAll ctx (Node.expandAll ctx.fragments s.active nodes) level s := by
      intro nodes s level hfuel
      refine deepest_eq_walkAll nodes s (fun node hnode t ht => ?_) rfl
      have hheight := height_le_heights hnode
      rw [← ht]
      refine ih node level t ?_
      rw [ht]
      unfold need at hfuel ⊢
      omega
    intro node level s hfuel
    cases node with
    | field pos name children =>
      have hactive := (oblivious_ignored ctx name).active_eq s
      cases children with
      | none =>
        rw [measure_leaf, Node.expand_leaf, Expansion.walk]
        refine guarded_congr ?_
        rw [bind_apply, bind_apply]
        rcases ignored ctx name s with ⟨_ | skip, t⟩
        · rfl
        · cases skip <;> rfl
      | some children =>
        rw [measure_field, Node.expand_field, Expansion.walk]
        refine guarded_congr ?_
        rw [bind_apply, bind_apply]
        rcases hskip : ignored ctx name s with ⟨_ | skip, t⟩
        · rfl
        · have ht : t.active = s.active := by rw [← hactive, hskip]
          cases skip with
          | true => rfl
          | false =>
            have hall := hchildren children t (level + 1) (by
              rw [ht]
              unfold need at hfuel ⊢
              rw [Node.height] at hfuel
              omega)
            rw [ht] at hall
            simp only [Bool.false_eq_true, if_false, bind_apply, hall]
    | group pos children =>
      rw [measure_group, Node.expand_group, Expansion.walk]
      refine guarded_congr (hchildren children s level ?_)
      unfold need at hfuel ⊢
      rw [Node.height] at hfuel
      omega
    | spread pos name =>
      rw [measure_spread]
      cases hlookup : ctx.fragments.lookup name with
      | none => rw [Node.expand_missing pos hlookup, Expansion.walk]
      | some fragment =>
        by_cases hname : name ∈ s.active
        · rw [Node.expand_reentry pos hlookup hname, Expansion.walk]
          refine guarded_congr ?_
          change (if name ∈ s.active then _ else _ : Walk Int) s = _
          rw [if_pos hname]
        · rw [Node.expand_followed pos hlookup hname, Expansion.walk]
          refine guarded_congr ?_
          change (if name ∈ s.active then _ else _ : Walk Int) s = _
          rw [if_neg hname]
          refine within_eq hname (ih fragment level _ ?_)
          have hfragment := need_fragment hlookup hname
          rw [Node.height] at hfuel
          dsimp only
          omega
    | other pos kind => rw [measure_other, Node.expand_other, Expansion.walk]

/-- **A walk is the walk over the expansion.** -/
theorem run_eq_walk (ctx : WalkContext) (node : Node) (level : Int) (active : List String) :
    run ctx node level active =
      (node.expand ctx.fragments active).walk ctx level (start active) :=
  measure_eq_walk ctx (budget ctx.fragments node) node level (start active)
    (need_le_budget ctx.fragments active node)

end Walk

end QueryDepth
