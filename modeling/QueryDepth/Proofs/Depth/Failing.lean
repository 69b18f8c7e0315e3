import Mathlib.Data.List.Forall2
import QueryDepth.Proofs.Depth.Returning
import QueryDepth.Proofs.Depth.Siblings

/-!
# What a failed depth means

`failedDepth` goes up like any depth: a field adds one to it, and among siblings it loses against
everything else. So it comes out of a walk only where no field is in its way. The *top level* of a
node is what is left of it when inline fragments and spreads are looked through: fields, and spreads
that lead nowhere, because there is no such fragment or because it is entered already.

**Theorem (`run_failed_iff`).** Within the limit, and if definitions and inline fragments select
something, a walk fails if and only if there are only spreads that lead nowhere on the top level of
its node. It has reported such spreads then, and nothing else. An operation is recorded as failed
exactly in this case, so never because it is too deep.

The proof goes along the expansion. Siblings fail exactly if all of them do, and groups and followed
spreads hand the top level on.
-/

namespace QueryDepth

namespace Node

/-! ## The top level of a node -/

def IsField : Node → Prop
  | .field _ _ _ => True
  | _ => False

/-- If the node is a definition or an inline fragment, it selects something. -/
def IsFilled : Node → Prop
  | .group _ children => children ≠ []
  | _ => True

variable (fragments : List (String × Node))

/-- The node is a spread of no fragment, or of one that is entered. -/
def IsDeadEnd (entered : List String) : Node → Prop
  | .spread _ name => fragments.lookup name = none ∨ name ∈ entered
  | _ => False

/-- Inside these active fragments, the other node stands on the top level of the one. It is reached
inside the fragments that are entered on the way, too. -/
inductive OnTop : List String → Node → List String → Node → Prop
  | field {active : List String} {pos : Option Nat} {name : String}
      {children : Option (List Node)} :
      OnTop active (.field pos name children) active (.field pos name children)
  | deadEnd {active : List String} {pos : Option Nat} {name : String} :
      IsDeadEnd fragments active (.spread pos name) →
      OnTop active (.spread pos name) active (.spread pos name)
  | group {active entered : List String} {pos : Option Nat} {children : List Node}
      {child top : Node} : child ∈ children → OnTop active child entered top →
      OnTop active (.group pos children) entered top
  | followed {active entered : List String} {pos : Option Nat} {name : String}
      {fragment top : Node} : fragments.lookup name = some fragment → name ∉ active →
      OnTop (name :: active) fragment entered top →
      OnTop active (.spread pos name) entered top

/-- There are only spreads that lead nowhere on the top level, and there is one. -/
structure LeadsNowhere (active : List String) (node : Node) : Prop where
  some : ∃ entered top, node.OnTop fragments active entered top
  all : ∀ entered top, node.OnTop fragments active entered top → top.IsDeadEnd fragments entered

variable {fragments} {active entered : List String} {top : Node}

/-- The top level of a group is that of its selections. -/
theorem onTop_group_iff {pos : Option Nat} {children : List Node} :
    OnTop fragments active (.group pos children) entered top ↔
      ∃ child ∈ children, OnTop fragments active child entered top := by
  constructor
  · intro h
    cases h with
    | group hchild htop => exact ⟨_, hchild, htop⟩
  · rintro ⟨child, hchild, htop⟩
    exact .group hchild htop

/-- The top level of a spread that is followed is that of its fragment. -/
theorem onTop_followed_iff {pos : Option Nat} {name : String} {fragment : Node}
    (hlookup : fragments.lookup name = some fragment) (hname : name ∉ active) :
    OnTop fragments active (.spread pos name) entered top ↔
      OnTop fragments (name :: active) fragment entered top := by
  constructor
  · intro h
    cases h with
    | deadEnd hdead =>
      rcases hdead with hnone | hmem
      · rw [hlookup] at hnone
        cases hnone
      · exact absurd hmem hname
    | followed hlookup' _ htop =>
      obtain rfl := Option.some.inj (hlookup.symm.trans hlookup')
      exact htop
  · exact .followed hlookup hname

/-- The top level of a spread that leads nowhere is the spread. -/
theorem onTop_deadEnd_iff {pos : Option Nat} {name : String}
    (hdead : IsDeadEnd fragments active (.spread pos name)) :
    OnTop fragments active (.spread pos name) entered top ↔
      entered = active ∧ top = .spread pos name := by
  constructor
  · intro h
    cases h with
    | deadEnd _ => exact ⟨rfl, rfl⟩
    | followed hlookup hname _ =>
      rcases hdead with hnone | hmem
      · rw [hlookup] at hnone
        cases hnone
      · exact absurd hmem hname
  · rintro ⟨rfl, rfl⟩
    exact .deadEnd hdead

/-- Without empty selection sets there is something on every top level. -/
theorem exists_onTop (hfragments : ∀ f ∈ fragments, f.2.Every fun n => n.IsWalkable ∧ n.IsFilled)
    (active : List String) (node : Node) : node.Every (fun n => n.IsWalkable ∧ n.IsFilled) →
      ∃ entered top, node.OnTop fragments active entered top := by
  induction active, node using expand_induct fragments with
  | leaf active pos name => exact fun _ => ⟨active, _, .field⟩
  | field active pos name children _ => exact fun _ => ⟨active, _, .field⟩
  | group active pos children ih =>
    rintro (_ | _ | _ | ⟨⟨_, hne⟩, hchildren⟩)
    obtain ⟨child, hchild⟩ := List.exists_mem_of_ne_nil children hne
    obtain ⟨entered, top, htop⟩ := ih child hchild (hchildren child hchild)
    exact ⟨entered, top, .group hchild htop⟩
  | missing active pos name hlookup => exact fun _ => ⟨active, _, .deadEnd (.inl hlookup)⟩
  | reentry active pos name fragment hlookup hname =>
    exact fun _ => ⟨active, _, .deadEnd (.inr hname)⟩
  | followed active pos name fragment hlookup hname ih =>
    intro _
    obtain ⟨entered, top, htop⟩ := ih (hfragments _ (mem_of_lookup hlookup))
    exact ⟨entered, top, .followed hlookup hname htop⟩
  | other active pos kind => exact fun h => h.self.1.elim

/-! ## When a walk fails -/

/-- **A walk fails exactly if only spreads that lead nowhere are on the top level.** -/
theorem depthAt_eq_failedDepth_iff
    (hfragments : ∀ f ∈ fragments, f.2.Every fun n => n.IsWalkable ∧ n.IsFilled) {limit level : Int}
    (hlevel : level ≤ limit) (policy : Policy) (active : List String) (node : Node) :
    node.Every (fun n => n.IsWalkable ∧ n.IsFilled) →
      ((node.expand fragments active).depthAt limit policy level = failedDepth ↔
        ∀ entered top, node.OnTop fragments active entered top →
          top.IsDeadEnd fragments entered) := by
  have hle : ¬ level > limit := Int.not_lt.2 hlevel
  induction active, node using expand_induct fragments with
  | leaf active pos name =>
    intro _
    rw [expand_leaf, Expansion.depthAt, if_neg hle]
    exact iff_of_false (by decide) fun hall => hall _ _ .field
  | field active pos name children _ =>
    intro _
    -- a field counts at least zero, since it adds one to what is below it
    have hbelow := Expansion.failedDepth_le_depthAll limit policy
      (expandAll fragments active children) (level + 1)
    rw [expand_field, Expansion.depthAt, if_neg hle]
    refine iff_of_false ?_ fun hall => hall _ _ .field
    unfold failedDepth at hbelow ⊢
    split <;> omega
  | group active pos children ih =>
    rintro (_ | _ | _ | ⟨⟨_, hne⟩, hchildren⟩)
    have hsome : expandAll fragments active children ≠ [] := expandAll_ne_nil hne
    rw [expand_group, Expansion.depthAt, if_neg hle, Expansion.depthAll_eq_failedDepth_iff,
      and_iff_right hsome]
    constructor
    · intro hfailed entered top htop
      obtain ⟨child, hchild, htop⟩ := onTop_group_iff.1 htop
      have hchildFailed := hfailed _ (mem_expandAll.2 ⟨child, hchild, rfl⟩)
      exact (ih child hchild (hchildren child hchild)).1 hchildFailed entered top htop
    · intro hall e he
      obtain ⟨child, hchild, rfl⟩ := mem_expandAll.1 he
      exact (ih child hchild (hchildren child hchild)).2 fun entered top htop =>
        hall entered top (.group hchild htop)
  | missing active pos name hlookup =>
    intro _
    have hdead : IsDeadEnd fragments active (.spread pos name) := .inl hlookup
    rw [expand_missing pos hlookup, Expansion.depthAt]
    simp [onTop_deadEnd_iff hdead, hdead]
  | reentry active pos name fragment hlookup hname =>
    intro _
    have hdead : IsDeadEnd fragments active (.spread pos name) := .inr hname
    rw [expand_reentry pos hlookup hname, Expansion.depthAt]
    simp [onTop_deadEnd_iff hdead, hdead]
  | followed active pos name fragment hlookup hname ih =>
    intro _
    rw [expand_followed pos hlookup hname, Expansion.depthAt, if_neg hle]
    simp only [onTop_followed_iff hlookup hname]
    exact ih (hfragments _ (mem_of_lookup hlookup))
  | other active pos kind => exact fun h => h.self.1.elim

/-- What is reported where only spreads that lead nowhere are on the top level is about them. -/
theorem onTop_of_mem_faultsAt {ctx : WalkContext} {level : Int} (hlevel : level ≤ ctx.limit)
    {r : PlacedFault} (active : List String) (node : Node) :
    (∀ entered top, node.OnTop ctx.fragments active entered top →
      top.IsDeadEnd ctx.fragments entered) →
    r ∈ (node.expand ctx.fragments active).faultsAt ctx level →
    ∃ entered pos name, node.OnTop ctx.fragments active entered (.spread pos name) ∧
      (ctx.fragments.lookup name = none ∧ r = ⟨.missingFragment name, pos⟩ ∨
        name ∈ entered ∧ r = ⟨.cyclicFragment name ctx.operation, pos⟩) := by
  have hle : ¬ level > ctx.limit := Int.not_lt.2 hlevel
  induction active, node using expand_induct ctx.fragments with
  | leaf active pos name => exact fun hall => absurd (hall _ _ .field) id
  | field active pos name children _ => exact fun hall => absurd (hall _ _ .field) id
  | group active pos children ih =>
    intro hall hr
    rw [expand_group, Expansion.faultsAt_group _ _ hle, Expansion.mem_faultsAll] at hr
    obtain ⟨e, he, hr⟩ := hr
    obtain ⟨child, hchild, rfl⟩ := mem_expandAll.1 he
    obtain ⟨entered, pos, name, htop, hfault⟩ := ih child hchild
      (fun entered top htop => hall entered top (.group hchild htop)) hr
    exact ⟨entered, pos, name, .group hchild htop, hfault⟩
  | missing active pos name hlookup =>
    intro _ hr
    rw [expand_missing pos hlookup, Expansion.faultsAt_missing _ _ hle, List.mem_singleton] at hr
    exact ⟨active, pos, name, .deadEnd (.inl hlookup), .inl ⟨hlookup, hr⟩⟩
  | reentry active pos name fragment hlookup hname =>
    intro _ hr
    rw [expand_reentry pos hlookup hname, Expansion.faultsAt_reentry _ _ hle,
      List.mem_singleton] at hr
    exact ⟨active, pos, name, .deadEnd (.inr hname), .inr ⟨hname, hr⟩⟩
  | followed active pos name fragment hlookup hname ih =>
    intro hall hr
    rw [expand_followed pos hlookup hname, Expansion.faultsAt_followed _ _ hle] at hr
    obtain ⟨entered, pos', name', htop, hfault⟩ := ih
      (fun entered top htop => hall entered top (.followed hlookup hname htop)) hr
    exact ⟨entered, pos', name', .followed hlookup hname htop, hfault⟩
  | other active pos kind =>
    intro _ hr
    rw [expand_other, Expansion.faultsAt_other _ _ hle] at hr
    exact absurd hr List.not_mem_nil

end Node

namespace Expansion

mutual

/-- What has failed has been reported. -/
theorem faultsAt_ne_nil_of_failed {ctx : WalkContext} : ∀ (e : Expansion) (level : Int),
    e.depthAt ctx.limit ctx.policy level = failedDepth → e.faultsAt ctx level ≠ []
  | e, level, hfailed => by
    by_cases hlevel : level > ctx.limit
    · rw [faultsAt_of_gt hlevel]
      exact List.cons_ne_nil _ _
    match e with
    | .leaf pos name | .other pos name =>
      rw [depthAt, if_neg hlevel] at hfailed
      exact absurd hfailed (by decide)
    | .field pos name children =>
      have hbelow := failedDepth_le_depthAll ctx.limit ctx.policy children (level + 1)
      rw [depthAt, if_neg hlevel] at hfailed
      unfold failedDepth at hfailed hbelow
      split at hfailed <;> omega
    | .group pos children =>
      rw [depthAt, if_neg hlevel] at hfailed
      rw [faultsAt_group _ _ hlevel]
      exact faultsAll_ne_nil_of_failed children level hfailed
    | .followed pos name fragment =>
      rw [depthAt, if_neg hlevel] at hfailed
      rw [faultsAt_followed _ _ hlevel]
      exact faultsAt_ne_nil_of_failed fragment level hfailed
    | .missing pos name =>
      rw [faultsAt_missing _ _ hlevel]
      exact List.cons_ne_nil _ _
    | .reentry pos name =>
      rw [faultsAt_reentry _ _ hlevel]
      exact List.cons_ne_nil _ _

theorem faultsAll_ne_nil_of_failed {ctx : WalkContext} : ∀ (es : List Expansion) (level : Int),
    depthAll ctx.limit ctx.policy es level = failedDepth → faultsAll ctx es level ≠ []
  | [], level, hfailed => by
    rw [depthAll] at hfailed
    exact absurd hfailed (by decide)
  | e :: es, level, hfailed => by
    have hfirst := (depthAll_eq_failedDepth_iff.1 hfailed).2 e List.mem_cons_self
    rw [faultsAll_cons]
    exact List.append_ne_nil_of_left_ne_nil (faultsAt_ne_nil_of_failed e level hfirst) _

end

end Expansion

/-! ## Walks and operations that fail -/

namespace Walk

/-- **A walk fails only for what is missing or cyclic on its top level.** Within the limit, and if
definitions and inline fragments select something, the depth is never less than `failedDepth`, and
it is this if and only if there are only spreads that lead nowhere on the top level of the node.
Then some have been reported, and nothing else. A field never fails. An operation is recorded as
failed exactly if there are only such spreads on its top level. -/
theorem run_failed_iff {fragments : List (String × Node)}
    (hfragments : ∀ f ∈ fragments, f.2.Every fun n => n.IsWalkable ∧ n.IsFilled) (limit : Int)
    {policy : Policy} (hpure : policy.Pure) :
    (∀ (node : Node) (operation : String) (level : Int) (active : List String),
      (node.Every fun n => n.IsWalkable ∧ n.IsFilled) → level ≤ limit →
      ∃ depth s, run ⟨fragments, limit, operation, policy, none⟩ node level active =
          (.ok depth, s) ∧
        failedDepth ≤ depth ∧ (depth = failedDepth ↔ node.LeadsNowhere fragments active) ∧
        (depth = failedDepth → s.reports ≠ #[] ∧ ∀ r ∈ s.reports, ∃ entered pos name,
          node.OnTop fragments active entered (.spread pos name) ∧
          (fragments.lookup name = none ∧ r = ⟨.missingFragment name, pos⟩ ∨
            name ∈ entered ∧ r = ⟨.cyclicFragment name operation, pos⟩)) ∧
        (node.IsField → depth ≠ failedDepth)) ∧
    ∀ (operations : List (String × Node)) (receiver : Option Receiver) (room : Option Nat)
      (depths : DepthMap),
      (∀ o ∈ operations, o.2.Every fun n => n.IsWalkable ∧ n.IsFilled) → 0 ≤ limit →
      (DepthRule.measureAll ⟨limit, policy, receiver⟩ fragments operations room).depths =
        .ok depths →
      List.Forall₂ (fun operation depth => depth.1 = operation.1 ∧
        (depth.2 = failedDepth ↔ operation.2.LeadsNowhere fragments [])) operations depths := by
  have hleads {node : Node} (hnode : node.Every fun n => n.IsWalkable ∧ n.IsFilled) {level : Int}
      (hlevel : level ≤ limit) (active : List String) :
      (node.expand fragments active).depthAt limit policy level = failedDepth ↔
        node.LeadsNowhere fragments active := by
    rw [Node.depthAt_eq_failedDepth_iff hfragments hlevel policy active node hnode]
    exact ⟨fun hall => ⟨Node.exists_onTop hfragments active node hnode, hall⟩, fun h => h.all⟩
  refine ⟨fun node operation level active hnode hlevel => ?_,
    fun operations receiver room depths hoperations hlimit hdepths => ?_⟩
  · let ctx : WalkContext := ⟨fragments, limit, operation, policy, none⟩
    have hrun : run ctx node level active = _ := run_walkable rfl hpure
      (fun f hf => (hfragments f hf).imp fun _ => And.left) (hnode.imp fun _ => And.left)
      level active
    refine ⟨_, _, hrun, Expansion.failedDepth_le_depthAt limit policy _ level,
      hleads hnode hlevel active, fun hfailed => ?_, fun hfield hfailed => ?_⟩
    · rw [reports_start_record]
      refine ⟨?_, fun r hr => ?_⟩
      · have hreported : (node.expand fragments active).faultsAt ctx level ≠ [] :=
          Expansion.faultsAt_ne_nil_of_failed _ level hfailed
        simpa using hreported
      · have hlevel' : level ≤ ctx.limit := hlevel
        have hnowhere := (hleads hnode hlevel active).1 hfailed
        exact Node.onTop_of_mem_faultsAt hlevel' active node hnowhere.all (List.mem_toArray.1 hr)
    · have hnowhere := (hleads hnode hlevel active).1 hfailed
      cases node with
      | field pos name children => exact hnowhere.all _ _ .field
      | spread _ _ | group _ _ | other _ _ => exact hfield
  · rw [DepthRule.eq_depths_of_measureAll hdepths, List.forall₂_map_right_iff, List.forall₂_same]
    exact fun entry hentry => ⟨rfl, hleads (hoperations entry hentry) hlimit []⟩

end Walk

/-- A query that spreads only a fragment that is not there and one that spreads itself. -/
def Operation.dangling : Operation := .bare "Q" [.bareSpread "G", .bareSpread "F"]

def Document.dangling : Document :=
  ⟨[.operation .dangling, .fragment (.bare "F" "T" [.bareSpread "F"])]⟩

theorem Walk.run_failed_iff_dangling :
    (∀ f ∈ Document.dangling.fragmentNodes, f.2.Every fun n => n.IsWalkable ∧ n.IsFilled) ∧
    (Operation.dangling.node.Every fun n => n.IsWalkable ∧ n.IsFilled) ∧ Policy.empty.Pure ∧
    (0 : Int) ≤ 1 ∧
    (∃ s, run ⟨Document.dangling.fragmentNodes, 1, "Q", .empty, none⟩ Operation.dangling.node 0 [] =
      (.ok failedDepth, s) ∧ s.reports ≠ #[]) ∧
    (DepthRule.measureAll ⟨1, .empty, none⟩ Document.dangling.fragmentNodes
      Document.dangling.operationNodes none).depths = .ok [("Q", failedDepth)] ∧
    Operation.dangling.node.LeadsNowhere Document.dangling.fragmentNodes [] := by
  have hlimit : (0 : Int) ≤ 1 := by decide
  have hspread (name : String) :
      (Node.spread (some 0) name).Every fun n => n.IsWalkable ∧ n.IsFilled :=
    .spread ⟨trivial, trivial⟩
  have hfragments : ∀ f ∈ Document.dangling.fragmentNodes,
      f.2.Every fun n => n.IsWalkable ∧ n.IsFilled := by
    intro f hf
    obtain rfl : f = ("F", .group (some 0) [.spread (some 0) "F"]) := List.mem_singleton.1 hf
    exact .group ⟨trivial, List.cons_ne_nil _ _⟩ fun n hn => List.mem_singleton.1 hn ▸ hspread "F"
  have hnode : Operation.dangling.node.Every fun n => n.IsWalkable ∧ n.IsFilled := by
    refine .group ⟨trivial, List.cons_ne_nil _ _⟩ ?_
    rintro n (_ | ⟨_, _ | ⟨_, h⟩⟩)
    · exact hspread "G"
    · exact hspread "F"
    · exact absurd h List.not_mem_nil
  obtain ⟨hwalk, hrecorded⟩ := run_failed_iff hfragments 1 Policy.pure_empty
  obtain ⟨depth, s, hrun, -, -, hreported, -⟩ :=
    hwalk Operation.dangling.node "Q" 0 [] hnode hlimit
  have hdepth : (run ⟨Document.dangling.fragmentNodes, 1, "Q", .empty, none⟩
      Operation.dangling.node 0 []).1 = .ok failedDepth := rfl
  rw [hrun] at hdepth
  obtain rfl := Except.ok.inj hdepth
  have hdepths : (DepthRule.measureAll ⟨1, .empty, none⟩ Document.dangling.fragmentNodes
      Document.dangling.operationNodes none).depths = .ok [("Q", failedDepth)] := rfl
  have hoperations : ∀ o ∈ Document.dangling.operationNodes,
      o.2.Every fun n => n.IsWalkable ∧ n.IsFilled := by
    intro o ho
    obtain rfl : o = ("Q", Operation.dangling.node) := List.mem_singleton.1 ho
    exact hnode
  have hall := hrecorded _ none none _ hoperations hlimit hdepths
  obtain ⟨-, hleads⟩ := (List.forall₂_cons.1 hall).1
  exact ⟨hfragments, hnode, Policy.pure_empty, hlimit, ⟨s, hrun, (hreported rfl).1⟩, hdepths,
    hleads.1 rfl⟩

end QueryDepth
