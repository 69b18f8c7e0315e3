import Mathlib.Order.Bounds.Defs
import QueryDepth.Proofs.Depth.Shape
import QueryDepth.Proofs.Ignore.Skips

/-!
# True depth

The true depth of an operation is the greatest number of nested fields that have a selection set
and are not skipped. It knows no limit and no reports.

It is defined twice. `Node.Path` counts the fields on a path through the document: a path goes
down through selections, and through a spread into a fragment that it has not entered yet.
`Expansion.nesting` computes the greatest count on the fragment-expanded tree.

**Theorem (`isGreatest_nesting`).** The two agree.
-/

namespace QueryDepth

/-- A path from a node inside some active fragments, and how many counting fields are on it. -/
inductive Node.Path (fragments : List (String × Node)) (policy : Policy) :
    List String → Node → Nat → Prop
  | stop (active : List String) (node : Node) : Path fragments policy active node 0
  | enter {active : List String} {pos : Option Nat} {name : String} {children : List Node} :
      policy.skips name = false →
      Path fragments policy active (.field pos name (some children)) 1
  | field {active : List String} {pos : Option Nat} {name : String} {children : List Node}
      {child : Node} {n : Nat} :
      policy.skips name = false → child ∈ children → Path fragments policy active child n →
      Path fragments policy active (.field pos name (some children)) (n + 1)
  | group {active : List String} {pos : Option Nat} {children : List Node} {child : Node}
      {n : Nat} :
      child ∈ children → Path fragments policy active child n →
      Path fragments policy active (.group pos children) n
  | spread {active : List String} {pos : Option Nat} {name : String} {fragment : Node} {n : Nat} :
      fragments.lookup name = some fragment → name ∉ active →
      Path fragments policy (name :: active) fragment n →
      Path fragments policy active (.spread pos name) n

namespace Expansion

mutual

/-- The greatest number of nested fields that have a selection set and are not skipped. -/
def nesting (policy : Policy) : Expansion → Nat
  | .field _ name children => if policy.skips name then 0 else nestingAll policy children + 1
  | .group _ children => nestingAll policy children
  | .followed _ _ fragment => nesting policy fragment
  | .leaf _ _ | .missing _ _ | .reentry _ _ | .other _ _ => 0

def nestingAll (policy : Policy) : List Expansion → Nat
  | [] => 0
  | e :: es => max (nesting policy e) (nestingAll policy es)

end

end Expansion

/-- The true depth of an operation. -/
def Document.trueDepth (doc : Document) (policy : Policy) (op : Operation) : Nat :=
  (doc.expansion op).nesting policy

namespace Expansion

variable {policy : Policy}

theorem nesting_le_nestingAll {e : Expansion} : ∀ {es : List Expansion}, e ∈ es →
    e.nesting policy ≤ nestingAll policy es
  | _ :: _, .head _ => by
    rw [nestingAll]
    exact Nat.le_max_left ..
  | _ :: _, .tail _ h => by
    rw [nestingAll]
    exact Nat.le_trans (nesting_le_nestingAll h) (Nat.le_max_right ..)

/-- The greatest nesting is that of a member, or there is none. -/
theorem nestingAll_eq_zero_or (policy : Policy) : ∀ es : List Expansion,
    nestingAll policy es = 0 ∨ ∃ e ∈ es, e.nesting policy = nestingAll policy es
  | [] => .inl rfl
  | e :: es => by
    rw [nestingAll]
    rcases Nat.le_total (nestingAll policy es) (e.nesting policy) with hle | hle
    · exact .inr ⟨e, List.mem_cons_self, (Nat.max_eq_left hle).symm⟩
    · rw [Nat.max_eq_right hle]
      rcases nestingAll_eq_zero_or policy es with hzero | ⟨m, hm, hmax⟩
      · exact .inl hzero
      · exact .inr ⟨m, List.mem_cons_of_mem _ hm, hmax⟩

end Expansion

namespace Node

variable {fragments : List (String × Node)} {policy : Policy} {active : List String} {node : Node}

theorem Path.le_nesting {n : Nat} (h : Path fragments policy active node n) :
    n ≤ (node.expand fragments active).nesting policy := by
  induction h with
  | stop active node => exact Nat.zero_le _
  | enter hskip =>
    rw [expand_field, Expansion.nesting, hskip, if_neg Bool.false_ne_true]
    omega
  | field hskip hchild _ ih =>
    rw [expand_field, Expansion.nesting, hskip, if_neg Bool.false_ne_true]
    exact Nat.succ_le_succ (Nat.le_trans ih
      (Expansion.nesting_le_nestingAll (mem_expandAll.2 ⟨_, hchild, rfl⟩)))
  | group hchild _ ih =>
    rw [expand_group, Expansion.nesting]
    exact Nat.le_trans ih (Expansion.nesting_le_nestingAll (mem_expandAll.2 ⟨_, hchild, rfl⟩))
  | spread hlookup hname _ ih =>
    rw [expand_followed _ hlookup hname, Expansion.nesting]
    exact ih

theorem path_nesting (fragments : List (String × Node)) (policy : Policy) (active : List String)
    (node : Node) :
    Path fragments policy active node ((node.expand fragments active).nesting policy) := by
  induction active, node using expand_induct fragments with
  | leaf active pos name =>
    rw [expand_leaf, Expansion.nesting]
    exact .stop _ _
  | field active pos name children ih =>
    rw [expand_field, Expansion.nesting]
    cases hskip : policy.skips name with
    | true => exact .stop _ _
    | false =>
      rw [if_neg Bool.false_ne_true]
      rcases Expansion.nestingAll_eq_zero_or policy (expandAll fragments active children) with
        hzero | ⟨e, he, hmax⟩
      · rw [hzero]
        exact .enter hskip
      · obtain ⟨deepest, hdeepest, rfl⟩ := mem_expandAll.1 he
        rw [← hmax]
        exact .field hskip hdeepest (ih deepest hdeepest)
  | group active pos children ih =>
    rw [expand_group, Expansion.nesting]
    rcases Expansion.nestingAll_eq_zero_or policy (expandAll fragments active children) with
      hzero | ⟨e, he, hmax⟩
    · rw [hzero]
      exact .stop _ _
    · obtain ⟨deepest, hdeepest, rfl⟩ := mem_expandAll.1 he
      rw [← hmax]
      exact .group hdeepest (ih deepest hdeepest)
  | missing active pos name hlookup =>
    rw [expand_missing pos hlookup, Expansion.nesting]
    exact .stop _ _
  | reentry active pos name fragment hlookup hname =>
    rw [expand_reentry pos hlookup hname, Expansion.nesting]
    exact .stop _ _
  | followed active pos name fragment hlookup hname ih =>
    rw [expand_followed pos hlookup hname, Expansion.nesting]
    exact .spread hlookup hname ih
  | other active pos kind =>
    rw [expand_other, Expansion.nesting]
    exact .stop _ _

/-- **The nesting of the expansion is the greatest count on a path.** -/
theorem isGreatest_nesting (fragments : List (String × Node)) (policy : Policy)
    (active : List String) (node : Node) :
    IsGreatest {n | Path fragments policy active node n}
      ((node.expand fragments active).nesting policy) :=
  ⟨path_nesting fragments policy active node, fun _ h => h.le_nesting⟩

end Node

/-- True depth is the greatest number of counting fields on a path through the document. -/
theorem Document.isGreatest_trueDepth (doc : Document) (policy : Policy) (op : Operation) :
    IsGreatest {n | op.node.Path doc.fragmentNodes policy [] n} (doc.trueDepth policy op) :=
  Node.isGreatest_nesting doc.fragmentNodes policy [] op.node

end QueryDepth
