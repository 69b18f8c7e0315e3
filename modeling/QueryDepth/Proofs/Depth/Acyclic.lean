import Mathlib.Logic.Relation
import QueryDepth.Proofs.Depth.Shape

/-!
# Documents without cycles

A fragment leads to another if it spreads it at any depth. A document is acyclic if no fragment
leads back to itself, in any number of steps.

**Theorem (`fresh_expansion`).** In the expansion of an acyclic document no fragment is entered
again. The invariant is `LedTo`: every active fragment leads to everything that is spread in the
node, so a spread of an active fragment would close a cycle.
-/

namespace QueryDepth

namespace Node

mutual

/-- The names that are spread in a node, at any depth. -/
def spreads : Node → List String
  | .field _ _ none => []
  | .field _ _ (some children) => spreadsAll children
  | .spread _ name => [name]
  | .group _ children => spreadsAll children
  | .other _ _ => []

def spreadsAll : List Node → List String
  | [] => []
  | node :: nodes => spreads node ++ spreadsAll nodes

end

theorem mem_spreadsAll {name : String} {nodes : List Node} :
    name ∈ spreadsAll nodes ↔ ∃ node ∈ nodes, name ∈ node.spreads := by
  induction nodes with
  | nil => simp [spreadsAll]
  | cons node nodes ih => simp [spreadsAll, ih]

end Node

/-- The fragment of one name spreads the other name. -/
def Spreads (fragments : List (String × Node)) (name spread : String) : Prop :=
  ∃ fragment, fragments.lookup name = some fragment ∧ spread ∈ fragment.spreads

/-- No fragment reaches itself through spreads. -/
def IsAcyclic (fragments : List (String × Node)) : Prop :=
  ∀ name, ¬ Relation.TransGen (Spreads fragments) name name

variable {fragments : List (String × Node)}

/-- Ranks that go down along spreads exclude cycles. -/
theorem IsAcyclic.of_rank (rank : String → Nat)
    (h : ∀ name spread, Spreads fragments name spread → rank spread < rank name) :
    IsAcyclic fragments := by
  have hlt : ∀ name spread, Relation.TransGen (Spreads fragments) name spread →
      rank spread < rank name := by
    intro name spread hpath
    induction hpath with
    | single hstep => exact h _ _ hstep
    | tail _ hstep ih => exact Nat.lt_trans (h _ _ hstep) ih
  exact fun name hcycle => Nat.lt_irrefl _ (hlt name name hcycle)

/-- Each of the names leads to every name that is spread in the node. -/
def Node.LedTo (fragments : List (String × Node)) (active : List String) (node : Node) : Prop :=
  ∀ name ∈ active, ∀ spread ∈ node.spreads, Relation.TransGen (Spreads fragments) name spread

namespace Node.LedTo

variable {active : List String} {node : Node}

theorem nil : node.LedTo fragments [] := nofun

theorem of_mem {child : Node} {children : List Node} (h : node.LedTo fragments active)
    (hspreads : node.spreads = spreadsAll children) (hchild : child ∈ children) :
    child.LedTo fragments active := by
  intro name hname spread hspread
  refine h name hname spread ?_
  rw [hspreads]
  exact mem_spreadsAll.2 ⟨child, hchild, hspread⟩

/-- Through a spread, the invariant is carried into the fragment. -/
theorem fragment {pos : Option Nat} {name : String} {fragment : Node}
    (h : (Node.spread pos name).LedTo fragments active)
    (hlookup : fragments.lookup name = some fragment) :
    fragment.LedTo fragments (name :: active) := by
  intro entered hentered spread hspread
  have hstep : Spreads fragments name spread := ⟨fragment, hlookup, hspread⟩
  rcases List.mem_cons.1 hentered with rfl | hentered
  · exact .single hstep
  · exact (h entered hentered name (by simp [spreads])).tail hstep

/-- A spread of an active fragment closes a cycle. -/
theorem not_mem {pos : Option Nat} {name : String}
    (h : (Node.spread pos name).LedTo fragments active) (hacyclic : IsAcyclic fragments) :
    name ∉ active := by
  intro hname
  exact hacyclic name (h name hname name (by simp [spreads]))

end Node.LedTo

/-- The node is not a spread of a fragment that is entered already. -/
def Expansion.IsFresh : Expansion → Prop
  | .reentry _ _ => False
  | _ => True

theorem every_fresh_expand (hacyclic : IsAcyclic fragments) (active : List String) (node : Node) :
    node.LedTo fragments active → (node.expand fragments active).Every Expansion.IsFresh := by
  induction active, node using Node.expand_induct fragments with
  | leaf active pos name =>
    intro _
    rw [Node.expand_leaf]
    exact .leaf trivial
  | field active pos name children ih =>
    intro hled
    rw [Node.expand_field]
    refine .field trivial fun e he => ?_
    obtain ⟨child, hchild, rfl⟩ := Node.mem_expandAll.1 he
    exact ih child hchild (hled.of_mem (by rw [Node.spreads]) hchild)
  | group active pos children ih =>
    intro hled
    rw [Node.expand_group]
    refine .group trivial fun e he => ?_
    obtain ⟨child, hchild, rfl⟩ := Node.mem_expandAll.1 he
    exact ih child hchild (hled.of_mem (by rw [Node.spreads]) hchild)
  | missing active pos name hlookup =>
    intro _
    rw [Node.expand_missing pos hlookup]
    exact .missing trivial
  | reentry active pos name fragment hlookup hname =>
    intro hled
    exact absurd hname (hled.not_mem hacyclic)
  | followed active pos name fragment hlookup hname ih =>
    intro hled
    rw [Node.expand_followed pos hlookup hname]
    exact .followed trivial (ih (hled.fragment hlookup))
  | other active pos kind =>
    intro _
    rw [Node.expand_other]
    exact .other trivial

/-- **In an acyclic document no fragment is entered again.** -/
theorem Document.fresh_expansion {doc : Document} (hacyclic : IsAcyclic doc.fragmentNodes)
    (op : Operation) : (doc.expansion op).Every Expansion.IsFresh :=
  every_fresh_expand hacyclic [] op.node .nil

end QueryDepth
