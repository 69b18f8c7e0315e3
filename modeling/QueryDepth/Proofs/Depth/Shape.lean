import QueryDepth.Depth.Node
import QueryDepth.Proofs.Depth.Expansion
import QueryDepth.Proofs.Index

/-!
# The shape of what is walked

Two things hold of the nodes of a document and not of all nodes: depth has a meaning on each
(*walkable*), and a field with a selection set selects something (*branching*). Both are about one
node at a time, so they pass from nodes to expansions together (`every_expand`).
-/

namespace QueryDepth

/-! ## Properties of all parts -/

/-- The property holds of the node and of everything in it. -/
inductive Node.Every (p : Node → Prop) : Node → Prop
  | leaf {pos : Option Nat} {name : String} : p (.field pos name none) →
      Every p (.field pos name none)
  | field {pos : Option Nat} {name : String} {children : List Node} :
      p (.field pos name (some children)) → (∀ node ∈ children, Every p node) →
      Every p (.field pos name (some children))
  | spread {pos : Option Nat} {name : String} : p (.spread pos name) → Every p (.spread pos name)
  | group {pos : Option Nat} {children : List Node} : p (.group pos children) →
      (∀ node ∈ children, Every p node) → Every p (.group pos children)
  | other {pos : Option Nat} {kind : String} : p (.other pos kind) → Every p (.other pos kind)

theorem Node.Every.self {p : Node → Prop} {node : Node} (h : node.Every p) : p node := by
  cases h <;> assumption

theorem Node.Every.imp {p q : Node → Prop} (hpq : ∀ node, p node → q node) {node : Node}
    (h : node.Every p) : node.Every q := by
  induction h with
  | leaf hp => exact .leaf (hpq _ hp)
  | field hp _ ih => exact .field (hpq _ hp) ih
  | spread hp => exact .spread (hpq _ hp)
  | group hp _ ih => exact .group (hpq _ hp) ih
  | other hp => exact .other (hpq _ hp)

namespace Expansion

/-- The property holds of the expansion and of everything in it. -/
inductive Every (p : Expansion → Prop) : Expansion → Prop
  | leaf {pos : Option Nat} {name : String} : p (.leaf pos name) → Every p (.leaf pos name)
  | field {pos : Option Nat} {name : String} {children : List Expansion} :
      p (.field pos name children) → (∀ e ∈ children, Every p e) →
      Every p (.field pos name children)
  | group {pos : Option Nat} {children : List Expansion} :
      p (.group pos children) → (∀ e ∈ children, Every p e) → Every p (.group pos children)
  | followed {pos : Option Nat} {name : String} {fragment : Expansion} :
      p (.followed pos name fragment) → Every p fragment → Every p (.followed pos name fragment)
  | missing {pos : Option Nat} {name : String} : p (.missing pos name) → Every p (.missing pos name)
  | reentry {pos : Option Nat} {name : String} : p (.reentry pos name) → Every p (.reentry pos name)
  | other {pos : Option Nat} {kind : String} : p (.other pos kind) → Every p (.other pos kind)

end Expansion

theorem Expansion.Every.imp {p q : Expansion → Prop} (hpq : ∀ e, p e → q e) {e : Expansion}
    (h : e.Every p) : e.Every q := by
  induction h with
  | leaf hp => exact .leaf (hpq _ hp)
  | field hp _ ih => exact .field (hpq _ hp) ih
  | group hp _ ih => exact .group (hpq _ hp) ih
  | followed hp _ ih => exact .followed (hpq _ hp) ih
  | missing hp => exact .missing (hpq _ hp)
  | reentry hp => exact .reentry (hpq _ hp)
  | other hp => exact .other (hpq _ hp)

/-- What expanding makes true of single nodes, it makes true of all parts. -/
theorem every_expand {fragments : List (String × Node)} {p : Node → Prop} {q : Expansion → Prop}
    (h : ∀ active node, p node → q (node.expand fragments active))
    (hfragments : ∀ f ∈ fragments, f.2.Every p) (active : List String) (node : Node) :
    node.Every p → (node.expand fragments active).Every q := by
  induction active, node using Node.expand_induct fragments with
  | leaf active pos name =>
    intro hnode
    have hq := h active _ hnode.self
    rw [Node.expand_leaf] at hq ⊢
    exact .leaf hq
  | field active pos name children ih =>
    intro hnode
    have hq := h active _ hnode.self
    rw [Node.expand_field] at hq ⊢
    refine .field hq fun e he => ?_
    obtain ⟨child, hchild, rfl⟩ := Node.mem_expandAll.1 he
    cases hnode with
    | field _ hchildren => exact ih child hchild (hchildren child hchild)
  | group active pos children ih =>
    intro hnode
    have hq := h active _ hnode.self
    rw [Node.expand_group] at hq ⊢
    refine .group hq fun e he => ?_
    obtain ⟨child, hchild, rfl⟩ := Node.mem_expandAll.1 he
    cases hnode with
    | group _ hchildren => exact ih child hchild (hchildren child hchild)
  | missing active pos name hlookup =>
    intro hnode
    have hq := h active _ hnode.self
    rw [Node.expand_missing pos hlookup] at hq ⊢
    exact .missing hq
  | reentry active pos name fragment hlookup hname =>
    intro hnode
    have hq := h active _ hnode.self
    rw [Node.expand_reentry pos hlookup hname] at hq ⊢
    exact .reentry hq
  | followed active pos name fragment hlookup hname ih =>
    intro hnode
    have hq := h active _ hnode.self
    rw [Node.expand_followed pos hlookup hname] at hq ⊢
    exact .followed hq (ih (hfragments _ (mem_of_lookup hlookup)))
  | other active pos kind =>
    intro hnode
    have hq := h active _ hnode.self
    rw [Node.expand_other] at hq ⊢
    exact .other hq

/-! ## Walkable and branching -/

/-- Depth has a meaning on the node. -/
def Node.IsWalkable : Node → Prop
  | .other _ _ => False
  | _ => True

/-- If the node is a field with a selection set, it selects something. -/
def Node.IsBranching : Node → Prop
  | .field _ _ (some children) => children ≠ []
  | _ => True

namespace Expansion

def IsWalkable : Expansion → Prop
  | .other _ _ => False
  | _ => True

def IsBranching : Expansion → Prop
  | .field _ _ children => children ≠ []
  | _ => True

end Expansion

theorem Node.expandAll_ne_nil {fragments : List (String × Node)} {active : List String}
    {nodes : List Node} (h : nodes ≠ []) : expandAll fragments active nodes ≠ [] := by
  cases nodes with
  | nil => exact absurd rfl h
  | cons node nodes => simp

theorem isWalkable_expand (fragments : List (String × Node)) (active : List String) (node : Node) :
    node.IsWalkable → (node.expand fragments active).IsWalkable := by
  intro h
  cases node with
  | field pos name children => cases children <;> simp [Expansion.IsWalkable]
  | group pos children => simp [Expansion.IsWalkable]
  | other pos kind => exact h.elim
  | spread pos name =>
    rw [Node.expand]
    split
    · trivial
    · split <;> trivial

theorem isBranching_expand (fragments : List (String × Node)) (active : List String) (node : Node) :
    node.IsBranching → (node.expand fragments active).IsBranching := by
  intro h
  cases node with
  | field pos name children =>
    cases children with
    | none => simp [Expansion.IsBranching]
    | some children =>
      rw [Node.expand_field]
      exact Node.expandAll_ne_nil h
  | group pos children => simp [Expansion.IsBranching]
  | other pos kind => simp [Expansion.IsBranching]
  | spread pos name =>
    rw [Node.expand]
    split
    · trivial
    · split <;> trivial

section

variable {fragments : List (String × Node)} {node : Node}
  (hfragments : ∀ f ∈ fragments, f.2.Every fun node => node.IsWalkable ∧ node.IsBranching)
  (hnode : node.Every fun node => node.IsWalkable ∧ node.IsBranching) (active : List String)

include hfragments hnode

theorem every_isWalkable_expand : (node.expand fragments active).Every Expansion.IsWalkable :=
  every_expand (isWalkable_expand fragments) (fun f hf => (hfragments f hf).imp fun _ => And.left)
    active node (hnode.imp fun _ => And.left)

theorem every_isBranching_expand : (node.expand fragments active).Every Expansion.IsBranching :=
  every_expand (isBranching_expand fragments) (fun f hf => (hfragments f hf).imp fun _ => And.right)
    active node (hnode.imp fun _ => And.right)

end

/-! ## Documents -/

/-- A field with nothing but a name and selections. -/
def Selection.bareField (name : String) (selections : List Selection) : Selection :=
  .field ⟨0, none, ⟨0, name⟩, [], [], 0⟩ selections

def Selection.bareSpread (name : String) : Selection := .spread ⟨0, ⟨0, name⟩, []⟩

/-- A query with nothing but a name and selections. -/
def Operation.bare (name : String) (selections : List Selection) : Operation :=
  ⟨0, .query, some ⟨0, name⟩, [], [], 0, selections⟩

def Fragment.bare (name condition : String) (selections : List Selection) : Fragment :=
  ⟨0, ⟨0, name⟩, ⟨0, condition⟩, [], 0, selections⟩

mutual

theorem Selection.every_node : ∀ s : Selection,
    s.node.Every fun node => node.IsWalkable ∧ node.IsBranching
  | .field f [] => by
    rw [Selection.node]
    exact .leaf ⟨trivial, trivial⟩
  | .field f (s :: ss) => by
    have hall := Selection.every_nodes (s :: ss)
    rw [Selection.nodes] at hall
    rw [Selection.node]
    exact .field ⟨trivial, nofun⟩ hall
  | .spread s => by
    rw [Selection.node]
    exact .spread ⟨trivial, trivial⟩
  | .inlineFragment f ss => by
    rw [Selection.node]
    exact .group ⟨trivial, trivial⟩ (Selection.every_nodes ss)

theorem Selection.every_nodes : ∀ ss : List Selection, ∀ node ∈ Selection.nodes ss,
    node.Every fun node => node.IsWalkable ∧ node.IsBranching
  | [] => by
    rw [Selection.nodes]
    exact nofun
  | s :: ss => by
    rw [Selection.nodes]
    intro node hnode
    rcases List.mem_cons.1 hnode with rfl | hnode
    · exact Selection.every_node s
    · exact Selection.every_nodes ss node hnode

end

namespace Document

theorem every_fragmentNodes (doc : Document) : ∀ f ∈ doc.fragmentNodes,
    f.2.Every fun node => node.IsWalkable ∧ node.IsBranching := by
  intro f hf
  obtain ⟨⟨name, fragment⟩, _, rfl⟩ := List.mem_map.1 hf
  exact .group ⟨trivial, trivial⟩ (Selection.every_nodes fragment.selections)

theorem every_node (op : Operation) :
    op.node.Every fun node => node.IsWalkable ∧ node.IsBranching :=
  .group ⟨trivial, trivial⟩ (Selection.every_nodes op.selections)

/-- The index of the fragments as nodes. -/
theorem fragmentNodes_eq (doc : Document) : doc.fragmentNodes =
    Index.ofEntries (doc.fragments.map fun f => (f.name.value, f.node)) := by
  unfold fragmentNodes fragmentIndex
  rw [Index.map_ofEntries, List.map_map]
  rfl

/-- The index of the operations as nodes. -/
theorem operationNodes_eq (doc : Document) : doc.operationNodes =
    Index.ofEntries (doc.operations.map fun op => (op.label, op.node)) := by
  unfold operationNodes operationIndex
  rw [Index.map_ofEntries, List.map_map]
  rfl

/-- The fragment-expanded tree of an operation. -/
def expansion (doc : Document) (op : Operation) : Expansion := op.node.expand doc.fragmentNodes []

theorem walkable_expansion (doc : Document) (op : Operation) :
    (doc.expansion op).Every Expansion.IsWalkable :=
  every_isWalkable_expand doc.every_fragmentNodes (every_node op) []

theorem branching_expansion (doc : Document) (op : Operation) :
    (doc.expansion op).Every Expansion.IsBranching :=
  every_isBranching_expand doc.every_fragmentNodes (every_node op) []

end Document

end QueryDepth
