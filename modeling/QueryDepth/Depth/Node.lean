import QueryDepth.Document.Basic
import QueryDepth.Index

/-!
# What depth is measured on

Of a document the walk sees only nodes: fields with or without a selection set, spreads by name, and
groups, which are the definitions and inline fragments that hold selections without being a level of
their own. Aliases, arguments, directives, variables and type conditions are forgotten here, so
depth cannot depend on them. A node may have the offset where it begins.
-/

namespace QueryDepth

inductive Node where
  /-- A field; `none` is a field without a selection set. -/
  | field (pos : Option Nat) (name : String) (children : Option (List Node))
  | spread (pos : Option Nat) (name : String)
  | group (pos : Option Nat) (children : List Node)
  /-- A node of another kind, on which depth has no meaning. -/
  | other (pos : Option Nat) (kind : String)
deriving Repr

instance : Inhabited Node := ⟨.group none []⟩

namespace Node

def pos : Node → Option Nat
  | .field p _ _ | .spread p _ | .group p _ | .other p _ => p

mutual

/-- The number of levels of a node. -/
def height : Node → Nat
  | .field _ _ none => 1
  | .field _ _ (some children) => heights children + 1
  | .spread _ _ => 1
  | .group _ children => heights children + 1
  | .other _ _ => 1

/-- The height of the tallest of some nodes. -/
def heights : List Node → Nat
  | [] => 0
  | n :: ns => max (height n) (heights ns)

end

end Node

mutual

/-- The node of a selection. -/
def Selection.node : Selection → Node
  | .field f [] => .field (some f.pos) f.name.value none
  | .field f (s :: ss) => .field (some f.pos) f.name.value (some (s.node :: Selection.nodes ss))
  | .spread s => .spread (some s.pos) s.name.value
  | .inlineFragment f ss => .group (some f.pos) (Selection.nodes ss)

def Selection.nodes : List Selection → List Node
  | [] => []
  | s :: ss => s.node :: Selection.nodes ss

end

def Operation.node (op : Operation) : Node := .group (some op.pos) (Selection.nodes op.selections)

def Fragment.node (f : Fragment) : Node := .group (some f.pos) (Selection.nodes f.selections)

namespace Document

/-- The fragments of a document by name: a repeated name keeps its first place and takes its last
definition. -/
def fragmentIndex (doc : Document) : List (String × Fragment) :=
  Index.ofEntries (doc.fragments.map fun f => (f.name.value, f))

/-- The operations of a document by name, the anonymous one under the empty name. -/
def operationIndex (doc : Document) : List (String × Operation) :=
  Index.ofEntries (doc.operations.map fun op => (op.label, op))

def fragmentNodes (doc : Document) : List (String × Node) :=
  doc.fragmentIndex.map fun (name, f) => (name, f.node)

def operationNodes (doc : Document) : List (String × Node) :=
  doc.operationIndex.map fun (name, op) => (name, op.node)

end Document

end QueryDepth
