import QueryDepth.Depth.Node
import QueryDepth.Ignore.Policy
import QueryDepth.Text.Decimal

/-!
# Measuring depth

`Walk.measure` computes the depth of a node: a field with a selection set that is not ignored counts
one, everything else passes on the greatest depth of what it holds. A spread is followed into its
fragment. The walk does not go below a node that is deeper than the limit, nor into a fragment that
is missing or already entered on the way to it; each of these is reported, and the branch counts
`failedDepth`.

The walk keeps a record of its reports and of the calls of predicates, and the set of the fragments
it is in. It may be stopped: by a node of another kind, by a predicate that fails, or because there
is no room for another report.

A chain of nested calls enters each fragment at most once, so `budget`, the number of fragments and
one times the greatest height, is enough for every walk.
-/

namespace QueryDepth

/-- Counts for a branch that was reported. -/
def failedDepth : Int := -1

/-- What is wrong with a branch. -/
inductive DepthFault where
  | tooDeep (operation : String) (limit : Int)
  | missingFragment (name : String)
  | cyclicFragment (name operation : String)
deriving DecidableEq, Repr

def DepthFault.message : DepthFault → String
  | .tooDeep operation limit =>
    "'" ++ operation ++ "' exceeds maximum operation depth of " ++ Decimal.intText limit
  | .missingFragment name => "'Fragment " ++ name ++ " not found"
  | .cyclicFragment name operation =>
    "Cannot spread fragment '" ++ name ++ "' within itself in '" ++ operation ++ "'"

/-- A fault and where the node begins that it is about. -/
structure PlacedFault where
  fault : DepthFault
  pos : Option Nat
deriving DecidableEq, Repr

/-- Why a walk ends before it has its result. -/
inductive Stop where
  /-- Depth has no meaning on a node of this kind. -/
  | unhandled (kind : String)
  /-- A predicate failed with this message. -/
  | predicate (message : String)
  /-- The receiver of the depths failed with this message. -/
  | receiver (message : String)
  /-- There was no room for another report. -/
  | full
  /-- The nesting of calls went beyond the budget. -/
  | budget
deriving DecidableEq, Repr

def Stop.message : Stop → String
  | .unhandled kind => "Depth crawler cannot handle: " ++ kind
  | .predicate message => message
  | .receiver message => message
  | .full => "Too many validation errors, error limit reached. Validation aborted."
  | .budget => "Nesting beyond the budget"

/-- What stays the same during a walk. -/
structure WalkContext where
  fragments : List (String × Node)
  limit : Int
  operation : String
  policy : Policy
  /-- How many reports there is room for; `none` is without bound. -/
  room : Option Nat

/-- What a walk has recorded, and the fragments that it is in. -/
structure WalkState where
  reports : Array PlacedFault
  calls : Array Call
  active : List String
deriving DecidableEq, Repr

abbrev Walk := ExceptT Stop (StateM WalkState)

namespace Walk

def start (active : List String) : WalkState := ⟨#[], #[], active⟩

/-- Records a report, or stops if there is no room for it. -/
def report (ctx : WalkContext) (fault : DepthFault) (pos : Option Nat) : Walk Unit := do
  let s ← get
  let hasRoom := match ctx.room with
    | none => true
    | some room => s.reports.size < room
  if hasRoom then set { s with reports := s.reports.push ⟨fault, pos⟩ }
  else throw .full

/-- Whether a field of this name is ignored, with a record of the calls made for it. -/
def ignored (ctx : WalkContext) (name : String) : Walk Bool := do
  let asked := ctx.policy.ignores name
  modify fun s => { s with calls := s.calls ++ asked.calls.toArray }
  match asked.answer with
  | .ok b => return b
  | .error message => throw (.predicate message)

/-- Runs a part of the walk inside a fragment, and leaves the fragment however that part ends. -/
def within {α : Type} (name : String) (part : Walk α) : Walk α := fun s =>
  let (result, t) := part { s with active := name :: s.active }
  (result, { t with active := t.active.filter (· ≠ name) })

/-- The greatest result over some nodes, zero if there are none. -/
def deepest (measure : Node → Walk Int) : List Node → Walk Int
  | [] => return 0
  | [n] => measure n
  | n :: m :: more => do
    let first ← measure n
    let rest ← deepest measure (m :: more)
    return max first rest

/-- The depth of a node that has `level` fields above it. -/
def measure (ctx : WalkContext) : Nat → Node → Int → Walk Int
  | 0, _, _ => throw .budget
  | budget + 1, node, level => do
    if level > ctx.limit then
      report ctx (.tooDeep ctx.operation ctx.limit) node.pos
      return failedDepth
    else match node with
      | .field _ name children =>
        if ← ignored ctx name then return 0
        else match children with
          | none => return 0
          | some children =>
            return 1 + (← deepest (fun n => measure ctx budget n (level + 1)) children)
      | .group _ children => deepest (fun n => measure ctx budget n level) children
      | .spread pos name =>
        match ctx.fragments.lookup name with
        | none =>
          report ctx (.missingFragment name) pos
          return failedDepth
        | some fragment =>
          if name ∈ (← get).active then
            report ctx (.cyclicFragment name ctx.operation) pos
            return failedDepth
          else within name (measure ctx budget fragment level)
      | .other _ kind => throw (.unhandled kind)

/-- A bound on the nesting of calls that holds for every walk from a node. -/
def budget (fragments : List (String × Node)) (node : Node) : Nat :=
  (fragments.length + 1) * max node.height (Node.heights (fragments.map Prod.snd))

/-- Walks from a node, with some fragments already active. -/
def run (ctx : WalkContext) (node : Node) (level : Int) (active : List String) :
    Except Stop Int × WalkState :=
  measure ctx (budget ctx.fragments node) node level (start active)

end Walk

end QueryDepth
