import QueryDepth.Document.Literal
import QueryDepth.Index
import QueryDepth.Validation.Rule.Fragment

/-!
# The rule on fields of the same name

Fields that are answered under the same name can be merged: they are the same field with the same
arguments, unless they are selected on different objects, their types agree, and so on for what is
selected in them. Each selection set is compared with itself, with the fragments that it spreads and
these with each other.

The comparisons share what they know: pairs of fragments that were compared, and the fields of each
selection set as they were first collected. A comparison inside an equal one that knows as much
would go on for ever and is left out.
-/

namespace QueryDepth.Overlap

/-! ## The fields of a selection set -/

/-- A field where it is selected. -/
structure FieldUse where
  parent : Option NamedType
  head : FieldHead
  selections : List Selection
  definition : Option SchemaField

/-- The fields of a selection set by response name, and the fragments that it spreads. -/
structure FieldSet where
  /-- The offset of the set's brace tells sets apart. -/
  brace : Nat
  fields : List (String × List FieldUse)
  fragments : List String

def FieldSet.add (set : FieldSet) (f : FieldUse) : FieldSet :=
  let name := f.head.responseName
  let others := (Index.find? name set.fields).getD []
  { set with fields := Index.put name (others ++ [f]) set.fields }

def FieldSet.spread (set : FieldSet) (name : String) : FieldSet :=
  if set.fragments.contains name then set else { set with fragments := set.fragments ++ [name] }

mutual

def addSelection (s : Schema) (parent : Option NamedType) : Selection → FieldSet → FieldSet
  | .field f selections, set =>
    set.add ⟨parent, f, selections, parent.bind fun t => t.field? f.name.value⟩
  | .spread sp, set => set.spread sp.name.value
  | .inlineFragment f selections, set =>
    let inner := match f.condition with
      | some condition => s.type? condition.value
      | none => parent
    addSelections s inner selections set

def addSelections (s : Schema) (parent : Option NamedType) :
    List Selection → FieldSet → FieldSet
  | [], set => set
  | selection :: rest, set => addSelections s parent rest (addSelection s parent selection set)

end

/-! ## Comparing -/

/-- Fields that cannot be merged: why, and where. -/
structure Conflict where
  name : String
  reason : String
  left : List Nat
  right : List Nat

structure Memory where
  /-- Pairs of fragments, the lesser name first, and whether they were compared as fragments that
  never apply together. -/
  compared : List ((String × String) × Bool)
  sets : List (Nat × FieldSet)

abbrev Comparing := StateM Memory

def orderedPair (a b : String) : String × String := if a < b then (a, b) else (b, a)

/-- Notes that two fragments are compared, and says whether they were before. A comparison of
fragments that may apply together counts for those that never do as well. -/
def wasCompared (a b : String) (exclusive : Bool) : Comparing Bool := do
  let memory ← get
  let known := match Index.find? (orderedPair a b) memory.compared with
    | none => false
    | some before => exclusive || !before
  if known then return true
  set { memory with compared := Index.put (orderedPair a b) exclusive memory.compared }
  return false

/-- The fields of a selection set. -/
def fieldSet (s : Schema) (parent : Option NamedType) (brace : Nat)
    (selections : List Selection) : Comparing FieldSet := do
  let memory ← get
  match memory.sets.lookup brace with
  | some known => return known
  | none =>
    let fresh := addSelections s parent selections ⟨brace, [], []⟩
    set { memory with sets := (brace, fresh) :: memory.sets }
    return fresh

def fragmentSet (s : Schema) (f : Fragment) : Comparing FieldSet :=
  fieldSet s (s.type? f.condition.value) f.brace f.selections

/-- Whether values of two types look different when they are answered. -/
def typesConflict (s : Schema) : SchemaType → SchemaType → Bool
  | .list a, .list b => typesConflict s a b
  | .list _, _ | _, .list _ => true
  | .nonNull a, .nonNull b => typesConflict s a b
  | .nonNull _, _ | _, .nonNull _ => true
  | .named a, .named b =>
    let isLeaf (name : String) : Bool := match s.type? name with
      | some t => t.body.isLeaf
      | none => false
    (isLeaf a || isLeaf b) && a != b

def sameArguments (left right : List Argument) : Bool :=
  left.length == right.length && left.all fun a =>
    match right.reverse.find? (·.name.value = a.name.value) with
    | some b => a.value.sorted.text == b.value.sorted.text
    | none => false

/-- Whether two uses of fields are on different objects. -/
def onDifferentObjects (a b : FieldUse) : Bool :=
  match a.parent, b.parent with
  | some s, some t => s.body.isObject && t.body.isObject && s.name != t.name
  | _, _ => false

/-- Why two fields by themselves cannot be merged. -/
def directReason? (s : Schema) (exclusive : Bool) (a b : FieldUse) : Option String :=
  let differing : Option String :=
    if exclusive then none
    else if a.head.name.value ≠ b.head.name.value then
      some (quote a.head.name.value ++ " and " ++ quote b.head.name.value
        ++ " are different fields")
    else if sameArguments a.head.arguments b.head.arguments then none
    else some "they have differing arguments"
  differing <|> do
    let t ← a.definition
    let u ← b.definition
    if typesConflict s t.type u.type then
      some ("they return conflicting types " ++ quote t.type.text ++ " and " ++ quote u.type.text)
    else none

/-- One conflict for what is selected in two fields. -/
def subfieldConflict (name : String) (a b : FieldUse) (conflicts : List Conflict) :
    Option Conflict :=
  if conflicts.isEmpty then none
  else
    let reasons := conflicts.map fun c =>
      "subfields " ++ quote c.name ++ " conflict because " ++ c.reason
    some ⟨name, " and ".intercalate reasons, a.head.pos :: conflicts.flatMap (·.left),
      b.head.pos :: conflicts.flatMap (·.right)⟩

/-- What stays the same in all comparisons of a document. -/
structure Setting where
  schema : Schema
  document : Document

/-- A comparison of two selection sets that is not finished. -/
structure Pending where
  left : Nat
  right : Nat
  exclusive : Bool
  compared : List ((String × String) × Bool)
deriving DecidableEq

abbrev Active := List Pending

def collectAllM {α : Type} (xs : List α) (f : α → Comparing (List Conflict)) :
    Comparing (List Conflict) := do
  return (← xs.mapM f).flatten

mutual

/-- The conflicts of two fields of the same response name. -/
def compareFields (st : Setting) (fuel : Nat) (active : Active) (exclusive : Bool)
    (name : String) (a b : FieldUse) : Comparing (List Conflict) :=
  match fuel with
  | 0 => return []
  | fuel + 1 => do
    let exclusive := exclusive || onDifferentObjects a b
    match directReason? st.schema exclusive a b with
    | some reason => return [⟨name, reason, [a.head.pos], [b.head.pos]⟩]
    | none =>
      if a.selections.isEmpty || b.selections.isEmpty then return []
      else
        let base (f : FieldUse) := f.definition.bind fun d => st.schema.base? d.type
        let left ← fieldSet st.schema (base a) a.head.brace a.selections
        let right ← fieldSet st.schema (base b) b.head.brace b.selections
        let inner ← compareInner st fuel active exclusive left right
        return (subfieldConflict name a b inner).toList

/-- The conflicts between the fields of two sets. -/
def compareMaps (st : Setting) (fuel : Nat) (active : Active) (exclusive : Bool)
    (left right : FieldSet) : Comparing (List Conflict) :=
  match fuel with
  | 0 => return []
  | fuel + 1 =>
    collectAllM left.fields fun (name, as) =>
      collectAllM as fun a =>
        collectAllM ((Index.find? name right.fields).getD []) fun b =>
          compareFields st fuel active exclusive name a b

/-- The conflicts between what is selected in two fields, fragments included. -/
def compareInner (st : Setting) (fuel : Nat) (active : Active) (exclusive : Bool)
    (left right : FieldSet) : Comparing (List Conflict) :=
  match fuel with
  | 0 => return []
  | fuel + 1 => do
    let pending : Pending := ⟨left.brace, right.brace, exclusive, (← get).compared⟩
    if pending ∈ active then return []
    else
      let active := pending :: active
      let own ← compareMaps st fuel active exclusive left right
      let rightFragments ← collectAllM right.fragments fun n =>
        compareWithFragment st fuel active exclusive left n
      let leftFragments ← collectAllM left.fragments fun n =>
        compareWithFragment st fuel active exclusive right n
      let both ← collectAllM left.fragments fun m =>
        collectAllM right.fragments fun n => compareFragments st fuel active exclusive m n
      return own ++ rightFragments ++ leftFragments ++ both

/-- The conflicts between a set and a fragment with those that it spreads. -/
def compareWithFragment (st : Setting) (fuel : Nat) (active : Active) (exclusive : Bool)
    (set : FieldSet) (name : String) : Comparing (List Conflict) :=
  match fuel with
  | 0 => return []
  | fuel + 1 => do
    match st.document.fragment? name with
    | none => return []
    | some f =>
      let other ← fragmentSet st.schema f
      if set.brace = other.brace then return []
      else
        let own ← compareMaps st fuel active exclusive set other
        let further ← collectAllM other.fragments fun n => do
          if ← wasCompared n name exclusive then return []
          else compareWithFragment st fuel active exclusive set n
        return own ++ further

/-- The conflicts between two fragments with those that they spread. -/
def compareFragments (st : Setting) (fuel : Nat) (active : Active) (exclusive : Bool)
    (m n : String) : Comparing (List Conflict) :=
  match fuel with
  | 0 => return []
  | fuel + 1 => do
    if m = n then return []
    else if ← wasCompared m n exclusive then return []
    else
      match st.document.fragment? m, st.document.fragment? n with
      | some f, some g =>
        let left ← fragmentSet st.schema f
        let right ← fragmentSet st.schema g
        let own ← compareMaps st fuel active exclusive left right
        let first ← collectAllM right.fragments fun k =>
          compareFragments st fuel active exclusive m k
        let second ← collectAllM left.fragments fun k =>
          compareFragments st fuel active exclusive k n
        return own ++ first ++ second
      | _, _ => return []

end

/-- Each element with those behind it. -/
def withLater {α : Type} : List α → List (α × List α)
  | [] => []
  | a :: rest => (a, rest) :: withLater rest

/-- The conflicts within a selection set. -/
def conflictsWithin (st : Setting) (fuel : Nat) (set : FieldSet) : Comparing (List Conflict) := do
  let own ← collectAllM set.fields fun (name, uses) =>
    collectAllM (withLater uses) fun (a, later) =>
      collectAllM later fun b => compareFields st fuel [] false name a b
  let spread ← collectAllM (withLater set.fragments) fun (name, later) => do
    let withFields ← compareWithFragment st fuel [] false set name
    let withOthers ← collectAllM later fun other =>
      compareFragments st fuel [] false name other
    return withFields ++ withOthers
  return own ++ spread

def Conflict.violation (c : Conflict) : Violation :=
  ⟨"Fields " ++ quote c.name ++ " conflict because " ++ c.reason
    ++ ". Use different aliases on the fields to fetch both if this was intentional.",
    c.left ++ c.right⟩

/-- A bound on the nesting of comparisons. A pair of sets is compared within itself only after more
pairs of fragments were compared, of which there are no more than pairs of spreads. -/
def budget (sets spreads : Nat) : Nat :=
  10 * (sets + 1) * (sets + 1) * (2 * (spreads + 1) * (spreads + 1) + 1)

/-- The violations in all selection sets of a document, by the offset of the set. -/
def table (s : Schema) (doc : Document) (visits : List Visit) : List (Nat × List Violation) :=
  let sets := visits.filterMap fun
    | .selectionSet parent brace selections => some (parent, brace, selections)
    | _ => none
  let spreads := visits.filterMap fun
    | .spread _ s => some s
    | _ => none
  let fuel := budget sets.length spreads.length
  let entry : Option NamedType × Nat × List Selection → Comparing (Nat × List Violation)
    | (parent, brace, selections) => do
      let set ← fieldSet s parent brace selections
      let conflicts ← conflictsWithin ⟨s, doc⟩ fuel set
      return (brace, conflicts.map Conflict.violation)
  ((sets.mapM entry).run ⟨[], []⟩).1

end QueryDepth.Overlap

namespace QueryDepth

def RuleContext.of (s : Schema) (doc : Document) : RuleContext :=
  ⟨s, doc, Overlap.table s doc (doc.visits s)⟩

namespace Rule

def overlappingFieldsCanBeMerged : Rule := fun ctx visit =>
  match visit with
  | .selectionSet _ brace _ => (ctx.conflicts.lookup brace).getD []
  | _ => []

end Rule

end QueryDepth
