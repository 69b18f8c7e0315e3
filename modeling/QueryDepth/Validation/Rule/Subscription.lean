import QueryDepth.Index
import QueryDepth.Schema.Literal
import QueryDepth.Validation.Rule.Fragment

/-!
# The rule on subscriptions

A subscription selects one field, which is no field of introspection. The fields are collected as
they would be for an execution: fragments apply by their types, and directives leave out selections.
No variable has a value here. Directives whose conditions have no value break the validation off.
-/

namespace QueryDepth

/-- The conditions under which a selection is left out. -/
structure CollectContext where
  schema : Schema
  document : Document
  root : NamedType

/-- Fields by response name, and the fragments that were entered. -/
structure Collected where
  fields : List (String × List FieldHead)
  entered : List String

abbrev Collecting := Except Violation

/-- The truth value that a directive is given for its condition. -/
def conditionOf (d : Directive) : Collecting Bool :=
  match d.arguments.reverse.find? (·.name.value = "if") with
  | none =>
    .error ⟨"Argument 'if' of required type 'Boolean!' was not provided.", [d.pos]⟩
  | some a =>
    match a.value with
    | .boolean _ b => .ok b
    | .variable_ pos name =>
      .error ⟨"Argument 'if' of required type 'Boolean!' was provided the variable '$" ++ name.value
        ++ "' which was not provided a runtime value.", [pos]⟩
    | .null pos => .error ⟨"Argument 'if' of non-null type 'Boolean!' must not be null.", [pos]⟩
    | v => .error ⟨"Argument 'if' has invalid value " ++ v.text ++ ".", [v.pos]⟩

/-- Whether the directives let a selection stand. -/
def isIncluded (directives : List Directive) : Collecting Bool := do
  let named (name : String) := directives.find? (·.name.value = name)
  let skipped ← match named "skip" with
    | some d => conditionOf d
    | none => pure false
  if skipped then return false
  match named "include" with
  | some d => conditionOf d
  | none => return true

/-- Whether a fragment with this condition applies to the root type. -/
def CollectContext.applies (ctx : CollectContext) (condition : Name) : Bool :=
  match ctx.schema.type? condition.value with
  | some t => t.name == ctx.root.name || ctx.schema.isMember t ctx.root.name
  | none => false

def Collected.add (c : Collected) (f : FieldHead) : Collected :=
  let others := (Index.find? f.responseName c.fields).getD []
  { c with fields := Index.put f.responseName (others ++ [f]) c.fields }

mutual

/-- Collects the fields of a selection. Each fragment is entered once, so the number of fragments
bounds how deep they are entered. -/
def collect (ctx : CollectContext) (fuel : Nat) (selection : Selection) (c : Collected) :
    Collecting Collected :=
  match selection with
  | .field f _ => do
    if ← isIncluded f.directives then return c.add f else return c
  | .inlineFragment f selections => do
    let included ← isIncluded f.directives
    if included && f.condition.all ctx.applies then collectAll ctx fuel selections c
    else return c
  | .spread s => do
    let name := s.name.value
    if c.entered.contains name then return c
    else
      let included ← isIncluded s.directives
      if included then
        let c := { c with entered := name :: c.entered }
        match fuel, ctx.document.fragment? name with
        | fuel + 1, some f =>
          if ctx.applies f.condition then collectAll ctx fuel f.selections c else return c
        | _, _ => return c
      else return c
termination_by (fuel, sizeOf selection)

def collectAll (ctx : CollectContext) (fuel : Nat) (selections : List Selection) (c : Collected) :
    Collecting Collected :=
  match selections with
  | [] => return c
  | selection :: rest => do
    let c ← collect ctx fuel selection c
    collectAll ctx fuel rest c
termination_by (fuel, sizeOf selections)

end

/-- The fields of a subscription at its root, by response name. -/
def rootFields (s : Schema) (doc : Document) (root : NamedType) (op : Operation) :
    Collecting (List (String × List FieldHead)) :=
  (·.fields) <$> collectAll ⟨s, doc, root⟩ (doc.fragments.length + 1) op.selections ⟨[], []⟩

namespace RuleContext

/-- The fields of an operation at its root, if it is a subscription of the schema. -/
def subscriptionFields? (ctx : RuleContext) (op : Operation) :
    Option (Collecting (List (String × List FieldHead))) := do
  guard (op.kind = .subscription)
  let root ← ctx.schema.type? (← ctx.schema.subscription)
  return rootFields ctx.schema ctx.document root op

end RuleContext

namespace Rule

/-- What breaks a validation off at a visit. -/
def brokenOff? (ctx : RuleContext) : Visit → Option Violation
  | .definition (.operation op) =>
    match ctx.subscriptionFields? op with
    | some (.error v) => some v
    | _ => none
  | _ => none

def singleFieldSubscriptions : Rule := fun ctx visit =>
  match visit with
  | .definition (.operation op) =>
    match ctx.subscriptionFields? op with
    | some (.ok fields) =>
      let label := match op.name with
        | some name => "Subscription '" ++ name.value ++ "'"
        | none => "Anonymous Subscription"
      let places (fs : List FieldHead) := fs.map (·.pos)
      let further := (fields.drop 1).flatMap (·.2)
      let several := if 1 < fields.length then
        [⟨label ++ " must select only one top level field.", places further⟩] else []
      several ++ fields.filterMap fun (_, fs) =>
        if fs.head?.any fun f => "__".toList.isPrefixOf f.name.value.toList then
          some ⟨label ++ " must not select an introspection top level field.", places fs⟩
        else none
    | _ => []
  | _ => []

end Rule

end QueryDepth
