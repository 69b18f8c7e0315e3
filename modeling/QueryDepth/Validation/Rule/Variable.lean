import QueryDepth.Validation.Rule.Fragment

/-!
# Rules on variables

Operations define the variables that are used in them and in the fragments that they reach, and no
others. Each variable is defined once and fits where it is used.
-/

namespace QueryDepth

/-- A use of a variable, and the input that is expected there. -/
structure VariableUse where
  pos : Nat
  name : String
  type : Option SchemaType
  hasDefault : Bool

def Visit.variableUse? : Visit → Option VariableUse
  | .value type hasDefault _ (.variable_ pos name) => some ⟨pos, name.value, type, hasDefault⟩
  | _ => none

namespace RuleContext

/-- The uses of variables in an operation, then those in the fragments that it reaches. -/
def variableUses (ctx : RuleContext) (op : Operation) : List VariableUse :=
  (op.visits ctx.schema).filterMap Visit.variableUse?
    ++ (ctx.document.reachedFragments op).flatMap fun f =>
      (f.visits ctx.schema).filterMap Visit.variableUse?

end RuleContext

namespace Rule

def uniqueVariableNames : Rule := fun _ visit =>
  match visit with
  | .definition (.operation op) =>
    repetitionViolations (fun n => "There can be only one variable named '$" ++ n ++ "'.")
      (op.variableDefs.map (·.name))
  | _ => []

/-- The name of an operation in quotes behind some words, nothing for an anonymous one. -/
def operationSuffix (words : String) (op : Operation) : String :=
  match op.name with
  | some name => words ++ quote name.value
  | none => ""

def noUndefinedVariables : Rule := fun ctx visit =>
  match visit with
  | .operationEnd op =>
    let isDefined (name : String) : Bool := op.variableDefs.any (·.name.value = name)
    ((ctx.variableUses op).filter fun u => !isDefined u.name).map fun u =>
      ⟨"Variable '$" ++ u.name ++ "' is not defined" ++ operationSuffix " by operation " op ++ ".",
        [u.pos, op.pos]⟩
  | _ => []

def noUnusedVariables : Rule := fun ctx visit =>
  match visit with
  | .operationEnd op =>
    let used := (ctx.variableUses op).map (·.name)
    (op.variableDefs.filter fun v => !used.contains v.name.value).map fun v =>
      ⟨"Variable '$" ++ v.name.value ++ "' is never used" ++ operationSuffix " in operation " op
        ++ ".", [v.pos]⟩
  | _ => []

def hasNonNullDefault (v : VariableDefinition) : Bool :=
  match v.default with
  | some (.null _) | none => false
  | some _ => true

/-- Whether a variable of a type can stand for an input. A default value, of the variable or of the
input, takes the place of null. -/
def isAllowed (s : Schema) (v : VariableDefinition) (type : SchemaType) (input : SchemaType)
    (hasDefault : Bool) : Bool :=
  if input.isNonNull && !type.isNonNull then
    (hasNonNullDefault v || hasDefault) && s.isSubtype type input.nullable
  else s.isSubtype type input

def variablesInAllowedPosition : Rule := fun ctx visit =>
  match visit with
  | .operationEnd op =>
    (ctx.variableUses op).filterMap fun u => do
      let input ← u.type
      let v ← op.variableDefs.reverse.find? (·.name.value = u.name)
      let type ← ctx.schema.typeOf? v.type
      if isAllowed ctx.schema v type input u.hasDefault then none
      else
        some ⟨"Variable '$" ++ u.name ++ "' of type '" ++ type.text
          ++ "' used in position expecting type '" ++ input.text ++ "'.", [v.pos, u.pos]⟩
  | _ => []

end Rule

end QueryDepth
