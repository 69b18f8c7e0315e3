import QueryDepth.Schema.Literal
import QueryDepth.Validation.Rule.Basic

/-!
# Rules on values

A value that stands for an input fits the type of the input. What is inside a list or an object that
does not fit is not looked at. No field of an object is given twice.
-/

namespace QueryDepth.Rule

/-- Says that a value is not of a type. -/
def unexpectedValue (type : SchemaType) (v : Value) : Violation :=
  ⟨"Expected value of type '" ++ type.text ++ "', found " ++ v.text ++ ".", [v.pos]⟩

/-- What is wrong with a value as a scalar or an enum of a type. -/
def leafViolations (s : Schema) (type : SchemaType) (v : Value) : List Violation :=
  match s.base? type with
  | some base =>
    if base.body.isLeaf then
      (Schema.leafFault? base v).toList.map fun message => ⟨message, [v.pos]⟩
    else [unexpectedValue type v]
  | none => []

/-- The required fields that an object lacks. -/
def missingFields (base : NamedType) (given : List (Name × Value)) : List InputField :=
  base.body.inputFields.filter fun f => f.isRequired && !given.any (·.1.value = f.name)

/-- What is wrong with a value where an input of a type is expected, its parts apart. -/
def valueViolations (s : Schema) (type : SchemaType) (v : Value) : List Violation :=
  match v with
  | .variable_ _ _ => []
  | .null _ => if type.isNonNull then [unexpectedValue type v] else []
  | .list _ _ => if type.isList then [] else leafViolations s type.nullable v
  | .object _ given =>
    match s.base? type with
    | some base =>
      if base.body.isInputObject then
        (missingFields base given).map fun f =>
          ⟨"Field '" ++ base.name ++ "." ++ f.name ++ "' of required type '" ++ f.type.text
            ++ "' was not provided.", [v.pos]⟩
      else leafViolations s type v
    | none => []
  | _ => leafViolations s type v

def valuesOfCorrectType : Rule := fun ctx visit =>
  match visit with
  | .value (some type) _ true v => valueViolations ctx.schema type v
  | .objectField (some base) true _ name =>
    if base.body.isInputObject && (base.inputField? name.value).isNone then
      let known := base.body.inputFields.map (·.name)
      [⟨"Field '" ++ name.value ++ "' is not defined by type '" ++ base.name ++ "'."
        ++ Text.didYouMean (Text.suggestions name.value known) "", [name.pos]⟩]
    else []
  | _ => []

def uniqueInputFieldNames : Rule := fun _ visit =>
  match visit with
  | .objectField _ _ earlier name =>
    againViolation (fun n => "There can be only one input field named '" ++ n ++ "'.") earlier name
  | _ => []

end QueryDepth.Rule
