import QueryDepth.Text.Suggestion
import QueryDepth.Validation.Rule.Basic

/-!
# Rules on definitions of types

Types, directives, fields, enum values, arguments and root types are defined once. The parts of a
type are those of its definition and of all its extensions. An extension extends a type of its own
kind that is defined.
-/

namespace QueryDepth

namespace TypeBody

/-- The word for a kind of type in messages. -/
def kindText : TypeBody → String
  | .scalar => "scalar"
  | .object _ _ => "object"
  | .interface _ _ => "interface"
  | .union _ => "union"
  | .enum _ => "enum"
  | .inputObject _ => "input object"

def interfaceNames : TypeBody → List Name
  | .object interfaces _ | .interface interfaces _ => interfaces
  | _ => []

def fieldDefinitions : TypeBody → List FieldDefinition
  | .object _ fields | .interface _ fields => fields
  | _ => []

def inputDefinitions : TypeBody → List InputDefinition
  | .inputObject fields => fields
  | _ => []

def valueDefinitions : TypeBody → List EnumValueDefinition
  | .enum values => values
  | _ => []

def memberNames : TypeBody → List Name
  | .union types => types
  | _ => []

/-- The names of the fields that a type has, or that an input object takes. -/
def fieldNames : TypeBody → List Name
  | .object _ fields | .interface _ fields => fields.map (·.name)
  | .inputObject fields => fields.map (·.name)
  | _ => []

end TypeBody

namespace Document

def schemaDefinitions (doc : Document) : List SchemaDefinition :=
  doc.definitions.filterMap fun
    | .schema false d => some d
    | _ => none

/-- Definitions and extensions of the schema. -/
def schemaParts (doc : Document) : List SchemaDefinition :=
  doc.definitions.filterMap fun
    | .schema _ d => some d
    | _ => none

/-- Definitions and extensions of types. -/
def typeParts (doc : Document) : List TypeDefinition :=
  doc.definitions.filterMap fun
    | .type _ d => some d
    | _ => none

/-- The parts of a type before an offset. -/
def earlierParts (doc : Document) (name : String) (pos : Nat) : List TypeDefinition :=
  (doc.typeParts.takeWhile (·.pos < pos)).filter (·.name.value = name)

end Document

namespace Rule

def loneSchemaDefinition : Rule := fun ctx visit =>
  match visit with
  | .definition (.schema false d) =>
    if (ctx.document.schemaDefinitions.takeWhile (·.pos < d.pos)).isEmpty then []
    else [⟨"Must provide only one schema definition.", [d.pos]⟩]
  | _ => []

def uniqueOperationTypes : Rule := fun ctx visit =>
  match visit with
  | .definition (.schema _ d) =>
    let earlier := (ctx.document.schemaParts.takeWhile (·.pos < d.pos)).flatMap (·.roots)
    (withEarlier earlier d.roots).flatMap fun (before, root) =>
      match before.find? (·.kind = root.kind) with
      | some first =>
        [⟨"There can be only one " ++ root.kind.text ++ " type in schema.", [first.pos, root.pos]⟩]
      | none => []
  | _ => []

def uniqueTypeNames : Rule := fun ctx visit =>
  match visit with
  | .definition (.type false d) =>
    againViolation (fun n => "There can be only one type named '" ++ n ++ "'.")
      ((ctx.document.typeDefinitions.map (·.name)).takeWhile (·.pos < d.name.pos)) d.name
  | _ => []

/-- One violation for each name of a list that occurs again. -/
def againViolations (message : String → String) (earlier names : List Name) : List Violation :=
  (withEarlier earlier names).flatMap fun (before, name) => againViolation message before name

def uniqueEnumValueNames : Rule := fun ctx visit =>
  match visit with
  | .definition (.type _ d) =>
    let names (part : TypeDefinition) := part.body.valueDefinitions.map (·.name)
    againViolations
      (fun n => "Enum value '" ++ d.name.value ++ "." ++ n ++ "' can only be defined once.")
      ((ctx.document.earlierParts d.name.value d.pos).flatMap names) (names d)
  | _ => []

def uniqueFieldDefinitionNames : Rule := fun ctx visit =>
  match visit with
  | .definition (.type _ d) =>
    againViolations
      (fun n => "Field '" ++ d.name.value ++ "." ++ n ++ "' can only be defined once.")
      ((ctx.document.earlierParts d.name.value d.pos).flatMap (·.body.fieldNames))
      d.body.fieldNames
  | _ => []

/-- The arguments that are defined several times for a field or a directive. -/
def repeatedDefinitions (owner : String) (arguments : List InputDefinition) : List Violation :=
  repetitionViolations
    (fun n => "Argument '" ++ owner ++ "(" ++ n ++ ":)' can only be defined once.")
    (arguments.map (·.name))

def uniqueArgumentDefinitionNames : Rule := fun _ visit =>
  match visit with
  | .definition (.directive d) => repeatedDefinitions ("@" ++ d.name.value) d.arguments
  | .definition (.type _ d) =>
    d.body.fieldDefinitions.flatMap fun f =>
      repeatedDefinitions (d.name.value ++ "." ++ f.name.value) f.arguments
  | _ => []

def uniqueDirectiveNames : Rule := fun ctx visit =>
  match visit with
  | .definition (.directive d) =>
    againViolation (fun n => "There can be only one directive named '@" ++ n ++ "'.")
      ((ctx.document.directiveDefinitions.map (·.name)).takeWhile (·.pos < d.name.pos)) d.name
  | _ => []

def possibleTypeExtensions : Rule := fun ctx visit =>
  match visit with
  | .definition (.type true d) =>
    let name := d.name.value
    match ctx.document.typeDefinitions.reverse.find? (·.name.value = name) with
    | some definition =>
      if definition.body.kindText = d.body.kindText then []
      else
        [⟨"Cannot extend non-" ++ d.body.kindText ++ " type '" ++ name ++ "'.",
          [definition.pos, d.pos]⟩]
    | none =>
      let known := ctx.document.typeDefinitions.map (·.name.value)
      [⟨"Cannot extend type '" ++ name ++ "' because it is not defined."
        ++ Text.didYouMean (Text.suggestions name known) "", [d.name.pos]⟩]
  | _ => []

end Rule

end QueryDepth
