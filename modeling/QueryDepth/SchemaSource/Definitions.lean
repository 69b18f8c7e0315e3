import QueryDepth.Document.Parser
import QueryDepth.SchemaSource.Assembly
import QueryDepth.SchemaSource.SchemaError
import QueryDepth.Validation.Rule.Argument
import QueryDepth.Validation.Rule.Directive
import QueryDepth.Validation.Rule.TypeName
import QueryDepth.Validation.Rule.TypeSystem
import QueryDepth.Validation.Rule.Value

/-!
# Schemas from definitions

A text with definitions of types describes a schema. The definitions obey rules of their own. Each
type has the parts of its definition and of its extensions; types with standard names are the
standard ones. Root types are told by a schema definition, or else by their names. Standard
directives that are not defined are added.
-/

namespace QueryDepth

/-! ## The rules -/

/-- The rules on definitions, in the order in which they report. -/
def definitionRules : List Rule :=
  [Rule.loneSchemaDefinition, Rule.uniqueOperationTypes, Rule.uniqueTypeNames,
   Rule.uniqueEnumValueNames, Rule.uniqueFieldDefinitionNames, Rule.uniqueArgumentDefinitionNames,
   Rule.uniqueDirectiveNames, Rule.knownTypeNames, Rule.knownDirectives,
   Rule.uniqueDirectivesPerLocation, Rule.possibleTypeExtensions,
   Rule.knownArgumentNamesOnDirectives, Rule.uniqueArgumentNames, Rule.uniqueInputFieldNames,
   Rule.providedRequiredArgumentsOnDirectives]

/-- What is there before anything is defined. -/
def Schema.bare : Schema := { Schema.empty with directives := Schema.standardDirectives }

/-- What the rules on definitions report. -/
def Document.definitionViolations (doc : Document) : List Violation :=
  let ctx : RuleContext := ⟨Schema.bare, doc, []⟩
  (doc.visits Schema.bare).flatMap fun visit => definitionRules.flatMap fun rule => rule ctx visit

/-! ## Types -/

/-- Whether a definition is marked as deprecated. A reason that is null takes the mark back. -/
def isDeprecated (directives : List Directive) : Bool :=
  match directives.find? (·.name.value = "deprecated") with
  | none => false
  | some d =>
    match d.arguments.reverse.find? (·.name.value = "reason") with
    | some ⟨_, .null _⟩ => false
    | _ => true

def InputDefinition.meaning (d : InputDefinition) : InputField :=
  ⟨d.name.value, SchemaType.ofTypeRef d.type, d.default, isDeprecated d.directives⟩

def FieldDefinition.meaning (d : FieldDefinition) : SchemaField :=
  ⟨d.name.value, d.arguments.map InputDefinition.meaning, SchemaType.ofTypeRef d.type⟩

/-- The definition of a type with its extensions. -/
def Document.partsOf (doc : Document) (d : TypeDefinition) : List TypeDefinition :=
  d :: doc.definitions.filterMap fun
    | .type true e => if e.name.value = d.name.value then some e else none
    | _ => none

/-- The type that a definition and its extensions describe. -/
def TypeDefinition.meaning (doc : Document) (d : TypeDefinition) : NamedType :=
  match Schema.standardType? d.name.value with
  | some t => t
  | none =>
    let bodies := (doc.partsOf d).map (·.body)
    let values (names : TypeBody → List Name) := (bodies.flatMap names).map (·.value)
    let fields := (bodies.flatMap TypeBody.fieldDefinitions).map FieldDefinition.meaning
    let interfaces := values TypeBody.interfaceNames
    ⟨d.name.value, match d.body with
      | .scalar => .scalar
      | .object _ _ => .object interfaces fields
      | .interface _ _ => .interface interfaces fields
      | .union _ => .union (values TypeBody.memberNames)
      | .enum _ =>
        .enum ((bodies.flatMap TypeBody.valueDefinitions).map fun v => v.name.value)
      | .inputObject _ =>
        .inputObject ((bodies.flatMap TypeBody.inputDefinitions).map InputDefinition.meaning)⟩

namespace Document

/-! ## Roots and directives -/

/-- The name of a root type if there is no schema definition. -/
def usualRootName : OperationKind → String
  | .query => "Query"
  | .mutation => "Mutation"
  | .subscription => "Subscription"

def root (doc : Document) (kind : OperationKind) : Option String :=
  let usual := usualRootName kind
  if doc.schemaDefinitions.isEmpty ∧ doc.typeDefinitions.any (·.name.value = usual) then some usual
  else ((doc.schemaParts.flatMap (·.roots)).find? (·.kind = kind)).map fun r => r.type.value

def directives (doc : Document) : List SchemaDirective :=
  let own := doc.directiveDefinitions.map fun d =>
    { d.meaning with arguments := d.arguments.map InputDefinition.meaning }
  own ++ Schema.standardDirectives.filter fun d => !own.any (·.name = d.name)

/-- What a document describes. -/
def describedSchema (doc : Document) : SchemaParts :=
  ⟨doc.typeDefinitions.map (TypeDefinition.meaning doc), doc.root .query, doc.root .mutation,
    doc.root .subscription, doc.directives⟩

end Document

/-! ## What can be wrong with the parts -/

namespace Definitions

/-- What the parts are checked against: the types, with default values as they are written, and the
text for excerpts. -/
structure Setting where
  text : List Char
  document : Document
  schema : Schema

abbrev Check := Except BuildFault Unit

/-- The argument of a standard directive that has a text for its meaning. -/
def checkTextArgument (st : Setting) (directive argument : String) (isRequired : Bool)
    (directives : List Directive) : Check :=
  let fail (message : String) (pos : Nat) : Check := .error (.badArgument st.text ⟨message, [pos]⟩)
  match directives.find? (·.name.value = directive) with
  | none => .ok ()
  | some d =>
    match d.arguments.reverse.find? (·.name.value = argument) with
    | none =>
      if isRequired then
        fail ("Argument '" ++ argument ++ "' of required type 'String!' was not provided.") d.pos
      else .ok ()
    | some a =>
      match a.value with
      | .string _ _ _ => .ok ()
      | .null pos =>
        if isRequired then
          fail ("Argument '" ++ argument ++ "' of non-null type 'String!' must not be null.") pos
        else .ok ()
      | v => fail ("Argument '" ++ argument ++ "' has invalid value " ++ v.text ++ ".") v.pos

def checkDeprecation (st : Setting) (directives : List Directive) : Check :=
  checkTextArgument st "deprecated" "reason" false directives

def inputDefinitionsOf (st : Setting) (name : String) : List InputDefinition :=
  match st.document.typeDefinitions.find? (·.name.value = name) with
  | some d => (st.document.partsOf d).flatMap fun part => part.body.inputDefinitions
  | none => []

mutual

/-- Looks for a value where no input can be. A value for an input object asks for the fields of that
type, so these must be right. -/
def checkDefault (st : Setting) : Nat → Value → SchemaType → Check
  | 0, _, _ => .ok ()
  | fuel + 1, v, t =>
    match v, t with
    | .null _, _ => .ok ()
    | v, .nonNull t => checkDefault st fuel v t
    | .list _ items, .list t => items.forM fun v => checkDefault st fuel v t
    | v, .list t => checkDefault st fuel v t
    | v, .named name =>
      match st.schema.type? name with
      | none => .ok ()
      | some base =>
        if !base.body.isInput then .error (.unexpectedInput name)
        else
          match v with
          | .object _ given =>
            match base.body with
            | .inputObject fields => do
              checkInputFields st fuel name
              fields.forM fun f =>
                match given.reverse.find? (·.1.value = f.name) with
                | some (_, v) => checkDefault st fuel v f.type
                | none => .ok ()
            | _ => .ok ()
          | _ => .ok ()

/-- The fields of an input object. -/
def checkInputFields (st : Setting) : Nat → String → Check
  | 0, _ => .ok ()
  | fuel + 1, name =>
    match (inputDefinitionsOf st name).forM (checkInput st fuel .inputFieldType) with
    | .ok () => .ok ()
    | .error fault => .error (.within name "fields" fault)

/-- An argument or a field of an input object. -/
def checkInput (st : Setting) : Nat → BuildFault → InputDefinition → Check
  | 0, _, _ => .ok ()
  | fuel + 1, fault, d => do
    let type := SchemaType.ofTypeRef d.type
    match d.default with
    | some v => checkDefault st fuel v type
    | none => pure ()
    checkDeprecation st d.directives
    if st.schema.isInputType type then pure () else throw fault

end

/-- A bound on how deep values and types are looked into. -/
def fuel (st : Setting) : Nat := 4 * (st.text.length + st.schema.types.length + 1)

def checkField (st : Setting) (d : FieldDefinition) : Check := do
  d.arguments.forM (checkInput st (fuel st) .argumentType)
  checkDeprecation st d.directives
  if st.schema.isOutputType (SchemaType.ofTypeRef d.type) then pure () else throw .fieldType

/-- What is looked at as soon as a type is defined. -/
def checkAtOnce (st : Setting) (d : TypeDefinition) : Check :=
  match d.body with
  | .scalar => checkTextArgument st "specifiedBy" "url" true d.directives
  | .enum _ =>
    ((st.document.partsOf d).flatMap (·.body.valueDefinitions)).forM fun v =>
      checkDeprecation st v.directives
  | _ => .ok ()

/-- Whether all of some names are types of a sort. -/
def allAre (st : Setting) (sort : SchemaBody → Bool) (names : List Name) : Bool :=
  names.all fun n =>
    match st.schema.type? n.value with
    | some t => sort t.body
    | none => false

/-- What is looked at when all types are known. -/
def checkParts (st : Setting) (d : TypeDefinition) : Check :=
  let name := d.name.value
  let bodies := (st.document.partsOf d).map (·.body)
  match d.body with
  | .object _ _ | .interface _ _ => do
    if !allAre st SchemaBody.isInterface (bodies.flatMap TypeBody.interfaceNames) then
      throw (.notInterfaces name)
    match (bodies.flatMap TypeBody.fieldDefinitions).forM (checkField st) with
    | .ok () => pure ()
    | .error fault => throw (.within name "fields" fault)
  | .union _ =>
    if allAre st SchemaBody.isObject (bodies.flatMap TypeBody.memberNames) then .ok ()
    else .error (.notObjects name)
  | .inputObject _ => checkInputFields st (fuel st) name
  | _ => .ok ()

/-- The definitions whose names are not standard. -/
def ownTypes (st : Setting) : List TypeDefinition :=
  st.document.typeDefinitions.filter fun d => !Schema.isStandardName d.name.value

def check (st : Setting) : Check := do
  (ownTypes st).forM (checkAtOnce st)
  st.document.directiveDefinitions.forM fun d =>
    d.arguments.forM (checkInput st (fuel st) .argumentType)
  (ownTypes st).forM (checkParts st)

end Definitions

namespace Schema

/-- The schema that the definitions of a document describe. -/
def ofDefinitions (text : List Char) (doc : Document) : Except SchemaError Schema :=
  match doc.definitionViolations with
  | [] =>
    let parts := doc.describedSchema
    let types := parts.types ++ standardTypes.filter fun t => !parts.types.any (·.name = t.name)
    match Definitions.check ⟨text, doc, { empty with types }⟩ with
    | .ok () => .ok parts.schema
    | .error fault => .error (.unbuildable fault)
  | violations => .error (.invalid (violations.map (·.message)))

/-- The schema that a text describes. -/
def ofText (text : String) : Except SchemaError Schema :=
  match Document.parse text with
  | .ok doc => ofDefinitions text.toList doc
  | .error e => .error (.unreadable text e)

end Schema

end QueryDepth
