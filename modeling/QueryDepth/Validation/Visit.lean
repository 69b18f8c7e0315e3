import QueryDepth.Document.Basic
import QueryDepth.Schema.Standard

/-!
# Going through a document

A document is gone through from the outside in and from left to right. `Document.visits` lists what
is met on the way, each node with the types that a schema gives to its surroundings. Rules look at
single visits, so what rules report is a function of this list.

A type is carried down as the type of the value that the selections are made on. Selections can be
made only on composite types, so `Scope.parent` is the type if it is composite.
-/

namespace QueryDepth

/-- One step on the way through a document. -/
inductive Visit where
  | document
  | definition (definition : Definition)
  | variableDefinition (definition : VariableDefinition)
  /-- A part of a type definition, by its directives. -/
  | member (directives : List Directive)
  | namedType (inTypeSystem : Bool) (name : Name)
  | selectionSet (parent : Option NamedType) (brace : Nat) (selections : List Selection)
  | field (parent : Option NamedType) (definition : Option SchemaField) (head : FieldHead)
      (selections : List Selection)
  /-- A field, after everything in it. -/
  | fieldEnd (definition : Option SchemaField) (head : FieldHead)
  | spread (parent : Option NamedType) (spread : Spread)
  | inlineFragment (parent type : Option NamedType) (head : InlineHead)
  /-- A directive and the place where it stands, in words. -/
  | directive (place : String) (directive : Directive)
  /-- A directive, after its arguments. -/
  | directiveEnd (directive : Directive)
  /-- An argument of a field, and the definition of that field. -/
  | argument (owner : Option (NamedType × SchemaField)) (argument : Argument)
  /-- A value where an input of a type is expected. It is unchecked inside a value that is none. -/
  | value (type : Option SchemaType) (hasDefault isChecked : Bool) (value : Value)
  /-- A field of an object, the names before it, and the type that the object should have. -/
  | objectField (type : Option NamedType) (isChecked : Bool) (earlier : List Name) (name : Name)
  /-- An operation, after everything in it. -/
  | operationEnd (operation : Operation)
  | documentEnd

/-- What is known around a selection. -/
structure Scope where
  /-- The named type of the value that selections are made on. -/
  type : Option NamedType
  /-- The definition of the field around. -/
  field : Option SchemaField

def Scope.parent (scope : Scope) : Option NamedType := scope.type.filter (·.body.isComposite)

/-! ## Values -/

/-- A type as the type of an input, if it can be one. -/
def Schema.asInput (s : Schema) (t : SchemaType) : Option SchemaType :=
  if s.isInputType t then some t else none

/-- The type of the items of a list; a type that is no list is the type of its own items. -/
def SchemaType.item (t : SchemaType) : SchemaType :=
  match t.nullable with
  | .list item => item
  | t => t

def SchemaType.isList (t : SchemaType) : Bool :=
  match t.nullable with
  | .list _ => true
  | _ => false

/-- The definition of a field of an input object. -/
def NamedType.inputField? (t : NamedType) (name : String) : Option InputField :=
  t.body.inputFields.find? (·.name = name)

namespace Value

mutual

def visits (s : Schema) (type : Option SchemaType) (hasDefault isChecked : Bool) :
    Value → List Visit
  | .list p items =>
    .value type hasDefault isChecked (.list p items)
      :: itemVisits s (type.map SchemaType.item) (isChecked && type.any SchemaType.isList) items
  | .object p fields =>
    .value type hasDefault isChecked (.object p fields)
      :: fieldVisits s (type.bind s.base?) isChecked [] fields
  | v => [.value type hasDefault isChecked v]

def itemVisits (s : Schema) (type : Option SchemaType) (isChecked : Bool) :
    List Value → List Visit
  | [] => []
  | v :: vs => visits s type false isChecked v ++ itemVisits s type isChecked vs

def fieldVisits (s : Schema) (object : Option NamedType) (isChecked : Bool) (earlier : List Name) :
    List (Name × Value) → List Visit
  | [] => []
  | (name, v) :: rest =>
    let field := object.bind (·.inputField? name.value)
    (.objectField object isChecked earlier name
        :: visits s (field.bind fun f => s.asInput f.type) (field.any (·.default.isSome)) isChecked
          v)
      ++ fieldVisits s object isChecked (earlier ++ [name]) rest

end

end Value

/-! ## Arguments and directives -/

/-- The arguments of a field or a directive, and what is visited in them. -/
def argumentVisits (s : Schema) (owner : Option (NamedType × SchemaField))
    (known : List InputField) (arguments : List Argument) : List Visit :=
  arguments.flatMap fun a =>
    let definition := known.find? (·.name = a.name.value)
    .argument owner a
      :: a.value.visits s (definition.bind fun d => s.asInput d.type)
        (definition.any (·.default.isSome)) true

/-- Directives. The arguments of an unknown one are taken for arguments of the field around. -/
def directiveVisits (s : Schema) (field : Option SchemaField) (place : String)
    (directives : List Directive) : List Visit :=
  directives.flatMap fun d =>
    let known := match s.directive? d.name.value, field with
      | some definition, _ => definition.arguments
      | none, some f => f.arguments
      | none, none => []
    .directive place d :: argumentVisits s none known d.arguments ++ [.directiveEnd d]

/-! ## Selections -/

namespace Selection

/-- The type of an inline fragment; without a condition it is that of its surroundings. -/
def inlineType (s : Schema) (scope : Scope) (condition : Option Name) : Option NamedType :=
  match condition with
  | some name => (s.type? name.value).filter (·.body.isOutput)
  | none => scope.type

mutual

def visits (s : Schema) (scope : Scope) : Selection → List Visit
  | .field f selections =>
    let definition := scope.parent.bind fun t => s.fieldOn? t f.name.value
    let owner := match scope.parent, definition with
      | some t, some d => some (t, d)
      | _, _ => none
    let known := match definition with
      | some d => d.arguments
      | none => []
    let inner : Scope := ⟨definition.bind fun d => s.base? d.type, definition⟩
    .field scope.parent definition f selections
      :: argumentVisits s owner known f.arguments
      ++ directiveVisits s definition "field" f.directives
      ++ (if selections.isEmpty then []
        else .selectionSet inner.parent f.brace selections :: visitsAll s inner selections)
      ++ [.fieldEnd definition f]
  | .spread sp =>
    .spread scope.parent sp :: directiveVisits s scope.field "fragment spread" sp.directives
  | .inlineFragment f selections =>
    let inner : Scope := ⟨inlineType s scope f.condition, scope.field⟩
    .inlineFragment scope.parent inner.type f
      :: (f.condition.toList.map (.namedType false)
        ++ directiveVisits s scope.field "inline fragment" f.directives
        ++ .selectionSet inner.parent f.brace selections :: visitsAll s inner selections)

def visitsAll (s : Schema) (scope : Scope) : List Selection → List Visit
  | [] => []
  | selection :: rest => visits s scope selection ++ visitsAll s scope rest

end

end Selection

/-! ## Definitions -/

def VariableDefinition.visits (s : Schema) (v : VariableDefinition) : List Visit :=
  .variableDefinition v :: .namedType false v.type.baseName
    :: (match v.default with
      | some value => value.visits s ((s.typeOf? v.type).bind s.asInput) false true
      | none => [])
    ++ directiveVisits s none "variable definition" v.directives

def Operation.visits (s : Schema) (op : Operation) : List Visit :=
  let scope : Scope := ⟨((s.root? op.kind).bind s.type?).filter (·.body.isObject), none⟩
  .definition (.operation op) :: op.variableDefs.flatMap (VariableDefinition.visits s)
    ++ directiveVisits s none op.kind.text op.directives
    ++ .selectionSet scope.parent op.brace op.selections
      :: Selection.visitsAll s scope op.selections
    ++ [.operationEnd op]

def Fragment.visits (s : Schema) (f : Fragment) : List Visit :=
  let scope : Scope := ⟨(s.type? f.condition.value).filter (·.body.isOutput), none⟩
  .definition (.fragment f) :: .namedType false f.condition
    :: directiveVisits s none "fragment definition" f.directives
    ++ .selectionSet scope.parent f.brace f.selections
      :: Selection.visitsAll s scope f.selections

def InputDefinition.visits (s : Schema) (place : String) (d : InputDefinition) : List Visit :=
  .member d.directives :: .namedType true d.type.baseName
    :: (match d.default with
      | some value => value.visits s none false true
      | none => [])
    ++ directiveVisits s none place d.directives

def FieldDefinition.visits (s : Schema) (d : FieldDefinition) : List Visit :=
  .member d.directives :: d.arguments.flatMap (InputDefinition.visits s "argument definition")
    ++ .namedType true d.type.baseName :: directiveVisits s none "field definition" d.directives

def EnumValueDefinition.visits (s : Schema) (d : EnumValueDefinition) : List Visit :=
  .member d.directives :: directiveVisits s none "enum value" d.directives

/-- What follows a type definition itself. The fields that an extension adds to an input object
count as arguments where a directive stands. -/
def TypeDefinition.visits (s : Schema) (isExtension : Bool) (d : TypeDefinition) : List Visit :=
  let directives (place : String) := directiveVisits s none place d.directives
  let names := List.map (Visit.namedType true)
  match d.body with
  | .scalar => directives "scalar"
  | .object interfaces fields =>
    names interfaces ++ directives "object" ++ fields.flatMap (FieldDefinition.visits s)
  | .interface interfaces fields =>
    names interfaces ++ directives "interface" ++ fields.flatMap (FieldDefinition.visits s)
  | .union types => directives "union" ++ names types
  | .enum values => directives "enum" ++ values.flatMap (EnumValueDefinition.visits s)
  | .inputObject fields =>
    directives "input object" ++ fields.flatMap
      (InputDefinition.visits s
        (if isExtension then "argument definition" else "input field definition"))

def Definition.visits (s : Schema) : Definition → List Visit
  | .operation op => op.visits s
  | .fragment f => f.visits s
  | .schema isExtension d =>
    .definition (.schema isExtension d)
      :: directiveVisits s none "schema" d.directives
      ++ d.roots.map fun r => .namedType true r.type
  | .type isExtension d => .definition (.type isExtension d) :: d.visits s isExtension
  | .directive d =>
    .definition (.directive d)
      :: d.arguments.flatMap (InputDefinition.visits s "argument definition")

/-- The visits between entering a document and leaving it, and leaving it. -/
def Document.innerVisits (s : Schema) (doc : Document) : List Visit :=
  doc.definitions.flatMap (Definition.visits s) ++ [.documentEnd]

def Document.visits (s : Schema) (doc : Document) : List Visit := .document :: doc.innerVisits s

end QueryDepth
