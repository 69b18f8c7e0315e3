/-!
# Documents

The syntax tree of a document: operations, fragments, and the definitions of a type system. Every
node keeps the offset of its first character. A selection set in braces is never empty, so an empty
list of selections stands for a field without braces.
-/

namespace QueryDepth

structure Name where
  pos : Nat
  value : String
deriving DecidableEq, Repr, Inhabited

/-! ## Values and types -/

inductive Value where
  | variable_ (pos : Nat) (name : Name)
  | int (pos : Nat) (digits : String)
  | float (pos : Nat) (digits : String)
  | string (pos : Nat) (text : String) (block : Bool)
  | boolean (pos : Nat) (value : Bool)
  | null (pos : Nat)
  | enum (pos : Nat) (name : String)
  | list (pos : Nat) (items : List Value)
  | object (pos : Nat) (fields : List (Name × Value))
deriving Repr, Inhabited

inductive TypeRef where
  | named (name : Name)
  | list (pos : Nat) (inner : TypeRef)
  | nonNull (pos : Nat) (inner : TypeRef)
deriving DecidableEq, Repr, Inhabited

namespace Value

def pos : Value → Nat
  | .variable_ p _ | .int p _ | .float p _ | .string p _ _ | .boolean p _ | .null p | .enum p _
  | .list p _ | .object p _ => p

end Value

namespace TypeRef

def pos : TypeRef → Nat
  | .named n => n.pos
  | .list p _ | .nonNull p _ => p

/-- The name inside all lists and non-null marks. -/
def baseName : TypeRef → Name
  | .named n => n
  | .list _ t | .nonNull _ t => t.baseName

/-- The type as it is written: `[Int!]`. -/
def text : TypeRef → String
  | .named n => n.value
  | .list _ t => "[" ++ t.text ++ "]"
  | .nonNull _ t => t.text ++ "!"

end TypeRef

structure Argument where
  name : Name
  value : Value
deriving Repr

/-- An argument begins with its name. -/
def Argument.pos (a : Argument) : Nat := a.name.pos

structure Directive where
  pos : Nat
  name : Name
  arguments : List Argument
deriving Repr

/-! ## Selections -/

/-- A field without the selections below it. -/
structure FieldHead where
  pos : Nat
  aliasName : Option Name
  name : Name
  arguments : List Argument
  directives : List Directive
  /-- The offset of the opening brace, if there is one. -/
  brace : Nat
deriving Repr

structure Spread where
  pos : Nat
  name : Name
  directives : List Directive
deriving Repr

/-- An inline fragment without its selections. -/
structure InlineHead where
  pos : Nat
  condition : Option Name
  directives : List Directive
  brace : Nat
deriving Repr

inductive Selection where
  | field (head : FieldHead) (selections : List Selection)
  | spread (spread : Spread)
  | inlineFragment (head : InlineHead) (selections : List Selection)
deriving Repr

namespace FieldHead

/-- The name under which the field's value is answered. -/
def responseName (f : FieldHead) : String := (f.aliasName.getD f.name).value

end FieldHead

namespace Selection

def pos : Selection → Nat
  | .field f _ => f.pos
  | .spread s => s.pos
  | .inlineFragment f _ => f.pos

end Selection

/-! ## Executable definitions -/

inductive OperationKind where
  | query
  | mutation
  | subscription
deriving DecidableEq, Repr, Inhabited

def OperationKind.text : OperationKind → String
  | .query => "query"
  | .mutation => "mutation"
  | .subscription => "subscription"

structure VariableDefinition where
  pos : Nat
  name : Name
  type : TypeRef
  default : Option Value
  directives : List Directive
deriving Repr

structure Operation where
  pos : Nat
  kind : OperationKind
  name : Option Name
  variableDefs : List VariableDefinition
  directives : List Directive
  brace : Nat
  selections : List Selection
deriving Repr

structure Fragment where
  pos : Nat
  name : Name
  condition : Name
  directives : List Directive
  brace : Nat
  selections : List Selection
deriving Repr

/-! ## Type system definitions -/

structure Description where
  pos : Nat
  text : String
  block : Bool
deriving DecidableEq, Repr

structure InputDefinition where
  pos : Nat
  description : Option Description
  name : Name
  type : TypeRef
  default : Option Value
  directives : List Directive
deriving Repr

structure FieldDefinition where
  pos : Nat
  description : Option Description
  name : Name
  arguments : List InputDefinition
  type : TypeRef
  directives : List Directive
deriving Repr

structure EnumValueDefinition where
  pos : Nat
  description : Option Description
  name : Name
  directives : List Directive
deriving Repr

/-- `query: Root` inside a schema definition. -/
structure RootDefinition where
  pos : Nat
  kind : OperationKind
  type : Name
deriving DecidableEq, Repr

inductive TypeBody where
  | scalar
  | object (interfaces : List Name) (fields : List FieldDefinition)
  | interface (interfaces : List Name) (fields : List FieldDefinition)
  | union (types : List Name)
  | enum (values : List EnumValueDefinition)
  | inputObject (fields : List InputDefinition)
deriving Repr

structure TypeDefinition where
  pos : Nat
  description : Option Description
  name : Name
  directives : List Directive
  body : TypeBody
deriving Repr

structure SchemaDefinition where
  pos : Nat
  description : Option Description
  directives : List Directive
  roots : List RootDefinition
deriving Repr

structure DirectiveDefinition where
  pos : Nat
  description : Option Description
  name : Name
  arguments : List InputDefinition
  repeatable : Bool
  locations : List Name
deriving Repr

inductive Definition where
  | operation (op : Operation)
  | fragment (fragment : Fragment)
  | schema (isExtension : Bool) (schema : SchemaDefinition)
  | type (isExtension : Bool) (type : TypeDefinition)
  | directive (directive : DirectiveDefinition)
deriving Repr

/-- The definitions of a text, in order. -/
structure Document where
  definitions : List Definition
deriving Repr

namespace Definition

def pos : Definition → Nat
  | .operation d => d.pos
  | .fragment d => d.pos
  | .schema _ d => d.pos
  | .type _ d => d.pos
  | .directive d => d.pos

def name? : Definition → Option Name
  | .operation d => d.name
  | .fragment d => some d.name
  | .schema _ _ => none
  | .type _ d => some d.name
  | .directive d => some d.name

def operation? : Definition → Option Operation
  | .operation d => some d
  | _ => none

def fragment? : Definition → Option Fragment
  | .fragment d => some d
  | _ => none

end Definition

namespace Document

def operations (doc : Document) : List Operation := doc.definitions.filterMap Definition.operation?

def fragments (doc : Document) : List Fragment := doc.definitions.filterMap Definition.fragment?

end Document

/-- The name of an operation, empty for an anonymous one. -/
def Operation.label (op : Operation) : String := (op.name.map Name.value).getD ""

end QueryDepth
