import QueryDepth.Document.Basic

/-!
# Schemas

A schema is a list of named types, the names of its root types, and directives. Types refer to each
other by name. Fields, arguments and values keep the order in which they were defined.
-/

namespace QueryDepth

/-- A use of a type. -/
inductive SchemaType where
  | named (name : String)
  | list (item : SchemaType)
  | nonNull (inner : SchemaType)
deriving DecidableEq, Repr, Inhabited

namespace SchemaType

def text : SchemaType → String
  | .named n => n
  | .list t => "[" ++ t.text ++ "]"
  | .nonNull t => t.text ++ "!"

/-- The name inside all lists and non-null marks. -/
def baseName : SchemaType → String
  | .named n => n
  | .list t | .nonNull t => t.baseName

/-- The type without its outermost non-null mark. -/
def nullable : SchemaType → SchemaType
  | .nonNull t => t
  | t => t

def isNonNull : SchemaType → Bool
  | .nonNull _ => true
  | _ => false

def ofTypeRef : TypeRef → SchemaType
  | .named n => .named n.value
  | .list _ t => .list (ofTypeRef t)
  | .nonNull _ t => .nonNull (ofTypeRef t)

end SchemaType

/-- An argument or a field of an input object. -/
structure InputField where
  name : String
  type : SchemaType
  /-- A default value, if there is one that fits the type. -/
  default : Option Value
  deprecated : Bool
deriving Repr

/-- Whether a value must be given. -/
def InputField.isRequired (f : InputField) : Bool := f.type.isNonNull && f.default.isNone

structure SchemaField where
  name : String
  arguments : List InputField
  type : SchemaType
deriving Repr

inductive SchemaBody where
  | scalar
  | object (interfaces : List String) (fields : List SchemaField)
  | interface (interfaces : List String) (fields : List SchemaField)
  | union (members : List String)
  | enum (values : List String)
  | inputObject (fields : List InputField)
deriving Repr

/-- A type that has a name. -/
structure NamedType where
  name : String
  body : SchemaBody
deriving Repr

structure SchemaDirective where
  name : String
  arguments : List InputField
  repeatable : Bool
  /-- Where it may be used, in words. -/
  locations : List String
deriving Repr

structure Schema where
  types : List NamedType
  query : Option String
  mutation : Option String
  subscription : Option String
  directives : List SchemaDirective
deriving Repr

namespace SchemaBody

def isObject : SchemaBody → Bool
  | .object _ _ => true
  | _ => false

def isInterface : SchemaBody → Bool
  | .interface _ _ => true
  | _ => false

def isInputObject : SchemaBody → Bool
  | .inputObject _ => true
  | _ => false

/-- Objects, interfaces and unions have subfields. -/
def isComposite : SchemaBody → Bool
  | .object _ _ | .interface _ _ | .union _ => true
  | _ => false

/-- Interfaces and unions stand for several objects. -/
def isAbstract : SchemaBody → Bool
  | .interface _ _ | .union _ => true
  | _ => false

def isLeaf : SchemaBody → Bool
  | .scalar | .enum _ => true
  | _ => false

/-- What may be the type of an argument. -/
def isInput : SchemaBody → Bool
  | .scalar | .enum _ | .inputObject _ => true
  | _ => false

/-- What may be the type of a field. -/
def isOutput : SchemaBody → Bool
  | .inputObject _ => false
  | _ => true

def interfaces : SchemaBody → List String
  | .object is _ | .interface is _ => is
  | _ => []

def fields : SchemaBody → List SchemaField
  | .object _ fs | .interface _ fs => fs
  | _ => []

def inputFields : SchemaBody → List InputField
  | .inputObject fs => fs
  | _ => []

end SchemaBody

namespace NamedType

def field? (t : NamedType) (name : String) : Option SchemaField :=
  t.body.fields.find? (·.name = name)

end NamedType

namespace Schema

/-- No types and no directives. -/
def empty : Schema := ⟨[], none, none, none, []⟩

def type? (s : Schema) (name : String) : Option NamedType := s.types.find? (·.name = name)

def directive? (s : Schema) (name : String) : Option SchemaDirective :=
  s.directives.find? (·.name = name)

def root? (s : Schema) : OperationKind → Option String
  | .query => s.query
  | .mutation => s.mutation
  | .subscription => s.subscription

/-- The named type inside a use of a type. -/
def base? (s : Schema) (t : SchemaType) : Option NamedType := s.type? t.baseName

/-- What a use of a type in a document means, if its name is known. -/
def typeOf? (s : Schema) (t : TypeRef) : Option SchemaType :=
  (s.type? t.baseName.value).map fun _ => SchemaType.ofTypeRef t

def isInputType (s : Schema) (t : SchemaType) : Bool :=
  match s.base? t with
  | some n => n.body.isInput
  | none => false

def isOutputType (s : Schema) (t : SchemaType) : Bool :=
  match s.base? t with
  | some n => n.body.isOutput
  | none => false

/-- The objects that an abstract type stands for; an object stands for itself. -/
def possibleObjects (s : Schema) (t : NamedType) : List NamedType :=
  match t.body with
  | .object _ _ => [t]
  | .interface _ _ => s.types.filter fun o => o.body.isObject && o.body.interfaces.contains t.name
  | .union members => members.filterMap s.type?
  | _ => []

/-- Whether a type is one of those that an abstract type stands for. -/
def isMember (s : Schema) (abstractType : NamedType) (name : String) : Bool :=
  match abstractType.body with
  | .union members => members.contains name
  | .interface _ _ =>
    match s.type? name with
    | some t => t.body.interfaces.contains abstractType.name
    | none => false
  | _ => false

/-- Whether some object is of both types. -/
def overlap (s : Schema) (a b : NamedType) : Bool :=
  if a.name = b.name then true
  else if a.body.isAbstract then
    if b.body.isAbstract then (s.possibleObjects a).any fun t => s.isMember b t.name
    else s.isMember a b.name
  else if b.body.isAbstract then s.isMember b a.name
  else false

/-- Whether every value of the first type is one of the second. -/
def isSubtype (s : Schema) : SchemaType → SchemaType → Bool
  | .nonNull a, .nonNull b => isSubtype s a b
  | .nonNull a, b => isSubtype s a b
  | .list a, .list b => isSubtype s a b
  | .named a, .named b =>
    a == b ||
      match s.type? a, s.type? b with
      | some ta, some tb =>
        tb.body.isAbstract && (ta.body.isObject || ta.body.isInterface) && s.isMember tb a
      | _, _ => false
  | _, _ => false

end Schema

end QueryDepth
