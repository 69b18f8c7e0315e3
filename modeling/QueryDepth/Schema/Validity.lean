import QueryDepth.Schema.Standard
import QueryDepth.Text.Quoted

/-!
# When a schema is valid

Documents are validated only against schemas that are valid themselves: there is a query type, root
types are objects, names are not reserved, types have parts, objects have what their interfaces ask
for, and input objects can be written down. `Schema.faults` lists what is wrong, root types first,
then directives, then types in their order.
-/

namespace QueryDepth.Schema

/-! ## Names -/

def isReserved (name : String) : Bool := ['_', '_'].isPrefixOf name.toList

def nameFaults (name : String) : List String :=
  if isReserved name then
    ["Name " ++ Text.quoted name
      ++ " must not begin with '__', which is reserved by GraphQL introspection."]
  else []

/-! ## Roots and directives -/

def isObjectName (s : Schema) (name : String) : Bool :=
  match s.type? name with
  | some t => t.body.isObject
  | none => false

def rootFaults (s : Schema) : List String :=
  let check (root : Option String) (text : String) : List String :=
    match root with
    | some name => if s.isObjectName name then [] else [text ++ name ++ "."]
    | none => []
  (if s.query.isNone then ["Query root type must be provided."] else [])
    ++ check s.query "Query root type must be Object type, it cannot be "
    ++ check s.mutation "Mutation root type must be Object type if provided, it cannot be "
    ++ check s.subscription "Subscription root type must be Object type if provided, it cannot be "

/-- What is wrong with an argument, whose owner is told in the message. -/
def argumentFaults (owner : String) (a : InputField) : List String :=
  nameFaults a.name
    ++ if a.isRequired && a.deprecated then
      ["Required argument " ++ owner ++ "(" ++ a.name ++ ":) cannot be deprecated."] else []

def directiveFaults (d : SchemaDirective) : List String :=
  nameFaults d.name ++ d.arguments.flatMap (argumentFaults ("@" ++ d.name))

/-! ## Fields and interfaces -/

def fieldFaults (t : NamedType) : List String :=
  (if t.body.fields.isEmpty then ["Type " ++ t.name ++ " must define one or more fields."] else [])
    ++ t.body.fields.flatMap fun f =>
      nameFaults f.name ++ f.arguments.flatMap (argumentFaults (t.name ++ "." ++ f.name))

/-- What is wrong with an argument of a field that an interface asks for. -/
def askedArgumentFaults (t face : NamedType) (field : SchemaField) (asked : InputField) :
    List String :=
  let theirs := face.name ++ "." ++ field.name ++ "(" ++ asked.name ++ ":)"
  match field.arguments.find? (·.name = asked.name) with
  | none =>
    ["Interface field argument " ++ theirs ++ " expected but " ++ t.name ++ "." ++ field.name
      ++ " does not provide it."]
  | some own =>
    if own.type = asked.type then []
    else
      ["Interface field argument " ++ theirs ++ " expects type " ++ asked.type.text ++ " but "
        ++ t.name ++ "." ++ field.name ++ "(" ++ asked.name ++ ":) is type " ++ own.type.text
        ++ "."]

/-- What is wrong with a field that an interface asks for. -/
def askedFieldFaults (s : Schema) (t face : NamedType) (asked : SchemaField) : List String :=
  let theirs := face.name ++ "." ++ asked.name
  match t.field? asked.name with
  | none => ["Interface field " ++ theirs ++ " expected but " ++ t.name ++ " does not provide it."]
  | some own =>
    let wrongType :=
      if s.isSubtype own.type asked.type then []
      else
        ["Interface field " ++ theirs ++ " expects type " ++ asked.type.text ++ " but " ++ t.name
          ++ "." ++ asked.name ++ " is type " ++ own.type.text ++ "."]
    let further := own.arguments.filter fun a =>
      a.isRequired && !asked.arguments.any (·.name = a.name)
    wrongType ++ asked.arguments.flatMap (askedArgumentFaults t face own)
      ++ further.map fun a =>
        "Object field " ++ t.name ++ "." ++ asked.name ++ " includes required argument " ++ a.name
          ++ " that is missing from the Interface field " ++ theirs ++ "."

/-- A type that implements an interface implements the interfaces of that interface too. -/
def ancestorFaults (t face : NamedType) : List String :=
  (face.body.interfaces.filter fun n => !t.body.interfaces.contains n).map fun n =>
    if n = t.name then
      "Type " ++ t.name ++ " cannot implement " ++ face.name
        ++ " because it would create a circular reference."
    else
      "Type " ++ t.name ++ " must implement " ++ n ++ " because it is implemented by " ++ face.name
        ++ "."

/-- What is wrong with the interfaces of a type, of which some were looked at. -/
def interfaceFaults (s : Schema) (t : NamedType) : List String → List String → List String
  | _, [] => []
  | seen, name :: rest =>
    if name = t.name then
      ("Type " ++ t.name
          ++ " cannot implement itself because it would create a circular reference.")
        :: interfaceFaults s t seen rest
    else if seen.contains name then
      ("Type " ++ t.name ++ " can only implement " ++ name ++ " once.")
        :: interfaceFaults s t seen rest
    else
      let own := match s.type? name with
        | some face =>
          ancestorFaults t face ++ face.body.fields.flatMap (askedFieldFaults s t face)
        | none => []
      own ++ interfaceFaults s t (name :: seen) rest

/-! ## Unions, enums and input objects -/

def unionFaults (name : String) (members : List String) : List String :=
  (if members.isEmpty then ["Union type " ++ name ++ " must define one or more member types."]
    else [])
    ++ go [] members
where
  go (seen : List String) : List String → List String
    | [] => []
    | m :: rest =>
      if seen.contains m then
        ("Union type " ++ name ++ " can only include type " ++ m ++ " once.") :: go seen rest
      else go (m :: seen) rest

def enumFaults (name : String) (values : List String) : List String :=
  (if values.isEmpty then ["Enum type " ++ name ++ " must define one or more values."] else [])
    ++ values.flatMap nameFaults

def inputFaults (name : String) (fields : List InputField) : List String :=
  (if fields.isEmpty then ["Input Object type " ++ name ++ " must define one or more fields."]
    else [])
    ++ fields.flatMap fun f =>
      nameFaults f.name
        ++ if f.isRequired && f.deprecated then
          ["Required input field " ++ name ++ "." ++ f.name ++ " cannot be deprecated."] else []

/-- The input object that a field must hold. -/
def heldInput? (s : Schema) (f : InputField) : Option NamedType :=
  match f.type with
  | .nonNull (.named name) => (s.type? name).filter (·.body.isInputObject)
  | _ => none

/-- Input objects that were looked into, and the circles that were found. -/
structure CircleSearch where
  visited : List String
  found : List String

/-- Looks into an input object that was reached by a path of fields. `entered` holds the types on
the path, each with the length of the path before it. -/
def searchCircles (s : Schema) : Nat → NamedType → List String → List (String × Nat) →
    CircleSearch → CircleSearch
  | 0, _, _, _, search => search
  | fuel + 1, t, path, entered, search =>
    if search.visited.contains t.name then search
    else
      let entered := (t.name, path.length) :: entered
      t.body.inputFields.foldl (fun search f =>
        match s.heldInput? f with
        | none => search
        | some held =>
          match entered.lookup held.name with
          | some start =>
            let fields := ".".intercalate ((path ++ [f.name]).drop start)
            { search with found := search.found ++
              ["Cannot reference Input Object '" ++ held.name
                ++ "' within itself through a series of non-null fields: '" ++ fields ++ "'."] }
          | none => searchCircles s fuel held (path ++ [f.name]) entered search)
        { search with visited := t.name :: search.visited }

/-! ## All together -/

/-- What is wrong with a type, circles of input objects apart. -/
def partFaults (s : Schema) (t : NamedType) : List String :=
  match t.body with
  | .scalar => []
  | .object interfaces _ | .interface interfaces _ =>
    fieldFaults t ++ interfaceFaults s t [] interfaces
  | .union members => unionFaults t.name members
  | .enum values => enumFaults t.name values
  | .inputObject fields => inputFaults t.name fields

/-- What is wrong with types, after some input objects were looked into. -/
def typeFaults (s : Schema) : List String → List NamedType → List String
  | _, [] => []
  | visited, t :: rest =>
    let own := (if introspectionNames.contains t.name then [] else nameFaults t.name)
      ++ partFaults s t
    if t.body.isInputObject then
      let search := searchCircles s (s.types.length + 1) t [] [] ⟨visited, []⟩
      own ++ search.found ++ typeFaults s search.visited rest
    else own ++ typeFaults s visited rest

/-- What is wrong with a schema. -/
def faults (s : Schema) : List String :=
  s.rootFaults ++ s.directives.flatMap directiveFaults ++ s.typeFaults [] s.types

end QueryDepth.Schema
