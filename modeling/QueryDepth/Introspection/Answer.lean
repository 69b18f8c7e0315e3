import QueryDepth.Document.Literal
import QueryDepth.Json.Basic
import QueryDepth.Schema.Standard

/-!
# The answer to the introspection query

How a service with a schema answers the query: every type with its kind and its parts. References
are told seven wrappers deep, as the query asks for them.
-/

namespace QueryDepth.Introspection

/-- The word for a kind of type. -/
def kindWord : SchemaBody → String
  | .scalar => "SCALAR"
  | .object _ _ => "OBJECT"
  | .interface _ _ => "INTERFACE"
  | .union _ => "UNION"
  | .enum _ => "ENUM"
  | .inputObject _ => "INPUT_OBJECT"

/-- How many wrappers of a type the query asks for. -/
def maxWrappers : Nat := 7

def namedJson (s : Schema) (name : String) : Json :=
  let kind := match s.type? name with
    | some t => Json.str (kindWord t.body)
    | none => .null
  .obj [("kind", kind), ("name", .str name), ("ofType", .null)]

/-- A reference to a type. -/
def typeJson (s : Schema) : Nat → SchemaType → Json
  | _, .named name => namedJson s name
  | levels, .list t => wrapped levels "LIST" t
  | levels, .nonNull t => wrapped levels "NON_NULL" t
where
  wrapped (levels : Nat) (kind : String) (t : SchemaType) : Json :=
    let head := [("kind", Json.str kind), ("name", .null)]
    match levels with
    | 0 => .obj head
    | levels + 1 => .obj (head ++ [("ofType", typeJson s levels t)])

def typeRefJson (s : Schema) (t : SchemaType) : Json := typeJson s maxWrappers t

def inputJson (s : Schema) (f : InputField) : Json :=
  .obj [("name", .str f.name), ("type", typeRefJson s f.type),
    ("defaultValue", (f.default.map fun v => Json.str v.text).getD .null)]

def fieldJson (s : Schema) (f : SchemaField) : Json :=
  .obj [("name", .str f.name), ("args", .arr (f.arguments.map (inputJson s))),
    ("type", typeRefJson s f.type)]

def typeDescription (s : Schema) (t : NamedType) : Json :=
  let names (l : List String) : Json := .arr (l.map (namedJson s))
  .obj ([("kind", .str (kindWord t.body)), ("name", .str t.name)] ++ match t.body with
    | .scalar => []
    | .object interfaces fields | .interface interfaces fields =>
      [("interfaces", names interfaces), ("fields", .arr (fields.map (fieldJson s)))]
    | .union members => [("possibleTypes", names members)]
    | .enum values => [("enumValues", .arr (values.map fun v => .obj [("name", .str v)]))]
    | .inputObject fields => [("inputFields", .arr (fields.map (inputJson s)))])

/-- The word for a directive location as documents write it. -/
def locationWord (words : String) : String :=
  ((Schema.directiveLocations.find? (·.2 = words)).map Prod.fst).getD words

def directiveJson (s : Schema) (d : SchemaDirective) : Json :=
  .obj [("name", .str d.name), ("isRepeatable", .bool d.repeatable),
    ("locations", .arr (d.locations.map fun l => .str (locationWord l))),
    ("args", .arr (d.arguments.map (inputJson s)))]

def rootJson (root : Option String) : Json :=
  match root with
  | some name => .obj [("name", .str name)]
  | none => .null

/-- What a service with this schema answers. -/
def answer (s : Schema) : Json :=
  .obj [("__schema", .obj [
    ("queryType", rootJson s.query), ("mutationType", rootJson s.mutation),
    ("subscriptionType", rootJson s.subscription),
    ("types", .arr (s.types.map (typeDescription s))),
    ("directives", .arr (s.directives.map (directiveJson s)))])]

end QueryDepth.Introspection
