import QueryDepth.Schema.Literal

/-!
# Putting a schema together

A schema lists the types that were given in their order; each is followed by those standard types to
which it refers first. Behind them come what the root types, the directives and the description of
schemas refer to. A default value that does not fit its type counts as none.
-/

namespace QueryDepth

/-- The names that a type refers to, in order. -/
def NamedType.references (t : NamedType) : List String :=
  match t.body with
  | .object interfaces fields | .interface interfaces fields =>
    interfaces ++ fields.flatMap fun f =>
      f.type.baseName :: f.arguments.map fun a => a.type.baseName
  | .union members => members
  | .inputObject fields => fields.map fun f => f.type.baseName
  | _ => []

/-- The parts of a schema before its types are put in order. -/
structure SchemaParts where
  /-- Types of different names; none of them has the name of a standard type without being it. -/
  types : List NamedType
  query : Option String
  mutation : Option String
  subscription : Option String
  directives : List SchemaDirective

namespace SchemaParts

def find? (parts : SchemaParts) (name : String) : Option NamedType :=
  parts.types.find? (·.name = name) <|> Schema.standardType? name

/-- Adds a type that is neither placed nor waiting to be, and then the types to which it refers. -/
def reach (parts : SchemaParts) (waiting : List String) : Nat → String → List String → List String
  | 0, _, placed => placed
  | fuel + 1, name, placed =>
    if waiting.contains name || placed.contains name then placed
    else
      match parts.find? name with
      | none => placed
      | some t =>
        t.references.foldl (fun placed n => reach parts waiting fuel n placed) (placed ++ [name])

/-- Each step adds a type, so their number bounds how far references are followed. -/
def fuel (parts : SchemaParts) : Nat := parts.types.length + Schema.standardTypes.length + 1

def placeAll (parts : SchemaParts) : List String → List String → List String
  | [], placed => placed
  | name :: waiting, placed => placeAll parts waiting (parts.reach waiting parts.fuel name placed)

/-- The names of all types, in order. -/
def order (parts : SchemaParts) : List String :=
  let roots := parts.query.toList ++ parts.mutation.toList ++ parts.subscription.toList
  let arguments := parts.directives.flatMap fun d => d.arguments.map fun a => a.type.baseName
  (roots ++ arguments ++ ["__Schema"]).foldl
    (fun placed name => parts.reach [] parts.fuel name placed)
    (parts.placeAll (parts.types.map (·.name)) [])

def arranged (parts : SchemaParts) : Schema where
  types := parts.order.filterMap parts.find?
  query := parts.query
  mutation := parts.mutation
  subscription := parts.subscription
  directives := parts.directives

end SchemaParts

namespace Schema

/-- How often default values may be looked into: once for each field of an input object. -/
def hops (s : Schema) : Nat := (s.types.flatMap fun t => t.body.inputFields).length + 1

def settleInput (s : Schema) (hops : Nat) (f : InputField) : InputField :=
  { f with default := f.default.filter fun v => fits s hops v f.type }

def settleField (s : Schema) (hops : Nat) (f : SchemaField) : SchemaField :=
  { f with arguments := f.arguments.map (s.settleInput hops) }

def settleBody (s : Schema) (hops : Nat) : SchemaBody → SchemaBody
  | .object interfaces fields => .object interfaces (fields.map (s.settleField hops))
  | .interface interfaces fields => .interface interfaces (fields.map (s.settleField hops))
  | .inputObject fields => .inputObject (fields.map (s.settleInput hops))
  | body => body

/-- The schema without default values that do not fit. -/
def settled (s : Schema) : Schema :=
  let hops := s.hops
  { s with
    types := s.types.map fun t => { t with body := s.settleBody hops t.body }
    directives := s.directives.map fun d =>
      { d with arguments := d.arguments.map (s.settleInput hops) } }

end Schema

def SchemaParts.schema (parts : SchemaParts) : Schema := parts.arranged.settled

end QueryDepth
