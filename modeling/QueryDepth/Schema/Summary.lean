import QueryDepth.Schema.Standard

/-!
# What a schema says about its own types

The types of a schema without the standard ones, by name, each with its kind and its members: the
fields with their types, the values of an enum, the types of a union.
-/

namespace QueryDepth

inductive TypeMembers where
  | fields (fields : List (String × String))
  | names (names : List String)
deriving DecidableEq, Repr

structure TypeSummary where
  name : String
  kind : String
  members : TypeMembers
deriving DecidableEq, Repr

def NamedType.summary (t : NamedType) : TypeSummary :=
  let outputs (fields : List SchemaField) : TypeMembers :=
    .fields (fields.map fun f => (f.name, f.type.text))
  match t.body with
  | .scalar => ⟨t.name, "Scalar", .names []⟩
  | .object _ fields => ⟨t.name, "Object", outputs fields⟩
  | .interface _ fields => ⟨t.name, "Interface", outputs fields⟩
  | .union members => ⟨t.name, "Union", .names members⟩
  | .enum values => ⟨t.name, "Enum", .names values⟩
  | .inputObject fields =>
    ⟨t.name, "InputObject", .fields (fields.map fun f => (f.name, f.type.text))⟩

namespace Schema

/-- The types that are not standard, by name. -/
def ownTypes (s : Schema) : List NamedType :=
  (s.types.filter fun t => !isStandardName t.name).mergeSort fun a b => a.name ≤ b.name

def summary (s : Schema) : List TypeSummary := s.ownTypes.map NamedType.summary

end Schema

end QueryDepth
