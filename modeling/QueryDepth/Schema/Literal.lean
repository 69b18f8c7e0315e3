import QueryDepth.Document.Literal
import QueryDepth.Schema.Standard

/-!
# Literals and input types

Which literals a scalar or an enum accepts, with the words for one that it does not, and which
literals an input type accepts as a whole. A scalar that is not one of the standard ones accepts
every literal.
-/

namespace QueryDepth.Schema

/-- The integer that a literal of digits with an optional sign spells. -/
def literalInt (digits : String) : Int :=
  match digits.toList with
  | '-' :: cs => -(Decimal.natOfDigits cs : Int)
  | cs => Decimal.natOfDigits cs

/-- The integers of 32 bits. -/
def isInt32 (n : Int) : Bool := -2147483648 ≤ n && n ≤ 2147483647

/-- Why a standard scalar does not accept a literal, if it does not. -/
def scalarFault? (name : String) (v : Value) : Option String :=
  match name, v with
  | "Int", .int _ digits =>
    if isInt32 (literalInt digits) then none
    else some ("Int cannot represent non 32-bit signed integer value: " ++ v.text)
  | "Int", _ => some ("Int cannot represent non-integer value: " ++ v.text)
  | "Float", .int _ _ | "Float", .float _ _ => none
  | "Float", _ => some ("Float cannot represent non numeric value: " ++ v.text)
  | "String", .string _ _ _ => none
  | "String", _ => some ("String cannot represent a non string value: " ++ v.text)
  | "Boolean", .boolean _ _ => none
  | "Boolean", _ => some ("Boolean cannot represent a non boolean value: " ++ v.text)
  | "ID", .string _ _ _ | "ID", .int _ _ => none
  | "ID", _ => some ("ID cannot represent a non-string and non-integer value: " ++ v.text)
  | _, _ => none

/-- Why an enum does not accept a literal, if it does not. -/
def enumFault? (name : String) (values : List String) (v : Value) : Option String :=
  let hint := Text.didYouMean (Text.suggestions v.text values) "the enum value"
  match v with
  | .enum _ n =>
    if values.contains n then none
    else some ("Value '" ++ v.text ++ "' does not exist in '" ++ name ++ "' enum." ++ hint)
  | _ =>
    some ("Enum '" ++ name ++ "' cannot represent non-enum value: " ++ v.text ++ "." ++ hint)

/-- Why a scalar or an enum does not accept a literal, if it does not. -/
def leafFault? (t : NamedType) (v : Value) : Option String :=
  match t.body with
  | .enum values => enumFault? t.name values v
  | _ => scalarFault? t.name v

mutual

/-- Whether a literal without variables is an input of a type. A value counts as the list of
itself. `hops` bounds how often a default value is looked into. -/
def fits (s : Schema) (hops : Nat) (v : Value) (t : SchemaType) : Bool :=
  match t with
  | .nonNull inner =>
    match v with
    | .null _ => false
    | v => fits s hops v inner
  | .list item =>
    match v with
    | .variable_ _ _ => false
    | .null _ => true
    | .list _ items => fitsAll s hops items item
    | v => fits s hops v item
  | .named name =>
    match v with
    | .variable_ _ _ => false
    | .null _ => true
    | .object _ given =>
      match s.type? name with
      | some ⟨_, .inputObject fields⟩ => fields.all fun f => fitsField s hops given f
      | some t => (leafFault? t v).isNone
      | none => false
    | v =>
      match s.type? name with
      | some ⟨_, .inputObject _⟩ => false
      | some t => (leafFault? t v).isNone
      | none => false
termination_by (hops, sizeOf v, sizeOf t, 0)

def fitsAll (s : Schema) (hops : Nat) (vs : List Value) (t : SchemaType) : Bool :=
  match vs with
  | [] => true
  | v :: vs => fits s hops v t && fitsAll s hops vs t
termination_by (hops, sizeOf vs, sizeOf t, 1)

/-- Whether an object has a value for a field, of two values the last, or can do without. -/
def fitsField (s : Schema) (hops : Nat) (given : List (Name × Value)) (f : InputField) : Bool :=
  match given with
  | [] =>
    match hops with
    | 0 => !f.type.isNonNull
    | fewer + 1 =>
      match f.default with
      | some v => fits s fewer v f.type || !f.type.isNonNull
      | none => !f.type.isNonNull
  | (n, v) :: rest =>
    if n.value = f.name ∧ !rest.any (·.1.value = f.name) then fits s hops v f.type
    else fitsField s hops rest f
termination_by (hops, sizeOf given, 0, 1)

end

end QueryDepth.Schema
