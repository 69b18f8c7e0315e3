import QueryDepth.Document.Parser
import QueryDepth.SchemaSource.Assembly
import QueryDepth.SchemaSource.SchemaError

/-!
# Schemas from introspection results

The result of an introspection query describes a schema: its types with their kinds and parts, the
names of its root types, and its directives. The description may be any JSON value, so every step
into it can fail. A type with a standard name is the standard one. Only types that are described can
be referred to, and only directives that are described exist.

Types are read in two steps: at once their names, kinds and enum values, and when all of them are
known, in order, what refers to other types.
-/

namespace QueryDepth

/-- The kinds of types that have names. -/
inductive TypeKind where
  | scalar
  | object
  | interface
  | union
  | enum
  | inputObject
deriving DecidableEq, Repr

namespace TypeKind

def ofWord? : String → Option TypeKind
  | "SCALAR" => some .scalar
  | "OBJECT" => some .object
  | "INTERFACE" => some .interface
  | "UNION" => some .union
  | "ENUM" => some .enum
  | "INPUT_OBJECT" => some .inputObject
  | _ => none

/-- A body of this kind without parts. -/
def emptyBody : TypeKind → SchemaBody
  | .scalar => .scalar
  | .object => .object [] []
  | .interface => .interface [] []
  | .union => .union []
  | .enum => .enum []
  | .inputObject => .inputObject []

end TypeKind

namespace Introspected

abbrev Reading := Except BuildFault

def asked {α : Type} : Except Json.MemberError α → Reading α
  | .ok a => .ok a
  | .error e => .error (.member e)

/-- The member of an object that must be there. -/
def item (name : String) (j : Json) : Reading Json := asked (j.item name)

/-- The member of an object, or null. -/
def member (name : String) (j : Json) : Reading Json := asked (j.member name)

/-- The member of an object, or nothing if it is not there or null. -/
def member? (name : String) (j : Json) : Reading (Option Json) := do
  match ← member name j with
  | .null => return none
  | v => return some v

def elements (j : Json) : Reading (List Json) := asked j.elements

/-- Refuses a member that is there and no text. -/
def refuseNoText (what name : String) (j : Json) : Reading Unit := do
  match ← member? name j with
  | none | some (.str _) => return ()
  | some _ => throw (.notText what)

/-! ## Names -/

def isNameStart (c : Char) : Bool := c.isAlpha || c = '_'

def isNameChar (c : Char) : Bool := c.isAlphanum || c = '_'

/-- A value as a name. -/
def readName : Json → Reading String
  | .null => .error .noName
  | .str s =>
    match s.toList with
    | [] => .error .emptyName
    | c :: cs =>
      if !(c :: cs).all isNameChar then .error (.badName s)
      else if !isNameStart c then .error (.badNameStart s)
      else .ok s
  | _ => .error .nameNotText

/-- The name of an enum value, not looked at yet. -/
def enumValueName (j : Json) : Reading Json := do
  let name ← item "name" j
  refuseNoText "The description of the enum value" "description" j
  refuseNoText "The deprecation reason for the enum value" "deprecationReason" j
  return name

def readEnumValue (name : Json) : Reading String := do
  let name ← readName name
  if name = "true" ∨ name = "false" ∨ name = "null" then throw (.badEnumValue name)
  else return name

/-! ## Types by name -/

/-- A described type. -/
structure TypeEntry where
  name : String
  kind : TypeKind
  values : List String
  description : Json

/-- The body of a type as far as it is known at once. -/
def TypeEntry.body (e : TypeEntry) : SchemaBody :=
  match Schema.standardType? e.name, e.kind with
  | some t, _ => t.body
  | none, .enum => .enum e.values
  | none, kind => kind.emptyBody

/-- What is read of a type at once. -/
def readEntry (j : Json) : Reading TypeEntry := do
  let name ← item "name" j
  let kind? := match j.get? "kind" with
    | some (.str word) => TypeKind.ofWord? word
    | _ => none
  let kind ← match kind? with
    | some kind => pure kind
    | none => throw (.incompleteType j)
  let need (key : String) : Reading Unit := do
    if (← member? key j).isNone then throw (.lacks key j)
  match kind with
  | .union => need "possibleTypes"
  | .enum => need "enumValues"
  | .inputObject => need "inputFields"
  | _ => pure ()
  let isStandard := name.asString?.any Schema.isStandardName
  let replaced := kind = .scalar ∨ kind = .object ∨ kind = .enum
  if isStandard then
    let name := name.asString?.getD ""
    if replaced then return ⟨name, kind, [], j⟩ else throw (.reservedType name)
  else
    let values ← if kind = .enum then
        (← elements (← member "enumValues" j)).mapM enumValueName
      else pure []
    let name ← readName name
    refuseNoText "The description" "description" j
    if kind = .scalar then
      match ← member? "specifiedByURL" j with
      | none | some (.str _) => pure ()
      | some address => throw (.badAddress name address)
    return ⟨name, kind, (← values.mapM readEnumValue).eraseDups, j⟩

/-- The described types; of several of one name the last. -/
structure Setting where
  entries : List TypeEntry
  /-- The same types, as far as they are known at once. -/
  known : Schema

def readEntries (j : Json) : Reading (List TypeEntry) := do
  let entries ← (← elements (← item "types" j)).mapM readEntry
  return (Index.ofEntries (entries.map fun e => (e.name, e))).map Prod.snd

def Setting.of (entries : List TypeEntry) : Setting :=
  ⟨entries, { Schema.empty with types := entries.map fun e => ⟨e.name, e.body⟩ }⟩

/-! ## References -/

/-- Whether a value is empty, null or false. -/
def isBlankValue (j : Json) : Bool := !(Data.ofJson j).isTruthy

def readNamed (st : Setting) (j : Json) : Reading String := do
  let name ← member "name" j
  if isBlankValue name then throw (.namelessType j)
  match name with
  | .str s => if (st.known.type? s).isSome then return s else throw (.unknownType s)
  | _ => throw (.unknownType (Data.ofJson name).shown)

/-- A reference to a type. -/
def readType (st : Setting) : Nat → Json → Reading SchemaType
  | 0, _ => .error .tooDeep
  | fuel + 1, j => do
    match ← member "kind" j with
    | .str "LIST" =>
      let inner ← member "ofType" j
      if isBlankValue inner then throw .tooDeep
      return .list (← readType st fuel inner)
    | .str "NON_NULL" =>
      let inner ← member "ofType" j
      if isBlankValue inner then throw .tooDeep
      let t ← readType st fuel inner
      if t.isNonNull then throw (.wrongKind t.text "nullable type")
      return .nonNull t
    | _ => return .named (← readNamed st j)

mutual

/-- How deep values lie in each other. -/
def height : Json → Nat
  | .arr items => heights items + 1
  | .obj members => memberHeights members + 1
  | _ => 1

def heights : List Json → Nat
  | [] => 0
  | v :: vs => max (height v) (heights vs)

def memberHeights : List (String × Json) → Nat
  | [] => 0
  | (_, v) :: ms => max (height v) (memberHeights ms)

end

def typeAt (st : Setting) (j : Json) : Reading SchemaType := readType st (height j) j

/-- A reference to a type of a certain sort. -/
def readSort (st : Setting) (sort : SchemaBody → Bool) (word : String) (j : Json) :
    Reading String := do
  let t ← typeAt st j
  let isRight := match t with
    | .named name =>
      match st.known.type? name with
      | some n => sort n.body
      | none => false
    | _ => false
  if isRight then return t.text else throw (.wrongKind t.text word)

def readObject (st : Setting) (j : Json) : Reading String :=
  readSort st SchemaBody.isObject "Object type" j

def readInterface (st : Setting) (j : Json) : Reading String :=
  readSort st SchemaBody.isInterface "Interface type" j

/-! ## Parts -/

/-- Parts by name; a repeated name keeps its place and the last part counts. -/
def readParts {α : Type} (read : Json → Reading α) (j : Json) : Reading (List (String × α)) := do
  let parts ← (← elements j).mapM fun part => do
    let name ← item "name" part
    return (name, ← read part)
  let named ← parts.mapM fun (name, part) => do return (← readName name, part)
  return Index.ofEntries named

def readDefault (j : Json) : Reading (Option Value) := do
  match ← member? "defaultValue" j with
  | none => return none
  | some (.str text) =>
    match Value.parse text with
    | .ok v => return some v
    | .error e => throw (.badLiteral text e)
  | some v => throw (.noLiteral v)

/-- What an input is part of. -/
inductive InputUse where
  | argument
  | inputField
deriving DecidableEq, Repr

def InputUse.word : InputUse → String
  | .argument => "Argument"
  | .inputField => "Input field"

def InputUse.plural : InputUse → String
  | .argument => "arguments"
  | .inputField => "input fields"

/-- An argument or a field of an input object. -/
def readInput (st : Setting) (use : InputUse) (j : Json) : Reading InputField := do
  let type ← typeAt st (← item "type" j)
  if !st.known.isInputType type then throw (.wrongUse "input" use.plural type.text)
  let default ← readDefault j
  refuseNoText (use.word ++ " description") "description" j
  refuseNoText (use.word ++ " deprecation reason") "deprecationReason" j
  let reason ← member? "deprecationReason" j
  return ⟨"", type, default, reason.isSome⟩

def readInputs (st : Setting) (use : InputUse) (j : Json) : Reading (List InputField) := do
  return (← readParts (readInput st use) j).map fun (name, f) => { f with name }

def readField (st : Setting) (j : Json) : Reading SchemaField := do
  let type ← typeAt st (← item "type" j)
  if !st.known.isOutputType type then throw (.wrongUse "output" "fields" type.text)
  match ← member? "args" j with
  | none => throw (.lacks "field args" j)
  | some arguments =>
    let arguments ← readInputs st .argument arguments
    refuseNoText "The description" "description" j
    refuseNoText "The deprecation reason" "deprecationReason" j
    return ⟨"", arguments, type⟩

def readFields (st : Setting) (j : Json) : Reading (List SchemaField) := do
  match ← member? "fields" j with
  | some fields => return (← readParts (readField st) fields).map fun (name, f) => { f with name }
  | none => throw (.lacksFields j)

def readInterfaces (st : Setting) (kind : TypeKind) (j : Json) : Reading (List String) := do
  match ← member? "interfaces" j with
  | some interfaces => (← elements interfaces).mapM (readInterface st)
  | none => if kind = .interface then return [] else throw (.lacks "interfaces" j)

/-- Says in which part of a type a fault lies. -/
def inPart {α : Type} (type part : String) : Reading α → Reading α
  | .ok a => .ok a
  | .error fault => .error (.within type part fault)

/-- A type with all its parts. -/
def readBody (st : Setting) (e : TypeEntry) : Reading SchemaBody := do
  let j := e.description
  match Schema.standardType? e.name, e.kind with
  | some t, _ => return t.body
  | none, .object =>
    let interfaces ← inPart e.name "interfaces" (readInterfaces st .object j)
    return .object interfaces (← inPart e.name "fields" (readFields st j))
  | none, .interface =>
    let interfaces ← inPart e.name "interfaces" (readInterfaces st .interface j)
    return .interface interfaces (← inPart e.name "fields" (readFields st j))
  | none, .union =>
    let members := do (← elements (← member "possibleTypes" j)).mapM (readObject st)
    return .union (← inPart e.name "types" members)
  | none, .inputObject =>
    let fields := do readInputs st .inputField (← member "inputFields" j)
    return .inputObject (← inPart e.name "fields" fields)
  | none, _ => return e.body

/-! ## Directives and the whole -/

def readLocations (name : String) (j : Json) : Reading (List String) := do
  (← elements j).mapM fun
    | .str word =>
      match Schema.directiveLocations.lookup word with
      | some words => return words
      | none => throw (.badLocations name)
    | _ => throw (.badLocations name)

def readDirective (st : Setting) (j : Json) : Reading SchemaDirective := do
  let arguments ← match ← member? "args" j with
    | some arguments => pure arguments
    | none => throw (.lacks "directive args" j)
  let locations ← match ← member? "locations" j with
    | some locations => pure locations
    | none => throw (.lacks "directive locations" j)
  let name ← item "name" j
  let locations ← elements locations
  let arguments ← readInputs st .argument arguments
  let name ← readName name
  let locations ← readLocations name (.arr locations)
  let repeatable ← match j.get? "isRepeatable" with
    | none => pure false
    | some (.bool repeatable) => pure repeatable
    | some _ => throw (.badRepeatable name)
  refuseNoText (name ++ " description") "description" j
  return ⟨name, arguments, repeatable, locations⟩

def readRoot (st : Setting) (key : String) (j : Json) : Reading (Option String) := do
  match ← member? key j with
  | some root => return some (← readObject st root)
  | none => return none

def readDirectives (st : Setting) (j : Json) : Reading (List SchemaDirective) := do
  let directives ← member "directives" j
  if isBlankValue directives then return []
  else (← elements directives).mapM (readDirective st)

/-- The schema that an object describes. -/
def readSchema (j : Json) : Reading Schema := do
  let entries ← readEntries j
  let st := Setting.of entries
  let query ← readRoot st "queryType" j
  let mutation ← readRoot st "mutationType" j
  let subscription ← readRoot st "subscriptionType" j
  let directives ← readDirectives st j
  let types ← entries.mapM fun e => do return ⟨e.name, ← readBody st e⟩
  return (SchemaParts.mk types query mutation subscription directives).schema

/-- The schema that an introspection result describes. -/
def readResult (result : Json) : Reading Schema :=
  match result.get? "__schema" with
  | some (.obj members) => readSchema (.obj members)
  | _ => .error (.noSchema result)

end Introspected

namespace Schema

/-- The schema that an introspection result describes, which may be wrapped in the data of a
reply. -/
def ofIntrospection (j : Json) : Except SchemaError Schema :=
  let read : Except BuildFault Schema := do
    if ← Introspected.asked (j.has "data") then
      let data ← Introspected.item "data" j
      if ← Introspected.asked (data.has "__schema") then
        Introspected.readResult (← Introspected.item "data" j)
      else Introspected.readResult j
    else Introspected.readResult j
  match read with
  | .ok s => .ok s
  | .error fault => .error (.unbuildable fault)

end Schema

end QueryDepth
