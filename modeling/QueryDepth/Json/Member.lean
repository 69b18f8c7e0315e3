import QueryDepth.Data.Literal
import QueryDepth.Text.Occurs

/-!
# Looking for a member in any JSON value

`Json.has` asks whether a name is in a value: as a member of an object, an element of a list, or a
part of a text. Numbers, truth values and null hold nothing and cannot be asked. `Json.item` takes
the member of an object; a list or a text, though it may hold the name, has no member of that name.
`Json.member` takes the member of an object too, and null where there is none. `Json.elements` goes
through a value: the items of a list, the names of an object, the characters of a text.
-/

namespace QueryDepth.Json

inductive MemberError where
  /-- A value that holds nothing. -/
  | notContainer (value : Json)
  | noItems (value : Json)
  | noMembers (value : Json)
  | noElements (value : Json)
  | listIndex
  | textIndex
  | missing (name : String)

/-- The word for a value's type, in quotes. -/
def typeWord (value : Json) : String := "'" ++ (Data.ofJson value).typeName ++ "'"

def MemberError.message : MemberError → String
  | .notContainer value => "argument of type " ++ typeWord value ++ " is not iterable"
  | .noItems value => typeWord value ++ " object is not subscriptable"
  | .noMembers value => typeWord value ++ " object has no attribute 'get'"
  | .noElements value => typeWord value ++ " object is not iterable"
  | .listIndex => "list indices must be integers or slices, not str"
  | .textIndex => "string indices must be integers, not 'str'"
  | .missing name => Text.quoted name

/-- Whether a name is in a value. -/
def has (name : String) : Json → Except MemberError Bool
  | .obj members => .ok (members.lookup name).isSome
  | .arr items => .ok (items.any fun v => v.asString? == some name)
  | .str s => .ok (Text.occurs name.toList s.toList)
  | value => .error (.notContainer value)

/-- The member of this name. -/
def item (name : String) : Json → Except MemberError Json
  | .obj members =>
    match members.lookup name with
    | some v => .ok v
    | none => .error (.missing name)
  | .arr _ => .error .listIndex
  | .str _ => .error .textIndex
  | value => .error (.noItems value)

/-- The member of this name, or null. -/
def member (name : String) : Json → Except MemberError Json
  | .obj members => .ok ((members.lookup name).getD .null)
  | value => .error (.noMembers value)

def elements : Json → Except MemberError (List Json)
  | .arr items => .ok items
  | .obj members => .ok (members.map fun m => .str m.1)
  | .str s => .ok (s.toList.map fun c => .str (String.singleton c))
  | value => .error (.noElements value)

end QueryDepth.Json
