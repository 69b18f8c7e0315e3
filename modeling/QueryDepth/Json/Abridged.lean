import QueryDepth.Data.Literal

/-!
# JSON values cut short

How a value is shown inside an error message: as a literal, but lists and objects inside two others
are only hinted at, of more than ten elements the middle ones are left out, and so is the middle of
a long text or integer.
-/

namespace QueryDepth.Json

/-- The longest literal of a text or an integer. -/
def maxLiteralSize : Nat := 240

/-- The greatest number of elements. -/
def maxElements : Nat := 10

/-- Leaves out the middle of a long literal. -/
def cutLiteral (s : String) : String :=
  let cs := s.toList
  if maxLiteralSize < cs.length then
    let kept := maxLiteralSize - 3
    String.ofList (cs.take (kept / 2)) ++ "..."
      ++ String.ofList (cs.drop (cs.length - (kept - kept / 2)))
  else s

/-- Leaves out the middle ones of many elements. -/
def cutElements (shown : List String) : List String :=
  if maxElements < shown.length then
    shown.take (maxElements / 2) ++ "..." :: shown.drop (shown.length - (maxElements / 2 - 1))
  else shown

mutual

/-- A value inside so many others that may still be shown. -/
def abridge (levels : Nat) : Json → String
  | .arr [] => "[]"
  | .obj [] => "\x7b\x7d"
  | .arr items =>
    match levels with
    | 0 => "[...]"
    | levels + 1 => "[" ++ ", ".intercalate (cutElements (abridgeItems levels items)) ++ "]"
  | .obj members =>
    match levels with
    | 0 => "\x7b...\x7d"
    | levels + 1 =>
      "\x7b" ++ ", ".intercalate (cutElements (abridgeMembers levels members)) ++ "\x7d"
  | .str s => cutLiteral (Data.text s).literal
  | .int n => cutLiteral (Data.int n).literal
  | .float x => (Data.float x).literal
  | .bool b => (Data.bool b).literal
  | .null => Data.null.literal

def abridgeItems (levels : Nat) : List Json → List String
  | [] => []
  | v :: vs => abridge levels v :: abridgeItems levels vs

def abridgeMembers (levels : Nat) : List (String × Json) → List String
  | [] => []
  | (k, v) :: ms =>
    (cutLiteral (Data.text k).literal ++ ": " ++ abridge levels v) :: abridgeMembers levels ms

end

/-- A value as error messages show it. -/
def abridged (value : Json) : String := abridge 2 value

end QueryDepth.Json
