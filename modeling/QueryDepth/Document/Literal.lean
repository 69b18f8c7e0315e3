import QueryDepth.Document.Basic
import QueryDepth.Text.Decimal
import QueryDepth.Text.Location
import QueryDepth.Text.Suggestion

/-!
# Values as a document writes them

`Value.text` writes a value in the syntax of documents, on one line but for block strings. Numbers
keep the digits that were read. `Value.sorted` brings the fields of all objects into natural order,
so that two values mean the same input if and only if their sorted texts are equal.
-/

namespace QueryDepth

/-- `n` in base sixteen with `width` digits, in upper case. -/
def upperHex (width n : Nat) : List Char :=
  (Decimal.hexText width n).map fun c => if 'a' ≤ c ∧ c ≤ 'f' then Char.ofNat (c.toNat - 32) else c

/-- One character inside a quoted string. -/
def stringChar (c : Char) : List Char :=
  if c = '"' then ['\\', '"']
  else if c = '\\' then ['\\', '\\']
  else if c = '\x08' then ['\\', 'b']
  else if c = '\t' then ['\\', 't']
  else if c = '\n' then ['\\', 'n']
  else if c = '\x0c' then ['\\', 'f']
  else if c = '\r' then ['\\', 'r']
  else if c.toNat < 0x20 ∨ (0x7F ≤ c.toNat ∧ c.toNat < 0xA0) then
    ['\\', 'u'] ++ upperHex 4 c.toNat
  else [c]

def stringText (s : String) : String :=
  String.ofList ('"' :: s.toList.flatMap stringChar ++ ['"'])

/-- Puts a backslash in front of three quotes in a row. -/
def escapeTripleQuotes : List Char → List Char
  | '"' :: '"' :: '"' :: cs => '\\' :: '"' :: '"' :: '"' :: escapeTripleQuotes cs
  | c :: cs => c :: escapeTripleQuotes cs
  | [] => []

/-- A block string. Its text has lines of its own if it has several lines, is long, or has an end
that would run into the closing quotes; a text that would lose indentation begins on a new line. -/
def blockText (s : String) : String :=
  let cs := s.toList
  let escaped := escapeTripleQuotes cs
  let lines := match splitLines escaped with
    | [] => [[]]
    | ls => ls
  let isIndent (c : Char) : Bool := c = ' ' || c = '\t'
  let startsIndented (line : List Char) : Bool := line.head?.any isIndent
  let oneLine := lines.length = 1
  let forceFirst := 1 < lines.length && lines.tail.all fun l => l.isEmpty || startsIndented l
  let endsInTriple := ['"', '"', '"', '\\'].isPrefixOf escaped.reverse
  let forceLast := (cs.getLast? = some '"' && !endsInTriple) || cs.getLast? = some '\\'
  let several := !oneLine || 70 < cs.length || forceLast || forceFirst || endsInTriple
  let skipFirst := oneLine && startsIndented cs
  let before := if (several && !skipFirst) || forceFirst then ['\n'] else []
  let after := if several || forceLast then ['\n'] else []
  "\"\"\"" ++ String.ofList (before ++ escaped ++ after) ++ "\"\"\""

namespace Value

mutual

def text : Value → String
  | .variable_ _ n => "$" ++ n.value
  | .int _ digits | .float _ digits => digits
  | .string _ s block => if block then blockText s else stringText s
  | .boolean _ b => if b then "true" else "false"
  | .null _ => "null"
  | .enum _ n => n
  | .list _ items => "[" ++ ", ".intercalate (texts items) ++ "]"
  | .object _ fields => "\x7b" ++ ", ".intercalate (fieldTexts fields) ++ "\x7d"

def texts : List Value → List String
  | [] => []
  | v :: vs => text v :: texts vs

def fieldTexts : List (Name × Value) → List String
  | [] => []
  | (n, v) :: fs => (n.value ++ ": " ++ text v) :: fieldTexts fs

end

mutual

/-- The value with the fields of all objects in natural order. -/
def sorted : Value → Value
  | .list p items => .list p (sortedItems items)
  | .object p fields =>
    .object p ((sortedFields fields).mergeSort fun a b =>
      (Text.naturalCompare a.1.value b.1.value).isLE)
  | v => v

def sortedItems : List Value → List Value
  | [] => []
  | v :: vs => sorted v :: sortedItems vs

def sortedFields : List (Name × Value) → List (Name × Value)
  | [] => []
  | (n, v) :: fs => (n, sorted v) :: sortedFields fs

end

end Value

end QueryDepth
