import QueryDepth.Json.Basic
import QueryDepth.Text.Decimal

/-!
# Writing JSON

Two layouts: `Json.pretty` puts every item on a line of its own with two blanks of indentation a
level, `Json.compact` writes no blanks. Both write ASCII only; a character beyond the basic plane is
written as a pair of escapes.
-/

namespace QueryDepth.Json

/-- Floats from `1e-4` up to `1e16` are positional. -/
def floatLayout : Decimal.Layout := ⟨-4, 16, 2, "Infinity", "NaN"⟩

def unitEscape (n : Nat) : List Char := '\\' :: 'u' :: Decimal.hexText 4 n

/-- One character inside a string. -/
def escapeChar (c : Char) : List Char :=
  if c = '"' then ['\\', '"']
  else if c = '\\' then ['\\', '\\']
  else if c = '\n' then ['\\', 'n']
  else if c = '\r' then ['\\', 'r']
  else if c = '\t' then ['\\', 't']
  else if c = '\x0c' then ['\\', 'f']
  else if c = '\x08' then ['\\', 'b']
  else if 0x20 ≤ c.toNat ∧ c.toNat < 0x7F then [c]
  else if c.toNat < 0x10000 then unitEscape c.toNat
  else
    let n := c.toNat - 0x10000
    unitEscape (0xD800 + n / 0x400) ++ unitEscape (0xDC00 + n % 0x400)

def quote (s : String) : List Char := '"' :: s.toList.flatMap escapeChar ++ ['"']

/-- A line end and `depth` levels of indentation. -/
def newLine (depth : Nat) : List Char := '\n' :: List.replicate (2 * depth) ' '

mutual

def prettyAt (depth : Nat) : Json → List Char
  | .null => "null".toList
  | .bool true => "true".toList
  | .bool false => "false".toList
  | .int n => (Decimal.intText n).toList
  | .float x => (floatLayout.text x).toList
  | .str s => quote s
  | .arr [] => ['[', ']']
  | .arr (v :: vs) =>
    '[' :: newLine (depth + 1) ++ prettyAt (depth + 1) v ++ prettyItems depth vs
      ++ newLine depth ++ [']']
  | .obj [] => ['{', '}']
  | .obj ((k, v) :: ms) =>
    '{' :: newLine (depth + 1) ++ quote k ++ ':' :: ' ' :: prettyAt (depth + 1) v
      ++ prettyMembers depth ms ++ newLine depth ++ ['}']

/-- The items after the first, each after a comma. -/
def prettyItems (depth : Nat) : List Json → List Char
  | [] => []
  | v :: vs => ',' :: newLine (depth + 1) ++ prettyAt (depth + 1) v ++ prettyItems depth vs

def prettyMembers (depth : Nat) : List (String × Json) → List Char
  | [] => []
  | (k, v) :: ms =>
    ',' :: newLine (depth + 1) ++ quote k ++ ':' :: ' ' :: prettyAt (depth + 1) v
      ++ prettyMembers depth ms

end

/-- The indented form. -/
def pretty (v : Json) : String := String.ofList (prettyAt 0 v)

mutual

def compactChars : Json → List Char
  | .null => "null".toList
  | .bool true => "true".toList
  | .bool false => "false".toList
  | .int n => (Decimal.intText n).toList
  | .float x => (floatLayout.text x).toList
  | .str s => quote s
  | .arr [] => ['[', ']']
  | .arr (v :: vs) => '[' :: compactChars v ++ compactItems vs ++ [']']
  | .obj [] => ['{', '}']
  | .obj ((k, v) :: ms) =>
    '{' :: quote k ++ ':' :: compactChars v ++ compactMembers ms ++ ['}']

def compactItems : List Json → List Char
  | [] => []
  | v :: vs => ',' :: compactChars v ++ compactItems vs

def compactMembers : List (String × Json) → List Char
  | [] => []
  | (k, v) :: ms => ',' :: quote k ++ ':' :: compactChars v ++ compactMembers ms

end

/-- The form on one line. -/
def compact (v : Json) : String := String.ofList (compactChars v)

end QueryDepth.Json
