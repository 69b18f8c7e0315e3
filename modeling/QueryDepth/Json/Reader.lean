import QueryDepth.Json.Basic
import QueryDepth.Text.Decimal
import QueryDepth.Text.Location

/-!
# Reading JSON

`Json.read` accepts one value with blanks around it. Besides the standard forms the numbers `NaN`,
`Infinity` and `-Infinity` are read. An error names what was expected and the offset where.
-/

namespace QueryDepth.Json

/-- What is wrong with a text that is not JSON. -/
inductive Fault where
  | value
  | propertyName
  | colon
  | comma
  | extraData
  | unterminated
  | escape
  | unicodeEscape
  | control
  | byteOrderMark
deriving DecidableEq, Repr

def Fault.describe : Fault → String
  | .value => "Expecting value"
  | .propertyName => "Expecting property name enclosed in double quotes"
  | .colon => "Expecting ':' delimiter"
  | .comma => "Expecting ',' delimiter"
  | .extraData => "Extra data"
  | .unterminated => "Unterminated string starting at"
  | .escape => "Invalid \\escape"
  | .unicodeEscape => "Invalid \\uXXXX escape"
  | .control => "Invalid control character at"
  | .byteOrderMark => "Unexpected UTF-8 BOM (decode using utf-8-sig)"

structure ReadError where
  fault : Fault
  /-- Only a line feed ends a line here. -/
  place : Location
  offset : Nat
deriving DecidableEq, Repr

namespace ReadError

/-- The place of an offset when only line feeds end lines. -/
def placeIn (text : List Char) (offset : Nat) : Location :=
  (text.take offset).foldl
    (fun l c => if c = '\n' then ⟨l.line + 1, 1⟩ else ⟨l.line, l.column + 1⟩) ⟨1, 1⟩

def message (e : ReadError) : String :=
  e.fault.describe ++ ": line " ++ Decimal.natText e.place.line ++ " column "
    ++ Decimal.natText e.place.column ++ " (char " ++ Decimal.natText e.offset ++ ")"

end ReadError

/-- The unread part of a text and its offset. -/
structure Rest where
  chars : List Char
  offset : Nat
deriving DecidableEq, Repr

abbrev Reading := Except (Fault × Nat)

def isBlank (c : Char) : Bool := c = ' ' || c = '\t' || c = '\n' || c = '\r'

def Rest.drop (r : Rest) (n : Nat) : Rest := ⟨r.chars.drop n, r.offset + n⟩

def Rest.skipBlanks (r : Rest) : Rest :=
  r.drop (r.chars.takeWhile isBlank).length

/-! ## Strings -/

/-- The character that a one-letter escape stands for. -/
def simpleEscape? : Char → Option Char
  | '"' => some '"'
  | '\\' => some '\\'
  | '/' => some '/'
  | 'b' => some '\x08'
  | 'f' => some '\x0c'
  | 'n' => some '\n'
  | 'r' => some '\r'
  | 't' => some '\t'
  | _ => none

def hex4? (a b c d : Char) : Option Nat := do
  let a ← Decimal.hexValue? a
  let b ← Decimal.hexValue? b
  let c ← Decimal.hexValue? c
  let d ← Decimal.hexValue? d
  return ((a * 16 + b) * 16 + c) * 16 + d

def isHighSurrogate (n : Nat) : Bool := 0xD800 ≤ n && n < 0xDC00
def isLowSurrogate (n : Nat) : Bool := 0xDC00 ≤ n && n < 0xE000

/-- The character of a code unit that stands alone; half of a pair becomes the replacement
character. -/
def charOfUnit (n : Nat) : Char :=
  if isHighSurrogate n || isLowSurrogate n then '\uFFFD' else Char.ofNat n

def charOfPair (high low : Nat) : Char :=
  Char.ofNat (0x10000 + (high - 0xD800) * 0x400 + (low - 0xDC00))

/-- The characters of a string up to its closing quote; `start` is the offset of the opening one.
An escape of four digits is read only if a character follows it. -/
def readChars (start : Nat) : Nat → List Char → Nat → Reading (List Char × Rest)
  | 0, _, _ => .error (.unterminated, start)
  | _ + 1, [], _ => .error (.unterminated, start)
  | _ + 1, '"' :: rest, pos => .ok ([], ⟨rest, pos + 1⟩)
  | fuel + 1, '\\' :: 'u' :: a :: b :: c :: d :: e :: rest, pos =>
    match hex4? a b c d with
    | none => .error (.unicodeEscape, pos + 1)
    | some high =>
      let alone := do
        let (cs, r) ← readChars start fuel (e :: rest) (pos + 6)
        return (charOfUnit high :: cs, r)
      if isHighSurrogate high then
        match e, rest with
        | '\\', 'u' :: a :: b :: c :: d :: f :: rest =>
          match hex4? a b c d with
          | none => .error (.unicodeEscape, pos + 7)
          | some low =>
            if isLowSurrogate low then do
              let (cs, r) ← readChars start fuel (f :: rest) (pos + 12)
              return (charOfPair high low :: cs, r)
            else alone
        | _, _ => alone
      else alone
  | _ + 1, '\\' :: 'u' :: _, pos => .error (.unicodeEscape, pos + 1)
  | _ + 1, '\\' :: [], _ => .error (.unterminated, start)
  | fuel + 1, '\\' :: c :: rest, pos =>
    match simpleEscape? c with
    | none => .error (.escape, pos)
    | some c => do
      let (cs, r) ← readChars start fuel rest (pos + 2)
      return (c :: cs, r)
  | fuel + 1, c :: rest, pos =>
    if c.toNat < 0x20 then .error (.control, pos)
    else do
      let (cs, r) ← readChars start fuel rest (pos + 1)
      return (c :: cs, r)

/-- Reads a string whose opening quote has been read. -/
def readString (r : Rest) : Reading (String × Rest) := do
  let (cs, rest) ← readChars (r.offset - 1) (r.chars.length + 1) r.chars r.offset
  return (String.ofList cs, rest)

/-! ## Numbers -/

def isDigit (c : Char) : Bool := '0' ≤ c && c ≤ '9'

/-- Integer digits: a zero, or digits that do not begin with one. -/
def integerDigits : List Char → Option (List Char)
  | '0' :: _ => some ['0']
  | cs => match cs.takeWhile isDigit with
    | [] => none
    | ds => some ds

/-- A point and the digits after it, if there are any. -/
def fractionDigits : List Char → List Char
  | '.' :: cs => cs.takeWhile isDigit
  | _ => []

/-- An exponent: its sign (true for minus), its digits and how many characters it takes. -/
def exponentPart : List Char → Option (Bool × List Char × Nat)
  | c :: cs =>
    if c = 'e' ∨ c = 'E' then
      let (negative, body, taken) := match cs with
        | '-' :: cs => (true, cs, 2)
        | '+' :: cs => (false, cs, 2)
        | cs => (false, cs, 1)
      match body.takeWhile isDigit with
      | [] => none
      | ds => some (negative, ds, taken + ds.length)
    else none
  | [] => none

def readMagnitude (negative : Bool) (r : Rest) : Option (Json × Rest) := do
  let whole ← integerDigits r.chars
  let afterWhole := r.drop whole.length
  let fraction := fractionDigits afterWhole.chars
  let afterFraction :=
    if fraction.isEmpty then afterWhole else afterWhole.drop (fraction.length + 1)
  let signed (n : Nat) : Int := if negative then -(n : Int) else n
  match exponentPart afterFraction.chars with
  | some (minus, ds, taken) =>
    let e : Int := Decimal.natOfDigits ds
    let e := (if minus then -e else e) - (fraction.length : Int)
    return (.float (Decimal.floatOf negative (Decimal.natOfDigits (whole ++ fraction)) e),
      afterFraction.drop taken)
  | none =>
    if fraction.isEmpty then return (.int (signed (Decimal.natOfDigits whole)), afterWhole)
    else
      return (.float (Decimal.floatOf negative (Decimal.natOfDigits (whole ++ fraction))
        (-(fraction.length : Int))), afterFraction)

/-! ## Values -/

def infinity : Float := 1.0 / 0.0
def notNumber : Float := 0.0 / 0.0

/-- The words that stand for a value. -/
def words : List (List Char × Json) :=
  [("null".toList, .null), ("true".toList, .bool true), ("false".toList, .bool false),
   ("NaN".toList, .float notNumber), ("Infinity".toList, .float infinity),
   ("-Infinity".toList, .float (-infinity))]

def readWord (r : Rest) : List (List Char × Json) → Option (Json × Rest)
  | [] => none
  | (w, v) :: more => if w.isPrefixOf r.chars then some (v, r.drop w.length) else readWord r more

def readScalar (r : Rest) : Reading (Json × Rest) :=
  match readWord r words with
  | some found => .ok found
  | none =>
    let found := match r.chars with
      | '-' :: _ => readMagnitude true (r.drop 1)
      | _ => readMagnitude false r
    match found with
    | some found => .ok found
    | none => .error (.value, r.offset)

mutual

/-- Reads the value that starts here. -/
def readValue : Nat → Rest → Reading (Json × Rest)
  | 0, r => .error (.value, r.offset)
  | fuel + 1, r =>
    match r.chars with
    | '"' :: _ => do
      let (s, rest) ← readString (r.drop 1)
      return (.str s, rest)
    | '{' :: _ =>
      let inner := (r.drop 1).skipBlanks
      match inner.chars with
      | '}' :: _ => .ok (.obj [], inner.drop 1)
      | _ => do
        let (members, rest) ← readMembers fuel inner
        return (.obj (Index.ofEntries members), rest)
    | '[' :: _ =>
      let inner := (r.drop 1).skipBlanks
      match inner.chars with
      | ']' :: _ => .ok (.arr [], inner.drop 1)
      | _ => do
        let (items, rest) ← readItems fuel inner
        return (.arr items, rest)
    | _ => readScalar r

/-- Reads members up to the closing brace, in the order written. -/
def readMembers : Nat → Rest → Reading (List (String × Json) × Rest)
  | 0, r => .error (.propertyName, r.offset)
  | fuel + 1, r =>
    match r.chars with
    | '"' :: _ => do
      let (name, rest) ← readString (r.drop 1)
      let rest := rest.skipBlanks
      match rest.chars with
      | ':' :: _ => do
        let (value, rest) ← readValue fuel (rest.drop 1).skipBlanks
        let rest := rest.skipBlanks
        match rest.chars with
        | '}' :: _ => .ok ([(name, value)], rest.drop 1)
        | ',' :: _ => do
          let (more, rest) ← readMembers fuel (rest.drop 1).skipBlanks
          return ((name, value) :: more, rest)
        | _ => .error (.comma, rest.offset)
      | _ => .error (.colon, rest.offset)
    | _ => .error (.propertyName, r.offset)

/-- Reads items up to the closing bracket. -/
def readItems : Nat → Rest → Reading (List Json × Rest)
  | 0, r => .error (.value, r.offset)
  | fuel + 1, r => do
    let (value, rest) ← readValue fuel r
    let rest := rest.skipBlanks
    match rest.chars with
    | ']' :: _ => .ok ([value], rest.drop 1)
    | ',' :: _ => do
      let (more, rest) ← readItems fuel (rest.drop 1).skipBlanks
      return (value :: more, rest)
    | _ => .error (.comma, rest.offset)

end

/-- Reads a whole text as one value. -/
def read (text : String) : Except ReadError Json :=
  let chars := text.toList
  let fail (fault : Fault) (offset : Nat) : ReadError :=
    ⟨fault, ReadError.placeIn chars offset, offset⟩
  match chars with
  | '\uFEFF' :: _ => .error (fail .byteOrderMark 0)
  | _ =>
    match readValue (chars.length + 1) (Rest.mk chars 0).skipBlanks with
    | .error (fault, offset) => .error (fail fault offset)
    | .ok (value, rest) =>
      match rest.skipBlanks.chars with
      | [] => .ok value
      | _ => .error (fail .extraData rest.skipBlanks.offset)

end QueryDepth.Json
