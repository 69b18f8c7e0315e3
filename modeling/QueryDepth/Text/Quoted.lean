import QueryDepth.Text.Decimal
import QueryDepth.Text.Printable

/-!
# Text in quotes

How a text is shown as a literal: between apostrophes, or between double quotes if it holds an
apostrophe and no double quote. The mark and the backslash are escaped inside, and so are
characters that are not printable.
-/

namespace QueryDepth.Text

/-- The mark around a literal. -/
def quoteMark (cs : List Char) : Char :=
  if '\'' ∈ cs ∧ '"' ∉ cs then '"' else '\''

def quotedChar (mark c : Char) : List Char :=
  if c = mark ∨ c = '\\' then ['\\', c]
  else if c = '\t' then ['\\', 't']
  else if c = '\n' then ['\\', 'n']
  else if c = '\r' then ['\\', 'r']
  else if isPrintable c then [c]
  else
    let n := c.toNat
    if n < 0x100 then '\\' :: 'x' :: Decimal.hexText 2 n
    else if n < 0x10000 then '\\' :: 'u' :: Decimal.hexText 4 n
    else '\\' :: 'U' :: Decimal.hexText 8 n

def quotedChars (cs : List Char) : List Char :=
  let mark := quoteMark cs
  mark :: cs.flatMap (quotedChar mark) ++ [mark]

/-- A text as a literal. -/
def quoted (s : String) : String := String.ofList (quotedChars s.toList)

/-- One byte inside a literal of bytes. -/
def quotedByte (mark : Char) (b : UInt8) : List Char :=
  let c := Char.ofNat b.toNat
  if c = mark ∨ c = '\\' then ['\\', c]
  else if c = '\t' then ['\\', 't']
  else if c = '\n' then ['\\', 'n']
  else if c = '\r' then ['\\', 'r']
  else if 0x20 ≤ b.toNat ∧ b.toNat < 0x7F then [c]
  else '\\' :: 'x' :: Decimal.hexText 2 b.toNat

/-- Bytes as a literal, which is marked by a `b`. -/
def quotedBytes (bytes : List UInt8) : String :=
  let mark := quoteMark (bytes.map fun b => Char.ofNat b.toNat)
  String.ofList ('b' :: mark :: bytes.flatMap (quotedByte mark) ++ [mark])

end QueryDepth.Text
