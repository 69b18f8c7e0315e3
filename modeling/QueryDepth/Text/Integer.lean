import QueryDepth.Text.Decimal
import QueryDepth.Text.WordChars

/-!
# Integers as they are typed

Blanks around it, a sign, and decimal digits of any script; single underscores may stand between
digits.
-/

namespace QueryDepth.Text

/-- The value of a decimal digit. Digits of a script come in runs of ten. -/
def digitOf? (c : Char) : Option Nat :=
  match Decimal.digitValue? c with
  | some d => some d
  | none =>
    (decimalRanges.find? fun r => r.1 ≤ c.toNat && c.toNat ≤ r.2).map fun r => (c.toNat - r.1) % 10

/-- Reads digits behind a digit, where `n` was read so far. -/
def readDigits? (n : Nat) : List Char → Option Nat
  | [] => some n
  | '_' :: c :: rest =>
    match digitOf? c with
    | some d => readDigits? (10 * n + d) rest
    | none => none
  | c :: rest =>
    match digitOf? c with
    | some d => readDigits? (10 * n + d) rest
    | none => none

def readNatural? : List Char → Option Nat
  | [] => none
  | c :: rest => (digitOf? c).bind fun d => readDigits? d rest

/-- The integer that a text spells. -/
def readInteger? (cs : List Char) : Option Int :=
  let cs := ((cs.dropWhile isBlank).reverse.dropWhile isBlank).reverse
  match cs with
  | '-' :: rest => (readNatural? rest).map fun n => -(n : Int)
  | '+' :: rest => (readNatural? rest).map Int.ofNat
  | cs => (readNatural? cs).map Int.ofNat

end QueryDepth.Text
