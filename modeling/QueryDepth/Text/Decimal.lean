/-!
# Decimal text of integers and binary floating point numbers

The text of a float is the shortest one that reads back as the same number. A finite double is
`m * 2 ^ q`, and the reals that round to it form an interval around it. For one digit, two digits
and so on up to seventeen, `shortestDigits` takes the two neighbours of the number on that decimal
grid; the first grid with a neighbour inside the interval wins, and of two neighbours the nearer.
All of it is exact arithmetic on natural numbers.

`Layout` then says how the digits are written.
-/

namespace QueryDepth.Decimal

/-! ## Integers -/

/-- The digits of `n`, most significant first. -/
def natText (n : Nat) : String := String.ofList (Nat.toDigits 10 n)

def intText : Int → String
  | .ofNat n => natText n
  | .negSucc n => "-" ++ natText (n + 1)

def digitValue? (c : Char) : Option Nat :=
  if '0' ≤ c ∧ c ≤ '9' then some (c.toNat - '0'.toNat) else none

/-- The value of a digit of base sixteen, in either case. -/
def hexValue? (c : Char) : Option Nat :=
  if '0' ≤ c ∧ c ≤ '9' then some (c.toNat - '0'.toNat)
  else if 'a' ≤ c ∧ c ≤ 'f' then some (c.toNat - 'a'.toNat + 10)
  else if 'A' ≤ c ∧ c ≤ 'F' then some (c.toNat - 'A'.toNat + 10)
  else none

/-- The number that a list of decimal digits spells; other characters count as zero. -/
def natOfDigits (cs : List Char) : Nat :=
  cs.foldl (fun n c => 10 * n + (digitValue? c).getD 0) 0

/-- The digit of value `n < 16`, in lower case. -/
def hexDigit (n : Nat) : Char :=
  if n < 10 then Char.ofNat ('0'.toNat + n) else Char.ofNat ('a'.toNat + (n - 10))

/-- `n` in base sixteen with `width` digits, in lower case. -/
def hexText (width n : Nat) : List Char :=
  match width with
  | 0 => []
  | w + 1 => hexText w (n / 16) ++ [hexDigit (n % 16)]

/-! ## Shortest digits -/

/-- A finite positive double: the value is `mantissa * 2 ^ exponent`. -/
structure Binary where
  mantissa : Nat
  exponent : Int
deriving DecidableEq, Repr

/-- Mantissa and exponent of the magnitude of a finite double. -/
def Binary.ofBits (bits : UInt64) : Binary :=
  let fraction : Nat := bits.toNat % Nat.pow 2 52
  let biased : Nat := bits.toNat / Nat.pow 2 52 % Nat.pow 2 11
  if biased = 0 then ⟨fraction, -1074⟩ else ⟨fraction + Nat.pow 2 52, (biased : Int) - 1075⟩

/-- `base ^ e` for a possibly negative `e`, as numerator and denominator. -/
def power (base : Nat) (e : Int) : Nat × Nat :=
  if 0 ≤ e then (Nat.pow base e.toNat, 1) else (1, Nat.pow base (-e).toNat)

/-- The exponent `e` with `10 ^ e ≤ num / den < 10 ^ (e + 1)`, searched upward from `low` in at
most `fuel` steps. -/
def decimalExponent (num den : Nat) : Nat → Int → Int
  | 0, low => low
  | fuel + 1, low =>
    let (p, q) := power 10 (low + 1)
    if num * q < p * den then low else decimalExponent num den fuel (low + 1)

/-- Among the decimals with `digits` digits, the one nearest to `num / den` if it rounds to the
double: `m` with exponent `e` such that the value is about `m * 10 ^ e`. The ends of the interval
are `lowNum / den` and `highNum / den`. -/
def onGrid (num lowNum highNum den : Nat) (closed : Bool) (e : Int) : Option Nat :=
  let (p, q) := power 10 e
  -- the value in units of the grid is num * q / (den * p)
  let unit := den * p
  let below := num * q / unit
  let inside (m : Nat) : Bool :=
    let x := m * unit
    if closed then lowNum * q ≤ x && x ≤ highNum * q else lowNum * q < x && x < highNum * q
  let above := below + 1
  let distBelow := num * q - below * unit
  let distAbove := above * unit - num * q
  match inside below, inside above with
  | true, true =>
    if distBelow < distAbove then some below
    else if distAbove < distBelow then some above
    else if below % 2 = 0 then some below else some above
  | true, false => some below
  | false, true => some above
  | false, false => none

def searchGrids (num lowNum highNum den : Nat) (closed : Bool) (top : Int) :
    Nat → Nat → Nat × Int
  | 0, digits => (num / den, digits)
  | fuel + 1, digits =>
    let e := top - (digits : Int) + 1
    match onGrid num lowNum highNum den closed e with
    | some m => (m, e)
    | none => searchGrids num lowNum highNum den closed top fuel (digits + 1)

/-- The shortest decimal `m * 10 ^ e` that rounds to the given positive double. -/
def shortest (x : Binary) : Nat × Int :=
  -- quarter units: the value is 4 * mantissa, the ends lie two (or one) quarters away
  let (p, q) := power 2 (x.exponent - 2)
  let num := 4 * x.mantissa * p
  let highNum := (4 * x.mantissa + 2) * p
  let narrow := x.mantissa = Nat.pow 2 52 ∧ x.exponent > -1074
  let lowNum := (4 * x.mantissa - (if narrow then 1 else 2)) * p
  let top := decimalExponent num q 700 (-330)
  searchGrids num lowNum highNum q (x.mantissa % 2 = 0) top 17 1

/-! ## Layout -/

/-- How the digits of a float are written. -/
structure Layout where
  /-- Decimal exponents below this one are written with an exponent. -/
  least : Int
  /-- Decimal exponents from this one on are written with an exponent. -/
  limit : Int
  /-- The exponent has at least this many digits. -/
  exponentWidth : Nat
  infinity : String
  notNumber : String

/-- Drops the zeros that end a number's digits, raising the exponent. -/
def stripZeros : Nat → Nat → Int → Nat × Int
  | 0, m, e => (m, e)
  | fuel + 1, m, e => if m % 10 = 0 ∧ m ≠ 0 then stripZeros fuel (m / 10) (e + 1) else (m, e)

def padLeft (width : Nat) (c : Char) (cs : List Char) : List Char :=
  List.replicate (width - cs.length) c ++ cs

/-- Writes `m * 10 ^ e`, for `m > 0`: positional with at least one digit after the point, or with
one digit before it and an exponent. -/
def Layout.digits (l : Layout) (m : Nat) (e : Int) : List Char :=
  let (m, e) := stripZeros 400 m e
  let ds := Nat.toDigits 10 m
  let top := e + (ds.length : Int) - 1
  if l.least ≤ top ∧ top < l.limit then
    if 0 ≤ e then ds ++ List.replicate e.toNat '0' ++ ['.', '0']
    else if 0 ≤ top then ds.take (top.toNat + 1) ++ '.' :: ds.drop (top.toNat + 1)
    else ['0', '.'] ++ List.replicate (-top - 1).toNat '0' ++ ds
  else
    let tail := match ds with
      | [] | [_] => ds
      | d :: more => d :: '.' :: more
    let sign := if top < 0 then '-' else '+'
    tail ++ 'e' :: sign :: padLeft l.exponentWidth '0' (Nat.toDigits 10 top.natAbs)

/-- The text of a float. -/
def Layout.text (l : Layout) (x : Float) : String :=
  if x.isNaN then l.notNumber
  else
    let bits := x.toBits
    let sign := if bits.toNat / Nat.pow 2 63 = 1 then "-" else ""
    if x.isInf then sign ++ l.infinity
    else
      let b := Binary.ofBits bits
      if b.mantissa = 0 then sign ++ "0.0"
      else
        let (m, e) := shortest b
        sign ++ String.ofList (l.digits m e)

/-! ## Reading -/

/-- The double nearest to `mantissa * 10 ^ exponent`. Numbers that are too large or too small for
any double are settled by their size alone. -/
def floatOf (negative : Bool) (mantissa : Nat) (exponent : Int) : Float :=
  let magnitude : Float :=
    if mantissa = 0 then 0.0
    else
      let size := exponent + (Nat.toDigits 10 mantissa).length
      if size > 400 then 1.0 / 0.0
      else if size < -400 then 0.0
      else if 0 ≤ exponent then Float.ofScientific (mantissa * Nat.pow 10 exponent.toNat) false 0
      else Float.ofScientific mantissa true (-exponent).toNat
  if negative then -magnitude else magnitude

end QueryDepth.Decimal
