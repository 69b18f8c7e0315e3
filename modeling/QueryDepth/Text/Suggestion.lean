import QueryDepth.Text.Decimal
import QueryDepth.Text.Lower

/-!
# Suggestions for a misspelt name

The names that are close to what was written, nearest first. Distance counts single characters that
are inserted, deleted or exchanged, and two neighbours that have changed places; case does not
count, but for one if nothing else differs. A name is close if its distance is at most one more than
two fifths of the length of what was written. Names at the same distance are in natural order, in
which runs of digits compare as numbers.
-/

namespace QueryDepth.Text

/-! ## Natural order -/

/-- A run of digits, or a run of other characters. -/
inductive NaturalPart where
  | other (text : List Char)
  | number (value : Nat) (digits : List Char)
deriving DecidableEq, Repr

/-- The runs of a text in turn, the first of them without digits, possibly empty. -/
def naturalParts (cs : List Char) : List NaturalPart :=
  let (parts, run, inDigits) := cs.foldl (fun (parts, run, inDigits) c =>
    if isDecimal c = inDigits then (parts, run ++ [c], inDigits)
    else (parts ++ [close run inDigits], [c], !inDigits)) ([], [], false)
  parts ++ [close run inDigits] ++ if inDigits then [.other []] else []
where
  isDecimal (c : Char) : Bool := (Decimal.digitValue? c).isSome
  close (run : List Char) (inDigits : Bool) : NaturalPart :=
    if inDigits then .number (Decimal.natOfDigits run) run else .other run

def compareChars : List Char → List Char → Ordering
  | [], [] => .eq
  | [], _ :: _ => .lt
  | _ :: _, [] => .gt
  | a :: as, b :: bs => if a < b then .lt else if b < a then .gt else compareChars as bs

def NaturalPart.compare : NaturalPart → NaturalPart → Ordering
  | .other a, .other b => compareChars a b
  | .number m a, .number n b => (Ord.compare m n).then (compareChars a b)
  | .other _, .number _ _ => .lt
  | .number _ _, .other _ => .gt

def compareParts : List NaturalPart → List NaturalPart → Ordering
  | [], [] => .eq
  | [], _ :: _ => .lt
  | _ :: _, [] => .gt
  | a :: as, b :: bs => (a.compare b).then (compareParts as bs)

def naturalCompare (a b : String) : Ordering :=
  compareParts (naturalParts a.toList) (naturalParts b.toList)

/-! ## Distance -/

/-- One row of the table of distances between prefixes. At column `j` the lists hold the entry of
the row above at `j - 1` and on, and that of the row above it at `j - 2` and on. -/
def distanceRow (a : Char) (aBefore : Option Char) :
    Nat → Option Char → List Char → List Nat → List (Option Nat) → List Nat
  | left, bBefore, b :: bs, diagonal :: up :: ups, twoUp :: twoUps =>
    let plain := min (min (up + 1) (left + 1)) (diagonal + if a = b then 0 else 1)
    let cell := match twoUp with
      | some d => if some a = bBefore ∧ aBefore = some b then min plain (d + 1) else plain
      | none => plain
    cell :: distanceRow a aBefore cell (some b) bs (up :: ups) twoUps
  | _, _, _, _, _ => []

/-- The last entry of the table whose rows belong to the characters of the first text, nothing if
all entries of a row are beyond the bound. -/
def distanceRows (bound : Nat) (b : List Char) :
    Nat → Option Char → List Char → List Nat → List (Option Nat) → Option Nat
  | _, _, [], row, _ => row.getLast?
  | i, aBefore, a :: as, row, rowBefore =>
    let next := i :: distanceRow a aBefore i none b row (none :: rowBefore)
    if next.all (bound < ·) then none
    else distanceRows bound b (i + 1) (some a) as next (row.map some)

/-- The distance of two texts if it is within a bound. -/
def distance? (bound : Nat) (written name : String) : Option Nat :=
  if written = name then some 0
  else
    let w := (lower written).toList
    let n := (lower name).toList
    if w = n then some 1
    else
      let (a, b) := if n.length < w.length then (w, n) else (n, w)
      if bound < a.length - b.length then none
      else
        match distanceRows bound b 1 none a (List.range (b.length + 1))
            (List.replicate (b.length + 1) none) with
        | some d => if d ≤ bound then some d else none
        | none => none

/-- The greatest distance of a suggestion. -/
def distanceBound (written : String) : Nat := 2 * written.toList.length / 5 + 1

/-- The names that are close to what was written, nearest first. -/
def suggestions (written : String) (names : List String) : List String :=
  let near := names.eraseDups.filterMap fun n =>
    (distance? (distanceBound written) written n).map fun d => (d, n)
  let before (a b : Nat × String) : Bool :=
    ((Ord.compare a.1 b.1).then (naturalCompare a.2 b.2)).isLE
  (near.mergeSort before).map Prod.snd

/-! ## The question -/

/-- Names in quotes as alternatives. -/
def alternatives : List String → String
  | [] => ""
  | [a] => "'" ++ a ++ "'"
  | [a, b] => "'" ++ a ++ "' or '" ++ b ++ "'"
  | names =>
    ", ".intercalate (names.dropLast.map fun n => "'" ++ n ++ "'") ++ ", or '"
      ++ names.getLast?.getD "" ++ "'"

/-- Asks whether one of the names was meant, at most five of them; says nothing if there are none.
A phrase in front of the names may say what they are. -/
def didYouMean (names : List String) (phrase : String) : String :=
  if names.isEmpty then ""
  else
    " Did you mean " ++ (if phrase.isEmpty then "" else phrase ++ " ")
      ++ alternatives (names.take 5) ++ "?"

end QueryDepth.Text
