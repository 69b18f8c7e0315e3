import QueryDepth.Console.Wrap
import QueryDepth.Text.Location

/-!
# Tables of two columns

Every cell stands between blanks. Columns are as wide as their widest cell; if both together are too
wide, the wider one shrinks down to the other, and then both shrink evenly. In a cell, lines break
between words, and a word that is still too wide ends with an ellipsis.
-/

namespace QueryDepth.Console

abbrev TableRow := List Char × List Char

/-- The blanks around a cell. -/
def cellPadding : Nat := 2

/-- The width that a cell asks for. -/
def cellWidth (cell : List Char) : Nat :=
  min consoleWidth (((splitLines cell).map Text.width).foldl max 0 + cellPadding)

/-- Half of a number, a half rounded to the even neighbour. -/
def halfToEven (n : Nat) : Nat := if n % 4 = 3 then n / 2 + 1 else n / 2

/-- The widths of two columns, shrunk to the console. -/
def shrink (a b : Nat) : Nat × Nat :=
  let excess := a + b - consoleWidth
  let a' := a - min excess (a - b)
  let b' := b - min excess (b - a)
  let excess := a' + b' - consoleWidth
  let first := halfToEven excess
  (a' - first, b' - (excess - first))

def columnWidths (rows : List TableRow) : Nat × Nat :=
  shrink ((rows.map fun r => cellWidth r.1).foldl max 0)
    ((rows.map fun r => cellWidth r.2).foldl max 0)

/-- A line with blanks behind it up to a width. -/
def padTo (width : Nat) (line : List Char) : List Char :=
  line ++ List.replicate (width - Text.width line) ' '

/-- A line cut to a width, with an ellipsis if something is cut off. -/
def ellipsize (width : Nat) (line : List Char) : List Char :=
  if width < Text.width line then Text.cutTo (width - 1) line ++ ['…'] else padTo width line

/-- The lines of a cell in a column of some width, padding included. -/
def cellLines (width : Nat) (cell : List Char) : List (List Char) :=
  let inner := width - cellPadding
  if inner = 0 then []
  else
    ((splitFeeds cell).flatMap (wrapLine inner .keep)).map fun line =>
      ' ' :: ellipsize inner line ++ [' ']

/-- The lines of two cells next to each other, at least one. -/
def rowLines (widths : Nat × Nat) (row : TableRow) : List (List Char) :=
  let left := cellLines widths.1 row.1
  let right := cellLines widths.2 row.2
  (List.range (max 1 (max left.length right.length))).map fun i =>
    padTo widths.1 (left[i]?.getD []) ++ padTo widths.2 (right[i]?.getD [])

def tableText (rows : List TableRow) : String :=
  let widths := columnWidths rows
  String.join ((rows.flatMap (rowLines widths)).map fun line => String.ofList (line ++ ['\n']))

end QueryDepth.Console
