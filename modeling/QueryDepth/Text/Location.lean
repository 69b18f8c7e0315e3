/-!
# Places in a text

An offset counts the characters before a place. A `Location` is the same place as messages tell it:
the number of lines that the text before it has begun, and one more than the length of the last of
them. A line end belongs to the line that it ends, so the first character of a line has the location
just behind the line before; only at the start of the text, where there is no line before, is it
line one, column one.
-/

namespace QueryDepth

/-- A line and a column, both counted from one. -/
structure Location where
  line : Nat
  column : Nat
deriving DecidableEq, Repr, Inhabited

/-- The characters that end a line: line feed and carriage return, vertical tab and form feed, the
information separators, next line, and the separators of lines and paragraphs. -/
def isLineBreak (c : Char) : Bool :=
  ('\n' ≤ c && c ≤ '\r') || ('\x1c' ≤ c && c ≤ '\x1e') || c = '\u0085' || c = '\u2028'
    || c = '\u2029'

/-- The lines of a text without their ends. A carriage return and a line feed together end one line.
There is no empty line after the last line end. -/
def splitLines : List Char → List (List Char)
  | [] => []
  | '\r' :: '\n' :: rest => [] :: splitLines rest
  | c :: rest =>
    if isLineBreak c then [] :: splitLines rest
    else match splitLines rest with
      | [] => [[c]]
      | line :: more => (c :: line) :: more

namespace Location

/-- The location behind a text. -/
def behind (text : List Char) : Location :=
  match (splitLines text).getLast? with
  | none => ⟨1, 1⟩
  | some last => ⟨(splitLines text).length, last.length + 1⟩

/-- The location of the character that has `offset` characters before it. -/
def ofOffset (text : List Char) (offset : Nat) : Location := behind (text.take offset)

@[simp] theorem ofOffset_zero (text : List Char) : ofOffset text 0 = ⟨1, 1⟩ := rfl

end Location

/-- The pieces of a text between line feeds, carriage returns and the two together; a text that ends
with a line end has a last, empty piece. -/
def textLines : List Char → List (List Char)
  | [] => [[]]
  | '\r' :: '\n' :: rest => [] :: textLines rest
  | c :: rest =>
    if c = '\n' ∨ c = '\r' then [] :: textLines rest
    else match textLines rest with
      | [] => [[c]]
      | line :: more => (c :: line) :: more

end QueryDepth
