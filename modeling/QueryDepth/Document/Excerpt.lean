import QueryDepth.Document.SyntaxError

/-!
# Showing the place of a syntax error

An excerpt shows the line of the error between its neighbours, with a mark under the column. A line
of more than 120 characters is shown in pieces of 80, up to one piece behind the mark. The lines of
an excerpt end only with line feeds and carriage returns, whereas a location counts every kind of
line break, so there may be no line with the number of the location, and then there is no excerpt.
-/

namespace QueryDepth.Excerpt

/-- The longest line that is shown whole. -/
def maxLineSize : Nat := 120

def pieceSize : Nat := 80

/-- A text, blanks in front of it filling up a width. -/
def alignRight (width : Nat) (cs : List Char) : List Char :=
  List.replicate (width - cs.length) ' ' ++ cs

/-- The pieces of a line; the last may be shorter. -/
def pieces : Nat → List Char → List (List Char)
  | 0, _ => []
  | _, [] => []
  | n + 1, cs => cs.take pieceSize :: pieces n (cs.drop pieceSize)

/-- A line and what stands in front of its bar. -/
structure Row where
  label : String
  text : List Char

/-- Rows with their bars under each other. -/
def rowsText (rows : List Row) : String :=
  let width := (rows.map fun r => r.label.length).foldl max 0
  let row (r : Row) : String :=
    let label := String.ofList (alignRight width r.label.toList)
    if r.text.isEmpty then label else label ++ " " ++ String.ofList r.text
  "\n".intercalate (rows.map row)

def numbered (line : Nat) (text : List Char) : Row := ⟨Decimal.natText line ++ " |", text⟩

def unnumbered (text : List Char) : Row := ⟨"|", text⟩

def mark (column : Nat) : Row := unnumbered (alignRight column ['^'])

def longRows (place : Location) (line : List Char) : List Row :=
  let parts := pieces line.length line
  let index := place.column / pieceSize
  (parts.take 1).map (numbered place.line) ++ ((parts.drop 1).take index).map unnumbered
    ++ [mark (place.column % pieceSize)] ++ ((parts.drop (index + 1)).take 1).map unnumbered

def shortRows (place : Location) (lines : List (List Char)) (line : List Char) : List Row :=
  let before := if place.line = 1 then none else lines[place.line - 2]?
  (before.map (numbered (place.line - 1))).toList ++ [numbered place.line line, mark place.column]
    ++ (lines[place.line]?.map (numbered (place.line + 1))).toList

/-- The location and the lines around it. -/
def show? (text : List Char) (place : Location) : Option String :=
  let lines := textLines text
  (lines[place.line - 1]?).map fun line =>
    "GraphQL request:" ++ Decimal.natText place.line ++ ":" ++ Decimal.natText place.column ++ "\n"
      ++ rowsText (if maxLineSize < line.length then longRows place line
        else shortRows place lines line)

end QueryDepth.Excerpt

namespace QueryDepth

/-- The message and an excerpt, if the text has the line of the error. -/
def SyntaxError.report? (e : SyntaxError) (text : List Char) : Option String :=
  (Excerpt.show? text (e.location text)).map fun excerpt => e.message ++ "\n\n" ++ excerpt

end QueryDepth
