import QueryDepth.Console.Markup
import QueryDepth.Text.Width

/-!
# Lines of limited width

A text is printed in lines of at most so many columns. Lines break between words, which keep the
blanks behind them. A word that is wider than a line is folded, that is cut into pieces, or left as
it is and cut off later.
-/

namespace QueryDepth.Console

/-! ## Tabs and words -/

def tabSize : Nat := 8

/-- The text behind a column with blanks up to the next tab stop in the place of tabs. `run` is what
was read since the last tab. -/
def expandTabs (column : Nat) (run : List Char) : List Char → List Char
  | [] => run
  | c :: rest =>
    if c = '\t' then
      let position := column + Text.width run + 1
      let stop := (position + tabSize - 1) / tabSize * tabSize
      run ++ List.replicate (stop - position + 1) ' ' ++ expandTabs stop [] rest
    else expandTabs column (run ++ [c]) rest

/-- The first word of a text with the blanks around it, and the rest. -/
def nextWord? (cs : List Char) : Option (List Char × List Char) :=
  let before := cs.takeWhile Text.isBlank
  let word := (cs.drop before.length).takeWhile fun c => !Text.isBlank c
  let rest := cs.drop (before.length + word.length)
  let after := rest.takeWhile Text.isBlank
  if word.isEmpty then none
  else some (before ++ word ++ after, rest.drop after.length)

/-- The words of a text with their blanks. Each word takes a character of the text. -/
def wordsOf : Nat → List Char → List (List Char)
  | 0, _ => []
  | fuel + 1, cs =>
    match nextWord? cs with
    | some (word, rest) => word :: wordsOf fuel rest
    | none => []

/-! ## Breaks -/

inductive Overlong where
  | fold
  | keep
deriving DecidableEq, Repr

def dropBlanksAtEnd (cs : List Char) : List Char := (cs.reverse.dropWhile Text.isBlank).reverse

/-- The offsets where pieces begin, that of the first given; no line begins at the beginning. -/
def pieceBreaks : Nat → List (List Char) → List Nat
  | _, [] => []
  | start, piece :: rest =>
    (if start = 0 then [] else [start]) ++ pieceBreaks (start + piece.length) rest

/-- The offsets where lines begin. `start` is the offset of the next word, `column` where it would
stand on the present line. -/
def breaks (width : Nat) (overlong : Overlong) (start column : Nat) : List (List Char) → List Nat
  | [] => []
  | word :: rest =>
    let size := Text.width (dropBlanksAtEnd word)
    let next := start + word.length
    if column + size ≤ width then
      breaks width overlong next (column + Text.width word) rest
    else if width < size ∧ overlong = .fold then
      let parts := Text.pieces width word
      pieceBreaks start parts
        ++ breaks width overlong next (Text.width (parts.getLast?.getD [])) rest
    else
      (if start = 0 then [] else [start]) ++ breaks width overlong next (Text.width word) rest

/-- A text cut at offsets. -/
def cutAt (from_ : Nat) : List Nat → List Char → List (List Char)
  | [], cs => [cs]
  | b :: bs, cs => cs.take (b - from_) :: cutAt b bs (cs.drop (b - from_))

/-- A line without those blanks at its end that make it have more than so many characters. -/
def dropExcess (width : Nat) (line : List Char) : List Char :=
  let blanks := line.length - (dropBlanksAtEnd line).length
  line.take (line.length - min blanks (line.length - width))

/-- A line of text as lines of limited width; overlong words may stick out. -/
def wrapLine (width : Nat) (overlong : Overlong) (line : List Char) : List (List Char) :=
  let line := expandTabs 0 [] line
  (cutAt 0 (breaks width overlong 0 0 (wordsOf line.length line)) line).map (dropExcess width)

/-- The pieces of a text between line feeds. -/
def splitFeeds : List Char → List (List Char)
  | [] => [[]]
  | c :: rest =>
    if c = '\n' then [] :: splitFeeds rest
    else
      match splitFeeds rest with
      | [] => [[c]]
      | line :: more => (c :: line) :: more

/-! ## Paragraphs -/

/-- The columns of the console. -/
def consoleWidth : Nat := 80

def fitLine (width : Nat) (line : List Char) : List Char :=
  if width < Text.width line then Text.cutTo width line else line

/-- A text in lines of the console. -/
def paragraphText (shown : List Char) : String :=
  let lines := (splitFeeds shown).flatMap fun line =>
    (wrapLine consoleWidth .fold line).map (fitLine consoleWidth)
  "\n".intercalate (lines.map String.ofList) ++ "\n"

end QueryDepth.Console
