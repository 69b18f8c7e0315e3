import QueryDepth.Console.Table

/-!
# What is printed

A report is printed in blocks: paragraphs and tables of text with markup, and empty lines. A block
with wrong markup is not printed, and neither is what follows it.
-/

namespace QueryDepth.Console

inductive Block where
  | paragraph (markup : String)
  | table (rows : List (String × String))
  | emptyLine
deriving DecidableEq, Repr

namespace Block

/-- The cells of a table are read column by column. -/
def renderRows [MarkupLibrary] (rows : List (String × String)) :
    Except MarkupError (List TableRow) := do
  let left ← rows.mapM fun r => render r.1.toList
  let right ← rows.mapM fun r => render r.2.toList
  return left.zip right

def text [MarkupLibrary] : Block → Except MarkupError String
  | .paragraph markup => paragraphText <$> render markup.toList
  | .table rows => tableText <$> renderRows rows
  | .emptyLine => .ok "\n"

end Block

/-- What is printed of some blocks, and the error that ended the printing. -/
def printBlocks [MarkupLibrary] : List Block → String × Option MarkupError
  | [] => ("", none)
  | b :: rest =>
    match b.text with
    | .ok text =>
      let (more, error) := printBlocks rest
      (text ++ more, error)
    | .error e => ("", some e)

end QueryDepth.Console
