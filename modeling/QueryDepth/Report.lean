import QueryDepth.Console.Block
import QueryDepth.Json.Writer
import QueryDepth.Validation.Run

/-!
# Reports

A report has the limit, the depths of the operations and what was found. It is written as JSON, or
printed as a table of depths and a list of findings.
-/

namespace QueryDepth

structure Report where
  limit : Int
  depths : DepthMap
  findings : List Finding
deriving DecidableEq, Repr

/-- How an operation is called in a report. -/
def shownOperationName (name : String) : String := if name.isEmpty then "<anonymous>" else name

namespace Report

def isOk (r : Report) : Bool := r.findings.isEmpty

/-! ## As JSON -/

def locationJson (l : Location) : Json := .arr [.int l.line, .int l.column]

def findingJson (f : Finding) : Json :=
  .obj [("message", .str f.message), ("locations", .arr (f.locations.map locationJson))]

/-- A report as JSON. Numbers may have any number of digits: that an interpreter may refuse to write
integers with more than so many is left out. -/
def json (r : Report) : Json :=
  .obj [("max_depth", .int r.limit),
    ("depths", .obj (r.depths.map fun (name, depth) => (name, .int depth))),
    ("errors", .arr (r.findings.map findingJson))]

/-! ## On the console -/

def depthCell (limit depth : Int) : String :=
  if depth < 0 then "[red]✖[/red] error"
  else if depth = limit then "[yellow]⚠[/yellow] " ++ Decimal.intText depth
  else "[green]✓[/green] " ++ Decimal.intText depth

def placeText (l : Location) : String :=
  "line " ++ Decimal.natText l.line ++ ":" ++ Decimal.natText l.column

def findingText (f : Finding) : String :=
  let places :=
    if f.locations.isEmpty then ""
    else " [dim](" ++ ", ".intercalate (f.locations.map placeText) ++ ")[/dim]"
  "  [red]✖[/red] " ++ f.message ++ places

def blocks (r : Report) : List Console.Block :=
  let title := "\n[bold cyan]Operation Depths[/bold cyan] [dim](max " ++ Decimal.intText r.limit
    ++ ")[/dim]\n"
  let rows := r.depths.map fun (name, depth) => (shownOperationName name, depthCell r.limit depth)
  let found :=
    if r.isOk then [.paragraph "\n[green]✓ No issues found[/green]"]
    else
      .paragraph "\n[bold cyan]Errors:[/bold cyan]\n"
        :: r.findings.map fun f => .paragraph (findingText f)
  [.paragraph title, .table rows] ++ found ++ [.emptyLine]

/-- What is printed in a format, and the error that ended the printing. Every format but JSON means
the console. -/
def printed [Console.MarkupLibrary] (r : Report) (format : String) :
    String × Option Console.MarkupError :=
  if format = "json" then (r.json.pretty ++ "\n", none) else Console.printBlocks r.blocks

end Report

/-- A title and a table of keys and values. -/
def keyValueBlocks (title : String) (entries : List (String × String)) : List Console.Block :=
  [.paragraph ("\n[bold cyan]" ++ title ++ "[/bold cyan]\n"), .table entries, .emptyLine]

end QueryDepth
