import QueryDepth.CommandLine.Arguments

/-!
# Running a command

A command ends with an exit code: 0 if all is well, 1 after an error, which is printed, 2 if the
document has findings or the words mean no command. An error leaves the command instead of an exit
code if debugging asks for it, or if it cannot even be printed.
-/

namespace QueryDepth.CommandLine

inductive Ending where
  | exit (code : Nat)
  /-- An error left the command. -/
  | failed (failure : Failure)

variable {m : Type → Type} [Monad m] [Host m]

/-- Prints a text, though an error may have ended it. -/
def printUpTo (printed : String × Option Console.MarkupError) : Task m Unit := do
  (Host.print printed.1 : m Unit)
  match printed.2 with
  | none => return
  | some e => throw (.markup e)

section

variable [Console.MarkupLibrary]

/-- Prints an error. -/
def printError (failure : Failure) : Task m Unit := do
  match failure.report? with
  | none => throw .noExcerpt
  | some message =>
    printUpTo (Console.printBlocks [.paragraph ("[red]Error: " ++ message ++ "[/red]")])

/-- How a command ends after an error. -/
def endWith (failure : Failure) (debug : Bool) : m Ending := do
  match ← (printError failure : Task m Unit).run with
  | .error second => return .failed second
  | .ok () => return if debug then .failed failure else .exit 1

/-- Writes an example and prints where. -/
def writeAndPrint (path : Option String) : Task m Unit := do
  let written ← Config.writeExample path
  printUpTo (Console.printBlocks (keyValueBlocks "Config written" [("path", written)]))

def performInitConfig (path : Option String) : m Ending := do
  match ← (writeAndPrint path : Task m Unit).run with
  | .ok () => return .exit 0
  | .error failure => endWith failure false

section

variable [YamlLibrary]

/-- Checks a query file and prints the report. -/
def checkAndPrint (queryFile : String) (request : CheckRequest) (format : String) :
    Task m Report := do
  let report ← check queryFile request
  printUpTo (report.printed format)
  return report

def performCheck (queryFile : String) (request : CheckRequest) (format : String) (debug : Bool) :
    m Ending := do
  match ← (checkAndPrint queryFile request format : Task m Report).run with
  | .ok report => return .exit (if report.isOk then 0 else 2)
  | .error failure =>
    Host.log ⟨.debug, "Depth check failed"⟩
    endWith failure debug

/-- Runs the command that some words mean. -/
def run (words : List String) : m Ending :=
  match readWords words with
  | none => return .exit 2
  | some (.check queryFile request format debug _) => performCheck queryFile request format debug
  | some (.initConfig path) => performInitConfig path

end

end

end QueryDepth.CommandLine
