import QueryDepth.Failure
import QueryDepth.Json.Reader

/-!
# Reading and making files

Texts are UTF-8; every line end is read as a line feed. A directory is made together with those that
should hold it, and may be there already.
-/

namespace QueryDepth.File

variable {m : Type → Type} [Monad m] [Host m]

def bytes (path : String) : Task m (List UInt8) := Task.ask .file (Host.readBytes path)

/-- The text of a file, whose path is taken as it is written. -/
def textAt (path : String) : Task m String := do
  let cs ← Task.ofExcept .encoding (Text.Utf8.decode (← bytes path))
  return String.ofList (Text.universalLines cs)

/-- The text of a file, whose path is brought into normal form. -/
def text (path : String) : Task m String := textAt (Path.ofString path).text

def json (path : String) : Task m Json := do
  Task.ofExcept .json (Json.read (← textAt path))

def kindOf (path : Path) : Task m (Option FileKind) := Task.ask .file (Host.kindOf path.text)

def isThere (path : String) : Task m Bool := do return (← kindOf (Path.ofString path)).isSome

def isDirectory (path : Path) : Task m Bool := do return (← kindOf path) = some .directory

/-- Fails unless there is a directory anyway. A path that no directory can have is not looked up. -/
def unlessDirectory (path : Path) (e : FileError) : Task m Unit := do
  if e.fault = .nullCharacterInDirectory then throw (.file e)
  else if ← isDirectory path then return
  else throw (.file e)

/-- Makes a directory in an existing one, if it is not there. -/
def makeOne (path : Path) : Task m Unit := do
  match ← (Host.makeDirectory path.text : m _) with
  | .ok () => return
  | .error e => if e.fault = .missing then throw (.file e) else unlessDirectory path e

/-- Makes a directory and those that should hold it, as far as they are not there. -/
def makeAll (path : Path) : Task m Unit := do
  match ← (Host.makeDirectory path.text : m _) with
  | .ok () => return
  | .error e =>
    if e.fault = .missing then
      if path.parts = [] then throw (.file e)
      else
        makeAll path.parent
        makeOne path
    else unlessDirectory path e
termination_by path.parts.length
decreasing_by
  have : 0 < path.parts.length := List.length_pos_iff.2 (by assumption)
  simp only [Path.parent, List.length_dropLast]
  omega

def ensureDirectory (path : String) : Task m Unit := makeAll (Path.ofString path)

end QueryDepth.File
