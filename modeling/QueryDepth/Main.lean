import QueryDepth.CommandLine.Run

/-!
# The program

The commands on the machine that the program runs on: its files, its console, and the error stream
for the log. Nothing can be posted from here, so a schema can be read from a file only.
-/

namespace QueryDepth.CommandLine

/-- Work on the machine; the flag says whether debug records are shown. -/
abbrev Session := ReaderT Bool IO

namespace Session

def faultOf : IO.Error → FileFault
  | .noFileOrDirectory _ _ _ => .missing
  | .alreadyExists _ _ _ => .exists
  | .inappropriateType _ code _ => if code = 20 then .notDirectory else .isDirectory
  | .invalidArgument _ code _ => if code = 36 then .nameTooLong else .nullCharacter
  | _ => .denied

/-- The result of some work on a file, or what is wrong with the file. -/
def attempt {α : Type} (path : String) (work : IO α) : Session (Except FileError α) := do
  try return .ok (← work)
  catch e => return .error ⟨faultOf e, path⟩

/-- The home directory in a line of the list of users, which has seven fields between colons. -/
def homeIn? (user line : String) : Option String :=
  match line.splitOn ":" with
  | name :: _ :: _ :: _ :: _ :: home :: _ => if name = user then some home else none
  | _ => none

def homes : Session Homes := do
  let own ← (IO.getEnv "HOME" : BaseIO _)
  let users ← try IO.FS.readFile "/etc/passwd" catch _ => pure ""
  return fun user => if user = "" then own else (users.splitOn "\n").findSome? (homeIn? user)

/-- What can be opened for reading is a file; a directory says so. -/
def kindOf (path : String) : Session (Except FileError (Option FileKind)) := do
  let opened ← attempt path do
    let handle ← IO.FS.Handle.mk path .read
    let _ ← handle.read 1
  match opened with
  | .ok () => return .ok (some .file)
  | .error ⟨.isDirectory, _⟩ => return .ok (some .directory)
  | .error ⟨.denied, _⟩ => return .ok (some .file)
  | .error ⟨.nameTooLong, path⟩ => return .error ⟨.nameTooLong, path⟩
  | .error _ => return .ok none

def makeDirectory (path : String) : Session (Except FileError Unit) := do
  match ← attempt path (IO.FS.createDir path) with
  | .error ⟨.nullCharacter, path⟩ => return .error ⟨.nullCharacterInDirectory, path⟩
  | made => return made

def log (record : LogRecord) : Session Unit := do
  if record.level = .error ∨ (← read) then
    IO.eprintln (record.level.text ++ " " ++ record.message)

instance : Host Session where
  homes := homes
  readBytes path := attempt path do return (← IO.FS.readBinFile path).toList
  writeBytes path bytes := attempt path (IO.FS.writeBinFile path ⟨bytes.toArray⟩)
  makeDirectory := makeDirectory
  kindOf := kindOf
  post _ := return .error "no route"
  log := log
  print text := IO.print text

end Session

end QueryDepth.CommandLine

def main (words : List String) : IO UInt32 := do
  let verbose := QueryDepth.CommandLine.isVerbose words
  match ← (QueryDepth.CommandLine.run words : QueryDepth.CommandLine.Session _).run verbose with
  | .exit code => return code.toUInt32
  | .failed failure =>
    IO.eprintln (failure.report?.getD "the message shows a line that does not exist")
    return 1
