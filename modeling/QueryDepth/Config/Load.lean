import QueryDepth.File.Access

/-!
# Configuration files

A configuration is read from a file, by default one in the home directory. If there is none, nothing
is given. An example can be written, and its directory is made if need be.
-/

namespace QueryDepth.Config

variable {m : Type → Type} [Monad m] [Host m]

/-- The path that is given, or the default one. -/
def pathOr (path : Option String) : Task m String := do
  match path with
  | some path => return path
  | none =>
    let homes ← (Host.homes : m _)
    Task.ofExcept .config (normalPath homes (.text defaultPath))

/-- The configuration in a file. -/
def load [YamlLibrary] (path : Option String) : Task m Config := do
  let path ← pathOr path
  if ← File.isThere path then
    let bytes ← File.bytes path
    let document ← Task.ofExcept .ofYaml (YamlLibrary.load path bytes)
    let homes ← (Host.homes : m _)
    Task.ofExcept .config (ofDocument homes document)
  else return default

/-- Writes the example and answers where. -/
def writeExample (path : Option String) : Task m String := do
  let path ← pathOr path
  File.ensureDirectory (directoryOf path)
  Task.ask .file (Host.writeBytes path (Text.Utf8.encode exampleText))
  return path

end QueryDepth.Config
