import QueryDepth.File.Access
import QueryDepth.SchemaSource.Definitions
import QueryDepth.SchemaSource.Introspected

/-!
# Where a schema comes from

A schema comes from a file or from a service. A file holds definitions if its suffix says so, and an
introspection result in JSON otherwise. If both are given, the file counts.
-/

namespace QueryDepth

/-- The places that are given; a value that counts as nothing is not given. -/
structure SchemaSource where
  url : Data
  file : Data
  token : Option String

namespace SchemaSource

variable {m : Type → Type} [Monad m] [Host m]

/-- Suffixes of files with definitions. -/
def definitionSuffixes : List String := [".graphql", ".graphqls", ".gql", ".sdl"]

def note (message : String) : Task m Unit := do
  (Host.log ⟨.debug, message⟩ : m Unit)

/-- The data that a service answers the introspection query with. -/
def askService (url : Data) (token : Option String) : Task m Json := do
  let answer ← (Host.post (Introspection.request url token) : m _)
  match answer with
  | .error reason => throw (.introspection (.unreachable reason))
  | .ok reply => Task.ofExcept .introspection reply.data

/-- A value as the path of a file. -/
def pathOf : Data → Task m String
  | .text path => return path
  | value => throw (.config (.notPath value))

def loadFile (file : Data) : Task m Schema := do
  note ("Loading schema from " ++ file.shown)
  let path ← pathOf file
  if definitionSuffixes.contains (lowerSuffix path) then
    Task.ofExcept .schema (Schema.ofText (← File.text path))
  else
    Task.ofExcept .schema (Schema.ofIntrospection (← File.json path))

def loadUrl (url : Data) (token : Option String) : Task m Schema := do
  note ("Introspecting schema from " ++ url.shown)
  Task.ofExcept .schema (Schema.ofIntrospection (← askService url token))

/-- The schema, if one is given. -/
def load (source : SchemaSource) : Task m (Option Schema) := do
  if source.file.isTruthy then return some (← loadFile source.file)
  else if source.url.isTruthy then return some (← loadUrl source.url source.token)
  else return none

end SchemaSource

end QueryDepth
