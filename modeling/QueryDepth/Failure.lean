import QueryDepth.Config.Basic
import QueryDepth.Console.Markup
import QueryDepth.File.FileError
import QueryDepth.Host.Basic
import QueryDepth.SchemaSource.SchemaError
import QueryDepth.Text.Utf8
import QueryDepth.Validation.Run
import QueryDepth.Yaml.Library

/-!
# Why a command fails

Everything that can keep a command from its result, and the tasks that may fail in this way.
-/

namespace QueryDepth

inductive Failure where
  | file (error : FileError)
  /-- The bytes of a file are no text. -/
  | encoding (error : Text.Utf8.DecodeError)
  | yaml (failure : YamlFailure)
  | json (error : Json.ReadError)
  | config (error : ConfigError)
  /-- The ignore options of the configuration cannot be listed. -/
  | ignoreNotListable (value : Data)
  | introspection (error : Introspection.IntrospectionError)
  | schema (error : SchemaError)
  /-- The text of a query is no document. -/
  | query (text : String) (error : SyntaxError)
  | rule (error : RuleError)
  | validation (text : String) (failure : ValidationFailure)
  | markup (error : Console.MarkupError)
  /-- A message should show an excerpt that does not exist. -/
  | noExcerpt

namespace ValidationFailure

/-- The message, if there are the excerpts that it shows. -/
def report? (text : String) : ValidationFailure → Option String
  | .depth stop => some stop.message
  | .standard violation => violation.report? text.toList

end ValidationFailure

namespace Failure

def ofYaml : YamlObstacle → Failure
  | .undecodable e => .encoding e
  | .refused failure => .yaml failure

/-- The message, if there are the excerpts that it shows. -/
def report? : Failure → Option String
  | .file e => some e.message
  | .encoding e => some e.message
  | .yaml e => some e.words
  | .json e => some e.message
  | .config e => some e.message
  | .ignoreNotListable value =>
    some ("Value after * must be an iterable, not " ++ value.typeName)
  | .introspection e => some e.message
  | .schema e => e.report?
  | .query text e => e.report? text.toList
  | .rule e => some e.message
  | .validation text failure => failure.report? text
  | .markup e => some e.message
  | .noExcerpt => some "list index out of range"

end Failure

/-- Something to do on a machine that may fail. -/
abbrev Task (m : Type → Type) := ExceptT Failure m

namespace Task

variable {m : Type → Type} [Monad m]

/-- A result that is already there. -/
def ofExcept {ε α : Type} (failure : ε → Failure) : Except ε α → Task m α
  | .ok a => pure a
  | .error e => throw (failure e)

/-- An answer of the machine. -/
def ask {ε α : Type} (failure : ε → Failure) (answer : m (Except ε α)) : Task m α := do
  ofExcept failure (← (answer : m _))

end Task

end QueryDepth
