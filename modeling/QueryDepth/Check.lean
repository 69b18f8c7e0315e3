import QueryDepth.Config.Load
import QueryDepth.Document.Parser
import QueryDepth.Report
import QueryDepth.SchemaSource.Load
import QueryDepth.Validation.Query

/-!
# Checking a query file

Options come before the configuration: a limit that is given replaces the configured one, ignore
options are added to the configured ones, and a schema that is given, be it as a file or as an
address, replaces both that the configuration has. Without a schema only the depth rule runs.
-/

namespace QueryDepth

structure CheckRequest where
  limit : Data
  ignore : List Data
  url : Data
  token : Option String
  schemaFile : Data
  configFile : Option String

namespace CheckRequest

/-- The limit that is given, or the configured one. -/
def limitOver (request : CheckRequest) (config : Config) : Data :=
  match request.limit with
  | .null => .int config.limit
  | limit => limit

/-- The configured ignore options and then those that are given. -/
def ignoreOver (request : CheckRequest) (config : Config) : Except Failure Data :=
  match config.ignore.items? with
  | some items => .ok (.list (items ++ request.ignore))
  | none => .error (.ignoreNotListable config.ignore)

def sourceOver (request : CheckRequest) (config : Config) : SchemaSource :=
  if request.schemaFile.isTruthy || request.url.isTruthy then
    ⟨request.url, request.schemaFile, request.token⟩
  else ⟨config.defaultUrl, config.schemaFile, request.token⟩

end CheckRequest

/-- The depth rule of a check. -/
def checkRule (limit ignore : Data) : Except Failure DepthRule :=
  match DepthRule.ofData limit ignore (some acceptAll) with
  | .ok rule => .ok rule
  | .error e => .error (.rule e)

/-- What a document is checked for, over a schema if there is one. -/
def checkDocument (schema : Option Schema) (doc : Document) (rule : DepthRule) :
    Except Failure ValidationRun :=
  match schema with
  | none => .ok (rule.runAlone doc)
  | some s =>
    match rule.runWithStandard s doc with
    | .ok run => .ok run
    | .error e => .error (.schema e)

/-- The report of a validation, if it came to an end. -/
def ValidationRun.report (run : ValidationRun) (text : String) (limit : Int) :
    Except Failure Report :=
  match run.failure with
  | some failure => .error (.validation text failure)
  | none => .ok ⟨limit, run.depths, run.violations.map (Violation.finding text.toList)⟩

variable {m : Type → Type} [Monad m] [Host m]

def logAll (records : List LogRecord) : Task m Unit :=
  records.forM fun r => (Host.log r : m Unit)

/-- Checks a query file. -/
def check [YamlLibrary] (queryFile : String) (request : CheckRequest) : Task m Report := do
  let config ← Config.load request.configFile
  let limit := request.limitOver config
  let ignore ← Task.ofExcept id (request.ignoreOver config)
  let schema ← (request.sourceOver config).load
  let text ← File.text queryFile
  let doc ← Task.ofExcept (.query text) (Document.parse text)
  let rule ← Task.ofExcept id (checkRule limit ignore)
  let run ← Task.ofExcept id (checkDocument schema doc rule)
  logAll run.log
  Task.ofExcept id (run.report text rule.limit)

end QueryDepth
