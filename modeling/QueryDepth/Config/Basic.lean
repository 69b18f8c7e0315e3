import QueryDepth.Data.Literal
import QueryDepth.Depth.Rule
import QueryDepth.File.Path

/-!
# Configuration

A configuration has a limit and ignore options for the depth rule, and says where the schema comes
from: a file, whose path may begin with `~`, or an address. What is not given has a default value.
Only the limit and the path are looked at here; the ignore options are kept as they are, but for a
single text, which becomes a list, and for nothing, false, zero and empty values, which become the
empty list when a configuration is read.
-/

namespace QueryDepth

structure Config where
  limit : Int
  ignore : Data
  defaultUrl : Data
  schemaFile : Data

inductive ConfigError where
  /-- The document is neither empty nor a mapping. -/
  | notMapping (document : Data)
  | notPath (value : Data)
  /-- A path begins with `~` and the home directory is not known. -/
  | unknownHome
  | badLimit (value : Data)

/-- Why a value is no path. -/
def notPathMessage : Data → String
  | .bytes _ =>
    "argument should be a str object or an os.PathLike object returning str, not <class 'bytes'>"
  | value => "expected str, bytes or os.PathLike object, not " ++ value.typeName

def ConfigError.message : ConfigError → String
  | .notMapping document => "'" ++ document.typeName ++ "' object has no attribute 'get'"
  | .notPath value => notPathMessage value
  | .unknownHome => "Could not determine home directory."
  | .badLimit value => (RuleError.badLimit value).message

namespace Config

def defaultLimit : Int := 10

/-- The normal form of a path, with a home directory for `~`. -/
def normalPath (homes : Homes) : Data → Except ConfigError String
  | .text path =>
    match (Path.ofString path).expandHome homes with
    | some p => .ok p.text
    | none => .error .unknownHome
  | value => .error (.notPath value)

/-- A single text is the list of itself. -/
def listed : Data → Data
  | .text s => .list [.text s]
  | value => value

/-- The configuration with these values. The path is looked at before the limit. -/
def ofFields (homes : Homes) (limit ignore defaultUrl schemaFile : Data) :
    Except ConfigError Config := do
  let schemaFile ←
    if schemaFile.isTruthy then Data.text <$> normalPath homes schemaFile else .ok schemaFile
  match limitOf? limit with
  | some n => .ok ⟨n, listed ignore, defaultUrl, schemaFile⟩
  | none => .error (.badLimit limit)

/-- The configuration in which nothing is given. -/
def default : Config := ⟨defaultLimit, .list [], .null, .null⟩

/-- The value under a key that is a text. -/
def valueOf? (key : String) : List (Data × Data) → Option Data
  | [] => none
  | (.text k, v) :: rest => if k = key then some v else valueOf? key rest
  | _ :: rest => valueOf? key rest

/-- The configuration in a document, which may be empty. -/
def ofDocument (homes : Homes) (document : Data) : Except ConfigError Config :=
  let read (entries : List (Data × Data)) : Except ConfigError Config :=
    let ignore := (valueOf? "ignore" entries).getD .null
    ofFields homes ((valueOf? "max_depth" entries).getD (.int defaultLimit))
      (if ignore.isTruthy then ignore else .list [])
      ((valueOf? "default_url" entries).getD .null) ((valueOf? "schema_file" entries).getD .null)
  if !document.isTruthy then read []
  else
    match document.entries? with
    | some entries => read entries
    | none => .error (.notMapping document)

/-- Where the configuration is if no path is given. -/
def defaultPath : String := "~/.graphql-depth-limit/config.yaml"

/-- An example of a configuration file. -/
def exampleText : String :=
  "max_depth: 10\nignore:\n- ^pageInfo$\n- Connection$\n"
    ++ "default_url: https://api.example.com/graphql/\nschema_file: null\n"

end Config

end QueryDepth
