import QueryDepth.Text.Quoted
import QueryDepth.Text.Utf8
import QueryDepth.Yaml.Value

/-!
# Libraries that read YAML

A configuration file is read by a library. From the bytes of the file it makes a value; or else it
comes upon bytes that are no text, or says in its own words, which may name the file, why there is
no value. The commands run with any library; if none is given, they use the reader that is defined
here, which decodes the whole file first.
-/

namespace QueryDepth

/-- Why a library refuses a text, and its words for it. -/
structure YamlFailure where
  error : YamlError
  words : String

instance : Coe YamlFailure YamlError := ⟨YamlFailure.error⟩

/-- Why there is no value in a file. -/
inductive YamlObstacle where
  | undecodable (error : Text.Utf8.DecodeError)
  | refused (failure : YamlFailure)

/-- A library that reads YAML. -/
class YamlLibrary where
  /-- The value in a file with this path and these bytes. -/
  load (path : String) (bytes : List UInt8) : Except YamlObstacle Data

/-- Words for a number or a truth value that is none. There are none for the other errors. -/
def YamlError.words : YamlError → String
  | .badInt base text =>
    "invalid literal for int() with base " ++ Decimal.natText base ++ ": " ++ Text.quoted text
  | .badFloat text => "could not convert string to float: " ++ Text.quoted text
  | .badBool text => Text.quoted text
  | _ => ""

namespace Yaml

/-- Bytes are read in turn, so a character that is not complete at the end is counted from
itself. -/
def decodeInTurn (bytes : List UInt8) : Except Text.Utf8.DecodeError (List Char) :=
  match Text.Utf8.decode bytes with
  | .ok cs => .ok (Text.universalLines cs)
  | .error e => .error (if e.fault = .endOfData then { e with position := 0 } else e)

/-- The value that a file with these bytes spells. -/
def loadBytes (bytes : List UInt8) : Except YamlObstacle Data :=
  match decodeInTurn bytes with
  | .error e => .error (.undecodable e)
  | .ok text =>
    match load text with
    | .error e => .error (.refused ⟨e, e.words⟩)
    | .ok v => .ok v

/-- The reader that is defined here, as a library. -/
instance ownLibrary : YamlLibrary where
  load _ bytes := loadBytes bytes

end Yaml

end QueryDepth
