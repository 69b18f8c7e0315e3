import QueryDepth.Text.Quoted

/-!
# Kinds of files, and what can be wrong with one
-/

namespace QueryDepth

inductive FileKind where
  | directory
  | file
deriving DecidableEq, Repr

inductive FileFault where
  | missing
  | denied
  | exists
  | notDirectory
  | isDirectory
  | nameTooLong
  /-- The path holds a character that no path can hold. -/
  | nullCharacter
  /-- The same, where a directory was to be made. -/
  | nullCharacterInDirectory
deriving DecidableEq, Repr

/-- A fault and the path that was asked for. -/
structure FileError where
  fault : FileFault
  path : String
deriving DecidableEq, Repr

namespace FileFault

/-- The number and the words for a fault of the file system. -/
def code? : FileFault → Option (Nat × String)
  | .missing => some (2, "No such file or directory")
  | .denied => some (13, "Permission denied")
  | .exists => some (17, "File exists")
  | .notDirectory => some (20, "Not a directory")
  | .isDirectory => some (21, "Is a directory")
  | .nameTooLong => some (36, "File name too long")
  | .nullCharacter | .nullCharacterInDirectory => none

end FileFault

namespace FileError

def message (e : FileError) : String :=
  match e.fault.code? with
  | some (number, words) =>
    "[Errno " ++ Decimal.natText number ++ "] " ++ words ++ ": " ++ Text.quoted e.path
  | none =>
    if e.fault = .nullCharacterInDirectory then "mkdir: embedded null character in path"
    else "embedded null byte"

end FileError

end QueryDepth
