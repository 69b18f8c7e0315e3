import QueryDepth.File.FileError
import QueryDepth.File.Path
import QueryDepth.Index

/-!
# Trees of files

A tree holds files and directories by their parts below a working directory, which exists itself.
A path is followed from part to part as it is written: `.` and empty parts stay, `..` goes up, and
every part but the last must be a directory. Above the working directory there are directories, but
nothing in them is known.
-/

namespace QueryDepth

inductive FileEntry where
  | directory
  | file (bytes : List UInt8)
deriving DecidableEq, Repr

structure FileTree where
  entries : List (List String × FileEntry)
deriving DecidableEq, Repr

/-- What a path leads to. -/
inductive PathTarget where
  /-- A directory; `none` if it lies outside the tree. -/
  | directory (place : Option (List String))
  | file (place : List String) (bytes : List UInt8)
  /-- Nothing yet, in a directory of the tree. -/
  | absent (place : List String)
  /-- Nothing known, in a directory outside the tree. -/
  | unknown

namespace FileTree

def empty : FileTree := ⟨[]⟩

/-- The greatest number of bytes of one part. -/
def maxPartSize : Nat := 255

/-- Follows the parts of a path from a directory. -/
def follow (tree : FileTree) : Option (List String) → List String → Except FileFault PathTarget
  | place, [] => .ok (.directory place)
  | place, part :: rest =>
    if part = "" ∨ part = "." then follow tree place rest
    else if part = ".." then
      match place with
      | some [] | none => follow tree none rest
      | some parts => follow tree (some parts.dropLast) rest
    else if maxPartSize < part.utf8ByteSize then .error .nameTooLong
    else
      match place with
      | none => if rest.all (· = "") then .ok .unknown else .error .missing
      | some parts =>
        match Index.find? (parts ++ [part]) tree.entries with
        | some .directory => follow tree (some (parts ++ [part])) rest
        | some (.file bytes) =>
          if rest = [] then .ok (.file (parts ++ [part]) bytes) else .error .notDirectory
        | none =>
          if rest.all (· = "") then .ok (.absent (parts ++ [part])) else .error .missing

/-- What a path leads to, as it is written. -/
def resolve (tree : FileTree) (path : List Char) : Except FileFault PathTarget :=
  if path = [] then .error .missing
  else if '\x00' ∈ path then .error .nullCharacter
  else
    follow tree (if path.head? = some '/' then none else some [])
      ((splitSlashes path).map String.ofList)

def atPath {α : Type} (path : String) : Except FileFault α → Except FileError α
  | .ok a => .ok a
  | .error fault => .error ⟨fault, path⟩

/-- The bytes of a file. -/
def read (tree : FileTree) (path : String) : Except FileError (List UInt8) :=
  atPath path do
    match ← tree.resolve path.toList with
    | .file _ bytes => .ok bytes
    | .directory _ => .error .isDirectory
    | .absent _ | .unknown => .error .missing

/-- Writes a file, which may exist already. A slash at the end would name a directory. -/
def write (tree : FileTree) (path : String) (bytes : List UInt8) : Except FileError FileTree :=
  atPath path do
    let cs := path.toList
    let trimmed := (cs.reverse.dropWhile (· = '/')).reverse
    if cs ≠ [] ∧ trimmed = [] then .error .isDirectory
    else
      match ← tree.resolve trimmed with
      | .directory _ => .error .isDirectory
      | .unknown => .error .denied
      | .file place _ | .absent place =>
        if trimmed = cs then .ok ⟨Index.put place (.file bytes) tree.entries⟩
        else .error .isDirectory

/-- Makes a directory in an existing one. -/
def makeDirectory (tree : FileTree) (path : String) : Except FileError FileTree :=
  atPath path do
    match tree.resolve path.toList with
    | .error .nullCharacter => .error .nullCharacterInDirectory
    | .error fault => .error fault
    | .ok (.directory _) | .ok (.file _ _) => .error .exists
    | .ok .unknown => .error .denied
    | .ok (.absent place) => .ok ⟨Index.put place .directory tree.entries⟩

/-- What a path leads to, nothing if there is nothing or the way to it breaks off. -/
def kind? (tree : FileTree) (path : String) : Except FileError (Option FileKind) :=
  atPath path do
    match tree.resolve path.toList with
    | .ok (.directory _) => .ok (some .directory)
    | .ok (.file _ _) => .ok (some .file)
    | .ok (.absent _) | .ok .unknown => .ok none
    | .error .nameTooLong => .error .nameTooLong
    | .error _ => .ok none

/-- Puts an entry at a place and the directories above it where there are none. -/
def insert (tree : FileTree) (place : List String) (entry : FileEntry) : FileTree :=
  let above := (List.range place.length).filterMap fun n =>
    let parts := place.take n
    if parts = [] ∨ (Index.find? parts tree.entries).isSome then none
    else some (parts, FileEntry.directory)
  ⟨Index.put place entry (tree.entries ++ above)⟩

end FileTree

end QueryDepth
