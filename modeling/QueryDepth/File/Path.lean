import QueryDepth.Text.Lower

/-!
# Paths

A path has a root and parts; its text is in normal form: no empty parts, no `.` parts, no slash at
the end. Parts `..` stay, because what they mean depends on the directories. Exactly two slashes at
the beginning are a root of their own.
-/

namespace QueryDepth

/-- The pieces of a text between slashes. -/
def splitSlashes : List Char → List (List Char)
  | [] => [[]]
  | c :: cs =>
    if c = '/' then [] :: splitSlashes cs
    else match splitSlashes cs with
      | [] => [[c]]
      | part :: parts => (c :: part) :: parts

inductive PathRoot where
  | relative
  | slash
  | doubleSlash
deriving DecidableEq, Repr

def PathRoot.text : PathRoot → String
  | .relative => ""
  | .slash => "/"
  | .doubleSlash => "//"

structure Path where
  root : PathRoot
  parts : List String
deriving DecidableEq, Repr

/-- Where the home directories are: the own one under the empty name, others under the user's. -/
abbrev Homes := String → Option String

namespace Path

def rootOf : List Char → PathRoot
  | ['/', '/'] => .doubleSlash
  | '/' :: '/' :: c :: _ => if c = '/' then .slash else .doubleSlash
  | '/' :: _ => .slash
  | _ => .relative

/-- Whether a piece between slashes counts as a part. -/
def isPart (piece : List Char) : Bool := !piece.isEmpty && piece != ['.']

def ofString (s : String) : Path :=
  ⟨rootOf s.toList, ((splitSlashes s.toList).filter isPart).map String.ofList⟩

/-- The normal form; the empty path is the directory `.`. -/
def text (p : Path) : String :=
  match p.root, p.parts with
  | .relative, [] => "."
  | root, parts => root.text ++ "/".intercalate parts

/-- The path without its last part. -/
def parent (p : Path) : Path := { p with parts := p.parts.dropLast }

/-- The last part, empty if there is none. -/
def name (p : Path) : String := p.parts.getLast?.getD ""

/-- The last dot of a name and what follows it. The dot must be neither first nor last. -/
def suffix (p : Path) : String :=
  let cs := p.name.toList
  let after := (cs.reverse.takeWhile (· ≠ '.')).reverse
  let before := cs.length - after.length
  if 1 < before ∧ !after.isEmpty then String.ofList ('.' :: after) else ""

/-- The text of a directory without slashes at its end, but for the root. -/
def trimmedHome (home : String) : String :=
  let cs := (home.toList.reverse.dropWhile (· = '/')).reverse
  if cs.isEmpty then "/" else String.ofList cs

/-- Puts a home directory in the place of a first part that begins with `~`, where the name of a
user may follow. There is no result if the home directory is not known. -/
def expandHome (homes : Homes) (p : Path) : Option Path :=
  match p.root, p.parts with
  | .relative, first :: rest =>
    match first.toList with
    | '~' :: user => do
      let home := trimmedHome (← homes (String.ofList user))
      if home.toList.head? = some '~' then none
      else
        let q := ofString home
        some { q with parts := q.parts ++ rest }
    | _ => some p
  | _, _ => some p

end Path

/-- The directory part of a path. -/
def directoryOf (path : String) : String := (Path.ofString path).parent.text

/-- The suffix of a path in lower case, with its dot. -/
def lowerSuffix (path : String) : String := Text.lower (Path.ofString path).suffix

end QueryDepth
