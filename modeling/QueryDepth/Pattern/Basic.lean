import QueryDepth.Text.LetterCase
import QueryDepth.Text.WordChars

/-!
# Regular expressions

The syntax tree of a regular expression. Flags are settled while it is read, so every node says by
itself how it treats letter case and which characters count as words.
-/

namespace QueryDepth

/-- Which letters are the same. -/
inductive CaseMode where
  /-- Only equal letters. -/
  | exact
  /-- The two cases of ASCII letters. -/
  | ascii
  /-- The cases of all letters. -/
  | full
deriving DecidableEq, Repr

inductive CharKind where
  | digit
  | blank
  | word
deriving DecidableEq, Repr

inductive SetItem where
  | char (c : Char)
  | range (first last : Char)
  | kind (k : CharKind) (negated ascii : Bool)
deriving DecidableEq, Repr

/-- Conditions on a place in the text. -/
inductive Anchor where
  | textStart
  | lineStart
  /-- The end, or before a line feed that ends the text. -/
  | lastLineEnd
  | lineEnd
  | textEnd
  | boundary (ascii : Bool)
  | inside (ascii : Bool)
deriving DecidableEq, Repr

inductive Greed where
  | greedy
  | lazy
  /-- Never gives back what it took. -/
  | possessive
deriving DecidableEq, Repr

inductive Regex where
  | empty
  | never
  | char (mode : CaseMode) (c : Char)
  | any (lineFeed : Bool)
  | set (mode : CaseMode) (negated : Bool) (items : List SetItem)
  | anchor (a : Anchor)
  | cat (first second : Regex)
  | alt (first second : Regex)
  | group (index : Option Nat) (body : Regex)
  | backref (mode : CaseMode) (index : Nat)
  | times (least : Nat) (most : Option Nat) (greed : Greed) (body : Regex)
  | ahead (negated : Bool) (body : Regex)
  | behind (negated : Bool) (width : Nat) (body : Regex)
  | atomic (body : Regex)
  | conditional (index : Nat) (yes no : Regex)
deriving Repr

structure Flags where
  ignoreCase : Bool := false
  multiline : Bool := false
  dotAll : Bool := false
  verbose : Bool := false
  ascii : Bool := false
deriving DecidableEq, Repr, Inhabited

namespace Flags

def caseMode (f : Flags) : CaseMode :=
  if f.ignoreCase then (if f.ascii then .ascii else .full) else .exact

def union (f g : Flags) : Flags :=
  ⟨f.ignoreCase || g.ignoreCase, f.multiline || g.multiline, f.dotAll || g.dotAll,
    f.verbose || g.verbose, f.ascii || g.ascii⟩

/-- The flags of `f` that are not in `g`. -/
def without (f g : Flags) : Flags :=
  ⟨f.ignoreCase && !g.ignoreCase, f.multiline && !g.multiline, f.dotAll && !g.dotAll,
    f.verbose && !g.verbose, f.ascii && !g.ascii⟩

end Flags

/-- A compiled pattern: its source, the flags in force at its top level, and what it means. -/
structure Pattern where
  source : String
  flags : Flags
  regex : Regex
deriving Repr

namespace Regex

def catAll : List Regex → Regex
  | [] => .empty
  | [r] => r
  | r :: rs => .cat r (catAll rs)

/-- The first alternative is tried first. -/
def altAll : List Regex → Regex
  | [] => .empty
  | [r] => r
  | r :: rs => .alt r (altAll rs)

end Regex

/-- Least and greatest length of what a part of a pattern can take; none means without bound. -/
structure Extent where
  least : Nat
  most : Option Nat
deriving DecidableEq, Repr, Inhabited

namespace Extent

def fixed (n : Nat) : Extent := ⟨n, some n⟩

def add (a b : Extent) : Extent :=
  ⟨a.least + b.least, match a.most, b.most with
    | some x, some y => some (x + y)
    | _, _ => none⟩

def either (a b : Extent) : Extent :=
  ⟨min a.least b.least, match a.most, b.most with
    | some x, some y => some (max x y)
    | _, _ => none⟩

def times (least : Nat) (most : Option Nat) (a : Extent) : Extent :=
  ⟨least * a.least, match a.most, most with
    | some 0, _ => some 0
    | some x, some y => some (x * y)
    | none, some 0 => some 0
    | _, _ => none⟩

end Extent

/-- The extent of a pattern, given those of the groups that it refers to. -/
def Regex.extent (groups : List (Nat × Extent)) : Regex → Extent
  | .empty | .never | .anchor _ | .ahead _ _ | .behind _ _ _ => .fixed 0
  | .char _ _ | .any _ | .set _ _ _ => .fixed 1
  | .cat a b => (a.extent groups).add (b.extent groups)
  | .alt a b => (a.extent groups).either (b.extent groups)
  | .group _ a | .atomic a => a.extent groups
  | .backref _ i => (groups.lookup i).getD (.fixed 0)
  | .times least most _ a => (a.extent groups).times least most
  | .conditional _ a b => (a.extent groups).either (b.extent groups)

end QueryDepth
