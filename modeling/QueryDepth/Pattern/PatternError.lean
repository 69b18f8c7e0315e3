import QueryDepth.Text.Quoted

/-!
# Errors in regular expressions

Why a text is no regular expression, and at which offset this shows.
-/

namespace QueryDepth

inductive PatternFault where
  | missingParen
  | unbalancedParen
  | unterminatedSet
  | nothingToRepeat
  | multipleRepeat
  | repeatOrder
  | repeatTooLarge
  | danglingBackslash
  | badEscape (text : String)
  | incompleteEscape (text : String)
  | octalTooLarge (text : String)
  | badRange (first last : String)
  | invalidGroup (index : Nat)
  | unknownGroupName (name : String)
  | openGroup
  | groupInLookBehind
  | redefinition (name : String) (new old : Nat)
  | badGroupName (name : String)
  | badGroupNumber
  | missingGroupName
  | unterminatedName (terminator : Char)
  | unexpectedEnd
  | unknownExtension (text : String)
  | missingFlagEnd
  | unknownFlag
  | missingFlag
  | missingColon
  | inlineFlags (why : String)
  | unterminatedComment
  | flagsNotAtStart
  | tooManyBranches
  | variableLookBehind
deriving DecidableEq, Repr

namespace PatternFault

def describe : PatternFault → String
  | .missingParen => "missing ), unterminated subpattern"
  | .unbalancedParen => "unbalanced parenthesis"
  | .unterminatedSet => "unterminated character set"
  | .nothingToRepeat => "nothing to repeat"
  | .multipleRepeat => "multiple repeat"
  | .repeatOrder => "min repeat greater than max repeat"
  | .repeatTooLarge => "the repetition number is too large"
  | .danglingBackslash => "bad escape (end of pattern)"
  | .badEscape text => "bad escape " ++ text
  | .incompleteEscape text => "incomplete escape " ++ text
  | .octalTooLarge text => "octal escape value " ++ text ++ " outside of range 0-0o377"
  | .badRange first last => "bad character range " ++ first ++ "-" ++ last
  | .invalidGroup n => "invalid group reference " ++ Decimal.natText n
  | .unknownGroupName name => "unknown group name " ++ Text.quoted name
  | .openGroup => "cannot refer to an open group"
  | .groupInLookBehind => "cannot refer to group defined in the same lookbehind subpattern"
  | .redefinition name new old =>
    "redefinition of group name " ++ Text.quoted name ++ " as group " ++ Decimal.natText new
      ++ "; was group " ++ Decimal.natText old
  | .badGroupName name => "bad character in group name " ++ Text.quoted name
  | .badGroupNumber => "bad group number"
  | .missingGroupName => "missing group name"
  | .unterminatedName t => "missing " ++ String.singleton t ++ ", unterminated name"
  | .unexpectedEnd => "unexpected end of pattern"
  | .unknownExtension text => "unknown extension ?" ++ text
  | .missingFlagEnd => "missing -, : or )"
  | .unknownFlag => "unknown flag"
  | .missingFlag => "missing flag"
  | .missingColon => "missing :"
  | .inlineFlags why => "bad inline flags: " ++ why
  | .unterminatedComment => "missing ), unterminated comment"
  | .flagsNotAtStart => "global flags not at the start of the expression"
  | .tooManyBranches => "conditional backref with more than two branches"
  | .variableLookBehind => "look-behind requires fixed-width pattern"

end PatternFault

structure PatternError where
  fault : PatternFault
  /-- A fault in the width of a look-behind or in the size of a number has no place. -/
  pos : Option Nat
deriving DecidableEq, Repr

/-- The wording, given the pattern: a place in a pattern of several lines is also told by line and
column. -/
def PatternError.message (e : PatternError) (source : List Char) : String :=
  match e.pos with
  | none => e.fault.describe
  | some pos =>
    let read := source.take pos
    let line := read.count '\n' + 1
    let column := (read.reverse.takeWhile (· ≠ '\n')).length + 1
    e.fault.describe ++ " at position " ++ Decimal.natText pos ++
      if '\n' ∈ source then
        " (line " ++ Decimal.natText line ++ ", column " ++ Decimal.natText column ++ ")"
      else ""

end QueryDepth
