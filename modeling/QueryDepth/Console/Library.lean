/-!
# What markup is made with

Markup is shown by a library, which knows emoji by name and evaluates literals. The commands run
with any library; if none is given, they know no emoji and take every literal for a good one.
-/

namespace QueryDepth.Console

/-- Why a literal cannot be evaluated, in the words of the library. -/
inductive LiteralError where
  | malformed (words : String)
  | unreadable (words : String)
deriving DecidableEq, Repr

/-- A library that shows markup. -/
class MarkupLibrary where
  /-- The emoji with a name, which is in lower case. -/
  emoji? (name : String) : Option String
  /-- What is wrong with a literal, if it cannot be evaluated. -/
  literalError? (literal : String) : Option LiteralError

instance bareLibrary : MarkupLibrary where
  emoji? _ := none
  literalError? _ := none

end QueryDepth.Console
