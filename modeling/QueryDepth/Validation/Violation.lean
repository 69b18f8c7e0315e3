import QueryDepth.Depth.Walk
import QueryDepth.Document.Excerpt

/-!
# Violations

A violation is a message about nodes of a document, given by the offsets where they begin. At most
`maxViolations` of one validation are kept; one more is replaced by a last violation that says so,
and the validation ends there.
-/

namespace QueryDepth

structure Violation where
  message : String
  places : List Nat
deriving DecidableEq, Repr

/-- A violation as a reader of the text sees it. -/
structure Finding where
  message : String
  locations : List Location
deriving DecidableEq, Repr

namespace Violation

def finding (text : List Char) (v : Violation) : Finding :=
  ⟨v.message, v.places.map (Location.ofOffset text)⟩

/-- The message and excerpts of all places, if the text has their lines. -/
def report? (text : List Char) (v : Violation) : Option String := do
  let excerpts ← v.places.mapM fun pos => Excerpt.show? text (Location.ofOffset text pos)
  return "\n\n".intercalate (v.message :: excerpts)

def tooMany : Violation := ⟨Stop.full.message, []⟩

end Violation

def PlacedFault.violation (r : PlacedFault) : Violation := ⟨r.fault.message, r.pos.toList⟩

def maxViolations : Nat := 100

end QueryDepth
