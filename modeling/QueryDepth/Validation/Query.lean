import QueryDepth.Schema.Validity
import QueryDepth.SchemaSource.Assembly
import QueryDepth.SchemaSource.SchemaError
import QueryDepth.Validation.Standard

/-!
# Checking a query document

A document is measured with the depth rule alone, for which no schema is needed, or validated
against a schema with the standard rules and the depth rule. A schema that is not valid is refused.
-/

namespace QueryDepth

/-- The schema for documents that come without one. -/
def Schema.placeholder : Schema :=
  (SchemaParts.mk [⟨"Query", .object [] [plainField "_placeholder" (.named "Boolean")]⟩]
    (some "Query") none none standardDirectives).schema

/-- What happens if the schema is valid. -/
def Schema.whenValid {α : Type} (s : Schema) (result : α) : Except SchemaError α :=
  match s.faults with
  | [] => .ok result
  | faults => .error (.invalid faults)

/-- Runs depth rules on a document over a schema, after the standard rules if they are asked for. -/
def Schema.validate (s : Schema) (doc : Document) (withStandard : Bool) (rules : List DepthRule) :
    Except SchemaError ValidationRun :=
  s.whenValid (runRules doc (if withStandard then .of s doc else .empty) rules)

namespace DepthRule

/-- The depths of the operations of a document, and what the depth rule alone reports. -/
def runAlone (rule : DepthRule) (doc : Document) : ValidationRun :=
  runRules doc .empty [rule]

/-- The depths of the operations of a document, and what all rules report. -/
def runWithStandard (rule : DepthRule) (s : Schema) (doc : Document) :
    Except SchemaError ValidationRun :=
  s.validate doc true [rule]

end DepthRule

end QueryDepth
