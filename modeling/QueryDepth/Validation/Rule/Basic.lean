import QueryDepth.Validation.Violation
import QueryDepth.Validation.Visit

/-!
# Rules

A rule says what is wrong at a visit, knowing the document and the schema. Rules keep no state: what
one needs to know about earlier visits it reads off the document.
-/

namespace QueryDepth

structure RuleContext where
  schema : Schema
  document : Document
  /-- The violations of fields that cannot be merged, by the offset of the selection set. -/
  conflicts : List (Nat × List Violation)

abbrev Rule := RuleContext → Visit → List Violation

/-- A directive definition as part of a schema. -/
def DirectiveDefinition.meaning (d : DirectiveDefinition) : SchemaDirective where
  name := d.name.value
  arguments := d.arguments.map fun a =>
    ⟨a.name.value, SchemaType.ofTypeRef a.type, a.default, false⟩
  repeatable := d.repeatable
  locations := d.locations.map fun n => Schema.locationWords n.value

namespace Document

def directiveDefinitions (doc : Document) : List DirectiveDefinition :=
  doc.definitions.filterMap fun
    | .directive d => some d
    | _ => none

def typeDefinitions (doc : Document) : List TypeDefinition :=
  doc.definitions.filterMap fun
    | .type false d => some d
    | _ => none

/-- The fragment of this name; of several the last. -/
def fragment? (doc : Document) (name : String) : Option Fragment :=
  doc.fragments.reverse.find? (·.name.value = name)

end Document

namespace RuleContext

/-- The directive of this name; the document's own definitions come before those of the schema, and
later ones before earlier ones. -/
def directive? (ctx : RuleContext) (name : String) : Option SchemaDirective :=
  let own := ctx.document.directiveDefinitions.map DirectiveDefinition.meaning
  (ctx.schema.directives ++ own).reverse.find? (·.name = name)

end RuleContext

/-- The names that occur several times, each with all its occurrences. -/
def repetitions (names : List Name) : List (List Name) :=
  ((names.map (·.value)).eraseDups.map fun n => names.filter (·.value = n)).filter (1 < ·.length)

/-- One violation for each name that occurs several times, at all its occurrences. -/
def repetitionViolations (message : String → String) (names : List Name) : List Violation :=
  (repetitions names).filterMap fun
    | [] => none
    | n :: ns => some ⟨message n.value, (n :: ns).map (·.pos)⟩

/-- A violation at a name that occurred before. -/
def againViolation (message : String → String) (earlier : List Name) (name : Name) :
    List Violation :=
  match earlier.find? (·.value = name.value) with
  | some first => [⟨message name.value, [first.pos, name.pos]⟩]
  | none => []

/-- The names that occurred before, each paired with what comes before it. -/
def withEarlier {α : Type} (before : List α) : List α → List (List α × α)
  | [] => []
  | a :: rest => (before, a) :: withEarlier (before ++ [a]) rest

def quote (s : String) : String := "'" ++ s ++ "'"

end QueryDepth
