import QueryDepth.Depth.Rule
import QueryDepth.Validation.Violation

/-!
# Running rules over a document

The standard rules and the depth rules share one list of violations. On entering the document first
the standard rules report, then each depth rule does all its work; what the standard rules find
further down comes after that. The validation ends where the list is full.
-/

namespace QueryDepth

/-- What the standard rules find: on entering the document, and after that. -/
structure StandardFindings where
  first : List Violation
  rest : List Violation
  /-- What broke the validation off after that, if it was broken off. -/
  brokenOff : Option Violation

/-- Why there is no result of a validation. -/
inductive ValidationFailure where
  | depth (stop : Stop)
  | standard (violation : Violation)

/-- What a validation did. -/
structure ValidationRun where
  violations : List Violation
  /-- Whether the list was full. -/
  aborted : Bool
  /-- What broke the validation off, leaving no result. -/
  failure : Option ValidationFailure
  /-- The depths handed over, with the number of the rule. -/
  handed : List (Nat × DepthMap)
  calls : List Call
  log : List LogRecord

namespace ValidationRun

/-- Adds violations as far as there is room. -/
def add (run : ValidationRun) (vs : List Violation) : ValidationRun :=
  let room := maxViolations - run.violations.length
  if vs.length ≤ room then { run with violations := run.violations ++ vs }
  else { run with violations := run.violations ++ vs.take room ++ [.tooMany], aborted := true }

def isOver (run : ValidationRun) : Bool := run.aborted || run.failure.isSome

/-- Runs the depth rule that has this number. -/
def addRule (doc : Document) (run : ValidationRun) (number : Nat) (rule : DepthRule) :
    ValidationRun :=
  if run.isOver then run
  else
    let r := rule.run doc (some (maxViolations - run.violations.length))
    let violations := run.violations ++ r.reports.map PlacedFault.violation
    let handed := run.handed ++ (r.handed.map fun m => (number, m)).toList
    let calls := run.calls ++ r.calls
    let log := run.log ++ r.log
    match r.stop with
    | none => { run with violations, handed, calls, log }
    | some .full =>
      { run with violations := violations ++ [.tooMany], aborted := true, handed, calls, log }
    | some stop => { run with violations, handed, calls, log, failure := some (.depth stop) }

def addRules (doc : Document) (run : ValidationRun) (number : Nat) :
    List DepthRule → ValidationRun
  | [] => run
  | rule :: rules => addRules doc (addRule doc run number rule) (number + 1) rules

end ValidationRun

/-- Validates a document with depth rules, together with what the standard rules find. -/
def runRules (doc : Document) (standard : StandardFindings) (rules : List DepthRule) :
    ValidationRun :=
  let start : ValidationRun := ⟨[], false, none, [], [], []⟩
  let run := ValidationRun.addRules doc (start.add standard.first) 0 rules
  if run.isOver then run
  else
    let run := run.add standard.rest
    if run.isOver then run else { run with failure := standard.brokenOff.map .standard }

/-- Nothing is found if there are no standard rules. -/
def StandardFindings.empty : StandardFindings := ⟨[], [], none⟩

/-- Hands the depths over and never fails. -/
def acceptAll : Receiver := fun _ => .ok ()

/-- The depths that the only rule handed over, none if it was broken off. -/
def ValidationRun.depths (run : ValidationRun) : DepthMap :=
  match run.handed with
  | (_, depths) :: _ => depths
  | [] => []

end QueryDepth
