import QueryDepth.Depth.Walk
import QueryDepth.Ignore.Normalize
import QueryDepth.Log

/-!
# The depth rule

A depth rule limits the depth of every operation of a document. It measures the operations of the
document's index in order and then hands their depths, all at once, to its receiver. If a walk is
stopped, or the receiver fails, nothing more is measured and the failure is logged.
-/

namespace QueryDepth

/-- Depths by operation name, in the order of the operation index. -/
abbrev DepthMap := List (String × Int)

/-- Is handed the depths of a document; it may fail with a message. -/
abbrev Receiver := DepthMap → Except String Unit

structure DepthRule where
  limit : Int
  policy : Policy
  /-- Who is handed the depths. There is none if no receiver was given, and also if the one that was
  given counts as false, since such a receiver is never called. -/
  receiver : Option Receiver

inductive RuleError where
  /-- The limit is no positive integer. -/
  | badLimit (value : Data)
  | ignore (error : IgnoreError)

namespace RuleError

def message : RuleError → String
  | .badLimit value => "max_depth must be a positive integer, got " ++ value.literal
  | .ignore error => error.message

end RuleError

/-- The positive integer that a value is, if it is one. -/
def limitOf? : Data → Option Int
  | .int n => if 1 ≤ n then some n else none
  | _ => none

/-- What a rule did with a document. -/
structure DepthRun where
  /-- Why the rule did not come to its end, if it did not. -/
  stop : Option Stop
  /-- The depths that were handed over. -/
  handed : Option DepthMap
  reports : List PlacedFault
  calls : List Call
  log : List LogRecord

/-- The walks of some operations, one after the other. -/
structure Measured where
  depths : Except Stop DepthMap
  reports : List PlacedFault
  calls : List Call
  log : List LogRecord

def depthRecord (name : String) (depth : Int) : LogRecord :=
  ⟨.debug, "Operation '" ++ name ++ "' has depth " ++ Decimal.intText depth⟩

def failureRecord : LogRecord := ⟨.error, "Depth limit validation failed"⟩

namespace DepthRule

/-- The rule for some option values; the limit is looked at first. -/
def ofData (limit ignore : Data) (receiver : Option Receiver) : Except RuleError DepthRule :=
  match limitOf? limit with
  | none => .error (.badLimit limit)
  | some n =>
    match Policy.ofData ignore with
    | .ok policy => .ok ⟨n, policy, receiver⟩
    | .error e => .error (.ignore e)

def context (rule : DepthRule) (fragments : List (String × Node)) (name : String)
    (room : Option Nat) : WalkContext :=
  ⟨fragments, rule.limit, name, rule.policy, room⟩

/-- Measures operations in order; each takes from the room for reports. -/
def measureAll (rule : DepthRule) (fragments : List (String × Node)) :
    List (String × Node) → Option Nat → Measured
  | [], _ => ⟨.ok [], [], [], []⟩
  | (name, node) :: rest, room =>
    let (result, s) := Walk.run (rule.context fragments name room) node 0 []
    match result with
    | .error stop => ⟨.error stop, s.reports.toList, s.calls.toList, []⟩
    | .ok depth =>
      let more := measureAll rule fragments rest (room.map (· - s.reports.size))
      ⟨more.depths.map ((name, depth) :: ·), s.reports.toList ++ more.reports,
        s.calls.toList ++ more.calls, depthRecord name depth :: more.log⟩

/-- Runs the rule on a document, with room for so many reports. -/
def run (rule : DepthRule) (doc : Document) (room : Option Nat) : DepthRun :=
  let m := rule.measureAll doc.fragmentNodes doc.operationNodes room
  match m.depths with
  | .error stop => ⟨some stop, none, m.reports, m.calls, m.log ++ [failureRecord]⟩
  | .ok depths =>
    match rule.receiver with
    | none => ⟨none, none, m.reports, m.calls, m.log⟩
    | some receiver =>
      match receiver depths with
      | .ok () => ⟨none, some depths, m.reports, m.calls, m.log⟩
      | .error message =>
        ⟨some (.receiver message), some depths, m.reports, m.calls, m.log ++ [failureRecord]⟩

end DepthRule

end QueryDepth
