import Mathlib.Data.List.Forall2
import QueryDepth.Proofs.Depth.Limit
import QueryDepth.Proofs.Depth.Measuring
import QueryDepth.Validation.Query

/-!
# A depth rule alone

Without standard rules a validation is the work of its depth rules. A rule that is alone has room
for `maxViolations` reports.

**Theorem (`handed_validate`).** The receiver of such a rule is handed the depths of all operations,
once, if there are no more reports than that, and nothing at all if there are more: then the
validation is aborted before the depths are complete.
-/

namespace QueryDepth

/-! ## Validations without standard rules -/

namespace ValidationRun

/-- What a validation starts with. -/
def start : ValidationRun := ⟨[], false, none, [], [], []⟩

@[simp] theorem add_nil (run : ValidationRun) : run.add [] = run := by
  simp [add]

theorem failure_of_not_isOver {run : ValidationRun} (h : ¬ run.isOver = true) :
    run.failure = none := by
  unfold isOver at h
  simp_all

end ValidationRun

/-- Without standard rules only the depth rules do something. -/
theorem runRules_empty (doc : Document) (rules : List DepthRule) :
    runRules doc .empty rules = ValidationRun.addRules doc .start 0 rules := by
  unfold runRules StandardFindings.empty
  dsimp only
  rw [ValidationRun.add_nil, ValidationRun.add_nil]
  change (if _ then _ else _ : ValidationRun) = _
  generalize hrun : ValidationRun.addRules doc ⟨[], false, none, [], [], []⟩ 0 rules = run
  split
  · exact hrun.symm
  · next hover =>
    have hfailure := ValidationRun.failure_of_not_isOver hover
    rw [Option.map_none, ← hfailure]
    exact hrun.symm

namespace ValidationRun

variable {rule : DepthRule} (hpure : rule.policy.Pure) (doc : Document) (run : ValidationRun)
  (number : Nat)

include hpure

/-- A rule with room for all its reports hands its depths over, if it has a receiver. -/
theorem addRule_fits (hover : run.isOver = false)
    (hroom : (rule.faults doc).length ≤ maxViolations - run.violations.length)
    (haccepts : ∀ receiver ∈ rule.receiver, receiver (rule.depths doc) = .ok ()) :
    addRule doc run number rule =
      { run with
        violations := run.violations ++ (rule.faults doc).map PlacedFault.violation
        handed := run.handed ++ (rule.receiver.map fun _ => (number, rule.depths doc)).toList
        calls := run.calls ++ rule.calls doc
        log := run.log ++ rule.records doc } := by
  have hrun := DepthRule.run_fits hpure doc (fun n hn => Option.mem_some.1 hn ▸ hroom) haccepts
  rw [addRule, hover, if_neg Bool.false_ne_true, hrun]
  cases rule.receiver <;> rfl

/-- A rule with less room aborts the validation and hands nothing over. -/
theorem addRule_full (hover : run.isOver = false)
    (hroom : maxViolations - run.violations.length < (rule.faults doc).length) :
    ∃ calls log, addRule doc run number rule =
      { run with
        violations := run.violations ++ ((rule.faults doc).take
          (maxViolations - run.violations.length)).map PlacedFault.violation ++ [.tooMany]
        aborted := true
        calls := run.calls ++ calls
        log := run.log ++ log } := by
  obtain ⟨calls, log, hrun⟩ := DepthRule.run_full hpure doc hroom
  refine ⟨calls, log, ?_⟩
  rw [addRule, hover, if_neg Bool.false_ne_true, hrun]
  simp

end ValidationRun

/-! ## A single rule -/

namespace DepthRule

theorem runAlone_eq (rule : DepthRule) (doc : Document) :
    rule.runAlone doc = ValidationRun.addRule doc .start 0 rule :=
  runRules_empty doc [rule]

variable {rule : DepthRule} (hpure : rule.policy.Pure) (doc : Document)

include hpure

/-- What a rule does alone if there is room for all its reports. -/
theorem runAlone_fits (hroom : (rule.faults doc).length ≤ maxViolations)
    (haccepts : ∀ receiver ∈ rule.receiver, receiver (rule.depths doc) = .ok ()) :
    rule.runAlone doc =
      ⟨(rule.faults doc).map PlacedFault.violation, false, none,
        (rule.receiver.map fun _ => (0, rule.depths doc)).toList, rule.calls doc,
        rule.records doc⟩ := by
  rw [runAlone_eq, ValidationRun.addRule_fits hpure doc .start 0 rfl hroom haccepts]
  rfl

theorem runAlone_full (hroom : maxViolations < (rule.faults doc).length) :
    ∃ calls log, rule.runAlone doc =
      ⟨((rule.faults doc).take maxViolations).map PlacedFault.violation ++ [.tooMany], true, none,
        [], calls, log⟩ := by
  obtain ⟨calls, log, hrun⟩ := ValidationRun.addRule_full hpure doc .start 0 rfl hroom
  exact ⟨calls, log, by rw [runAlone_eq, hrun]; rfl⟩

end DepthRule

/-! ## What the receiver is handed -/

/-- The walk of an operation, under its name in the index, with room for all its reports. -/
def DepthRule.walkOf (rule : DepthRule) (doc : Document) (entry : String × Node) :
    Except Stop Int × WalkState :=
  Walk.run (rule.context doc.fragmentNodes entry.1 none) entry.2 0 []

/-- The reports of the walks of all operations, in order. -/
def DepthRule.walkReports (rule : DepthRule) (doc : Document) : List PlacedFault :=
  doc.operationNodes.flatMap fun entry => (rule.walkOf doc entry).2.reports.toList

theorem DepthRule.walkOf_eq {rule : DepthRule} (hpure : rule.policy.Pure) (doc : Document)
    (entry : String × Operation) :
    rule.walkOf doc (entry.1, entry.2.node) = (.ok (rule.depthOf doc entry).2,
      (Walk.start []).record (rule.faultsOf doc entry) (rule.callsOf doc entry)) :=
  Walk.run_fits rfl hpure entry.2 0 rfl

theorem DepthRule.faults_eq_walkReports {rule : DepthRule} (hpure : rule.policy.Pure)
    (doc : Document) : rule.faults doc = rule.walkReports doc := by
  unfold faults walkReports Document.operationNodes
  rw [List.flatMap_map]
  refine List.flatMap_congr fun entry _ => ?_
  rw [walkOf_eq hpure doc entry]
  simp [Walk.start, WalkState.record]

theorem Schema.validate_of_valid {s : Schema} (hvalid : s.faults = []) (doc : Document)
    (rules : List DepthRule) : s.validate doc false rules = .ok (runRules doc .empty rules) := by
  unfold validate whenValid
  rw [hvalid]
  rfl

/-- Documents with which a rule does the same are validated alike. -/
theorem Schema.validate_congr {rule : DepthRule} {doc doc' : Document}
    (h : ∀ room, rule.run doc' room = rule.run doc room) (s : Schema) :
    s.validate doc' false [rule] = s.validate doc false [rule] := by
  have hsame : runRules doc' .empty [rule] = runRules doc .empty [rule] := by
    rw [runRules_empty, runRules_empty]
    simp only [ValidationRun.addRules, ValidationRun.addRule, h]
  exact congrArg s.whenValid hsame

/-- Only over a valid schema there is a validation. -/
theorem Schema.faults_of_validate {s : Schema} {doc : Document} {standard : Bool}
    {rules : List DepthRule} {run : ValidationRun} (h : s.validate doc standard rules = .ok run) :
    s.faults = [] := by
  unfold validate whenValid at h
  split at h
  · assumption
  · cases h

theorem DepthRule.accepts_of_acceptAll {rule : DepthRule} (h : rule.receiver = some acceptAll)
    (depths : DepthMap) : ∀ receiver ∈ rule.receiver, receiver depths = .ok () := by
  rw [h]
  intro receiver hreceiver
  exact Option.some.inj hreceiver ▸ rfl

/-- **The depths are handed over if the reports fit, and else not at all.** Over a valid schema, a
rule alone measures every operation of the index, in order. The receiver is handed the depths of
all of them once, if their walks together make no more reports than there is room for. -/
theorem handed_validate {s : Schema} (hvalid : s.faults = []) (doc : Document) (rule : DepthRule)
    {receiver : Receiver} (hreceiver : rule.receiver = some receiver)
    (haccepts : ∀ depths, receiver depths = .ok ()) (hpure : rule.policy.Pure) :
    ∃ run depths, s.validate doc false [rule] = .ok run ∧
      List.Forall₂ (fun entry depth => depth.1 = entry.1 ∧ (rule.walkOf doc entry).1 = .ok depth.2)
        doc.operationNodes depths ∧
      if (rule.walkReports doc).length ≤ maxViolations then
        run.handed = [(0, depths)] ∧ run.depths = depths
      else run.handed = [] ∧ run.depths = [] := by
  refine ⟨rule.runAlone doc, rule.depths doc, Schema.validate_of_valid hvalid doc [rule], ?_, ?_⟩
  · unfold Document.operationNodes DepthRule.depths
    rw [List.forall₂_map_left_iff, List.forall₂_map_right_iff, List.forall₂_same]
    intro entry _
    rw [DepthRule.walkOf_eq hpure doc entry]
    exact ⟨rfl, rfl⟩
  · rw [← DepthRule.faults_eq_walkReports hpure doc]
    split
    · next hroom =>
      have hall : ∀ r ∈ rule.receiver, r (rule.depths doc) = .ok () := by
        rw [hreceiver]
        rintro r hr
        rw [← Option.some.inj hr]
        exact haccepts _
      rw [DepthRule.runAlone_fits hpure doc hroom hall, hreceiver]
      exact ⟨rfl, rfl⟩
    · next hroom =>
      obtain ⟨calls, log, hrun⟩ := DepthRule.runAlone_full hpure doc (Nat.not_le.1 hroom)
      rw [hrun]
      exact ⟨rfl, rfl⟩

theorem Schema.faults_placeholder : Schema.placeholder.faults = [] :=
  List.eq_nil_of_length_eq_zero (by decide +kernel)

theorem handed_validate_spiral :
    Schema.placeholder.faults = [] ∧ (∀ depths, acceptAll depths = .ok ()) ∧ Policy.empty.Pure ∧
      ∃ run, Schema.placeholder.validate .spiral false [⟨1, .empty, some acceptAll⟩] = .ok run ∧
        run.handed = [(0, [("Q", 1)])] := by
  refine ⟨Schema.faults_placeholder, fun _ => rfl, Policy.pure_empty, ?_⟩
  obtain ⟨run, depths, hrun, hdepths, hhanded⟩ := handed_validate Schema.faults_placeholder .spiral
    ⟨1, .empty, some acceptAll⟩ rfl (fun _ => rfl) Policy.pure_empty
  rw [if_pos (by decide +kernel)] at hhanded
  obtain ⟨⟨name, depth⟩, rest, ⟨hname, hdepth⟩, hrest, rfl⟩ := List.forall₂_cons_left_iff.1 hdepths
  obtain rfl := List.forall₂_nil_left_iff.1 hrest
  obtain rfl : name = "Q" := hname
  obtain rfl : depth = 1 := Except.ok.inj hdepth.symm
  exact ⟨run, hrun, hhanded.1⟩

/-- One spread of no fragment more than there is room for. -/
def Document.crowd : Document :=
  ⟨[.operation (.bare "Q" (List.replicate 101 (.bareSpread "F")))]⟩

theorem not_handed_crowd : ¬ ∀ (s : Schema) (doc : Document) (rule : DepthRule)
    (receiver : Receiver), s.faults = [] → 1 ≤ rule.limit → rule.policy.Pure →
    rule.receiver = some receiver → (∀ depths, receiver depths = .ok ()) →
    ∃ run depths, s.validate doc false [rule] = .ok run ∧ run.handed = [(0, depths)] := by
  intro hclaim
  obtain ⟨run, depths, hrun, hhanded⟩ := hclaim .placeholder .crowd ⟨1, .empty, some acceptAll⟩
    acceptAll Schema.faults_placeholder (by decide) Policy.pure_empty rfl (fun _ => rfl)
  rw [Schema.validate_of_valid Schema.faults_placeholder] at hrun
  obtain rfl := Except.ok.inj hrun
  have hnone : (runRules Document.crowd .empty [⟨1, .empty, some acceptAll⟩]).handed = [] := by
    decide +kernel
  rw [hnone] at hhanded
  exact List.cons_ne_nil _ _ hhanded.symm

end QueryDepth
