import QueryDepth.Proofs.Validation.Traversal

/-!
# A depth rule beside the standard rules

The standard rules do not notice a depth rule that takes part in their traversal, nor it them, as
long as all violations fit into the list.

**Theorem (`runWithStandard_inserts`).** If the standard rules alone and the depth rule alone report
no more violations together than there is room for, then validating with both gives the depths that
the rule gives alone, and its violations stand as one block among those of the standard rules, right
behind what these report on entering the document.

A list that is not longer than there is room for has not been cut, so from what is reported alone
one knows that all fits (`length_le_of_runRules_nil`, `length_faults_le`). The rest keeps account of
the room that each party leaves to the next.
-/

namespace QueryDepth

/-! ## The standard rules alone -/

namespace ValidationRun

variable {run : ValidationRun}

/-- Violations that do not fit leave more in the list than there is room for. -/
theorem lt_length_add {vs : List Violation} (hrun : run.violations.length ≤ maxViolations)
    (hroom : maxViolations - run.violations.length < vs.length) :
    maxViolations < (run.add vs).violations.length := by
  rw [add_of_lt hroom]
  simp only [List.length_append, List.length_take, List.length_singleton]
  omega

theorem violations_endedBy (run : ValidationRun) (brokenOff : Option Violation) :
    (run.endedBy brokenOff).violations = run.violations := by
  unfold endedBy
  split <;> rfl

end ValidationRun

variable {doc : Document} {standard : StandardFindings}

theorem runRules_nil (doc : Document) (standard : StandardFindings) :
    runRules doc standard [] =
      (ValidationRun.start.add (standard.first ++ standard.rest)).endedBy standard.brokenOff := by
  rw [runRules_eq, ← ValidationRun.foldl_addOne rfl, List.foldl_append]
  rfl

/-- A list that is short enough holds everything. -/
theorem length_le_of_runRules_nil
    (h : (runRules doc standard []).violations.length ≤ maxViolations) :
    (standard.first ++ standard.rest).length ≤ maxViolations := by
  rw [runRules_nil, ValidationRun.violations_endedBy] at h
  refine Nat.not_lt.1 fun hfull => ?_
  exact Nat.not_lt.2 h (ValidationRun.lt_length_add (Nat.zero_le _) hfull)

theorem runRules_nil_fits (hroom : (standard.first ++ standard.rest).length ≤ maxViolations) :
    runRules doc standard [] = ⟨standard.first ++ standard.rest, false,
      standard.brokenOff.map .standard, [], [], []⟩ := by
  rw [runRules_nil, ValidationRun.add_of_le hroom]
  rfl

/-! ## With a depth rule -/

namespace DepthRule

variable {rule : DepthRule} (hpure : rule.policy.Pure)

include hpure

/-- A rule alone whose list is short enough has reported everything. -/
theorem length_faults_le (h : (rule.runAlone doc).violations.length ≤ maxViolations) :
    (rule.faults doc).length ≤ maxViolations := by
  refine Nat.not_lt.1 fun hfull => ?_
  obtain ⟨calls, log, hrun⟩ := runAlone_full hpure doc hfull
  rw [hrun] at h
  simp only [List.length_append, List.length_map, List.length_take, List.length_singleton] at h
  omega

/-- With room for everything, the depth rule reports between the standard rules. -/
theorem runRules_fits
    (hroom : (standard.first ++ standard.rest).length + (rule.faults doc).length ≤ maxViolations)
    (haccepts : ∀ receiver ∈ rule.receiver, receiver (rule.depths doc) = .ok ()) :
    runRules doc standard [rule] =
      ⟨standard.first ++ (rule.faults doc).map PlacedFault.violation ++ standard.rest, false,
        standard.brokenOff.map .standard,
        (rule.receiver.map fun _ => (0, rule.depths doc)).toList, rule.calls doc,
        rule.records doc⟩ := by
  rw [List.length_append] at hroom
  have hfirst : standard.first.foldl .addOne .start =
      { ValidationRun.start with violations := standard.first } := by
    rw [ValidationRun.foldl_addOne rfl]
    exact ValidationRun.add_of_le (by
      change _ ≤ maxViolations - 0
      omega)
  have hrule := ValidationRun.addRule_fits hpure doc
    { ValidationRun.start with violations := standard.first } 0 rfl
    (Nat.le_sub_of_add_le (by dsimp only; omega)) haccepts
  rw [runRules_eq, hfirst, ValidationRun.addRules, hrule, ValidationRun.addRules,
    ValidationRun.foldl_addOne rfl, ValidationRun.add_of_le (by simp; omega)]
  simp [ValidationRun.endedBy, ValidationRun.isOver, ValidationRun.start]

end DepthRule

theorem Schema.validate_standard {s : Schema} (hvalid : s.faults = []) (doc : Document)
    (rules : List DepthRule) :
    s.validate doc true rules = .ok (runRules doc (.of s doc) rules) := by
  unfold validate whenValid
  rw [hvalid]
  rfl

/-- **A depth rule is inserted as a block.** Let the standard rules alone come to their end, and let
them and the depth rule alone report no more together than there is room for. Then all rules side by
side come to their end, with the depths that the rule gives alone over any valid schema. What the
rule reports alone stands between what the standard rules report on entering the document and what
they report after that. -/
theorem runWithStandard_inserts {s : Schema} (hvalid : s.faults = []) (doc : Document)
    {rule : DepthRule} (hreceiver : rule.receiver = some acceptAll) (hpure : rule.policy.Pure)
    {standard : ValidationRun} (hstandard : s.validate doc true [] = .ok standard)
    (hended : standard.failure = none)
    (hroom : standard.violations.length + (rule.runAlone doc).violations.length ≤ maxViolations) :
    ∃ (run : ValidationRun) (later : List Violation),
      rule.runWithStandard s doc = .ok run ∧ run.failure = none ∧
      run = traverse s doc (standardParties (.of s doc) ++ [rule.party doc 0]) ∧
      (∀ other : Schema, other.faults = [] →
        other.validate doc false [rule] = .ok (rule.runAlone doc)) ∧
      run.depths = (rule.runAlone doc).depths ∧
      standard.violations = reportAt standardRules (.of s doc) .document ++ later ∧
      run.violations = reportAt standardRules (.of s doc) .document ++
        (rule.runAlone doc).violations ++ later ∧
      (run.violations = [] → (rule.runAlone doc).violations = []) := by
  have haccepts := DepthRule.accepts_of_acceptAll hreceiver (rule.depths doc)
  rw [Schema.validate_standard hvalid] at hstandard
  obtain rfl := Except.ok.inj hstandard
  have hstandard := @runRules_nil_fits doc _
    (length_le_of_runRules_nil (Nat.le_trans (Nat.le_add_right _ _) hroom))
  have halone := DepthRule.runAlone_fits hpure doc
    (DepthRule.length_faults_le hpure (Nat.le_trans (Nat.le_add_left _ _) hroom)) haccepts
  rw [hstandard, halone, List.length_map] at hroom
  have hrun := DepthRule.runRules_fits hpure hroom haccepts
  refine ⟨runRules doc (.of s doc) [rule], (StandardFindings.of s doc).rest,
    Schema.validate_standard hvalid doc [rule], ?_, (traverse_eq_runRules s doc [rule]).symm,
    fun other hother => Schema.validate_of_valid hother doc [rule], ?_⟩
  · rw [hstandard] at hended
    rw [hrun]
    exact hended
  · rw [hrun, hstandard, halone]
    refine ⟨by rw [hreceiver]; rfl, rfl, rfl, fun hnil => ?_⟩
    exact (List.append_eq_nil_iff.1 (List.append_eq_nil_iff.1 hnil).1).2

/-- A type definition, which cannot be executed, and a query that is too deep and asks for a field
that is not in the schema. -/
def Document.mixed : Document :=
  ⟨[.type false ⟨0, none, ⟨5, "T"⟩, [], .scalar⟩,
    .operation (.bare "Q" [.bareField "a" [.bareField "b" [.bareField "c" []]]])]⟩

theorem runWithStandard_inserts_mixed : Schema.placeholder.faults = [] ∧ Policy.empty.Pure ∧
    ∃ standard, Schema.placeholder.validate .mixed true [] = .ok standard ∧
      standard.failure = none ∧
      standard.violations.length +
        (DepthRule.runAlone ⟨1, .empty, some acceptAll⟩ .mixed).violations.length ≤ maxViolations ∧
      ∃ run, DepthRule.runWithStandard ⟨1, .empty, some acceptAll⟩ .placeholder .mixed = .ok run ∧
        run.depths = [("Q", 1)] ∧
        run.violations = [⟨"The 'T' definition is not executable.", [0]⟩,
          ⟨"'Q' exceeds maximum operation depth of 1", [0]⟩,
          ⟨"Cannot query field 'a' on type 'Query'.", [0]⟩] := by
  have hstandard : Schema.placeholder.validate .mixed true [] =
      .ok (runRules .mixed (.of .placeholder .mixed) []) :=
    Schema.validate_standard Schema.faults_placeholder _ _
  have hviolations : (runRules .mixed (.of .placeholder .mixed) []).violations =
      [⟨"The 'T' definition is not executable.", [0]⟩,
        ⟨"Cannot query field 'a' on type 'Query'.", [0]⟩] := by decide +kernel
  have hentered : reportAt standardRules (.of .placeholder .mixed) .document =
      [⟨"The 'T' definition is not executable.", [0]⟩] := by decide +kernel
  have halone : (DepthRule.runAlone ⟨1, .empty, some acceptAll⟩ .mixed).violations =
      [⟨"'Q' exceeds maximum operation depth of 1", [0]⟩] := by decide +kernel
  have hdepths : (DepthRule.runAlone ⟨1, .empty, some acceptAll⟩ .mixed).depths = [("Q", 1)] := by
    decide +kernel
  have hroom : (runRules .mixed (.of .placeholder .mixed) []).violations.length +
      (DepthRule.runAlone ⟨1, .empty, some acceptAll⟩ .mixed).violations.length ≤
        maxViolations := by
    rw [hviolations, halone]
    decide
  obtain ⟨run, later, hrun, -, -, -, hsame, hlater, hblock, -⟩ := @runWithStandard_inserts
    _ Schema.faults_placeholder .mixed ⟨1, .empty, some acceptAll⟩ rfl Policy.pure_empty _
    hstandard rfl hroom
  rw [hviolations, hentered] at hlater
  obtain ⟨-, rfl⟩ := List.cons.inj hlater
  rw [hentered, halone] at hblock
  exact ⟨Schema.faults_placeholder, Policy.pure_empty, _, hstandard, rfl, hroom, run, hrun,
    hsame.trans hdepths, hblock⟩

end QueryDepth
