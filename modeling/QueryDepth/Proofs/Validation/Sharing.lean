import QueryDepth.Proofs.Validation.Traversal

/-!
# Depth rules that share a list

Depth rules that take part in one validation report into one list, and the list may get full. Each
rule works as it would alone as long as there is room for its reports. The first that has not enough
room aborts the validation, and the rules after it do not work any more.

**Theorem (`validate_rules`).** The list is what the rules report alone, one after the other, up to
where it is full. The receiver of a rule is handed the depths that the rule gives alone, once, if
the reports of the rule and of those before it fit, and nothing otherwise.

For the list an induction over the rules keeps account of the room that is left (`addRules_found`).
For a receiver it matters only how the validation stands when the turn of its rule comes, because
every rule hands over under its own number (`handedTo_addRules_of_lt`, `handedTo_addRules_of_le`).
-/

namespace QueryDepth

/-! ## Lists with room for so many -/

/-- Violations as far as there is room for them. If there are more, the last one says so. -/
def capped (room : Nat) (vs : List Violation) : List Violation :=
  if vs.length ≤ room then vs else vs.take room ++ [.tooMany]

theorem capped_of_le {room : Nat} {vs : List Violation} (h : vs.length ≤ room) :
    capped room vs = vs := if_pos h

theorem capped_of_lt {room : Nat} {vs : List Violation} (h : room < vs.length) :
    capped room vs = vs.take room ++ [.tooMany] := if_neg (Nat.not_le.2 h)

/-- What fits leaves the rest of the room to what follows. -/
theorem capped_append_of_le {room : Nat} {vs : List Violation} (h : vs.length ≤ room)
    (more : List Violation) : capped room (vs ++ more) = vs ++ capped (room - vs.length) more := by
  rcases Nat.lt_or_ge (room - vs.length) more.length with hfull | hfits
  · have hall : room < (vs ++ more).length := by
      rw [List.length_append]
      omega
    rw [capped_of_lt hall, capped_of_lt hfull, List.take_append, List.take_of_length_le h,
      List.append_assoc]
  · have hall : (vs ++ more).length ≤ room := by
      rw [List.length_append]
      omega
    rw [capped_of_le hall, capped_of_le hfits]

/-- Nothing follows what does not fit. -/
theorem capped_append_of_lt {room : Nat} {vs : List Violation} (h : room < vs.length)
    (more : List Violation) : capped room (vs ++ more) = capped room vs := by
  have hall : room < (vs ++ more).length := by
    rw [List.length_append]
    omega
  rw [capped_of_lt hall, capped_of_lt h, List.take_append_of_le_length (Nat.le_of_lt h)]

/-- The violations that a rule reports if there is room enough. -/
def DepthRule.violations (rule : DepthRule) (doc : Document) : List Violation :=
  (rule.faults doc).map PlacedFault.violation

theorem DepthRule.length_violations (rule : DepthRule) (doc : Document) :
    (rule.violations doc).length = (rule.faults doc).length := List.length_map _

namespace ValidationRun

variable {doc : Document} {run : ValidationRun} {number : Nat}

/-! ## Rules in order -/

theorem addRule_of_isOver (hover : run.isOver = true) (rule : DepthRule) :
    run.addRule doc number rule = run := if_pos hover

/-- When the validation is over no rule works. -/
theorem addRules_of_isOver (hover : run.isOver = true) (rules : List DepthRule) :
    run.addRules doc number rules = run := by
  induction rules generalizing number with
  | nil => rfl
  | cons rule rules ih => rw [addRules, addRule_of_isOver hover, ih]

theorem addRules_append (before after : List DepthRule) :
    run.addRules doc number (before ++ after) =
      (run.addRules doc number before).addRules doc (number + before.length) after := by
  induction before generalizing run number with
  | nil => rfl
  | cons rule before ih =>
    have hnumber : number + (rule :: before).length = number + 1 + before.length := by
      rw [List.length_cons]
      omega
    rw [List.cons_append, addRules, addRules, ih, hnumber]

/-- **Rules find what each of them finds alone.** They fill the room one after the other, and the
validation is over exactly if there is not enough for all. -/
theorem addRules_found (run : ValidationRun) (number : Nat) {rules : List DepthRule}
    (hpure : ∀ rule ∈ rules, rule.policy.Pure)
    (haccepts : ∀ rule ∈ rules, ∀ receiver ∈ rule.receiver, receiver (rule.depths doc) = .ok ())
    (hover : run.isOver = false) (hrun : run.violations.length ≤ maxViolations) :
    (run.addRules doc number rules).violations = run.violations ++
        capped (maxViolations - run.violations.length) (rules.flatMap (·.violations doc)) ∧
      (run.addRules doc number rules).failure = none ∧
      ((run.addRules doc number rules).isOver = false ↔
        (rules.flatMap (·.violations doc)).length ≤ maxViolations - run.violations.length) := by
  induction rules generalizing run number with
  | nil =>
    rw [addRules, List.flatMap_nil, capped_of_le (Nat.zero_le _), List.append_nil]
    exact ⟨rfl, failure_of_not_isOver (Bool.eq_false_iff.1 hover), by simp [hover]⟩
  | cons rule rules ih =>
    have hfirst := hpure rule List.mem_cons_self
    rw [addRules, List.flatMap_cons, List.length_append]
    rcases Nat.lt_or_ge (maxViolations - run.violations.length) (rule.violations doc).length
      with hfull | hfits
    · obtain ⟨calls, log, hrule⟩ := addRule_full hfirst doc run number hover
        (rule.length_violations doc ▸ hfull)
      have haborted : (run.addRule doc number rule).isOver = true := by
        rw [hrule]
        rfl
      rw [addRules_of_isOver haborted, capped_append_of_lt hfull, capped_of_lt hfull]
      refine ⟨?_, ?_, by rw [haborted]; simp; omega⟩
      · rw [hrule, DepthRule.violations, List.map_take, List.append_assoc]
      · have hnone := failure_of_not_isOver (Bool.eq_false_iff.1 hover)
        rw [hrule]
        exact hnone
    · have hrule := addRule_fits hfirst doc run number hover (rule.length_violations doc ▸ hfits)
        (haccepts rule List.mem_cons_self)
      have hviolations : (run.addRule doc number rule).violations =
          run.violations ++ rule.violations doc := by
        rw [hrule]
        rfl
      have hgoes : (run.addRule doc number rule).isOver = false := by
        rw [hrule]
        exact hover
      have hroom : maxViolations - (run.violations ++ rule.violations doc).length =
          maxViolations - run.violations.length - (rule.violations doc).length := by
        rw [List.length_append, Nat.sub_add_eq]
      obtain ⟨hfound, hfailure, hends⟩ := ih _ (number + 1)
        (fun rule h => hpure rule (List.mem_cons_of_mem _ h))
        (fun rule h => haccepts rule (List.mem_cons_of_mem _ h)) hgoes
        (by rw [hviolations, List.length_append]; omega)
      rw [hviolations, hroom] at hfound hends
      refine ⟨?_, hfailure, hends.trans (by omega)⟩
      rw [hfound, capped_append_of_le hfits, List.append_assoc]

/-! ## What a receiver is handed -/

/-- What was handed over under a number, in order. -/
def handedTo (run : ValidationRun) (number : Nat) : List DepthMap :=
  (run.handed.filter (·.1 = number)).map Prod.snd

/-- A rule hands over nothing or one map, and under its number. -/
theorem handed_addRule (run : ValidationRun) (number : Nat) (rule : DepthRule) :
    ∃ new : Option DepthMap, (run.addRule doc number rule).handed =
      run.handed ++ (new.map fun depths => (number, depths)).toList := by
  unfold addRule
  split
  · exact ⟨none, (List.append_nil _).symm⟩
  · refine ⟨(rule.run doc (some (maxViolations - run.violations.length))).handed, ?_⟩
    dsimp only
    split <;> rfl

theorem handedTo_addRule_of_ne {other : Nat} (h : other ≠ number) (rule : DepthRule) :
    (run.addRule doc number rule).handedTo other = run.handedTo other := by
  obtain ⟨new, hnew⟩ := @handed_addRule doc run number rule
  rw [handedTo, hnew, handedTo]
  cases new with
  | none => simp
  | some depths => simp [h.symm]

/-- Later rules hand nothing to an earlier one. -/
theorem handedTo_addRules_of_lt {other : Nat} (h : other < number) (rules : List DepthRule) :
    (run.addRules doc number rules).handedTo other = run.handedTo other := by
  induction rules generalizing run number with
  | nil => rfl
  | cons rule rules ih =>
    rw [addRules, ih (Nat.lt_succ_of_lt h), handedTo_addRule_of_ne (Nat.ne_of_lt h)]

/-- Earlier rules hand nothing to a later one. -/
theorem handedTo_addRules_of_le {other : Nat} {rules : List DepthRule}
    (h : number + rules.length ≤ other) :
    (run.addRules doc number rules).handedTo other = run.handedTo other := by
  induction rules generalizing run number with
  | nil => rfl
  | cons rule rules ih =>
    rw [List.length_cons] at h
    rw [addRules, ih (by omega), handedTo_addRule_of_ne (by omega)]

/-- **A receiver is handed its depths if the reports up to those of its rule fit.** -/
theorem handedTo_addRules {before after : List DepthRule} {rule : DepthRule}
    (hpure : ∀ r ∈ before ++ [rule], r.policy.Pure)
    (haccepts : ∀ r ∈ before ++ [rule], ∀ receiver ∈ r.receiver,
      receiver (r.depths doc) = .ok ()) :
    (ValidationRun.start.addRules doc 0 (before ++ rule :: after)).handedTo before.length =
      if ((before ++ [rule]).flatMap (·.violations doc)).length ≤ maxViolations then
        (rule.receiver.map fun _ => rule.depths doc).toList
      else [] := by
  obtain ⟨hfound, -, hends⟩ := addRules_found .start 0
    (fun r h => hpure r (List.mem_append_left _ h))
    (fun r h => haccepts r (List.mem_append_left _ h)) rfl (Nat.zero_le _)
  have hempty : (ValidationRun.start.addRules doc 0 before).handedTo before.length = [] :=
    handedTo_addRules_of_le (Nat.le_of_eq (Nat.zero_add _))
  have hrule := hpure rule List.mem_concat_self
  change _ = capped maxViolations _ at hfound
  change _ ↔ _ ≤ maxViolations at hends
  rw [addRules_append, addRules, Nat.zero_add, handedTo_addRules_of_lt (Nat.lt_succ_self _),
    List.flatMap_append, List.flatMap_singleton, List.length_append]
  generalize ValidationRun.start.addRules doc 0 before = run at hfound hends hempty ⊢
  cases hover : run.isOver with
  | true =>
    -- the rules before have used up the room
    have hfull : ¬ (before.flatMap (·.violations doc)).length ≤ maxViolations := by
      rw [← hends, hover]
      exact Bool.noConfusion
    rw [addRule_of_isOver hover, hempty, if_neg (by omega)]
  | false =>
    have hbefore := hends.1 hover
    rw [capped_of_le hbefore] at hfound
    rw [← hfound] at hbefore ⊢
    rw [rule.length_violations]
    split
    · next hfits =>
      rw [addRule_fits hrule doc run before.length hover (by omega)
        (haccepts rule List.mem_concat_self)]
      rw [handedTo] at hempty ⊢
      rw [List.filter_append, List.map_append, hempty]
      cases rule.receiver <;> simp
    · next hfull =>
      obtain ⟨calls, log, hfull⟩ := addRule_full hrule doc run before.length hover (by omega)
      rw [hfull]
      exact hempty

end ValidationRun

/-! ## Depth rules alone in a traversal -/

/-- Parties that are asleep let all visits pass. -/
theorem showVisits_asleep {parties : List (Party × Bool)} (h : ∀ p ∈ parties, p.2 = false)
    (visits : List Visit) (run : ValidationRun) : showVisits visits parties run = run := by
  induction visits with
  | nil => rfl
  | cons visit visits ih =>
    rw [showVisits, showVisit_asleep h]
    exact ih

/-- **Depth rules side by side work one after the other.** -/
theorem traverse_depthParties (s : Schema) (doc : Document) (rules : List DepthRule) :
    traverse s doc (depthParties doc 0 rules) = ValidationRun.start.addRules doc 0 rules := by
  obtain ⟨hrun, hasleep⟩ := @showVisit_depthParties .start doc 0 rules
  rw [traverse, Document.visits, showVisits]
  dsimp only
  rw [hrun]
  cases hover : (ValidationRun.start.addRules doc 0 rules).isOver with
  | true => exact showVisits_of_isOver hover _ _
  | false => exact showVisits_asleep (hasleep hover) _ _

/-! ## Rules do not interfere -/

/-- **Depth rules do not interfere with each other.** Over a valid schema, let some rules take part
in one traversal. What they report is what each reports alone, one after the other, as far as there
is room. The receiver of a rule is handed the depths that the rule gives alone, once, if the reports
up to those of the rule fit, and nothing otherwise. -/
theorem validate_rules {s : Schema} (hvalid : s.faults = []) (doc : Document)
    {rules : List DepthRule} (hpure : ∀ rule ∈ rules, rule.policy.Pure)
    (haccepts : ∀ rule ∈ rules, ∀ receiver ∈ rule.receiver, ∀ depths, receiver depths = .ok ()) :
    ∃ (depths : DepthRule → DepthMap) (errors : DepthRule → List Violation) (run : ValidationRun),
      (∀ rule ∈ rules, ∃ reports calls log,
        rule.run doc none = ⟨none, rule.receiver.map fun _ => depths rule, reports, calls, log⟩ ∧
        errors rule = reports.map PlacedFault.violation) ∧
      s.validate doc false rules = .ok run ∧ run = traverse s doc (depthParties doc 0 rules) ∧
      run.failure = none ∧ run.violations = capped maxViolations (rules.flatMap errors) ∧
      ∀ before rule after, rules = before ++ rule :: after →
        run.handedTo before.length =
          if ((before ++ [rule]).flatMap errors).length ≤ maxViolations then
            (rule.receiver.map fun _ => depths rule).toList
          else [] := by
  have hall : ∀ rule ∈ rules, ∀ receiver ∈ rule.receiver, receiver (rule.depths doc) = .ok () :=
    fun rule hrule receiver hreceiver => haccepts rule hrule receiver hreceiver (rule.depths doc)
  obtain ⟨hfound, hfailure, -⟩ :=
    ValidationRun.addRules_found .start 0 hpure hall rfl (Nat.zero_le _)
  refine ⟨(·.depths doc), (·.violations doc), ValidationRun.start.addRules doc 0 rules,
    fun rule hrule => ?_, ?_, (traverse_depthParties s doc rules).symm, hfailure, hfound, ?_⟩
  · exact ⟨_, _, _, DepthRule.run_fits (hpure rule hrule) doc (by simp) (hall rule hrule), rfl⟩
  · rw [Schema.validate_of_valid hvalid, runRules_empty]
  · rintro before rule after rfl
    have hsubset : ∀ r ∈ before ++ [rule], r ∈ before ++ rule :: after := by
      intro r hr
      rw [List.append_cons]
      exact List.mem_append_left _ hr
    exact ValidationRun.handedTo_addRules (fun r hr => hpure r (hsubset r hr))
      fun r hr => hall r (hsubset r hr)

/-- A query with sixty fields below its second level. -/
def Document.throng : Document :=
  ⟨[.operation (.bare "Q"
    [.bareField "a" [.bareField "b" (List.replicate 60 (.bareField "c" []))]])]⟩

/-- Of three rules the first and the last are the same. The first reports all fields below its limit
and is handed its depths. So is the one between them, which reports nothing. The last aborts the
validation. -/
theorem validate_rules_throng :
    Schema.placeholder.faults = [] ∧ Policy.empty.Pure ∧ (∀ depths, acceptAll depths = .ok ()) ∧
    ∃ run, Schema.placeholder.validate .throng false
        [⟨1, .empty, some acceptAll⟩, ⟨5, .empty, some acceptAll⟩, ⟨1, .empty, some acceptAll⟩] =
          .ok run ∧
      run.failure = none ∧ run.violations.length = 101 ∧ run.handedTo 0 = [[("Q", 1)]] ∧
      run.handedTo 1 = [[("Q", 2)]] ∧ run.handedTo 2 = [] := by
  let strict : DepthRule := ⟨1, .empty, some acceptAll⟩
  let loose : DepthRule := ⟨5, .empty, some acceptAll⟩
  have hstrict : (strict.run .throng none).handed = some [("Q", 1)] ∧
      (strict.run .throng none).reports.length = 60 := by decide +kernel
  have hloose : (loose.run .throng none).handed = some [("Q", 2)] ∧
      (loose.run .throng none).reports = [] := by decide +kernel
  have hpure : ∀ rule ∈ [strict, loose, strict], rule.policy.Pure := by
    simp [strict, loose, Policy.pure_empty]
  have haccepts : ∀ rule ∈ [strict, loose, strict], ∀ receiver ∈ rule.receiver,
      ∀ depths, receiver depths = .ok () := by
    simp [strict, loose, acceptAll]
  obtain ⟨depths, errors, run, hrules, hrun, -, hfailure, hviolations, hhanded⟩ :=
    validate_rules Schema.faults_placeholder .throng hpure haccepts
  obtain ⟨_, _, _, hrule, herrors⟩ := hrules strict (by simp)
  obtain ⟨reports, _, _, hrule', herrors'⟩ := hrules loose (by simp)
  rw [hrule] at hstrict
  rw [hrule'] at hloose
  have hdepths : depths strict = [("Q", 1)] := Option.some.inj hstrict.1
  have hdepths' : depths loose = [("Q", 2)] := Option.some.inj hloose.1
  have hsixty : (errors strict).length = 60 := by rw [herrors, List.length_map, hstrict.2]
  have hreports : reports = [] := hloose.2
  have hnone : errors loose = [] := by rw [herrors', hreports, List.map_nil]
  have hfirst := hhanded [] strict [loose, strict] rfl
  have hsecond := hhanded [strict] loose [strict] rfl
  have hthird := hhanded [strict, loose] strict [] rfl
  simp only [List.nil_append, List.cons_append, List.flatMap_cons, List.flatMap_nil,
    List.append_nil, List.length_append, hsixty, hnone, hdepths, hdepths', maxViolations]
    at hfirst hsecond hthird
  refine ⟨Schema.faults_placeholder, Policy.pure_empty, fun _ => rfl, run, hrun, hfailure, ?_,
    hfirst, hsecond, hthird⟩
  rw [hviolations, capped_of_lt] <;> simp [hsixty, hnone, maxViolations]

end QueryDepth
