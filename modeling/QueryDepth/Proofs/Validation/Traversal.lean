import QueryDepth.Proofs.Validation.Alone
import QueryDepth.Validation.Standard

/-!
# Rules side by side

All rules take part in one traversal of the document and report into one list. Each visit is shown
to the parties in order. A party may skip what is inside a node: a depth rule does all its work on
entering the document and skips the rest. The rule on subscriptions may break the traversal off, and
so does whoever reports when the list is full.

**Theorem (`traverse_eq_runRules`).** Such a traversal is the run in which the standard rules report
on entering the document, then every depth rule works on its own, and then the standard rules report
further down.

The proof is an induction over the visits. On entering the document the depth rules fall asleep, or
the validation is over (`showVisit_depthParties`); either way they change nothing any more
(`showVisit_asleep`), so each further visit is shown to the standard rules only.
-/

namespace QueryDepth

/-! ## Parties to a traversal -/

/-- What a party does at a visit, and whether it skips what is inside. -/
abbrev Party := Visit → ValidationRun → ValidationRun × Bool

/-- Adds a violation, the one that is too many as such, unless the validation is over. -/
def ValidationRun.addOne (run : ValidationRun) (v : Violation) : ValidationRun :=
  if run.isOver then run
  else if run.violations.length < maxViolations then
    { run with violations := run.violations ++ [v] }
  else { run with violations := run.violations ++ [.tooMany], aborted := true }

/-- A rule that reports what it finds at every visit. -/
def Rule.party (ctx : RuleContext) (rule : Rule) : Party := fun visit run =>
  ((rule ctx visit).foldl .addOne run, false)

/-- The rule on subscriptions breaks off or reports. -/
def subscriptionParty (ctx : RuleContext) : Party := fun visit run =>
  match Rule.brokenOff? ctx visit with
  | some v => ({ run with failure := some (.standard v) }, false)
  | none => Rule.party ctx Rule.singleFieldSubscriptions visit run

/-- A depth rule looks at the document as a whole. -/
def DepthRule.party (doc : Document) (number : Nat) (rule : DepthRule) : Party
  | .document, run => (run.addRule doc number rule, true)
  | _, run => (run, false)

def standardParties (ctx : RuleContext) : List Party :=
  earlyRules.map (Rule.party ctx) ++ subscriptionParty ctx :: lateRules.tail.map (Rule.party ctx)

def depthParties (doc : Document) : Nat → List DepthRule → List Party
  | _, [] => []
  | number, rule :: rules => rule.party doc number :: depthParties doc (number + 1) rules

/-! ## Traversals -/

/-- Shows a visit to those parties that are awake, one after the other. -/
def showVisit (visit : Visit) :
    List (Party × Bool) → ValidationRun → List (Party × Bool) × ValidationRun
  | [], run => ([], run)
  | (party, awake) :: rest, run =>
    if awake ∧ ¬ run.isOver then
      let (run, skips) := party visit run
      let (rest, run) := showVisit visit rest run
      ((party, !skips) :: rest, run)
    else
      let (rest, run) := showVisit visit rest run
      ((party, awake) :: rest, run)

/-- Shows some visits, one after the other. -/
def showVisits : List Visit → List (Party × Bool) → ValidationRun → ValidationRun
  | [], _, run => run
  | visit :: rest, parties, run =>
    let (parties, run) := showVisit visit parties run
    showVisits rest parties run

/-- Parties that are awake. -/
def awake (parties : List Party) : List (Party × Bool) := parties.map fun party => (party, true)

/-- The traversal of a document, with all parties awake at first. -/
def traverse (s : Schema) (doc : Document) (parties : List Party) : ValidationRun :=
  showVisits (doc.visits s) (awake parties) .start

/-! ## Reporting one by one -/

namespace ValidationRun

variable {run : ValidationRun}

theorem addOne_of_isOver (hover : run.isOver = true) (v : Violation) : run.addOne v = run := by
  rw [addOne, if_pos hover]

theorem foldl_addOne_of_isOver (hover : run.isOver = true) (vs : List Violation) :
    vs.foldl addOne run = run := by
  induction vs with
  | nil => rfl
  | cons v vs ih => rw [List.foldl_cons, addOne_of_isOver hover, ih]

theorem add_of_le {vs : List Violation}
    (hroom : vs.length ≤ maxViolations - run.violations.length) :
    run.add vs = { run with violations := run.violations ++ vs } := by
  rw [add, if_pos hroom]

theorem add_of_lt {vs : List Violation}
    (hroom : maxViolations - run.violations.length < vs.length) :
    run.add vs = { run with
      violations := run.violations ++ vs.take (maxViolations - run.violations.length) ++ [.tooMany]
      aborted := true } := by
  rw [add, if_neg (Nat.not_le.2 hroom)]

/-- **Violations may be added one by one.** -/
theorem foldl_addOne {vs : List Violation} (hover : run.isOver = false) :
    vs.foldl addOne run = run.add vs := by
  induction vs generalizing run with
  | nil => rw [add_nil, List.foldl_nil]
  | cons v vs ih =>
    rw [List.foldl_cons, addOne, hover, if_neg Bool.false_ne_true]
    split
    · next hlt =>
      have hroom : maxViolations - run.violations.length =
          maxViolations - (run.violations.length + 1) + 1 := by omega
      have hrest := @ih { run with violations := run.violations ++ [v] } hover
      rw [hrest]
      rcases Nat.lt_or_ge (maxViolations - run.violations.length) (v :: vs).length
        with hfull | hfits
      · rw [add_of_lt hfull, add_of_lt (by simp at hfull ⊢; omega), hroom]
        simp
      · rw [add_of_le hfits, add_of_le (by simp at hfits ⊢; omega)]
        simp
    · next hge =>
      have hzero : maxViolations - run.violations.length = 0 := by omega
      rw [foldl_addOne_of_isOver (by simp [isOver]), add_of_lt (by simp [hzero]), hzero]
      simp

end ValidationRun

/-! ## A single visit -/

section

variable {visit : Visit} {run : ValidationRun}

theorem awake_cons (party : Party) (parties : List Party) :
    awake (party :: parties) = (party, true) :: awake parties := rfl

theorem awake_append (parties parties' : List Party) :
    awake (parties ++ parties') = awake parties ++ awake parties' := List.map_append

/-- A party that is awake sees the run before those that come after it. -/
theorem showVisit_awake (hover : run.isOver = false) (party : Party)
    (rest : List (Party × Bool)) :
    showVisit visit ((party, true) :: rest) run =
      ((party, !(party visit run).2) :: (showVisit visit rest (party visit run).1).1,
        (showVisit visit rest (party visit run).1).2) := by
  rw [showVisit, if_pos ⟨rfl, by simp [hover]⟩]

/-- When the validation is over nobody is asked. -/
theorem showVisit_of_isOver (hover : run.isOver = true) (parties : List (Party × Bool)) :
    showVisit visit parties run = (parties, run) := by
  induction parties with
  | nil => rfl
  | cons p parties ih => rw [showVisit, if_neg (fun h => h.2 hover), ih]

/-- Parties that are asleep are not asked. -/
theorem showVisit_asleep {parties : List (Party × Bool)} (h : ∀ p ∈ parties, p.2 = false) :
    showVisit visit parties run = (parties, run) := by
  induction parties with
  | nil => rfl
  | cons p parties ih =>
    have hp : ¬ p.2 = true := by simp [h p List.mem_cons_self]
    rw [showVisit, if_neg (fun h => hp h.1), ih fun q hq => h q (List.mem_cons_of_mem _ hq)]

theorem showVisit_append (parties parties' : List (Party × Bool)) :
    showVisit visit (parties ++ parties') run =
      ((showVisit visit parties run).1 ++
          (showVisit visit parties' (showVisit visit parties run).2).1,
        (showVisit visit parties' (showVisit visit parties run).2).2) := by
  induction parties generalizing run with
  | nil => rfl
  | cons p parties ih =>
    rw [List.cons_append, showVisit, showVisit]
    split <;> simp only [ih, List.cons_append]

/-- Rules report in order and stay awake. -/
theorem showVisit_rules (ctx : RuleContext) (rules : List Rule) :
    showVisit visit (awake (rules.map (Rule.party ctx))) run =
      (awake (rules.map (Rule.party ctx)), (reportAt rules ctx visit).foldl .addOne run) := by
  induction rules generalizing run with
  | nil => rfl
  | cons rule rules ih =>
    cases hover : run.isOver with
    | true => rw [showVisit_of_isOver hover, ValidationRun.foldl_addOne_of_isOver hover]
    | false =>
      have hreports : reportAt (rule :: rules) ctx visit =
        rule ctx visit ++ reportAt rules ctx visit := List.flatMap_cons
      have hrest := @ih (Rule.party ctx rule visit run).1
      rw [List.map_cons, awake_cons, showVisit_awake hover, hrest, hreports, List.foldl_append]
      rfl

/-- **Where nothing breaks off, the standard rules report in order.** -/
theorem showVisit_standardParties {ctx : RuleContext} (h : Rule.brokenOff? ctx visit = none) :
    showVisit visit (awake (standardParties ctx)) run =
      (awake (standardParties ctx), (reportAt standardRules ctx visit).foldl .addOne run) := by
  have hguard : subscriptionParty ctx visit =
      Rule.party ctx Rule.singleFieldSubscriptions visit := by
    funext run
    rw [subscriptionParty, h]
  have hreports : reportAt standardRules ctx visit =
      reportAt earlyRules ctx visit ++ (Rule.singleFieldSubscriptions ctx visit ++
        reportAt lateRules.tail ctx visit) := List.flatMap_append
  rw [standardParties, awake_append, showVisit_append, showVisit_rules, hreports,
    List.foldl_append]
  generalize (reportAt earlyRules ctx visit).foldl .addOne run = early
  cases hover : early.isOver with
  | true => rw [showVisit_of_isOver hover, ValidationRun.foldl_addOne_of_isOver hover]
  | false =>
    dsimp only
    rw [awake_cons, showVisit_awake hover, hguard, showVisit_rules, List.foldl_append]
    rfl

/-- Ends a run with an exception, if it is not over and there is one. -/
def ValidationRun.endedBy (run : ValidationRun) (brokenOff : Option Violation) : ValidationRun :=
  if run.isOver then run else { run with failure := brokenOff.map .standard }

theorem ValidationRun.endedBy_none (run : ValidationRun) : run.endedBy none = run := by
  unfold endedBy
  split
  · rfl
  · next hover => rw [Option.map_none, ← failure_of_not_isOver hover]

theorem ValidationRun.isOver_endedBy_some (run : ValidationRun) (v : Violation) :
    (run.endedBy (some v)).isOver = true := by
  unfold endedBy
  split
  · assumption
  · exact Bool.or_true _

/-- Where something breaks off, only the rules before have reported. -/
theorem showVisit_standardParties_broken {ctx : RuleContext} {v : Violation}
    (h : Rule.brokenOff? ctx visit = some v) :
    (showVisit visit (awake (standardParties ctx)) run).2 =
      ((reportAt earlyRules ctx visit).foldl .addOne run).endedBy (some v) := by
  have hguard (run : ValidationRun) : subscriptionParty ctx visit run =
      ({ run with failure := some (.standard v) }, false) := by
    rw [subscriptionParty, h]
  rw [standardParties, awake_append, showVisit_append, showVisit_rules]
  generalize (reportAt earlyRules ctx visit).foldl .addOne run = early
  rw [ValidationRun.endedBy]
  cases hover : early.isOver with
  | true => rw [showVisit_of_isOver hover, if_pos rfl]
  | false =>
    rw [if_neg Bool.false_ne_true]
    dsimp only
    rw [awake_cons, showVisit_awake hover, hguard,
      showVisit_of_isOver (by simp [ValidationRun.isOver])]
    rfl

/-- **On entering the document depth rules work in order.** After that they are asleep, or the
validation is over. -/
theorem showVisit_depthParties (doc : Document) (number : Nat) (rules : List DepthRule) :
    (showVisit .document (awake (depthParties doc number rules)) run).2 =
        run.addRules doc number rules ∧
      ((run.addRules doc number rules).isOver = false →
        ∀ p ∈ (showVisit .document (awake (depthParties doc number rules)) run).1,
          p.2 = false) := by
  induction rules generalizing number run with
  | nil => exact ⟨rfl, fun _ p hp => absurd hp List.not_mem_nil⟩
  | cons rule rules ih =>
    rw [ValidationRun.addRules]
    cases hover : run.isOver with
    | true =>
      have hsame : run.addRule doc number rule = run := by
        rw [ValidationRun.addRule, if_pos hover]
      have hrest := @ih run (number + 1)
      rw [showVisit_of_isOver hover] at hrest
      rw [showVisit_of_isOver hover, hsame, ← hrest.1, hover]
      exact ⟨rfl, fun hlast => absurd hlast.symm Bool.false_ne_true⟩
    | false =>
      obtain ⟨hrun, hasleep⟩ := @ih (run.addRule doc number rule) (number + 1)
      rw [depthParties, awake_cons, showVisit_awake hover]
      refine ⟨hrun, fun hlast p hp => ?_⟩
      rcases List.mem_cons.1 hp with rfl | hp
      · rfl
      · exact hasleep hlast p hp

end

/-! ## The whole traversal -/

/-- A validation that is over is not changed by further visits. -/
theorem showVisits_of_isOver {run : ValidationRun} (hover : run.isOver = true)
    (visits : List Visit) (parties : List (Party × Bool)) :
    showVisits visits parties run = run := by
  induction visits with
  | nil => rfl
  | cons visit visits ih =>
    rw [showVisits, showVisit_of_isOver hover]
    exact ih

/-- **Below the document only the standard rules report.** -/
theorem showVisits_standardParties (ctx : RuleContext) {sleeping : List (Party × Bool)}
    (hsleeping : ∀ p ∈ sleeping, p.2 = false) (visits : List Visit) (run : ValidationRun) :
    showVisits visits (awake (standardParties ctx) ++ sleeping) run =
      ((StandardFindings.atVisits ctx visits).1.foldl .addOne run).endedBy
        (StandardFindings.atVisits ctx visits).2 := by
  induction visits generalizing run with
  | nil => exact (run.endedBy_none).symm
  | cons visit visits ih =>
    rw [showVisits, showVisit_append, showVisit_asleep hsleeping, StandardFindings.atVisits]
    cases hbroken : Rule.brokenOff? ctx visit with
    | none =>
      rw [showVisit_standardParties hbroken]
      dsimp only
      rw [ih, List.foldl_append]
    | some v =>
      dsimp only
      rw [showVisit_standardParties_broken hbroken]
      exact showVisits_of_isOver (ValidationRun.isOver_endedBy_some _ v) _ _

/-- A run of rules: what the standard rules report first, the depth rules, and the rest. -/
theorem runRules_eq (doc : Document) (standard : StandardFindings) (rules : List DepthRule) :
    runRules doc standard rules =
      (standard.rest.foldl .addOne
        (ValidationRun.addRules doc (standard.first.foldl .addOne .start) 0 rules)).endedBy
          standard.brokenOff := by
  rw [@ValidationRun.foldl_addOne .start _ rfl]
  change (if (ValidationRun.addRules doc (ValidationRun.add .start _) 0 rules).isOver
    then _ else _ : ValidationRun) = _
  split
  · next hover =>
    rw [ValidationRun.foldl_addOne_of_isOver hover, ValidationRun.endedBy, if_pos hover]
    rfl
  · next hover =>
    rw [ValidationRun.foldl_addOne (Bool.eq_false_iff.2 hover)]
    rfl

/-- **Side by side is one after the other.** Traversing a document with the standard rules and then
some depth rules is the run in which the depth rules work between what the standard rules report on
entering the document and what they report further down. -/
theorem traverse_eq_runRules (s : Schema) (doc : Document) (rules : List DepthRule) :
    traverse s doc (standardParties (.of s doc) ++ depthParties doc 0 rules) =
      runRules doc (.of s doc) rules := by
  have hentered := @showVisit_standardParties .document .start (.of s doc) rfl
  obtain ⟨hrun, hasleep⟩ := @showVisit_depthParties
    ((reportAt standardRules (.of s doc) .document).foldl .addOne .start) doc 0 rules
  rw [traverse, Document.visits, showVisits, awake_append, showVisit_append, hentered, runRules_eq]
  dsimp only
  rw [hrun]
  change _ = ((StandardFindings.of s doc).rest.foldl .addOne (ValidationRun.addRules doc
    ((reportAt standardRules (.of s doc) .document).foldl .addOne .start) 0 rules)).endedBy _
  cases hover : (ValidationRun.addRules doc
    ((reportAt standardRules (.of s doc) .document).foldl .addOne .start) 0 rules).isOver with
  | true =>
    rw [showVisits_of_isOver hover, ValidationRun.foldl_addOne_of_isOver hover,
      ValidationRun.endedBy, if_pos hover]
  | false => exact showVisits_standardParties _ (hasleep hover) _ _

end QueryDepth
