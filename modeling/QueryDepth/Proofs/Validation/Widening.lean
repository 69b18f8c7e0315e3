import QueryDepth.Check
import QueryDepth.Proofs.Depth.Widening
import QueryDepth.Proofs.Ignore.Options
import QueryDepth.Proofs.Validation.Conservative
import QueryDepth.Proofs.Validation.Coverage

/-!
# Checks under two policies

Ignoring more can only relax a check: walks find less, so a document that passed passes again.

**Theorem (`ignoring_more_relaxes`).** If every name that one policy matches is matched by another,
every walk under the other has a depth that is at most as great and reports that are among those
under the one, in the same order. A document that passed under the one passes under the other. If
the policies match the same names, nothing changes. For options it is enough that they contain one
another: their order, and how they are split between the configuration and the request, does not
matter.

A check passes exactly if no rule has anything to report (`runRules_passes_iff`), so for what passes
the lists of reports need not be followed through the room that there is for them. For equal reports
nothing depends on the policy but the calls of predicates, which `withoutCalls` takes off.
-/

namespace QueryDepth

/-! ## Runs of one rule -/

namespace ValidationRun

/-- The validation came to an end and found nothing. -/
def Passes (run : ValidationRun) : Prop := run.failure = none ∧ run.violations = []

variable {run : ValidationRun}

theorem violations_add_eq_nil {vs : List Violation} :
    (run.add vs).violations = [] ↔ run.violations = [] ∧ vs = [] := by
  rcases Nat.lt_or_ge (maxViolations - run.violations.length) vs.length with hfull | hfits
  · rw [add_of_lt hfull]
    simp only [List.append_eq_nil_iff, List.cons_ne_self, and_false, false_iff, not_and]
    rintro - rfl
    exact Nat.not_lt_zero _ hfull
  · rw [add_of_le hfits, List.append_eq_nil_iff]

theorem violations_foldl_addOne_eq_nil {vs : List Violation} :
    (vs.foldl addOne run).violations = [] ↔
      run.violations = [] ∧ (run.isOver = false → vs = []) := by
  cases hover : run.isOver with
  | true => simp [foldl_addOne_of_isOver hover]
  | false => simp [foldl_addOne hover, violations_add_eq_nil]

/-- A rule only adds violations. -/
theorem violations_of_addRule {doc : Document} {number : Nat} {rule : DepthRule}
    (h : (run.addRule doc number rule).violations = []) : run.violations = [] := by
  unfold addRule at h
  split at h
  · exact h
  · dsimp only at h
    split at h
    · exact (List.append_eq_nil_iff.1 h).1
    · exact (List.append_eq_nil_iff.1 (List.append_eq_nil_iff.1 h).1).1
    · exact (List.append_eq_nil_iff.1 h).1

/-- The runs hand over the same depths, find the same and end alike. -/
structure SameFindings (run other : ValidationRun) : Prop where
  depths : run.depths = other.depths
  violations : run.violations = other.violations
  failure : run.failure = other.failure

/-- What is left of a run without its log and the calls of predicates. -/
def withoutTrace (run : ValidationRun) : ValidationRun := { run with calls := [], log := [] }

theorem SameFindings.of_withoutTrace {other : ValidationRun}
    (h : run.withoutTrace = other.withoutTrace) : run.SameFindings other where
  depths := by
    have hhanded : run.handed = other.handed := congrArg (·.handed) h
    rw [ValidationRun.depths, hhanded, ValidationRun.depths]
  violations := congrArg (·.violations) h
  failure := congrArg (·.failure) h

theorem withoutTrace_addOne (v : Violation) :
    (run.addOne v).withoutTrace = run.withoutTrace.addOne v := by
  have hover : run.withoutTrace.isOver = run.isOver := rfl
  have hviolations : run.withoutTrace.violations = run.violations := rfl
  rw [addOne, addOne, hover, hviolations]
  split
  · rfl
  · split <;> rfl

theorem withoutTrace_foldl_addOne (vs : List Violation) :
    (vs.foldl addOne run).withoutTrace = vs.foldl addOne run.withoutTrace := by
  induction vs generalizing run with
  | nil => rfl
  | cons v vs ih => rw [List.foldl_cons, List.foldl_cons, ih, withoutTrace_addOne]

theorem withoutTrace_endedBy (brokenOff : Option Violation) :
    (run.endedBy brokenOff).withoutTrace = run.withoutTrace.endedBy brokenOff := by
  have hover : run.withoutTrace.isOver = run.isOver := rfl
  rw [endedBy, endedBy, hover]
  split <;> rfl

end ValidationRun

variable {rule other : DepthRule} {doc : Document} {standard : StandardFindings}

/-- **A check passes exactly if there is nothing to report.** -/
theorem runRules_passes_iff (hpure : rule.policy.Pure)
    (haccepts : ∀ receiver ∈ rule.receiver, receiver (rule.depths doc) = .ok ()) :
    (runRules doc standard [rule]).Passes ↔ standard.first = [] ∧ rule.faults doc = [] ∧
      standard.rest = [] ∧ standard.brokenOff = none := by
  constructor
  · rintro ⟨hfailure, hnone⟩
    rw [runRules_eq] at hfailure hnone
    rw [ValidationRun.violations_endedBy, ValidationRun.violations_foldl_addOne_eq_nil] at hnone
    obtain ⟨hrule, hrest⟩ := hnone
    have hfirst : standard.first = [] :=
      (ValidationRun.violations_foldl_addOne_eq_nil.1
        (ValidationRun.violations_of_addRule hrule)).2 rfl
    have halone : ValidationRun.addRules doc (standard.first.foldl .addOne .start) 0 [rule] =
        rule.runAlone doc := by
      rw [hfirst, DepthRule.runAlone_eq]
      rfl
    rw [halone] at hrule hrest hfailure
    have hfaults : rule.faults doc = [] :=
      DepthRule.faults_of_no_violations hpure haccepts hrule
    rw [DepthRule.runAlone_fits hpure doc (by simp [hfaults]) haccepts] at hrest hfailure
    have hrest : standard.rest = [] := hrest rfl
    rw [hrest] at hfailure
    exact ⟨hfirst, hfaults, hrest, Option.map_eq_none_iff.1 hfailure⟩
  · rintro ⟨hfirst, hfaults, hrest, hbroken⟩
    rw [DepthRule.runRules_fits hpure (by simp [hfirst, hrest, hfaults]) haccepts, hfirst, hfaults,
      hrest, hbroken]
    exact ⟨rfl, rfl⟩

section

variable (hpure : rule.policy.Pure) (hother : other.policy.Pure)
  (haccepts : ∀ receiver ∈ rule.receiver, receiver (rule.depths doc) = .ok ())
  (hreceiver : other.receiver = rule.receiver) (hdepths : other.depths doc = rule.depths doc)
  (hfaults : other.faults doc = rule.faults doc)

include hpure hother haccepts hreceiver hdepths hfaults

theorem ValidationRun.withoutTrace_addRule_congr (run : ValidationRun) (number : Nat) :
    (run.addRule doc number other).withoutTrace = (run.addRule doc number rule).withoutTrace := by
  cases hover : run.isOver with
  | true => rw [addRule, addRule, if_pos hover, if_pos hover]
  | false =>
    rcases Nat.lt_or_ge (maxViolations - run.violations.length) (rule.faults doc).length
      with hfull | hfits
    · obtain ⟨_, _, hrun⟩ := addRule_full hpure doc run number hover hfull
      obtain ⟨_, _, hrun'⟩ := addRule_full hother doc run number hover (hfaults ▸ hfull)
      rw [hrun, hrun', hfaults]
      rfl
    · rw [addRule_fits hpure doc run number hover hfits haccepts,
        addRule_fits hother doc run number hover (hfaults ▸ hfits) (hreceiver ▸ hdepths ▸ haccepts),
        hfaults, hdepths, hreceiver]
      rfl

/-- **What a run finds depends only on the reports and the depths of its rule.** -/
theorem withoutTrace_runRules_congr :
    (runRules doc standard [other]).withoutTrace = (runRules doc standard [rule]).withoutTrace := by
  have hrule := ValidationRun.withoutTrace_addRule_congr hpure hother haccepts hreceiver hdepths
    hfaults (standard.first.foldl .addOne .start) 0
  rw [runRules_eq, runRules_eq, ValidationRun.withoutTrace_endedBy,
    ValidationRun.withoutTrace_endedBy, ValidationRun.withoutTrace_foldl_addOne,
    ValidationRun.withoutTrace_foldl_addOne]
  exact congrArg (fun run => (standard.rest.foldl .addOne run).endedBy standard.brokenOff) hrule

end

/-- Over a valid schema or none, all depth rules meet the same findings of the standard rules. -/
theorem checkDocument_eq_ok {schema : Option Schema} {run : ValidationRun}
    (h : checkDocument schema doc rule = .ok run) :
    ∃ standard, ∀ rule, checkDocument schema doc rule = .ok (runRules doc standard [rule]) := by
  cases schema with
  | none => exact ⟨.empty, fun _ => rfl⟩
  | some s =>
    rw [checkDocument, DepthRule.runWithStandard] at h
    cases hvalidate : s.validate doc true [rule] with
    | error e =>
      rw [hvalidate] at h
      cases h
    | ok found =>
      refine ⟨.of s doc, fun rule => ?_⟩
      rw [checkDocument, DepthRule.runWithStandard,
        Schema.validate_standard (Schema.faults_of_validate hvalidate)]

/-! ## Rules under two policies -/

namespace DepthRule

variable {policy wider : Policy}
  (hskips : ∀ name, policy.skips name = true → wider.skips name = true)

include hskips

theorem faults_widen (limit : Int) (receiver : Option Receiver) (doc : Document) :
    (faults ⟨limit, wider, receiver⟩ doc).Sublist (faults ⟨limit, policy, receiver⟩ doc) := by
  unfold faults
  induction doc.operationIndex with
  | nil => exact List.Sublist.refl _
  | cons entry entries ih =>
    rw [List.flatMap_cons, List.flatMap_cons]
    exact (Expansion.faultsAt_widen hskips ..).append ih

end DepthRule

section

variable {policy wider : Policy} (hpure : policy.Pure) (hwider : wider.Pure)
  (hskips : ∀ name, policy.skips name = true → wider.skips name = true)

include hpure hwider hskips

/-- **A check under a wider policy.** It passes if the one under the narrower policy passes, and it
finds the same if the policies skip the same. -/
theorem checkDocument_widen {schema : Option Schema} {doc : Document} {limit : Int}
    {run : ValidationRun}
    (hrun : checkDocument schema doc ⟨limit, policy, some acceptAll⟩ = .ok run) :
    ∃ run', checkDocument schema doc ⟨limit, wider, some acceptAll⟩ = .ok run' ∧
      (run.Passes → run'.Passes) ∧
      ((∀ name, wider.skips name = true → policy.skips name = true) →
        run'.SameFindings run) := by
  have haccepts (policy : Policy) := DepthRule.accepts_of_acceptAll
    (rfl : (DepthRule.mk limit policy (some acceptAll)).receiver = some acceptAll)
    (DepthRule.depths ⟨limit, policy, some acceptAll⟩ doc)
  obtain ⟨standard, hstandard⟩ := checkDocument_eq_ok hrun
  obtain rfl := Except.ok.inj (hrun.symm.trans (hstandard _))
  refine ⟨_, hstandard _, fun hpasses => ?_, fun hsame => ?_⟩
  · rw [runRules_passes_iff hpure (haccepts policy)] at hpasses
    obtain ⟨hfirst, hfaults, hrest⟩ := hpasses
    have hnone : DepthRule.faults ⟨limit, wider, some acceptAll⟩ doc = [] :=
      List.sublist_nil.1 (hfaults ▸ DepthRule.faults_widen hskips limit (some acceptAll) doc)
    exact (runRules_passes_iff hwider (haccepts wider)).2 ⟨hfirst, hnone, hrest⟩
  · refine .of_withoutTrace
      (withoutTrace_runRules_congr hpure hwider (haccepts policy) rfl ?_ ?_)
    · exact List.map_congr_left fun entry _ => Prod.ext rfl
        (Int.le_antisymm (Expansion.depthAt_widen hskips ..) (Expansion.depthAt_widen hsame ..))
    · exact (DepthRule.faults_widen hskips limit (some acceptAll) doc).antisymm
        (DepthRule.faults_widen hsame limit (some acceptAll) doc)

end

/-! ## Options -/

/-- The depth rule of a request over a configuration. -/
def CheckRequest.ruleOver (request : CheckRequest) (config : Config) : Except Failure DepthRule :=
  (request.ignoreOver config).bind (checkRule (request.limitOver config))

theorem DepthRule.ofData_eq_ok_iff {limit ignore : Data} {receiver : Option Receiver}
    {rule : DepthRule} : ofData limit ignore receiver = .ok rule ↔
      ∃ n policy, limitOf? limit = some n ∧ Policy.ofData ignore = .ok policy ∧
        rule = ⟨n, policy, receiver⟩ := by
  unfold ofData
  cases limitOf? limit with
  | none => simp
  | some n =>
    cases Policy.ofData ignore with
    | error e => simp
    | ok policy => simp [eq_comm]

theorem checkRule_eq_ok_iff {limit ignore : Data} {rule : DepthRule} :
    checkRule limit ignore = .ok rule ↔
      DepthRule.ofData limit ignore (some acceptAll) = .ok rule := by
  unfold checkRule
  cases DepthRule.ofData limit ignore (some acceptAll) <;> simp

/-- The options of the configuration come before those of the request. -/
theorem CheckRequest.ruleOver_eq_ok_iff {request : CheckRequest} {config : Config}
    {rule : DepthRule} : request.ruleOver config = .ok rule ↔
      ∃ items, config.ignore.items? = some items ∧
        DepthRule.ofData (request.limitOver config) (.list (items ++ request.ignore))
          (some acceptAll) = .ok rule := by
  unfold ruleOver ignoreOver
  cases config.ignore.items? with
  | none => simp [Except.bind]
  | some items => simp [Except.bind, checkRule_eq_ok_iff]

theorem CheckRequest.ruleOver_eq_ok {request : CheckRequest} {config : Config} {items : List Data}
    {rule : DepthRule} (hitems : config.ignore.items? = some items)
    (h : request.ruleOver config = .ok rule) : ∃ n policy,
      limitOf? (request.limitOver config) = some n ∧
      Policy.ofData (.list (items ++ request.ignore)) = .ok policy ∧
      rule = ⟨n, policy, some acceptAll⟩ := by
  obtain ⟨items', hitems', hrule⟩ := ruleOver_eq_ok_iff.1 h
  obtain rfl := Option.some.inj (hitems.symm.trans hitems')
  exact DepthRule.ofData_eq_ok_iff.1 hrule

/-- Options that contain one another relax a check. -/
theorem checkDocument_widen_options {request request' : CheckRequest} {config config' : Config}
    {items items' : List Data} {rule rule' : DepthRule}
    (hitems : config.ignore.items? = some items) (hitems' : config'.ignore.items? = some items')
    (hrule : request.ruleOver config = .ok rule) (hrule' : request'.ruleOver config' = .ok rule')
    (hpure : rule.policy.Pure) (hpure' : rule'.policy.Pure)
    (hlimit : request'.limitOver config' = request.limitOver config)
    (hsubset : items ++ request.ignore ⊆ items' ++ request'.ignore)
    {schema : Option Schema} {doc : Document} {run : ValidationRun}
    (hrun : checkDocument schema doc rule = .ok run) :
    ∃ run', checkDocument schema doc rule' = .ok run' ∧ (run.Passes → run'.Passes) ∧
      (items' ++ request'.ignore ⊆ items ++ request.ignore → run'.SameFindings run) := by
  obtain ⟨n, policy, hn, hpolicy, rfl⟩ := CheckRequest.ruleOver_eq_ok hitems hrule
  obtain ⟨n', policy', hn', hpolicy', rfl⟩ := CheckRequest.ruleOver_eq_ok hitems' hrule'
  rw [hlimit, hn] at hn'
  obtain rfl := Option.some.inj hn'
  obtain ⟨run', hrun', hpasses, hsame⟩ := checkDocument_widen hpure hpure'
    (fun _ => Policy.skips_of_options_subset hpolicy hpolicy' hsubset) hrun
  exact ⟨run', hrun', hpasses, fun hback =>
    hsame fun _ => Policy.skips_of_options_subset hpolicy' hpolicy hback⟩

/-! ## Ignoring more -/

/-- **Ignoring more only relaxes.** Let every name that one pure policy matches be matched by
another. A walk under the other, from any node inside any fragments, gives at most the depth, and a
subsequence of the reports, that the walk under the one gives. Documents that pass under the one
pass under the other, and nothing changes if the policies match the same names. In the same way
options relax a check if more are given, in any place and any order. -/
theorem ignoring_more_relaxes {policy wider : Policy} (hpure : policy.Pure) (hwider : wider.Pure)
    (hwithin : policy.Within wider) :
    (∀ (fragments : List (String × Node)) (node : Node),
      (∀ f ∈ fragments, f.2.Every Node.IsWalkable) → node.Every Node.IsWalkable →
      ∀ (operation : String) (limit level : Int) (active : List String), ∃ depth s depth' s',
        Walk.run ⟨fragments, limit, operation, policy, none⟩ node level active = (.ok depth, s) ∧
        Walk.run ⟨fragments, limit, operation, wider, none⟩ node level active = (.ok depth', s') ∧
        depth' ≤ depth ∧ s'.reports.toList.Sublist s.reports.toList ∧
        (wider.Within policy → depth' = depth ∧ s'.reports = s.reports)) ∧
    (∀ (schema : Option Schema) (doc : Document) (limit : Int) (run : ValidationRun),
      checkDocument schema doc ⟨limit, policy, some acceptAll⟩ = .ok run →
      ∃ run', checkDocument schema doc ⟨limit, wider, some acceptAll⟩ = .ok run' ∧
        (run.Passes → run'.Passes) ∧ (wider.Within policy → run'.SameFindings run)) ∧
    ∀ (request request' : CheckRequest) (config config' : Config) (items items' : List Data)
      (rule rule' : DepthRule),
      config.ignore.items? = some items → config'.ignore.items? = some items' →
      request.ruleOver config = .ok rule → request'.ruleOver config' = .ok rule' →
      rule.policy.Pure → rule'.policy.Pure →
      request'.limitOver config' = request.limitOver config →
      items ++ request.ignore ⊆ items' ++ request'.ignore →
      ∀ (schema : Option Schema) (doc : Document) (run : ValidationRun),
        checkDocument schema doc rule = .ok run →
        ∃ run', checkDocument schema doc rule' = .ok run' ∧ (run.Passes → run'.Passes) ∧
          (items' ++ request'.ignore ⊆ items ++ request.ignore → run'.SameFindings run) := by
  have hskips (name : String) : policy.skips name = true → wider.skips name = true :=
    hwithin.skips hpure hwider
  refine ⟨fun fragments node hfragments hnode operation limit level active => ?_,
    fun schema doc limit run hrun => ?_, ?_⟩
  · obtain ⟨depth, s, depth', s', hrun, hrun', hdepth, hreports, hsame⟩ :=
      Walk.run_widen hpure hwider hskips hfragments hnode operation limit level active
    exact ⟨depth, s, depth', s', hrun, hrun', hdepth, hreports, fun hback =>
      hsame fun _ => hback.skips hwider hpure⟩
  · obtain ⟨run', hrun', hpasses, hsame⟩ := checkDocument_widen hpure hwider hskips hrun
    exact ⟨run', hrun', hpasses, fun hback => hsame fun _ => hback.skips hwider hpure⟩
  · intro request request' config config' items items' rule rule' hitems hitems' hrule hrule'
      hpure hpure' hlimit hsubset schema doc run
    exact checkDocument_widen_options hitems hitems' hrule hrule' hpure hpure' hlimit hsubset

/-- Matches the fields of one name. -/
def Predicate.named (name : String) : Predicate := ⟨name, fun field => .ok (field == name)⟩

/-- The policy that asks for some names. -/
def Policy.named (names : List String) : Policy :=
  ⟨names.map fun name => .predicate (.named name)⟩

theorem Policy.pure_named (names : List String) : (named names).Pure := by
  refine pure_of_rules fun rule hrule => ?_
  obtain ⟨name, -, rfl⟩ := List.mem_map.1 hrule
  exact fun field => ⟨field == name, rfl⟩

/-- A request with nothing but a limit and the names of fields to ignore. -/
def CheckRequest.named (limit : Int) (names : List String) : CheckRequest :=
  ⟨.int limit, names.map fun name => .predicate (.named name), .null, none, .null, none⟩

/-- Ignoring `a` takes a cycle and an excess away. Ignoring `b` makes a document pass, and it still
does when `c` is ignored as well. -/
theorem ignoring_more_relaxes_spiral :
    Policy.empty.Pure ∧ (Policy.named ["a"]).Pure ∧ Policy.empty.Within (.named ["a"]) ∧
    (∃ s s',
      Walk.run ⟨Document.spiral.fragmentNodes, 1, "Q", .empty, none⟩ Operation.spiral.node 0 [] =
        (.ok 1, s) ∧
      Walk.run ⟨Document.spiral.fragmentNodes, 1, "Q", .named ["a"], none⟩ Operation.spiral.node 0
        [] = (.ok 0, s') ∧
      s'.reports = #[⟨.missingFragment "G", some 0⟩] ∧
      s'.reports.toList.Sublist s.reports.toList) ∧
    ∃ run, checkDocument none .mixed ⟨1, .named ["b", "c"], some acceptAll⟩ = .ok run ∧
      run.Passes := by
  have hwithin : Policy.empty.Within (.named ["a"]) := fun _ hmatches => nomatch hmatches
  obtain ⟨hwalks, -, hoptions⟩ :=
    ignoring_more_relaxes Policy.pure_empty (Policy.pure_named ["a"]) hwithin
  refine ⟨Policy.pure_empty, Policy.pure_named ["a"], hwithin, ?_, ?_⟩
  · have hfragments : ∀ f ∈ Document.spiral.fragmentNodes, f.2.Every Node.IsWalkable :=
      fun f hf => (Document.spiral.every_fragmentNodes f hf).imp fun _ => And.left
    have hnode : Operation.spiral.node.Every Node.IsWalkable :=
      (Document.every_node .spiral).imp fun _ => And.left
    obtain ⟨depth, s, depth', s', hrun, hrun', -, hreports, -⟩ :=
      hwalks Document.spiral.fragmentNodes Operation.spiral.node hfragments hnode "Q" 1 0 []
    have hdepth : 1 = depth := Except.ok.inj (congrArg Prod.fst hrun)
    have hdepth' : 0 = depth' := Except.ok.inj (congrArg Prod.fst hrun')
    rw [← hdepth] at hrun
    rw [← hdepth'] at hrun'
    exact ⟨s, s', hrun, hrun', (congrArg (fun result => result.2.reports) hrun').symm, hreports⟩
  · have hpasses :
        (DepthRule.runAlone ⟨1, .named ["b"], some acceptAll⟩ .mixed).violations = [] := by
      decide +kernel
    obtain ⟨run, hrun, hpass, -⟩ := hoptions (.named 1 ["b"]) (.named 1 ["b", "c"])
      ⟨10, .list [], .null, .null⟩ ⟨10, .list [], .null, .null⟩ [] [] _ _ rfl rfl rfl rfl
      (Policy.pure_named ["b"]) (Policy.pure_named ["b", "c"]) rfl (by simp [CheckRequest.named])
      none .mixed _ rfl
    exact ⟨run, hrun, hpass ⟨rfl, hpasses⟩⟩

end QueryDepth
