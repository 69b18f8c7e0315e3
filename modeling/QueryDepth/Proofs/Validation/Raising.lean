import QueryDepth.Proofs.Validation.Coverage

/-!
# Raising a limit that is not hit

A limit acts in one place: at a node with more fields above it than the limit allows. A walk that
comes to no such node does not depend on it.

**Theorem (`validate_raise`).** If a rule alone neither reports that an operation exceeds the limit
nor is aborted, then under any larger limit it does the same: it hands over the same depths, with
the same reports, calls of predicates and log records.

A node beyond the limit is always reported, so where no report says so, all visits are within the
limit, and under a larger one the walk makes the same visits (`visits_raise`) and does the same at
each (`walk_raise`). An operation whose reports do not all fit would have aborted the validation.
-/

namespace QueryDepth

namespace Expansion

/-! ## Walks that stay within their limit -/

mutual

/-- A walk that stays within its limit makes the same visits under a larger one, and finds the same
depth. -/
theorem visits_raise {limit large : Int} (hlimit : limit ≤ large) (policy : Policy) :
    ∀ (e : Expansion) (level : Int), (∀ visit ∈ e.visits limit policy level, visit.2 ≤ limit) →
      e.visits large policy level = e.visits limit policy level ∧
        e.depthAt large policy level = e.depthAt limit policy level
  | e, level, hwithin => by
    have hsmall : ¬ level > limit := by
      intro hlevel
      rw [visits_of_gt hlevel] at hwithin
      exact Int.not_le.2 hlevel (hwithin _ (List.mem_singleton_self _))
    have hlarge : ¬ level > large := fun hlevel => hsmall (Int.lt_of_le_of_lt hlimit hlevel)
    match e with
    | .leaf pos name | .missing pos name | .reentry pos name | .other pos name =>
      simp [visits, depthAt, hsmall, hlarge]
    | .field pos name children =>
      rw [visits] at hwithin
      rw [visits, visits, depthAt, depthAt, if_neg hsmall, if_neg hlarge]
      by_cases hskip : policy.skips name = true
      · simp [hskip]
      · have hgo : ¬ (level > limit ∨ policy.skips name = true) := not_or.2 ⟨hsmall, hskip⟩
        have hgo' : ¬ (level > large ∨ policy.skips name = true) := not_or.2 ⟨hlarge, hskip⟩
        rw [if_neg hgo] at hwithin
        obtain ⟨hvisits, hdepth⟩ := visitsAll_raise hlimit policy children (level + 1)
          fun visit hvisit => hwithin visit (List.mem_cons_of_mem _ hvisit)
        rw [if_neg hgo, if_neg hgo', if_neg hskip, if_neg hskip, hvisits, hdepth]
        exact ⟨rfl, rfl⟩
    | .group pos children =>
      rw [visits, if_neg hsmall] at hwithin
      obtain ⟨hvisits, hdepth⟩ := visitsAll_raise hlimit policy children level
        fun visit hvisit => hwithin visit (List.mem_cons_of_mem _ hvisit)
      rw [visits, visits, depthAt, depthAt, if_neg hsmall, if_neg hlarge, if_neg hsmall,
        if_neg hlarge, hvisits, hdepth]
      exact ⟨rfl, rfl⟩
    | .followed pos name fragment =>
      rw [visits, if_neg hsmall] at hwithin
      obtain ⟨hvisits, hdepth⟩ := visits_raise hlimit policy fragment level
        fun visit hvisit => hwithin visit (List.mem_cons_of_mem _ hvisit)
      rw [visits, visits, depthAt, depthAt, if_neg hsmall, if_neg hlarge, if_neg hsmall,
        if_neg hlarge, hvisits, hdepth]
      exact ⟨rfl, rfl⟩

theorem visitsAll_raise {limit large : Int} (hlimit : limit ≤ large) (policy : Policy) :
    ∀ (es : List Expansion) (level : Int),
      (∀ visit ∈ visitsAll limit policy es level, visit.2 ≤ limit) →
      visitsAll large policy es level = visitsAll limit policy es level ∧
        depthAll large policy es level = depthAll limit policy es level
  | [], level, _ => ⟨rfl, rfl⟩
  | [e], level, hwithin => by
    simp only [visitsAll, List.append_nil] at hwithin ⊢
    exact visits_raise hlimit policy e level hwithin
  | e :: e' :: more, level, hwithin => by
    rw [visitsAll] at hwithin
    obtain ⟨hvisits, hdepth⟩ := visits_raise hlimit policy e level
      fun visit hvisit => hwithin visit (List.mem_append_left _ hvisit)
    obtain ⟨hrest, hdepths⟩ := visitsAll_raise hlimit policy (e' :: more) level
      fun visit hvisit => hwithin visit (List.mem_append_right _ hvisit)
    have hcons (limit : Int) : visitsAll limit policy (e :: e' :: more) level =
        e.visits limit policy level ++ visitsAll limit policy (e' :: more) level := rfl
    rw [hcons, hcons, depthAll, depthAll, hvisits, hdepth, hrest, hdepths]
    exact ⟨rfl, rfl⟩

end

section

variable {ctx : WalkContext} {large : Int} (hlimit : ctx.limit ≤ large)

include hlimit

/-- What is said and asked at a visit within the limit is the same under a larger one. -/
theorem faultOf_raise {visit : Expansion × Int} (hvisit : visit.2 ≤ ctx.limit) :
    WalkContext.faultOf { ctx with limit := large } visit = ctx.faultOf visit := by
  have hsmall : ¬ visit.2 > ctx.limit := Int.not_lt.2 hvisit
  have hlarge : ¬ visit.2 > large := Int.not_lt.2 (Int.le_trans hvisit hlimit)
  simp only [WalkContext.faultOf, hsmall, hlarge, if_false]

theorem callsOf_raise {visit : Expansion × Int} (hvisit : visit.2 ≤ ctx.limit) :
    WalkContext.callsOf { ctx with limit := large } visit = ctx.callsOf visit := by
  have hsmall : ¬ visit.2 > ctx.limit := Int.not_lt.2 hvisit
  have hlarge : ¬ visit.2 > large := Int.not_lt.2 (Int.le_trans hvisit hlimit)
  simp only [WalkContext.callsOf, hsmall, hlarge, if_false]

/-- **Where nothing is too deep, a larger limit changes nothing.** -/
theorem walk_raise {e : Expansion} {level : Int} (hdeep : ¬ Exceeds ctx (e.faultsAt ctx level)) :
    e.depthAt large ctx.policy level = e.depthAt ctx.limit ctx.policy level ∧
      e.faultsAt { ctx with limit := large } level = e.faultsAt ctx level ∧
      e.callsAt { ctx with limit := large } level = e.callsAt ctx level := by
  -- a visit beyond the limit would have been reported
  have hwithin : ∀ visit ∈ e.visits ctx.limit ctx.policy level, visit.2 ≤ ctx.limit := by
    intro visit hvisit
    refine Int.not_lt.1 fun hbeyond => hdeep ⟨⟨_, visit.1.pos⟩, ?_, rfl⟩
    exact List.mem_filterMap.2 ⟨visit, hvisit, if_pos hbeyond⟩
  obtain ⟨hvisits, hdepth⟩ := visits_raise hlimit ctx.policy e level hwithin
  unfold faultsAt callsAt
  rw [hvisits]
  exact ⟨hdepth,
    List.filterMap_congr fun visit hvisit => faultOf_raise hlimit (hwithin visit hvisit),
    List.flatMap_congr fun visit hvisit => callsOf_raise hlimit (hwithin visit hvisit)⟩

end

end Expansion

namespace DepthRule

/-! ## Rules -/

/-- The rule with another limit. -/
def withLimit (rule : DepthRule) (limit : Int) : DepthRule := { rule with limit }

variable {rule : DepthRule} {large : Int} (hlimit : rule.limit ≤ large) (doc : Document)

include hlimit

/-- An operation that does not exceed the limit is measured alike under a larger one. -/
theorem measured_raise {entry : String × Operation}
    (hdeep : ¬ Expansion.Exceeds (rule.context doc.fragmentNodes entry.1 none)
      (rule.faultsOf doc entry)) :
    (rule.withLimit large).depthOf doc entry = rule.depthOf doc entry ∧
      (rule.withLimit large).faultsOf doc entry = rule.faultsOf doc entry ∧
      (rule.withLimit large).callsOf doc entry = rule.callsOf doc entry := by
  have hsmall : (rule.context doc.fragmentNodes entry.1 none).limit ≤ large := hlimit
  obtain ⟨hdepth, hfaults, hcalls⟩ := Expansion.walk_raise hsmall hdeep
  exact ⟨Prod.ext rfl hdepth, hfaults, hcalls⟩

/-- A rule that nothing is too deep for measures all operations alike under a larger limit. -/
theorem depths_raise (hdeep : ∀ entry ∈ doc.operationIndex,
      ¬ Expansion.Exceeds (rule.context doc.fragmentNodes entry.1 none) (rule.faultsOf doc entry)) :
    (rule.withLimit large).depths doc = rule.depths doc ∧
      (rule.withLimit large).faults doc = rule.faults doc ∧
      (rule.withLimit large).calls doc = rule.calls doc ∧
      (rule.withLimit large).records doc = rule.records doc := by
  have hmeasured := fun entry hentry => measured_raise hlimit doc (hdeep entry hentry)
  refine ⟨List.map_congr_left fun entry hentry => (hmeasured entry hentry).1,
    List.flatMap_congr fun entry hentry => (hmeasured entry hentry).2.1,
    List.flatMap_congr fun entry hentry => (hmeasured entry hentry).2.2,
    List.map_congr_left fun entry hentry => ?_⟩
  rw [recordOf, recordOf, (hmeasured entry hentry).1]

/-- A rule alone that is not aborted and that nothing is too deep for does the same under a larger
limit. -/
theorem runAlone_raise (hpure : rule.policy.Pure)
    (haccepts : ∀ receiver ∈ rule.receiver, receiver (rule.depths doc) = .ok ())
    (hroom : (rule.faults doc).length ≤ maxViolations)
    (hdeep : ∀ entry ∈ doc.operationIndex,
      ¬ Expansion.Exceeds (rule.context doc.fragmentNodes entry.1 none) (rule.faultsOf doc entry)) :
    (rule.withLimit large).runAlone doc = rule.runAlone doc := by
  obtain ⟨hdepths, hfaults, hcalls, hrecords⟩ := depths_raise hlimit doc hdeep
  have hpure' : (rule.withLimit large).policy.Pure := hpure
  have hlarge : (rule.withLimit large).runAlone doc =
      ⟨((rule.withLimit large).faults doc).map PlacedFault.violation, false, none,
        (rule.receiver.map fun _ => (0, (rule.withLimit large).depths doc)).toList,
        (rule.withLimit large).calls doc, (rule.withLimit large).records doc⟩ :=
    runAlone_fits hpure' doc (by rwa [hfaults]) (by rwa [hdepths])
  rw [hlarge, runAlone_fits hpure doc hroom haccepts, hdepths, hfaults, hcalls, hrecords]

end DepthRule

/-! ## Validations -/

/-- **Raising a limit that is not hit changes nothing.** If a rule alone reports neither that an
operation of the document exceeds its limit nor that there are too many errors, then under a larger
limit it finds the same depths, and makes the same reports and calls in the same order. -/
theorem validate_raise {s : Schema} {doc : Document} {limit large : Int} (hlimit : limit ≤ large)
    {policy : Policy} (hpure : policy.Pure) {run : ValidationRun}
    (hrun : s.validate doc false [⟨limit, policy, some acceptAll⟩] = .ok run)
    (hdeep : ∀ v ∈ run.violations, ∀ op ∈ doc.operations,
      v.message ≠ (DepthFault.tooDeep op.label limit).message)
    (habort : Violation.tooMany ∉ run.violations) :
    s.validate doc false [⟨large, policy, some acceptAll⟩] = .ok run := by
  have hvalid := Schema.faults_of_validate hrun
  let rule : DepthRule := ⟨limit, policy, some acceptAll⟩
  have haccepts := DepthRule.accepts_of_acceptAll (rfl : rule.receiver = some acceptAll)
    (rule.depths doc)
  rw [Schema.validate_of_valid hvalid] at hrun ⊢
  obtain rfl : rule.runAlone doc = run := Except.ok.inj hrun
  have hroom : (rule.faults doc).length ≤ maxViolations := by
    refine Nat.not_lt.1 fun hfull => habort ?_
    obtain ⟨calls, log, hrun⟩ := DepthRule.runAlone_full hpure doc hfull
    rw [hrun]
    exact List.mem_append_right _ (List.mem_singleton_self _)
  rw [DepthRule.runAlone_fits hpure doc hroom haccepts] at hdeep
  have hsmall : rule.limit ≤ large := hlimit
  refine congrArg Except.ok (DepthRule.runAlone_raise hsmall doc hpure haccepts hroom
    fun entry hentry hexceeds => ?_)
  -- The operation that is too deep stands in the document, and its report among the violations.
  obtain ⟨r, hr, hfault⟩ := hexceeds
  obtain ⟨hname, before, after, hops, -⟩ := Document.mem_operationIndex.1 hentry
  have hop : entry.2 ∈ doc.operations := hops ▸ List.mem_append_right _ List.mem_cons_self
  have hmem : r.violation ∈ (rule.faults doc).map PlacedFault.violation :=
    List.mem_map_of_mem (List.mem_flatMap.2 ⟨entry, hentry, hr⟩)
  refine hdeep r.violation hmem entry.2 hop ?_
  rw [PlacedFault.violation, hfault, ← hname]
  rfl

/-- The spiral is two fields deep, has a fragment in itself and a spread of no fragment. -/
theorem validate_raise_spiral :
    (2 : Int) ≤ 5 ∧ Policy.empty.Pure ∧ ∃ run : ValidationRun,
      Schema.placeholder.validate .spiral false [⟨2, .empty, some acceptAll⟩] = .ok run ∧
      (∀ v ∈ run.violations, ∀ op ∈ Document.spiral.operations,
        v.message ≠ (DepthFault.tooDeep op.label 2).message) ∧
      Violation.tooMany ∉ run.violations ∧ run.violations ≠ [] ∧
      Schema.placeholder.validate .spiral false [⟨5, .empty, some acceptAll⟩] = .ok run := by
  have hrun := Schema.validate_of_valid Schema.faults_placeholder .spiral
    [⟨2, .empty, some acceptAll⟩]
  have hdeep : ∀ v ∈ (DepthRule.runAlone ⟨2, .empty, some acceptAll⟩ .spiral).violations,
      ∀ op ∈ Document.spiral.operations,
        v.message ≠ (DepthFault.tooDeep op.label 2).message := by
    decide +kernel
  have habort : Violation.tooMany ∉
      (DepthRule.runAlone ⟨2, .empty, some acceptAll⟩ .spiral).violations := by
    decide +kernel
  exact ⟨by decide, Policy.pure_empty, _, hrun, hdeep, habort, by decide +kernel,
    validate_raise (by decide) Policy.pure_empty hrun hdeep habort⟩

end QueryDepth
