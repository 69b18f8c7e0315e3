import QueryDepth.Proofs.Depth.Nesting
import QueryDepth.Proofs.Depth.Recording

/-!
# How the limit acts

A walk does not look below a node with more fields above it than the limit, and such a branch
counts `failedDepth`. Two facts say what this does to the result.

* A smaller limit clamps the depth (`depthAt_clamp`). Failed branches lie below a field at the
  limit, which makes up for the failure: it adds one to it.
* A node is too deep for the limit exactly if there is more nesting than the limit allows
  (`exceeds_iff`).

**Theorem (`run_exceeds_iff`).** The walk of an operation reports that the limit is exceeded if and
only if the true depth of the operation is greater, and then its depth is the limit.
-/

namespace QueryDepth

namespace Expansion

/-! ## Clamping -/

mutual

theorem failedDepth_le_depthAt (limit : Int) (policy : Policy) : ∀ (e : Expansion) (level : Int),
    failedDepth ≤ e.depthAt limit policy level
  | e, level => by
    by_cases hlevel : level > limit
    · exact Int.le_of_eq (depthAt_of_gt hlevel policy e).symm
    match e with
    | .leaf pos name => simp [depthAt, hlevel, failedDepth]
    | .field pos name children =>
      have hall := failedDepth_le_depthAll limit policy children (level + 1)
      rw [depthAt, if_neg hlevel]
      unfold failedDepth at hall ⊢
      split <;> omega
    | .group pos children =>
      rw [depthAt, if_neg hlevel]
      exact failedDepth_le_depthAll limit policy children level
    | .followed pos name fragment =>
      rw [depthAt, if_neg hlevel]
      exact failedDepth_le_depthAt limit policy fragment level
    | .missing pos name | .reentry pos name => simp [depthAt]
    | .other pos kind => simp [depthAt, hlevel, failedDepth]

theorem failedDepth_le_depthAll (limit : Int) (policy : Policy) :
    ∀ (es : List Expansion) (level : Int), failedDepth ≤ depthAll limit policy es level
  | [], level => by simp [depthAll, failedDepth]
  | [e], level => failedDepth_le_depthAt limit policy e level
  | e :: e' :: more, level => by
    rw [depthAll]
    exact Int.le_trans (failedDepth_le_depthAt limit policy e level) (Int.le_max_left ..)

end

/-- Below the limit there are only failures. -/
theorem depthAll_of_gt {limit level : Int} (hlevel : level > limit) (policy : Policy) :
    ∀ {es : List Expansion}, es ≠ [] → depthAll limit policy es level = failedDepth
  | [], h => absurd rfl h
  | [e], _ => depthAt_of_gt hlevel policy e
  | e :: e' :: more, _ => by
    rw [depthAll, depthAt_of_gt hlevel,
      depthAll_of_gt hlevel policy (List.cons_ne_nil e' more)]
    exact Int.max_self ..

mutual

/-- **The clamping law.** With a smaller limit the depth is cut to what that limit allows. -/
theorem depthAt_clamp {limit large : Int} (hlimit : limit ≤ large) (policy : Policy) :
    ∀ (e : Expansion) (level : Int), e.Every IsBranching → level ≤ limit →
      e.depthAt limit policy level = min (e.depthAt large policy level) (limit - level)
  | e, level, hbranch, hlevel => by
    have hsmall : ¬ level > limit := Int.not_lt.2 hlevel
    have hlarge : ¬ level > large := Int.not_lt.2 (Int.le_trans hlevel hlimit)
    match e, hbranch with
    | .leaf pos name, _ =>
      rw [depthAt, depthAt, if_neg hsmall, if_neg hlarge]
      omega
    | .field pos name children, .field hne hchildren =>
      have hfailed := failedDepth_le_depthAll large policy children (level + 1)
      rw [depthAt, depthAt, if_neg hsmall, if_neg hlarge]
      split
      · omega
      · rcases Int.lt_or_eq_of_le hlevel with hlt | rfl
        · rw [depthAll_clamp hlimit policy children (level + 1) hchildren (by omega)]
          omega
        · -- at the limit all children fail, and the field makes up for it
          rw [depthAll_of_gt (show level + 1 > level by omega) policy hne]
          unfold failedDepth at hfailed ⊢
          omega
    | .group pos children, .group _ hchildren =>
      rw [depthAt, depthAt, if_neg hsmall, if_neg hlarge]
      exact depthAll_clamp hlimit policy children level hchildren hlevel
    | .followed pos name fragment, .followed _ hfragment =>
      rw [depthAt, depthAt, if_neg hsmall, if_neg hlarge]
      exact depthAt_clamp hlimit policy fragment level hfragment hlevel
    | .missing pos name, _ | .reentry pos name, _ =>
      rw [depthAt, depthAt]
      unfold failedDepth
      omega
    | .other pos kind, _ =>
      rw [depthAt, depthAt, if_neg hsmall, if_neg hlarge]
      omega

theorem depthAll_clamp {limit large : Int} (hlimit : limit ≤ large) (policy : Policy) :
    ∀ (es : List Expansion) (level : Int), (∀ e ∈ es, e.Every IsBranching) → level ≤ limit →
      depthAll limit policy es level = min (depthAll large policy es level) (limit - level)
  | [], level, _, hlevel => by
    rw [depthAll, depthAll]
    omega
  | [e], level, h, hlevel => depthAt_clamp hlimit policy e level (h e List.mem_cons_self) hlevel
  | e :: e' :: more, level, h, hlevel => by
    have hrest : ∀ e ∈ e' :: more, e.Every IsBranching := fun e he =>
      h e (List.mem_cons_of_mem _ he)
    rw [depthAll, depthAll, depthAt_clamp hlimit policy e level (h e List.mem_cons_self) hlevel,
      depthAll_clamp hlimit policy (e' :: more) level hrest hlevel]
    omega

end

/-! ## Depth and nesting -/

mutual

/-- A limit that leaves room for all nesting loses at most the innermost level, to failures. -/
theorem nesting_le_depthAt (limit : Int) (policy : Policy) : ∀ (e : Expansion) (level : Int),
    level + e.nesting policy ≤ limit → e.nesting policy - 1 ≤ e.depthAt limit policy level
  | .leaf pos name, level, _ | .missing pos name, level, _ | .reentry pos name, level, _
  | .other pos kind, level, _ => by
    rw [nesting]
    exact failedDepth_le_depthAt limit policy _ level
  | .field pos name children, level, h => by
    cases hskip : policy.skips name with
    | true =>
      rw [nesting, if_pos hskip] at h ⊢
      rw [depthAt, if_neg (by omega), if_pos hskip]
      omega
    | false =>
      have hcounts : ¬ policy.skips name = true := by simp [hskip]
      rw [nesting, if_neg hcounts] at h ⊢
      rw [depthAt, if_neg (by omega), if_neg hcounts]
      have hall := nestingAll_le_depthAll limit policy children (level + 1) (by omega)
      omega
  | .group pos children, level, h => by
    rw [nesting] at h ⊢
    rw [depthAt, if_neg (by omega)]
    exact nestingAll_le_depthAll limit policy children level h
  | .followed pos name fragment, level, h => by
    rw [nesting] at h ⊢
    rw [depthAt, if_neg (by omega)]
    exact nesting_le_depthAt limit policy fragment level h

theorem nestingAll_le_depthAll (limit : Int) (policy : Policy) :
    ∀ (es : List Expansion) (level : Int), level + nestingAll policy es ≤ limit →
      nestingAll policy es - 1 ≤ depthAll limit policy es level
  | [], level, h => by simp [nestingAll, depthAll]
  | [e], level, h => by
    simp only [nestingAll, Nat.max_zero] at h ⊢
    exact nesting_le_depthAt limit policy e level h
  | e :: e' :: more, level, h => by
    rw [nestingAll] at h ⊢
    have hfirst := nesting_le_depthAt limit policy e level (by omega)
    have hrest := nestingAll_le_depthAll limit policy (e' :: more) level (by omega)
    rw [depthAll]
    omega

end

/-- Where the limit is exceeded, the depth is all that the limit leaves. -/
theorem depthAt_eq_of_lt_nesting {limit level : Int} {policy : Policy} {e : Expansion}
    (hbranch : e.Every IsBranching) (hlevel : level ≤ limit)
    (hexceeds : limit - level < e.nesting policy) :
    e.depthAt limit policy level = limit - level := by
  -- under a limit with room for all nesting the depth is at most one short of the nesting
  have hroomy := nesting_le_depthAt (level + e.nesting policy) policy e level (Int.le_refl _)
  rw [depthAt_clamp (show limit ≤ level + e.nesting policy by omega) policy e level hbranch hlevel]
  exact Int.min_eq_right (by omega)

/-! ## Reports of nodes that are too deep -/

/-- Some report says that the limit is exceeded. -/
def Exceeds (ctx : WalkContext) (faults : List PlacedFault) : Prop :=
  ∃ r ∈ faults, r.fault = .tooDeep ctx.operation ctx.limit

@[simp] theorem exceeds_nil (ctx : WalkContext) : ¬ Exceeds ctx [] := by
  simp [Exceeds]

@[simp] theorem exceeds_append {ctx : WalkContext} {faults faults' : List PlacedFault} :
    Exceeds ctx (faults ++ faults') ↔ Exceeds ctx faults ∨ Exceeds ctx faults' := by
  simp [Exceeds, or_and_right, exists_or]

theorem exceeds_faultsAll_of_gt {ctx : WalkContext} {level : Int} (hlevel : level > ctx.limit) :
    ∀ {es : List Expansion}, es ≠ [] → Exceeds ctx (faultsAll ctx es level)
  | [], h => absurd rfl h
  | e :: es, _ => by
    rw [faultsAll_cons, exceeds_append, faultsAt_of_gt hlevel]
    exact .inl ⟨_, List.mem_cons_self, rfl⟩

mutual

/-- **The limit is exceeded exactly if there is more nesting than it allows.** -/
theorem exceeds_iff {ctx : WalkContext} : ∀ (e : Expansion) (level : Int),
    e.Every IsBranching → level ≤ ctx.limit →
      (Exceeds ctx (e.faultsAt ctx level) ↔ ctx.limit - level < e.nesting ctx.policy)
  | e, level, hbranch, hlevel => by
    have hle : ¬ level > ctx.limit := Int.not_lt.2 hlevel
    match e, hbranch with
    | .leaf pos name, _ =>
      rw [faultsAt_leaf _ _ hle, nesting]
      simpa using hlevel
    | .field pos name children, .field hne hchildren =>
      rw [faultsAt_field _ _ _ hle, nesting]
      split
      · simpa using hlevel
      rcases Int.lt_or_eq_of_le hlevel with hlt | heq
      · rw [exceeds_faultsAll_iff children (level + 1) hchildren (by omega)]
        omega
      · have hexceeds := exceeds_faultsAll_of_gt (show level + 1 > ctx.limit by omega) hne
        exact iff_of_true hexceeds (by omega)
    | .group pos children, .group _ hchildren =>
      rw [faultsAt_group _ _ hle, nesting]
      exact exceeds_faultsAll_iff children level hchildren hlevel
    | .followed pos name fragment, .followed _ hfragment =>
      rw [faultsAt_followed _ _ hle, nesting]
      exact exceeds_iff fragment level hfragment hlevel
    | .missing pos name, _ =>
      rw [faultsAt_missing _ _ hle, nesting]
      simpa [Exceeds] using hlevel
    | .reentry pos name, _ =>
      rw [faultsAt_reentry _ _ hle, nesting]
      simpa [Exceeds] using hlevel
    | .other pos kind, _ =>
      rw [faultsAt_other _ _ hle, nesting]
      simpa using hlevel

theorem exceeds_faultsAll_iff {ctx : WalkContext} : ∀ (es : List Expansion) (level : Int),
    (∀ e ∈ es, e.Every IsBranching) → level ≤ ctx.limit →
      (Exceeds ctx (faultsAll ctx es level) ↔ ctx.limit - level < nestingAll ctx.policy es)
  | [], level, _, hlevel => by
    simpa [nestingAll] using hlevel
  | e :: es, level, h, hlevel => by
    rw [faultsAll_cons, exceeds_append, exceeds_iff e level (h e List.mem_cons_self) hlevel,
      exceeds_faultsAll_iff es level (fun e he => h e (List.mem_cons_of_mem _ he)) hlevel,
      nestingAll]
    omega

end

end Expansion

/-! ## The limit of an operation -/

namespace Walk

/-- **The limit is exceeded exactly by operations that are deeper.** True depth is the greatest
number of counting fields on a path. The walk of an operation comes to its end, it reports that the
limit is exceeded if and only if the true depth is greater, and then its depth is the limit. -/
theorem run_exceeds_iff (doc : Document) (op : Operation) (name : String) {limit : Int}
    (hlimit : 0 ≤ limit) {policy : Policy} (hpure : policy.Pure) :
    IsGreatest {n | op.node.Path doc.fragmentNodes policy [] n} (doc.trueDepth policy op) ∧
    ∃ depth s, run ⟨doc.fragmentNodes, limit, name, policy, none⟩ op.node 0 [] = (.ok depth, s) ∧
      ((∃ r ∈ s.reports, r.fault = .tooDeep name limit) ↔ limit < doc.trueDepth policy op) ∧
      (limit < doc.trueDepth policy op → depth = limit) := by
  let ctx : WalkContext := ⟨doc.fragmentNodes, limit, name, policy, none⟩
  have hbranch := doc.branching_expansion op
  have hrun : run ctx op.node 0 [] = _ := run_fits rfl hpure op 0 rfl
  have hiff : Expansion.Exceeds ctx ((doc.expansion op).faultsAt ctx 0) ↔ _ :=
    Expansion.exceeds_iff (doc.expansion op) 0 hbranch hlimit
  refine ⟨doc.isGreatest_trueDepth policy op, _, _, hrun, ?_, fun hexceeds => ?_⟩
  · simpa [Expansion.Exceeds, WalkState.record, start, Document.trueDepth, ctx] using hiff
  · have hnesting : limit - 0 < (doc.expansion op).nesting policy := by
      simpa [Document.trueDepth] using hexceeds
    simpa using Expansion.depthAt_eq_of_lt_nesting hbranch hlimit hnesting

end Walk

/-- A query that is too deep only in a fragment, beside a missing and a cyclic spread. -/
def Operation.spiral : Operation :=
  .bare "Q" [.bareField "a" [.bareSpread "F"], .bareSpread "G"]

def Document.spiral : Document :=
  ⟨[.operation .spiral,
    .fragment (.bare "F" "T" [.bareSpread "F", .bareField "b" [.bareField "c" []]])]⟩

theorem Document.fragmentNodes_spiral : spiral.fragmentNodes =
    [("F", .group (some 0)
      [.spread (some 0) "F", .field (some 0) "b" (some [.field (some 0) "c" none])])] := rfl

theorem Document.trueDepth_spiral : spiral.trueDepth .empty .spiral = 2 := by
  simp [trueDepth, expansion, fragmentNodes_spiral, Operation.spiral, Operation.bare,
    Operation.node, Selection.bareField, Selection.bareSpread, Selection.node, Selection.nodes,
    Node.expand_spread, List.lookup_cons, Expansion.nesting, Expansion.nestingAll, Policy.skips,
    Policy.empty, isIntrospectionName]

theorem Walk.run_exceeds_iff_spiral :
    (0 : Int) ≤ 1 ∧ Policy.empty.Pure ∧ Document.spiral.trueDepth .empty .spiral = 2 ∧
      ∃ s, run ⟨Document.spiral.fragmentNodes, 1, "Q", .empty, none⟩ Operation.spiral.node 0 [] =
        (.ok 1, s) ∧ ∃ r ∈ s.reports, r.fault = .tooDeep "Q" 1 := by
  have hlimit : (0 : Int) ≤ 1 := by decide
  refine ⟨hlimit, Policy.pure_empty, Document.trueDepth_spiral, ?_⟩
  obtain ⟨-, depth, s, hrun, hiff, hlast⟩ :=
    run_exceeds_iff Document.spiral .spiral "Q" hlimit Policy.pure_empty
  rw [Document.trueDepth_spiral] at hiff hlast
  rw [hlast (by decide)] at hrun
  exact ⟨s, hrun, hiff.2 (by decide)⟩

end QueryDepth
