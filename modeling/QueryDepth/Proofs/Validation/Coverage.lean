import QueryDepth.Document.Parser
import QueryDepth.Proofs.Depth.Limit
import QueryDepth.Proofs.Index
import QueryDepth.Proofs.Validation.Alone

/-!
# Which operations are checked

A depth rule measures the operations of the index, and the index keeps the last operation of each
name. So a document without violations may still have an operation that is too deep, if another of
the same name follows it. All others are as shallow as the limit says.

**Theorem (`trueDepth_le_of_no_violations`).** If a rule alone finds nothing, every operation that
no other of its name follows has a true depth of at most the limit.
-/

namespace QueryDepth

/-- **An operation is in the index if and only if no other of its name follows it.** -/
theorem Document.mem_operationIndex {doc : Document} {name : String} {op : Operation} :
    (name, op) ∈ doc.operationIndex ↔ name = op.label ∧ ∃ before after,
      doc.operations = before ++ op :: after ∧ ∀ later ∈ after, later.label ≠ op.label := by
  unfold operationIndex
  rw [Index.mem_ofEntries]
  constructor
  · rintro ⟨before, after, hsplit, hafter⟩
    obtain ⟨before', rest, hops, -, hrest⟩ := List.map_eq_append_iff.1 hsplit
    obtain ⟨op', after', rfl, hop, rfl⟩ := List.map_eq_cons_iff.1 hrest
    obtain ⟨rfl, rfl⟩ := Prod.mk.inj hop
    exact ⟨rfl, before', after', hops, fun later hlater =>
      hafter (later.label, later) (List.mem_map_of_mem hlater)⟩
  · rintro ⟨rfl, before, after, hops, hafter⟩
    refine ⟨before.map fun op => (op.label, op), after.map fun op => (op.label, op), ?_, ?_⟩
    · rw [hops, List.map_append, List.map_cons]
    · intro entry hentry
      obtain ⟨later, hlater, rfl⟩ := List.mem_map.1 hentry
      exact hafter later hlater

namespace DepthRule

/-- An operation of the index that is too deep is reported. -/
theorem faults_ne_nil {rule : DepthRule} (hlimit : 0 ≤ rule.limit) {doc : Document}
    {entry : String × Operation} (hentry : entry ∈ doc.operationIndex)
    (hdeep : rule.limit < doc.trueDepth rule.policy entry.2) : rule.faults doc ≠ [] := by
  intro hnil
  have hnone : rule.faultsOf doc entry = [] := List.flatMap_eq_nil_iff.1 hnil entry hentry
  have hnesting : rule.limit - 0 < (doc.expansion entry.2).nesting rule.policy := by
    rw [Int.sub_zero]
    exact hdeep
  have hexceeds : Expansion.Exceeds (rule.context doc.fragmentNodes entry.1 none)
      (rule.faultsOf doc entry) :=
    (Expansion.exceeds_iff (doc.expansion entry.2) 0 (doc.branching_expansion entry.2) hlimit).2
      hnesting
  rw [hnone] at hexceeds
  exact Expansion.exceeds_nil _ hexceeds

/-- A rule alone that finds nothing has nothing to report. -/
theorem faults_of_no_violations {rule : DepthRule} (hpure : rule.policy.Pure) {doc : Document}
    (haccepts : ∀ receiver ∈ rule.receiver, receiver (rule.depths doc) = .ok ())
    (hnone : (rule.runAlone doc).violations = []) : rule.faults doc = [] := by
  rcases Nat.lt_or_ge maxViolations (rule.faults doc).length with hfull | hfits
  · obtain ⟨calls, log, hrun⟩ := runAlone_full hpure doc hfull
    rw [hrun] at hnone
    exact absurd hnone (List.append_ne_nil_of_right_ne_nil _ (List.cons_ne_nil _ _))
  · rw [runAlone_fits hpure doc hfits haccepts] at hnone
    exact List.map_eq_nil_iff.1 hnone

end DepthRule

/-- **No operation of the index slips through.** If measuring a document finds nothing, the last
operation of every name is at most as deep as the limit. -/
theorem trueDepth_le_of_no_violations {limit : Int} (hlimit : 0 ≤ limit) {policy : Policy}
    (hpure : policy.Pure) {doc : Document}
    (hnone : (DepthRule.runAlone ⟨limit, policy, some acceptAll⟩ doc).violations = [])
    {before after : List Operation} {op : Operation} (hops : doc.operations = before ++ op :: after)
    (hlast : ∀ later ∈ after, later.label ≠ op.label) : doc.trueDepth policy op ≤ limit := by
  have hindex : (op.label, op) ∈ doc.operationIndex :=
    Document.mem_operationIndex.2 ⟨rfl, before, after, hops, hlast⟩
  have hfaults : (DepthRule.mk limit policy (some acceptAll)).faults doc = [] :=
    DepthRule.faults_of_no_violations hpure (fun receiver h => Option.some.inj h ▸ rfl) hnone
  exact Int.not_lt.1 fun hdeep => DepthRule.faults_ne_nil hlimit hindex hdeep hfaults

/-- `query Q { a { b { c } } } query Q { a }`: a deep operation, and a flat one of the same name. -/
def Document.namesakes : Document :=
  ⟨[.operation ⟨0, .query, some ⟨6, "Q"⟩, [], [], 8,
      [.field ⟨10, none, ⟨10, "a"⟩, [], [], 12⟩
        [.field ⟨14, none, ⟨14, "b"⟩, [], [], 16⟩ [.field ⟨18, none, ⟨18, "c"⟩, [], [], 0⟩ []]]]⟩,
    .operation ⟨26, .query, some ⟨32, "Q"⟩, [], [], 34,
      [.field ⟨36, none, ⟨36, "a"⟩, [], [], 0⟩ []]⟩]⟩

theorem Document.parse_namesakes :
    parse "query Q { a { b { c } } } query Q { a }" = .ok namesakes := rfl

theorem Document.operations_namesakes : ∃ deep flat, namesakes.operations = [deep, flat] ∧
    namesakes.trueDepth .empty deep = 2 ∧ namesakes.trueDepth .empty flat = 0 := by
  refine ⟨_, _, rfl, ?_, ?_⟩ <;>
    simp [namesakes, trueDepth, expansion, Operation.node, Selection.nodes, Selection.node,
      Expansion.nesting, Expansion.nestingAll, Policy.skips, Policy.empty, isIntrospectionName]

/-- The deep operation is not in the index. -/
theorem Document.violations_namesakes :
    (DepthRule.runAlone ⟨1, .empty, some acceptAll⟩ .namesakes).violations = [] := by
  decide +kernel

theorem trueDepth_le_of_no_violations_namesakes : ∃ deep flat,
    Document.namesakes.operations = [deep] ++ flat :: [] ∧ (0 : Int) ≤ 1 ∧ Policy.empty.Pure ∧
      (DepthRule.runAlone ⟨1, .empty, some acceptAll⟩ .namesakes).violations = [] ∧
      Document.namesakes.trueDepth .empty flat ≤ (1 : Int) := by
  obtain ⟨deep, flat, hops, -, -⟩ := Document.operations_namesakes
  have hsplit : Document.namesakes.operations = [deep] ++ flat :: [] := hops
  have hlimit : (0 : Int) ≤ 1 := by decide
  exact ⟨deep, flat, hsplit, hlimit, Policy.pure_empty, Document.violations_namesakes,
    trueDepth_le_of_no_violations hlimit Policy.pure_empty Document.violations_namesakes hsplit
      nofun⟩

theorem hidden_namesake : ¬ ∀ (text : String) (doc : Document) (limit : Int) (policy : Policy),
    Document.parse text = .ok doc → 1 ≤ limit → policy.Pure →
    (DepthRule.runAlone ⟨limit, policy, some acceptAll⟩ doc).violations = [] →
    ∀ op ∈ doc.operations, doc.trueDepth policy op ≤ limit := by
  intro hclaim
  obtain ⟨deep, flat, hops, hdeep, -⟩ := Document.operations_namesakes
  have hshallow := hclaim _ .namesakes 1 .empty Document.parse_namesakes (by decide)
    Policy.pure_empty Document.violations_namesakes deep (by simp [hops])
  rw [hdeep] at hshallow
  exact absurd hshallow (by decide)

end QueryDepth
