import QueryDepth.Proofs.Validation.Coverage

/-!
# Operations are measured independently

What a depth rule does with an operation depends on the operation and the fragments, and on no other
operation. So measuring a document is measuring, one after the other, documents that have a single
operation each.

**Theorem (`validate_concat`).** If the reports about all operations fit, a rule alone hands over
the depths that it finds in these documents, in the order of the index, with their reports and log
records one after the other. Otherwise it reports the first of them, as many as there is room for,
and hands over nothing.
-/

namespace QueryDepth

namespace Document

/-! ## A single operation -/

/-- The document has this operation alone, and the fragments of the other document. -/
structure Isolates (alone doc : Document) (op : Operation) : Prop where
  operations : alone.operations = [op]
  fragments : alone.fragments = doc.fragments

/-- An operation of a document with the fragments of the document. -/
def only (doc : Document) (op : Operation) : Document :=
  ⟨.operation op :: doc.fragments.map .fragment⟩

theorem isolates_only (doc : Document) (op : Operation) : (doc.only op).Isolates doc op where
  operations := by simp [only, Document.operations, Definition.operation?]
  fragments := by
    unfold only Document.fragments
    rw [List.filterMap_cons, List.filterMap_map]
    exact List.filterMap_some

namespace Isolates

variable {alone doc : Document} {op : Operation}

theorem operationIndex (h : alone.Isolates doc op) : alone.operationIndex = [(op.label, op)] := by
  unfold Document.operationIndex
  rw [h.operations]
  rfl

theorem fragmentNodes (h : alone.Isolates doc op) : alone.fragmentNodes = doc.fragmentNodes := by
  unfold Document.fragmentNodes fragmentIndex
  rw [h.fragments]

end Isolates

end Document

namespace DepthRule

/-- **An operation is measured as if it were alone.** -/
theorem run_isolates {rule : DepthRule} (hpure : rule.policy.Pure) {alone doc : Document}
    {entry : String × Operation} (halone : alone.Isolates doc entry.2)
    (hlabel : entry.1 = entry.2.label)
    (haccepts : ∀ receiver ∈ rule.receiver, receiver [rule.depthOf doc entry] = .ok ()) :
    rule.run alone none = ⟨none, rule.receiver.map fun _ => [rule.depthOf doc entry],
      rule.faultsOf doc entry, rule.callsOf doc entry, [rule.recordOf doc entry]⟩ := by
  have hindex : alone.operationIndex = [entry] := by
    rw [halone.operationIndex, ← hlabel]
  have hdepths : rule.depths alone = [rule.depthOf doc entry] := by
    simp [depths, hindex, depthOf, Document.expansion, halone.fragmentNodes]
  have hfaults : rule.faults alone = rule.faultsOf doc entry := by
    simp [faults, hindex, faultsOf, Document.expansion, halone.fragmentNodes]
  have hcalls : rule.calls alone = rule.callsOf doc entry := by
    simp [calls, hindex, callsOf, Document.expansion, halone.fragmentNodes]
  have hrecords : rule.records alone = [rule.recordOf doc entry] := by
    simp [records, hindex, recordOf, depthOf, Document.expansion, halone.fragmentNodes]
  rw [run_fits hpure alone (by simp) (hdepths ▸ haccepts), hdepths, hfaults, hcalls, hrecords]

end DepthRule

/-! ## All operations -/

/-- **A run is the concatenation of its operations.** Each operation of the index is the last of its
name, and has the depth and the reports that it has in any document where it is alone with the
fragments. A rule alone gives the depths of all in order, with all reports and a record for each, if
there is room for the reports. Otherwise it gives the first reports, then says that there are too
many, and gives no depths. -/
theorem validate_concat {s : Schema} (hvalid : s.faults = []) (doc : Document) (limit : Int)
    {policy : Policy} (hpure : policy.Pure) {alone : String × Operation → Document}
    (halone : ∀ entry ∈ doc.operationIndex, (alone entry).Isolates doc entry.2) :
    ∃ (depth : String × Operation → Int) (errors : String × Operation → List PlacedFault)
      (run : ValidationRun),
      (∀ entry ∈ doc.operationIndex,
        (entry.1 = entry.2.label ∧ ∃ before after, doc.operations = before ++ entry.2 :: after ∧
          ∀ later ∈ after, later.label ≠ entry.2.label) ∧
        ∃ calls, DepthRule.run ⟨limit, policy, some acceptAll⟩ (alone entry) none =
          ⟨none, some [(entry.1, depth entry)], errors entry, calls,
            [depthRecord entry.1 (depth entry)]⟩) ∧
      s.validate doc false [⟨limit, policy, some acceptAll⟩] = .ok run ∧ run.failure = none ∧
      if (doc.operationIndex.flatMap errors).length ≤ maxViolations then
        run.depths = doc.operationIndex.map (fun entry => (entry.1, depth entry)) ∧
        run.violations = (doc.operationIndex.flatMap errors).map PlacedFault.violation ∧
        run.log = doc.operationIndex.map (fun entry => depthRecord entry.1 (depth entry))
      else
        run.violations = ((doc.operationIndex.flatMap errors).take maxViolations).map
          PlacedFault.violation ++ [.tooMany] ∧
        run.handed = [] ∧ run.depths = [] := by
  let rule : DepthRule := ⟨limit, policy, some acceptAll⟩
  have haccepts : ∀ (depths : DepthMap), ∀ receiver ∈ rule.receiver, receiver depths = .ok () :=
    fun _ _ hreceiver => Option.some.inj hreceiver ▸ rfl
  refine ⟨fun entry => (rule.depthOf doc entry).2, rule.faultsOf doc, rule.runAlone doc,
    fun entry hentry => ?_, Schema.validate_of_valid hvalid doc [rule], ?_⟩
  · have hlast := Document.mem_operationIndex.1 hentry
    have hrun := DepthRule.run_isolates hpure (halone entry hentry) hlast.1 (haccepts _)
    exact ⟨hlast, rule.callsOf doc entry, hrun⟩
  · change _ ∧ if (rule.faults doc).length ≤ maxViolations then _ else _
    split
    · next hroom =>
      rw [DepthRule.runAlone_fits hpure doc hroom (haccepts _)]
      exact ⟨rfl, rfl, rfl, rfl⟩
    · next hroom =>
      obtain ⟨calls, log, hrun⟩ := DepthRule.runAlone_full hpure doc (Nat.not_le.1 hroom)
      rw [hrun]
      exact ⟨rfl, rfl, rfl, rfl⟩

/-- A query that is deep by a fragment, which spreads itself. -/
def Operation.left : Operation := .bare "B" [.bareField "b" [.bareSpread "F"]]

/-- A query that spreads the same fragment, and one that is missing. -/
def Operation.right : Operation := .bare "A" [.bareSpread "F", .bareSpread "G"]

/-- The two queries, in front of them one that the second replaces. -/
def Document.neighbours : Document :=
  ⟨[.operation (.bare "A" [.bareField "a" [.bareField "b" [.bareField "c" []]]]),
    .operation .left,
    .fragment (.bare "F" "T" [.bareField "a" [.bareField "b" []], .bareSpread "F"]),
    .operation .right]⟩

theorem Document.operationIndex_neighbours :
    neighbours.operationIndex = [("A", .right), ("B", .left)] := rfl

theorem validate_concat_neighbours : Schema.placeholder.faults = [] ∧ Policy.empty.Pure ∧
    (∀ entry ∈ Document.neighbours.operationIndex,
      (Document.neighbours.only entry.2).Isolates .neighbours entry.2) ∧
    ∃ run, Schema.placeholder.validate .neighbours false [⟨1, .empty, some acceptAll⟩] = .ok run ∧
      run.depths = [("A", 1), ("B", 1)] ∧
      run.violations = [PlacedFault.mk (.cyclicFragment "F" "A") (some 0),
        ⟨.missingFragment "G", some 0⟩, ⟨.tooDeep "B" 1, some 0⟩,
        ⟨.cyclicFragment "F" "B", some 0⟩].map PlacedFault.violation := by
  have halone : ∀ entry ∈ Document.neighbours.operationIndex,
      (Document.neighbours.only entry.2).Isolates .neighbours entry.2 :=
    fun entry _ => Document.neighbours.isolates_only entry.2
  refine ⟨Schema.faults_placeholder, Policy.pure_empty, halone, ?_⟩
  obtain ⟨depth, errors, run, hentries, hrun, -, hall⟩ :=
    validate_concat Schema.faults_placeholder .neighbours 1 Policy.pure_empty halone
  rw [Document.operationIndex_neighbours] at hentries hall
  obtain ⟨-, _, hright⟩ := hentries _ (.head _)
  obtain ⟨-, _, hleft⟩ := hentries _ (.tail _ (.head _))
  have hdepth : depth ("A", .right) = 1 ∧ depth ("B", .left) = 1 := by
    have hhanded := congrArg DepthRun.handed hright
    have hhanded' := congrArg DepthRun.handed hleft
    change some [("A", (1 : Int))] = _ at hhanded
    change some [("B", (1 : Int))] = _ at hhanded'
    exact ⟨by simpa using hhanded.symm, by simpa using hhanded'.symm⟩
  have herrors : errors ("A", .right) = [⟨.cyclicFragment "F" "A", some 0⟩,
        ⟨.missingFragment "G", some 0⟩] ∧
      errors ("B", .left) = [⟨.tooDeep "B" 1, some 0⟩, ⟨.cyclicFragment "F" "B", some 0⟩] :=
    ⟨(congrArg DepthRun.reports hright).symm, (congrArg DepthRun.reports hleft).symm⟩
  simp only [List.flatMap_cons, List.flatMap_nil, List.map_cons, List.map_nil, hdepth.1, hdepth.2,
    herrors.1, herrors.2] at hall
  rw [if_pos (by decide)] at hall
  exact ⟨run, hrun, hall.1, hall.2.1⟩

end QueryDepth
