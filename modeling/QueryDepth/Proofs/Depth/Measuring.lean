import QueryDepth.Depth.Rule
import QueryDepth.Proofs.Depth.Recording

/-!
# Measuring the operations of a document

A depth rule gives each operation a depth and some reports, which do not depend on the other
operations nor on how many reports there is room for: `depthOf`, `faultsOf`, `callsOf`.

**Theorem (`measureAll_fits`, `measureAll_full`).** Measuring operations one after the other gives
the depths of all if there is room for the reports of all. Otherwise it stops as full after exactly
the first reports, as many as there is room for.

The proof is an induction over the operations. Each leaves its successors the room that it has not
used itself.
-/

namespace QueryDepth.DepthRule

/-! ## One operation -/

section

variable (rule : DepthRule) (doc : Document) (entry : String × Operation)

/-- The depth of an operation, under its name in the index. -/
def depthOf : String × Int :=
  (entry.1, (doc.expansion entry.2).depthAt rule.limit rule.policy 0)

/-- What is reported about an operation if there is room enough. -/
def faultsOf : List PlacedFault :=
  (doc.expansion entry.2).faultsAt (rule.context doc.fragmentNodes entry.1 none) 0

/-- The calls of predicates made for an operation if there is room enough. -/
def callsOf : List Call :=
  (doc.expansion entry.2).callsAt (rule.context doc.fragmentNodes entry.1 none) 0

def recordOf : LogRecord := depthRecord entry.1 (rule.depthOf doc entry).2

/-! ## All operations -/

def depths : DepthMap := doc.operationIndex.map (rule.depthOf doc)

def faults : List PlacedFault := doc.operationIndex.flatMap (rule.faultsOf doc)

def calls : List Call := doc.operationIndex.flatMap (rule.callsOf doc)

def records : List LogRecord := doc.operationIndex.map (rule.recordOf doc)

end

/-! ## The walks -/

section

variable {rule : DepthRule} (hpure : rule.policy.Pure) (doc : Document)
  (entry : String × Operation)

include hpure

/-- An operation whose reports fit is measured to the end. -/
theorem run_operation_fits {room : Option Nat}
    (hroom : ∀ n ∈ room, (rule.faultsOf doc entry).length ≤ n) :
    Walk.run (rule.context doc.fragmentNodes entry.1 room) entry.2.node 0 [] =
      (.ok (rule.depthOf doc entry).2,
        (Walk.start []).record (rule.faultsOf doc entry) (rule.callsOf doc entry)) :=
  Walk.run_fits rfl hpure entry.2 0 (WalkContext.holds_iff.2 hroom)

/-- Any other is stopped after as many as there is room for. -/
theorem run_operation_full {room : Nat} (hroom : room < (rule.faultsOf doc entry).length) :
    ∃ calls, Walk.run (rule.context doc.fragmentNodes entry.1 (some room)) entry.2.node 0 [] =
      (.error .full, (Walk.start []).record ((rule.faultsOf doc entry).take room) calls) := by
  have hfragments : (rule.context doc.fragmentNodes entry.1 (some room)).fragments =
    doc.fragmentNodes := rfl
  obtain ⟨faults, calls, hrun, hprefix, hlength⟩ :=
    Walk.run_full hfragments hpure entry.2 0 (decide_eq_false (Nat.not_le.2 hroom))
  obtain rfl : room = faults.length := Option.some.inj hlength
  have htake : faults = (rule.faultsOf doc entry).take faults.length :=
    List.prefix_iff_eq_take.1 hprefix
  rw [← htake]
  exact ⟨calls, hrun⟩

/-- **With room for all reports, all operations are measured.** -/
theorem measureAll_fits : ∀ (entries : List (String × Operation)) (room : Option Nat),
    (∀ n ∈ room, (entries.flatMap (rule.faultsOf doc)).length ≤ n) →
    rule.measureAll doc.fragmentNodes (entries.map fun (name, op) => (name, op.node)) room =
      ⟨.ok (entries.map (rule.depthOf doc)), entries.flatMap (rule.faultsOf doc),
        entries.flatMap (rule.callsOf doc), entries.map (rule.recordOf doc)⟩
  | [], _, _ => rfl
  | entry :: entries, room, h => by
    rw [List.flatMap_cons, List.length_append] at h
    have hfirst := run_operation_fits hpure doc entry fun n hn => Nat.le_of_add_right_le (h n hn)
    have hrest := measureAll_fits entries (room.map (· - (rule.faultsOf doc entry).length)) (by
      intro n hn
      obtain ⟨m, hm, rfl⟩ := Option.map_eq_some_iff.1 hn
      have hboth := h m hm
      omega)
    simp only [List.map_cons, measureAll, hfirst]
    simp [Walk.start, WalkState.record, hrest, Except.map, recordOf, depthOf]

/-- **With less room, only as many reports are made.** -/
theorem measureAll_full : ∀ (entries : List (String × Operation)) (room : Nat),
    room < (entries.flatMap (rule.faultsOf doc)).length →
    ∃ calls log, rule.measureAll doc.fragmentNodes
        (entries.map fun (name, op) => (name, op.node)) (some room) =
      ⟨.error .full, (entries.flatMap (rule.faultsOf doc)).take room, calls, log⟩
  | [], _, h => absurd h (Nat.not_lt_zero _)
  | entry :: entries, room, h => by
    rw [List.flatMap_cons, List.length_append] at h
    rcases Nat.lt_or_ge room (rule.faultsOf doc entry).length with hlt | hge
    · obtain ⟨calls, hfirst⟩ := run_operation_full hpure doc entry hlt
      refine ⟨calls, [], ?_⟩
      simp only [List.map_cons, measureAll, hfirst]
      simp [Walk.start, WalkState.record, List.take_append_of_le_length (Nat.le_of_lt hlt)]
    · have hfirst := run_operation_fits hpure doc entry fun n hn => Option.mem_some.1 hn ▸ hge
      obtain ⟨calls, log, hrest⟩ :=
        measureAll_full entries (room - (rule.faultsOf doc entry).length) (by omega)
      refine ⟨rule.callsOf doc entry ++ calls, rule.recordOf doc entry :: log, ?_⟩
      simp only [List.map_cons, measureAll, hfirst]
      simp [Walk.start, WalkState.record, hrest, Except.map, recordOf, List.take_append,
        List.take_of_length_le hge]

end

/-! ## The rule -/

section

variable {rule : DepthRule} (hpure : rule.policy.Pure) (doc : Document)

include hpure

/-- With room for all reports, the rule hands its depths over, if there is a receiver. -/
theorem run_fits {room : Option Nat} (hroom : ∀ n ∈ room, (rule.faults doc).length ≤ n)
    (haccepts : ∀ receiver ∈ rule.receiver, receiver (rule.depths doc) = .ok ()) :
    rule.run doc room =
      ⟨none, rule.receiver.map fun _ => rule.depths doc, rule.faults doc, rule.calls doc,
        rule.records doc⟩ := by
  have hmeasured := measureAll_fits hpure doc doc.operationIndex room hroom
  unfold run Document.operationNodes
  rw [hmeasured]
  cases hreceiver : rule.receiver with
  | none => rfl
  | some receiver =>
    have haccept : receiver (doc.operationIndex.map (rule.depthOf doc)) = .ok () :=
      haccepts receiver hreceiver
    simp only [haccept]
    rfl

/-- With less, it hands over nothing. -/
theorem run_full {room : Nat} (hroom : room < (rule.faults doc).length) :
    ∃ calls log, rule.run doc (some room) =
      ⟨some .full, none, (rule.faults doc).take room, calls, log⟩ := by
  obtain ⟨calls, log, hmeasured⟩ := measureAll_full hpure doc doc.operationIndex room hroom
  refine ⟨calls, log ++ [failureRecord], ?_⟩
  unfold run Document.operationNodes
  rw [hmeasured]
  rfl

end

end QueryDepth.DepthRule
