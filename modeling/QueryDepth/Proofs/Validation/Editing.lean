import QueryDepth.Proofs.Depth.Reaching
import QueryDepth.Proofs.Validation.Alone
import QueryDepth.Validation.Rule.Definition

/-!
# Editing a document

The rule works on two indexes of a document, in which a name keeps its first place and takes its
last definition. So a document may be edited in many ways that its depths do not show: definitions
of types may come and go, also fragments that no operation reaches; fragments may be moved past
definitions of other names; and what is defined again later may be deleted.

**Theorem (`validate_edited`).** Any number of such edits in any order leaves all that a rule alone
does with the document: the depths and violations in order, the calls of predicates and the records.

An index is known by the order of its keys and by what is found under each (`Index.eq_of_lookup`).
That is enough for the operations. Of the fragments only what is found under reached names is the
same (`Edit.index`), and only that matters (`DepthRule.run_congr`).
-/

namespace QueryDepth

/-! ## The edits -/

/-- The labels of the operations, in the order in which they come first. -/
def Document.labels (doc : Document) : List String :=
  (doc.operations.map Operation.label).eraseDups

/-- A document is edited in a way that does not count under the policy. -/
inductive Document.Edit (policy : Policy) : Document → Document → Prop
  /-- A definition or an extension of a type system may be anywhere. -/
  | insertType {before after : List Definition} {d : Definition} : d.isExecutable = false →
      Edit policy ⟨before ++ after⟩ ⟨before ++ d :: after⟩
  | deleteType {before after : List Definition} {d : Definition} : d.isExecutable = false →
      Edit policy ⟨before ++ d :: after⟩ ⟨before ++ after⟩
  /-- So may a fragment that is not reached from an operation. -/
  | insertFragment {before after : List Definition} {f : Fragment} :
      ¬ Reaches ⟨before ++ after⟩ policy f.name.value →
      Edit policy ⟨before ++ after⟩ ⟨before ++ .fragment f :: after⟩
  | deleteFragment {before after : List Definition} {f : Fragment} :
      ¬ Reaches ⟨before ++ .fragment f :: after⟩ policy f.name.value →
      Edit policy ⟨before ++ .fragment f :: after⟩ ⟨before ++ after⟩
  /-- Fragments of different names may change places, also with other definitions. -/
  | moveFragments {doc doc' : Document} :
      doc'.definitions.filter (·.fragment?.isNone) = doc.definitions.filter (·.fragment?.isNone) →
      (∀ name, doc'.fragments.filter (·.name.value = name) =
        doc.fragments.filter (·.name.value = name)) →
      Edit policy doc doc'
  /-- A later fragment of its name takes the place of a fragment. -/
  | deleteOldFragment {before after : List Definition} {f later : Fragment} :
      .fragment later ∈ after → later.name.value = f.name.value →
      Edit policy ⟨before ++ .fragment f :: after⟩ ⟨before ++ after⟩
  /-- A later operation takes the place of an operation, if that keeps the order of the labels. -/
  | deleteOldOperation {before after : List Definition} {op later : Operation} :
      .operation later ∈ after → later.label = op.label →
      labels ⟨before ++ after⟩ = labels ⟨before ++ .operation op :: after⟩ →
      Edit policy ⟨before ++ .operation op :: after⟩ ⟨before ++ after⟩

/-! ## What an edit leaves in the indexes -/

/-- A definition of a type system is neither an operation nor a fragment. -/
theorem Definition.of_not_isExecutable {d : Definition} (h : d.isExecutable = false) :
    d.operation? = none ∧ d.fragment? = none := by
  cases d with
  | operation op => exact Bool.noConfusion h
  | fragment f => exact Bool.noConfusion h
  | schema | type | directive => exact ⟨rfl, rfl⟩

namespace Document

variable {before after : List Definition}

theorem keys_operationIndex (doc : Document) : doc.operationIndex.map Prod.fst = doc.labels := by
  rw [operationIndex, Index.keys_ofEntries, List.map_map]
  rfl

theorem operationIndex_insert {d : Definition} (h : d.operation? = none) :
    operationIndex ⟨before ++ d :: after⟩ = operationIndex ⟨before ++ after⟩ := by
  simp [operationIndex, operations, h]

theorem fragmentIndex_insert {d : Definition} (h : d.fragment? = none) :
    fragmentIndex ⟨before ++ d :: after⟩ = fragmentIndex ⟨before ++ after⟩ := by
  simp [fragmentIndex, fragments, h]

/-- A fragment does not matter for other names, nor if its own is defined again. -/
theorem lookup_fragmentIndex_insert {f : Fragment} {name : String}
    (h : f.name.value = name → ∃ later, .fragment later ∈ after ∧ later.name.value = name) :
    (fragmentIndex ⟨before ++ .fragment f :: after⟩).lookup name =
      (fragmentIndex ⟨before ++ after⟩).lookup name := by
  unfold fragmentIndex fragments
  rw [List.filterMap_append, List.filterMap_append, List.filterMap_cons, List.map_append,
    List.map_append]
  refine Index.lookup_ofEntries_of_later fun hname => ?_
  obtain ⟨later, hlater, hsame⟩ := h hname
  have hmem : later ∈ after.filterMap Definition.fragment? :=
    List.mem_filterMap.2 ⟨.fragment later, hlater, rfl⟩
  exact ⟨(later.name.value, later), List.mem_map_of_mem hmem, hsame⟩

/-- Nor does an operation whose label comes again, but for its place. -/
theorem lookup_operationIndex_insert {op later : Operation}
    (hlater : .operation later ∈ after) (hlabel : later.label = op.label) (label : String) :
    (operationIndex ⟨before ++ .operation op :: after⟩).lookup label =
      (operationIndex ⟨before ++ after⟩).lookup label := by
  unfold operationIndex operations
  rw [List.filterMap_append, List.filterMap_append, List.filterMap_cons, List.map_append,
    List.map_append]
  refine Index.lookup_ofEntries_of_later fun hop => ?_
  have hmem : later ∈ after.filterMap Definition.operation? :=
    List.mem_filterMap.2 ⟨.operation later, hlater, rfl⟩
  exact ⟨(later.label, later), List.mem_map_of_mem hmem, hlabel.trans hop⟩

/-- The operations are found among the definitions that are no fragments. -/
theorem operations_eq (doc : Document) : doc.operations =
    (doc.definitions.filter (·.fragment?.isNone)).filterMap Definition.operation? := by
  rw [operations, List.filterMap_filter]
  refine List.filterMap_congr fun d _ => ?_
  cases d <;> rfl

/-- **An edit leaves the operations, and the fragments that they reach.** -/
theorem Edit.index {policy : Policy} {doc doc' : Document} (h : doc.Edit policy doc') :
    doc'.operationIndex = doc.operationIndex ∧ ∀ name, doc.Reaches policy name →
      doc'.fragmentIndex.lookup name = doc.fragmentIndex.lookup name := by
  cases h with
  | insertType hd =>
    obtain ⟨hoperation, hfragment⟩ := Definition.of_not_isExecutable hd
    exact ⟨operationIndex_insert hoperation, fun name _ => by rw [fragmentIndex_insert hfragment]⟩
  | deleteType hd =>
    obtain ⟨hoperation, hfragment⟩ := Definition.of_not_isExecutable hd
    refine ⟨(operationIndex_insert hoperation).symm, fun name _ => ?_⟩
    rw [fragmentIndex_insert hfragment]
  | insertFragment hunreached =>
    refine ⟨operationIndex_insert rfl, fun name hreaches => ?_⟩
    refine lookup_fragmentIndex_insert fun hname => ?_
    exact absurd (hname ▸ hreaches) hunreached
  | deleteFragment hunreached =>
    refine ⟨(operationIndex_insert rfl).symm, fun name hreaches => ?_⟩
    refine (lookup_fragmentIndex_insert fun hname => ?_).symm
    exact absurd (hname ▸ hreaches) hunreached
  | moveFragments hothers hfragments =>
    refine ⟨?_, fun name _ => ?_⟩
    · rw [operationIndex, operationIndex, operations_eq, operations_eq, hothers]
    · unfold fragmentIndex
      rw [Index.lookup_ofEntries, Index.lookup_ofEntries, List.filter_map, List.filter_map]
      exact congrArg (fun fs : List Fragment =>
        ((fs.map fun f => (f.name.value, f)).getLast?).map Prod.snd) (hfragments name)
  | deleteOldFragment hlater hname =>
    refine ⟨(operationIndex_insert rfl).symm, fun name _ => ?_⟩
    exact (lookup_fragmentIndex_insert fun h => ⟨_, hlater, hname.trans h⟩).symm
  | deleteOldOperation hlater hlabel hlabels =>
    refine ⟨Index.eq_of_lookup (Index.nodup_keys_ofEntries _) ?_ fun label => ?_, fun name _ => ?_⟩
    · rw [keys_operationIndex, keys_operationIndex, hlabels]
    · exact (lookup_operationIndex_insert hlater hlabel label).symm
    · rw [fragmentIndex_insert rfl]

end Document

/-! ## Validating an edited document -/

/-- **Only the operations and the fragments that they reach count.** A rule alone does the same with
a document and with what is left of it after any edits: definitions of types and fragments that are
not reached may be inserted and deleted, fragments may be moved as long as those of one name keep
their order, and a definition that is followed by another of its name may be deleted. -/
theorem Schema.validate_edited {rule : DepthRule} {doc doc' : Document}
    (hedits : Relation.ReflTransGen (Document.Edit rule.policy) doc doc') (s : Schema) :
    s.validate doc' false [rule] = s.validate doc false [rule] := by
  induction hedits with
  | refl => rfl
  | tail _ hedit ih =>
    obtain ⟨hoperations, hfragments⟩ := hedit.index
    rw [← ih]
    exact Schema.validate_congr (DepthRule.run_congr hoperations hfragments) s

/-- A query that is in a fragment as a whole. -/
def Operation.relay : Operation := .bare "Q" [.bareSpread "F"]

def Fragment.relay : Fragment :=
  .bare "F" "T" [.bareField "a" [.bareField "b" [.bareField "c" []]]]

/-- A fragment that nothing spreads. -/
def Fragment.idle : Fragment := .bare "U" "T" [.bareSpread "F"]

/-- The definition of a type. -/
def Definition.scalar : Definition := .type false ⟨0, none, ⟨0, "T"⟩, [], .scalar⟩

def Document.tidy : Document := ⟨[.operation .relay, .fragment .relay]⟩

/-- `Document.tidy` among definitions that do not count. -/
def Document.cluttered : Document :=
  ⟨[.fragment (.bare "F" "T" []), .scalar, .fragment .idle, .fragment .relay,
    .operation (.bare "Q" []), .operation .relay]⟩

/-- Nothing is spread in the fragment. -/
theorem Fragment.not_shows_relay {policy : Policy} {name : String} :
    ¬ relay.node.Shows policy name := by
  intro h
  cases h with
  | group ha h =>
    obtain rfl := List.mem_singleton.1 ha
    cases h with
    | field _ hb h =>
      obtain rfl := List.mem_singleton.1 hb
      cases h with
      | field _ hc h =>
        obtain rfl := List.mem_singleton.1 hc
        cases h

/-- Where there are these definitions, the idle fragment is not reached. -/
theorem Document.not_reaches_idle {policy : Policy} :
    ¬ Reaches ⟨[.fragment .idle, .fragment .relay, .operation .relay]⟩ policy "U" := by
  rintro ⟨op, hop, first, hshows, hpath⟩
  obtain rfl := List.mem_singleton.1 hop
  obtain rfl : first = "F" := by
    cases hshows with
    | group hspread h =>
      obtain rfl := List.mem_singleton.1 hspread
      cases h
      rfl
  rcases Relation.ReflTransGen.cases_head hpath with heq | ⟨next, ⟨fragment, hfragment, h⟩, -⟩
  · exact absurd heq (by decide)
  · obtain rfl : Fragment.relay.node = fragment := Option.some.inj hfragment
    exact Fragment.not_shows_relay h

theorem Schema.validate_edited_cluttered :
    Relation.ReflTransGen (Document.Edit .empty) .cluttered .tidy ∧
      ∃ run, placeholder.validate .cluttered false [⟨1, .empty, some acceptAll⟩] = .ok run ∧
        run.depths = [("Q", 1)] ∧
        run.violations = [(PlacedFault.mk (.tooDeep "Q" 1) (some 0)).violation] ∧
        placeholder.validate .tidy false [⟨1, .empty, some acceptAll⟩] = .ok run := by
  have hedits : Relation.ReflTransGen (Document.Edit .empty) .cluttered .tidy := by
    refine .head (@Document.Edit.deleteOldFragment _ [] _ _ .relay (by simp) rfl) ?_
    refine .head (@Document.Edit.deleteType _ [] _ .scalar rfl) ?_
    refine .head (@Document.Edit.deleteOldOperation _ [.fragment .idle, .fragment .relay]
      [.operation .relay] (.bare "Q" []) .relay (by simp) rfl rfl) ?_
    refine .head (@Document.Edit.deleteFragment _ [] _ .idle Document.not_reaches_idle) ?_
    exact .single (.moveFragments rfl fun name => rfl)
  have hsame : placeholder.validate .tidy false [⟨1, .empty, some acceptAll⟩] = _ :=
    validate_edited hedits placeholder
  have hrun := validate_of_valid faults_placeholder .cluttered [⟨1, .empty, some acceptAll⟩]
  exact ⟨hedits, _, hrun, by decide +kernel, by decide +kernel, hsame.trans hrun⟩

end QueryDepth
