import QueryDepth.Proofs.Validation.Alone
import QueryDepth.Proofs.Validation.Cycles

/-!
# Depth rules and standard rules agree

A depth rule resolves fragments on the way, by the last definition of a name, and knows only the
fragments that it is in. The standard rules look at names one by one and search the graph of all
spreads. They agree where it matters: what a walk would complain about besides depth is excluded by
the standard rules.

**Theorem (`tooDeep_of_standard`).** Let a text be a document in which the standard rules find
nothing. Then all its operations are measured, their depths are their true depths as far as the
limit allows, and a depth rule reports nothing but that an operation exceeds the limit.

A report about a fragment is founded in the graph of the spreads that the walk sees
(`isFounded_of_mem_faultsAt`). These are some of all spreads, so in a clean document everything that
is reached is defined, and nothing reaches itself; skipping fields only takes spreads away.
-/

namespace QueryDepth

open Relation

/-! ## What a walk sees is spread -/

variable {fragments : List (String × Node)} {policy : Policy}

/-- What is spread below fields that are not skipped is spread. -/
theorem Node.Shows.mem_spreads {node : Node} {name : String} (h : node.Shows policy name) :
    name ∈ node.spreads := by
  induction h with
  | spread => exact List.mem_singleton_self _
  | field _ hchild _ ih => exact Node.mem_spreadsAll.2 ⟨_, hchild, ih⟩
  | group hchild _ ih => exact Node.mem_spreadsAll.2 ⟨_, hchild, ih⟩

theorem Links.spreads {name spread : String} (h : Links fragments policy name spread) :
    Spreads fragments name spread := by
  obtain ⟨fragment, hlookup, hshows⟩ := h
  exact ⟨fragment, hlookup, hshows.mem_spreads⟩

theorem IsAcyclic.not_transGen_links (h : IsAcyclic fragments) (name : String) :
    ¬ TransGen (Links fragments policy) name name :=
  fun hcycle => h name (hcycle.lift id fun _ _ hlink => hlink.spreads)

namespace Document.IsClean

variable {s : Schema} {doc : Document} (hclean : doc.IsClean s)

include hclean

/-- Whatever is reached from an operation is defined. -/
theorem defines_of_reaches {op : Operation} (hop : op ∈ doc.operations) {name : String}
    (h : op.node.Reaches doc.fragmentNodes policy name) : doc.Defines name := by
  obtain ⟨first, hfirst, hpath⟩ := h
  induction hpath with
  | refl => exact hclean.defines_of_operation hop hfirst.mem_spreads
  | tail _ hlink _ =>
    obtain ⟨node, hlookup, hshows⟩ := hlink
    obtain ⟨f, hf, -, rfl⟩ := exists_fragment_of_lookup hlookup
    exact hclean.defines_of_fragment hf hshows.mem_spreads

/-- **A walk has nothing to report but that the limit is exceeded.** -/
theorem tooDeep_of_mem_faultsAt (hacyclic : IsAcyclic doc.fragmentNodes) {op : Operation}
    (hop : op ∈ doc.operations) {ctx : WalkContext} (hfragments : ctx.fragments = doc.fragmentNodes)
    {level : Int} : ∀ r ∈ (doc.expansion op).faultsAt ctx level,
      r.fault = .tooDeep ctx.operation ctx.limit := by
  intro r hr
  have hfounded := isFounded_of_mem_faultsAt ctx op.node [] op.node .root_self level r
    (by rw [hfragments]; exact hr)
  rw [hfragments] at hfounded
  obtain ⟨⟨e, level⟩, -, hfault⟩ := List.mem_filterMap.1 hr
  dsimp only [WalkContext.faultOf] at hfault
  split at hfault
  · rw [← Option.some.inj hfault]
  · split at hfault
    · rw [← Option.some.inj hfault] at hfounded
      obtain ⟨hreaches, hmissing⟩ := hfounded
      exact absurd (hclean.defines_of_reaches hop hreaches)
        (lookup_fragmentNodes_eq_none.1 hmissing)
    · rw [← Option.some.inj hfault] at hfounded
      obtain ⟨-, -, hcycle⟩ := hfounded
      exact absurd hcycle (hacyclic.not_transGen_links _)
    · exact nomatch hfault

end Document.IsClean

/-! ## The operations that are measured -/

theorem Document.IsClean.operationIndex_eq {s : Schema} {doc : Document} (hclean : doc.IsClean s)
    (horder : (doc.operations.filterMap (·.name)).Pairwise (·.pos < ·.pos)) :
    doc.operationIndex = doc.operations.map fun op => (op.label, op) := by
  refine Index.ofEntries_of_nodup ?_
  rw [List.map_map]
  exact hclean.nodup_labels horder

/-- Whatever the room, only what would be reported with room for all is reported. -/
theorem DepthRule.mem_faults_of_mem_reports {rule : DepthRule} (hpure : rule.policy.Pure)
    {doc : Document} (haccepts : ∀ receiver ∈ rule.receiver, receiver (rule.depths doc) = .ok ())
    {room : Option Nat} {r : PlacedFault} (hr : r ∈ (rule.run doc room).reports) :
    r ∈ rule.faults doc := by
  by_cases hroom : ∀ n ∈ room, (rule.faults doc).length ≤ n
  · rwa [run_fits hpure doc hroom haccepts] at hr
  · obtain ⟨n, hn⟩ := not_forall.1 hroom
    obtain ⟨rfl, hfull⟩ := Classical.not_imp.1 hn
    obtain ⟨calls, log, hrun⟩ := run_full hpure doc (Nat.not_le.1 hfull)
    rw [hrun] at hr
    exact List.mem_of_mem_take hr

/-- **On documents that pass the standard rules a depth rule complains about depth only.** Let a
text be a document in which the standard rules find nothing over a valid schema. Then all its
operations are in the index. With room for all reports, each has a depth, which is its true depth as
far as the limit allows, and all that its walk reports is that it exceeds the limit. With any room,
a rule reports nothing else. -/
theorem tooDeep_of_standard {text : String} {doc : Document}
    (hparse : Document.parse text = .ok doc) {s : Schema} {standard : ValidationRun}
    (hstandard : s.validate doc true [] = .ok standard) (hnone : standard.violations = [])
    (hended : standard.failure = none) {limit : Int} (hlimit : 0 ≤ limit) {policy : Policy}
    (hpure : policy.Pure) :
    doc.operationNodes = doc.operations.map (fun op => (op.label, op.node)) ∧
    (∃ depths, (DepthRule.run ⟨limit, policy, some acceptAll⟩ doc none).handed = some depths ∧
      List.Forall₂ (fun op (name, depth) => name = op.label ∧
        (∃ state, Walk.run ⟨doc.fragmentNodes, limit, op.label, policy, none⟩ op.node 0 [] =
            (.ok depth, state) ∧
          ∀ r ∈ state.reports, r.fault = .tooDeep op.label limit) ∧
        depth = min (doc.trueDepth policy op : Int) limit ∧ 0 ≤ depth ∧ depth ≤ limit)
        doc.operations depths) ∧
    ∀ room, ∀ r ∈ (DepthRule.run ⟨limit, policy, some acceptAll⟩ doc room).reports,
      ∃ op ∈ doc.operations, r.fault = .tooDeep op.label limit := by
  have hclean := isClean_of_validate hstandard hnone hended
  have hacyclic := hclean.isAcyclic (Document.pairwise_fragments hparse)
  have hindex := hclean.operationIndex_eq (Document.pairwise_operationNames hparse)
  let rule : DepthRule := ⟨limit, policy, some acceptAll⟩
  have haccepts := DepthRule.accepts_of_acceptAll (rfl : rule.receiver = some acceptAll)
    (rule.depths doc)
  have hdeep {op : Operation} (hop : op ∈ doc.operations) :
      ∀ r ∈ rule.faultsOf doc (op.label, op), r.fault = .tooDeep op.label limit :=
    hclean.tooDeep_of_mem_faultsAt hacyclic hop rfl
  refine ⟨?_, ⟨rule.depths doc, ?_, ?_⟩, fun room r hr => ?_⟩
  · rw [Document.operationNodes, hindex, List.map_map]
    rfl
  · have hfits : ∀ n ∈ (none : Option Nat), (rule.faults doc).length ≤ n := nofun
    exact congrArg DepthRun.handed (DepthRule.run_fits hpure doc hfits haccepts)
  · rw [DepthRule.depths, hindex, List.map_map, List.forall₂_map_right_iff]
    refine List.forall₂_same.2 fun op hop => ?_
    have hrun := @DepthRule.walkOf_eq rule hpure doc (op.label, op)
    have hdepth : (rule.depthOf doc (op.label, op)).2 =
        min (doc.trueDepth policy op : Int) (limit - 0) :=
      Expansion.depthAt_eq_min_nesting (doc.branching_expansion op) hlimit (hdeep hop)
    rw [Int.sub_zero] at hdepth
    refine ⟨rfl, ⟨_, hrun, ?_⟩, hdepth, ?_, ?_⟩
    · rw [Walk.reports_start_record]
      exact fun r hr => hdeep hop r (List.mem_toArray.1 hr)
    · have hmin := Int.le_min.2 ⟨Int.natCast_nonneg (doc.trueDepth policy op), hlimit⟩
      exact Int.le_trans hmin (Int.le_of_eq hdepth.symm)
    · exact Int.le_trans (Int.le_of_eq hdepth) (Int.min_le_right _ _)
  · have hfault := DepthRule.mem_faults_of_mem_reports hpure haccepts hr
    rw [DepthRule.faults, hindex] at hfault
    obtain ⟨entry, hentry, hr⟩ := List.mem_flatMap.1 hfault
    obtain ⟨op, hop, rfl⟩ := List.mem_map.1 hentry
    exact ⟨op, hop, hdeep hop r hr⟩

/-- `type Query { a: Query  b: Boolean }`. -/
def Schema.ring : Schema :=
  (SchemaParts.mk
    [⟨"Query", .object [] [plainField "a" (.named "Query"), plainField "b" (.named "Boolean")]⟩]
    (some "Query") none none standardDirectives).schema

/-- Two operations, of which one is deep through a fragment. -/
def Document.fork : Document :=
  ⟨[.operation ⟨0, .query, some ⟨6, "A"⟩, [], [], 8, [.spread ⟨10, ⟨13, "F"⟩, []⟩]⟩,
    .operation ⟨17, .query, some ⟨23, "B"⟩, [], [], 25,
      [.field ⟨27, none, ⟨27, "b"⟩, [], [], 0⟩ []]⟩,
    .fragment ⟨31, ⟨40, "F"⟩, ⟨45, "Query"⟩, [], 51,
      [.field ⟨53, none, ⟨53, "a"⟩, [], [], 55⟩
        [.field ⟨57, none, ⟨57, "a"⟩, [], [], 59⟩
          [.field ⟨61, none, ⟨61, "b"⟩, [], [], 0⟩ []]]]⟩]⟩

theorem Document.parse_fork :
    parse "query A { ...F } query B { b } fragment F on Query { a { a { b } } }" = .ok fork := rfl

theorem tooDeep_of_standard_fork : ∃ standard,
    Schema.ring.validate .fork true [] = .ok standard ∧ standard.violations = [] ∧
      standard.failure = none ∧ (0 : Int) ≤ 1 ∧ Policy.empty.Pure ∧
      (DepthRule.run ⟨1, .empty, some acceptAll⟩ .fork none).handed = some [("A", 1), ("B", 0)] ∧
      ∀ room, ∀ r ∈ (DepthRule.run ⟨1, .empty, some acceptAll⟩ .fork room).reports,
        ∃ op ∈ Document.fork.operations, r.fault = .tooDeep op.label 1 := by
  have hvalid : Schema.ring.faults = [] := List.eq_nil_of_length_eq_zero (by decide +kernel)
  have hstandard := Schema.validate_standard hvalid .fork []
  have hnone : (runRules .fork (.of .ring .fork) []).violations = [] := by decide +kernel
  have hended : (runRules .fork (.of .ring .fork) []).failure = none :=
    Option.isNone_iff_eq_none.1 (by decide +kernel)
  have hlimit : (0 : Int) ≤ 1 := by decide
  obtain ⟨-, -, hreports⟩ :=
    tooDeep_of_standard Document.parse_fork hstandard hnone hended hlimit Policy.pure_empty
  exact ⟨_, hstandard, hnone, hended, hlimit, Policy.pure_empty, by decide +kernel, hreports⟩

end QueryDepth
