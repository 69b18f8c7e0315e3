import QueryDepth.Proofs.Depth.Inlining
import QueryDepth.Proofs.Depth.Reporting
import QueryDepth.Proofs.Document.Selections
import QueryDepth.Proofs.Text.Locating
import QueryDepth.Proofs.Validation.Alone
import QueryDepth.Proofs.Validation.Coverage

/-!
# Where violations point

A violation of a depth rule is about one selection: a field, a spread or an inline fragment that is
too deep, or a spread that leads nowhere. It points at the offset of this selection, whatever the
text, the limit and the policy are.

**Theorem (`violations_point`).** Every violation but the last one, which says that there are too
many, has exactly one location, and it belongs to the first character of the selection that the
violation is about. The location is exact if and only if the text before the selection is
`Undisturbed`.

Operations and fragments have offsets, too, but nothing is reported about them: an operation is not
too deep, and neither is a fragment whose spread is not. This is the invariant `Stands` of the sites
of a tree.
-/

namespace QueryDepth

/-! ## Selections at the sites of a tree -/

theorem Selection.Within.child {s sel top : Selection} (h : sel.Within top)
    (hs : s ∈ sel.children) : s.Within top := by
  induction h with
  | self => exact .deeper hs .self
  | deeper hmem _ ih => exact .deeper hmem ih

namespace Document

variable {doc : Document}

theorem HasSelection.child {s sel : Selection} (h : doc.HasSelection sel)
    (hs : s ∈ sel.children) : doc.HasSelection s := by
  obtain ⟨d, hd, top, htop, hwithin⟩ := h
  exact ⟨d, hd, top, htop, hwithin.child hs⟩

theorem hasSelection_of_operation {name : String} {op : Operation}
    (hop : (name, op) ∈ doc.operationIndex) : ∀ s ∈ op.selections, doc.HasSelection s := by
  intro s hs
  obtain ⟨-, before, after, hops, -⟩ := mem_operationIndex.1 hop
  have hmem : op ∈ doc.operations := hops ▸ List.mem_append_right _ List.mem_cons_self
  obtain ⟨d, hd, hdop⟩ := List.mem_filterMap.1 hmem
  cases d <;> cases hdop
  exact ⟨_, hd, s, hs, .self⟩

theorem hasSelection_of_fragment {name : String} {f : Fragment}
    (hf : (name, f) ∈ doc.fragmentIndex) : ∀ s ∈ f.selections, doc.HasSelection s := by
  intro s hs
  obtain ⟨before, after, hentries, -⟩ := Index.mem_ofEntries.1 hf
  have hmem : (name, f) ∈ doc.fragments.map fun f => (f.name.value, f) :=
    hentries ▸ List.mem_append_right _ List.mem_cons_self
  obtain ⟨f', hf', heq⟩ := List.mem_map.1 hmem
  obtain rfl := (Prod.mk.inj heq).2
  obtain ⟨d, hd, hdf⟩ := List.mem_filterMap.1 hf'
  cases d <;> cases hdf
  exact ⟨_, hd, s, hs, .self⟩

end Document

theorem Selection.pos_node (s : Selection) : s.node.pos = some s.pos := by
  cases s with
  | field f ss => cases ss <;> rfl
  | spread s => rfl
  | inlineFragment f ss => rfl

namespace Site

/-- The site is a selection of the document, or it is a definition that is not too deep. -/
def Stands (doc : Document) (limit : Int) (site : Site) : Prop :=
  (∃ sel, doc.HasSelection sel ∧ site.node = sel.node) ∨
    site.level ≤ limit ∧ ∃ pos ss, site.node = .group pos (Selection.nodes ss) ∧
      ∀ s ∈ ss, doc.HasSelection s

variable {doc : Document} {limit : Int} {policy : Policy}

theorem stands_of_mem_nodes {ss : List Selection} (hss : ∀ s ∈ ss, doc.HasSelection s)
    {node : Node} (hnode : node ∈ Selection.nodes ss) (level : Int) (entered : List String) :
    Stands doc limit ⟨node, level, entered⟩ := by
  rw [Selection.nodes_eq_map] at hnode
  obtain ⟨s, hs, rfl⟩ := List.mem_map.1 hnode
  exact .inl ⟨s, hss s hs, rfl⟩

theorem stands_of_mem_below_group {ss : List Selection} (hss : ∀ s ∈ ss, doc.HasSelection s)
    {pos : Option Nat} {level : Int} {entered : List String} {child : Site}
    (hchild : child ∈ Site.below doc.fragmentNodes limit policy
      ⟨.group pos (Selection.nodes ss), level, entered⟩) : child.Stands doc limit := by
  rw [Site.below] at hchild
  split at hchild
  · exact absurd hchild List.not_mem_nil
  · obtain ⟨node, hnode, rfl⟩ := List.mem_map.1 hchild
    exact stands_of_mem_nodes hss hnode level entered

/-- **Step**: what stands right below a site is again a selection, or a fragment at its level. -/
theorem Stands.below {site child : Site} (h : site.Stands doc limit)
    (hchild : child ∈ site.below doc.fragmentNodes limit policy) : child.Stands doc limit := by
  obtain ⟨node, level, entered⟩ := site
  rcases h with ⟨sel, hsel, rfl⟩ | ⟨-, pos, ss, rfl, hss⟩
  · cases sel with
    | field f ss =>
      cases ss with
      | nil =>
        rw [Selection.node, Site.below] at hchild
        exact absurd hchild List.not_mem_nil
      | cons s ss =>
        rw [Selection.node, Site.below, ← Selection.nodes] at hchild
        split at hchild
        · exact absurd hchild List.not_mem_nil
        · obtain ⟨node, hnode, rfl⟩ := List.mem_map.1 hchild
          exact stands_of_mem_nodes (fun s hs => hsel.child hs) hnode _ _
    | inlineFragment f ss =>
      rw [Selection.node] at hchild
      exact stands_of_mem_below_group (fun s hs => hsel.child hs) hchild
    | spread s =>
      rw [Selection.node, Site.below] at hchild
      split at hchild
      · exact absurd hchild List.not_mem_nil
      · next hgo =>
        obtain ⟨fragment, hlookup, rfl⟩ := Option.map_eq_some_iff.1 (Option.mem_toList.1 hchild)
        obtain ⟨⟨name, f⟩, hf, heq⟩ := List.mem_map.1 (mem_of_lookup hlookup)
        obtain ⟨-, rfl⟩ := Prod.mk.inj heq
        exact .inr ⟨Int.not_lt.1 (not_or.1 hgo).1, some f.pos, f.selections, rfl,
          Document.hasSelection_of_fragment hf⟩
  · exact stands_of_mem_below_group hss hchild

/-- **Run**: so all sites of a tree stand in the document. -/
theorem Stands.leads {root site : Site} {address : List Nat} (h : root.Stands doc limit)
    (hsite : root.Leads doc.fragmentNodes limit policy address site) : site.Stands doc limit := by
  induction hsite with
  | here root => exact h
  | down hchild _ ih => exact ih (h.below (List.mem_of_getElem? hchild))

theorem pos_of_fault {ctx : WalkContext} {site : Site} {r : PlacedFault}
    (h : site.fault? ctx = some r) : r.pos = site.node.pos := by
  unfold fault? at h
  split at h
  · cases h
    rfl
  · split at h
    · next pos name hnode =>
      rw [hnode, Node.pos]
      split at h
      · cases h
        rfl
      · split at h
        · cases h
          rfl
        · cases h
    · cases h

/-- Only selections have faults. -/
theorem exists_selection_of_fault {ctx : WalkContext} {site : Site} {r : PlacedFault}
    (hstands : site.Stands doc ctx.limit) (h : site.fault? ctx = some r) :
    ∃ sel, doc.HasSelection sel ∧ site.node = sel.node := by
  rcases hstands with hsel | ⟨hlevel, pos, ss, hnode, -⟩
  · exact hsel
  · rw [fault?, if_neg (Int.not_lt.2 hlevel), hnode] at h
    exact nomatch h

end Site

/-! ## Where a rule points -/

namespace DepthRule

variable {rule : DepthRule} {doc : Document} {text : String}

/-- The violation says what is wrong with a site of the tree of an operation, and what stands at
this site is the selection. -/
def Blames (rule : DepthRule) (doc : Document) (sel : Selection) (v : Violation) : Prop :=
  ∃ name op address site r, (name, op) ∈ doc.operationIndex ∧
    (Site.mk op.node 0 []).Leads doc.fragmentNodes rule.limit rule.policy address site ∧
    site.node = sel.node ∧
    site.fault? (rule.context doc.fragmentNodes name none) = some r ∧ v = r.violation

theorem Blames.places {sel : Selection} {v : Violation} (h : rule.Blames doc sel v) :
    v.places = [sel.pos] := by
  obtain ⟨name, op, address, site, r, -, -, hnode, hfault, rfl⟩ := h
  rw [PlacedFault.violation, Site.pos_of_fault hfault, hnode, Selection.pos_node, Option.toList]

/-- What is reported on a list of operations is reported by the walk of one of them. -/
theorem exists_run_of_report {fragments : List (String × Node)} {r : PlacedFault} :
    ∀ (operations : List (String × Node)) (room : Option Nat),
      r ∈ (rule.measureAll fragments operations room).reports →
      ∃ entry ∈ operations, ∃ left,
        r ∈ (Walk.run (rule.context fragments entry.1 left) entry.2 0 []).2.reports.toList
  | [], _, hr => absurd hr List.not_mem_nil
  | (name, node) :: rest, room, hr => by
    rw [measureAll] at hr
    cases hrun : Walk.run (rule.context fragments name room) node 0 [] with
    | mk result s =>
      have hhere (h : r ∈ s.reports.toList) : ∃ entry ∈ (name, node) :: rest, ∃ left,
          r ∈ (Walk.run (rule.context fragments entry.1 left) entry.2 0 []).2.reports.toList :=
        ⟨_, List.mem_cons_self, room, by rw [hrun]; exact h⟩
      rw [hrun] at hr
      cases result with
      | error stop => exact hhere hr
      | ok depth =>
        rcases List.mem_append.1 hr with hfirst | hmore
        · exact hhere hfirst
        · obtain ⟨entry, hentry, left, hwalk⟩ := exists_run_of_report rest _ hmore
          exact ⟨entry, List.mem_cons_of_mem _ hentry, left, hwalk⟩

theorem reports_run (rule : DepthRule) (doc : Document) (room : Option Nat) :
    (rule.run doc room).reports =
      (rule.measureAll doc.fragmentNodes doc.operationNodes room).reports := by
  unfold run
  dsimp only
  split
  · rfl
  · split
    · rfl
    · split <;> rfl

/-- A rule alone reports what it says itself, and at most that there is too much of it. -/
theorem report_of_mem_violations {v : Violation} (hv : v ∈ (rule.runAlone doc).violations)
    (hmany : v ≠ .tooMany) :
    ∃ r ∈ (rule.run doc (some maxViolations)).reports, v = r.violation := by
  have hmem : v ∈ (rule.run doc (some maxViolations)).reports.map PlacedFault.violation := by
    rw [runAlone_eq, ValidationRun.addRule, if_neg (by decide)] at hv
    dsimp only at hv
    split at hv
    · exact hv
    · exact (List.mem_append.1 hv).resolve_right fun h => hmany (List.mem_singleton.1 h)
    · exact hv
  obtain ⟨r, hr, rfl⟩ := List.mem_map.1 hmem
  exact ⟨r, hr, rfl⟩

/-- Whatever a rule alone says, it says about a selection. -/
theorem exists_blamed (hlimit : 0 ≤ rule.limit) {v : Violation}
    (hv : v ∈ (rule.runAlone doc).violations) (hmany : v ≠ .tooMany) :
    ∃ sel, doc.HasSelection sel ∧ rule.Blames doc sel v := by
  obtain ⟨r, hr, rfl⟩ := report_of_mem_violations hv hmany
  rw [reports_run] at hr
  obtain ⟨entry, hentry, left, hwalk⟩ := exists_run_of_report _ _ hr
  obtain ⟨⟨name, op⟩, hop, rfl⟩ := List.mem_map.1 hentry
  obtain ⟨address, site, hleads, hfault⟩ := Walk.exists_site_of_report hwalk
  have hroot : (Site.mk op.node 0 []).Stands doc rule.limit :=
    .inr ⟨hlimit, some op.pos, op.selections, rfl, Document.hasSelection_of_operation hop⟩
  obtain ⟨sel, hsel, hnode⟩ := Site.exists_selection_of_fault (hroot.leads hleads) hfault
  exact ⟨sel, hsel, name, op, address, site, r, hop, hleads, hnode, hfault, rfl⟩

/-- **A violation has one location, that of the first character of the selection it is about, and
the location is exact if and only if the text before the selection is undisturbed.** -/
theorem violations_point {v : Violation} (hparse : Document.parse text = .ok doc)
    (hlimit : 1 ≤ rule.limit) (hv : v ∈ (rule.runAlone doc).violations) (hmany : v ≠ .tooMany) :
    ∃ sel, doc.HasSelection sel ∧ rule.Blames doc sel v ∧ sel.SpelledIn text.toList ∧
      v.places = [sel.pos] ∧
      (v.finding text.toList).locations = [Location.ofOffset text.toList sel.pos] ∧
      (Location.ofOffset text.toList sel.pos = Location.exact text.toList sel.pos ↔
        Undisturbed (text.toList.take sel.pos)) := by
  obtain ⟨sel, hsel, hblames⟩ := exists_blamed (Int.le_trans Int.one_nonneg hlimit) hv hmany
  refine ⟨sel, hsel, hblames, Document.spelledIn hparse hsel, hblames.places, ?_,
    Location.ofOffset_eq_exact_iff _ _⟩
  rw [Violation.finding, hblames.places, List.map_singleton]

end DepthRule

/-- A query of three fields, of which the innermost, `c`, begins a line. -/
def corneredText : String := "\x7ba\x7bb\x7b\nc\x7d\x7d\x7d"

def Document.cornered : Document :=
  ⟨[.operation ⟨0, .query, none, [], [], 0,
      [.field ⟨1, none, ⟨1, "a"⟩, [], [], 2⟩
        [.field ⟨3, none, ⟨3, "b"⟩, [], [], 4⟩ [.field ⟨6, none, ⟨6, "c"⟩, [], [], 0⟩ []]]]⟩]⟩

theorem Document.parse_cornered : parse corneredText = .ok cornered := rfl

theorem Document.mem_violations_cornered : ⟨"'' exceeds maximum operation depth of 1", [6]⟩ ∈
    (DepthRule.runAlone ⟨1, .empty, none⟩ .cornered).violations := by
  decide +kernel

theorem violations_point_cornered : ∃ v : Violation,
    Document.parse corneredText = .ok .cornered ∧ (1 : Int) ≤ 1 ∧
      v ∈ (DepthRule.runAlone ⟨1, .empty, none⟩ .cornered).violations ∧ v ≠ .tooMany ∧
      ∃ sel, Document.cornered.HasSelection sel ∧
        DepthRule.Blames ⟨1, .empty, none⟩ .cornered sel v ∧
        sel.SpelledIn corneredText.toList ∧ v.places = [sel.pos] ∧
        (v.finding corneredText.toList).locations =
          [Location.ofOffset corneredText.toList sel.pos] ∧
        (Location.ofOffset corneredText.toList sel.pos =
            Location.exact corneredText.toList sel.pos ↔
          Undisturbed (corneredText.toList.take sel.pos)) := by
  have hmany : (⟨"'' exceeds maximum operation depth of 1", [6]⟩ : Violation) ≠ .tooMany := by
    decide
  exact ⟨_, Document.parse_cornered, Int.le_refl 1, Document.mem_violations_cornered, hmany,
    DepthRule.violations_point Document.parse_cornered (Int.le_refl 1)
      Document.mem_violations_cornered hmany⟩

/-- Here the location is the end of the line before. -/
theorem not_violations_exact : ¬ ∀ (text : String) (doc : Document) (rule : DepthRule)
    (v : Violation), Document.parse text = .ok doc → 1 ≤ rule.limit →
    v ∈ (rule.runAlone doc).violations → v ≠ .tooMany →
    ∃ sel, rule.Blames doc sel v ∧
      (v.finding text.toList).locations = [Location.exact text.toList sel.pos] := by
  intro hclaim
  obtain ⟨sel, hblames, hexact⟩ := hclaim _ .cornered ⟨1, .empty, none⟩ _
    Document.parse_cornered (Int.le_refl 1) Document.mem_violations_cornered (by decide)
  have hpos : 6 = sel.pos := List.singleton_inj.1 hblames.places
  rw [← hpos] at hexact
  exact absurd hexact (by decide)

end QueryDepth
