import QueryDepth.Proofs.Depth.Acyclic

/-!
# Inlining fragments

`Selection.inline` replaces each spread of a defined fragment by an inline fragment in its place,
with the inlined selections of the fragment. Like expansion it carries the active fragments along,
which only makes it total: in an acyclic document it never meets one (`inline_spread`).

**Theorem (`run_inline`).** In an acyclic document, walking an inlined operation without any
fragments gives the same result, the same reports and the same calls as walking the operation.

The proof walks both expansions in step. They differ where a fragment is followed, which is a node
of its own around the group of the fragment; there the inlined operation has one group, at the place
of the spread.
-/

namespace QueryDepth

namespace Selection

mutual

/-- A selection with the spreads of defined fragments inlined, inside some active fragments. -/
def inline (fragments : List (String × Fragment)) (active : List String) : Selection → Selection
  | .field f ss => .field f (inlineAll fragments active ss)
  | .spread s =>
    match _h : fragments.lookup s.name.value with
    | none => .spread s
    | some fragment =>
      if _hname : s.name.value ∈ active then .spread s
      else .inlineFragment ⟨s.pos, some fragment.condition, s.directives, fragment.brace⟩
        (inlineAll fragments (s.name.value :: active) fragment.selections)
  | .inlineFragment f ss => .inlineFragment f (inlineAll fragments active ss)
termination_by selection => (unentered fragments active, sizeOf selection)
decreasing_by
  · exact Prod.Lex.right _ (by simp only [field.sizeOf_spec]; omega)
  · exact Prod.Lex.left _ _ (unentered_cons_lt _h _hname)
  · exact Prod.Lex.right _ (by simp only [inlineFragment.sizeOf_spec]; omega)

def inlineAll (fragments : List (String × Fragment)) (active : List String) :
    List Selection → List Selection
  | [] => []
  | s :: ss => inline fragments active s :: inlineAll fragments active ss
termination_by selections => (unentered fragments active, sizeOf selections)
decreasing_by
  · exact Prod.Lex.right _ (by simp only [List.cons.sizeOf_spec]; omega)
  · exact Prod.Lex.right _ (by simp only [List.cons.sizeOf_spec]; omega)

end

variable {fragments : List (String × Fragment)} {active : List String}

theorem inlineAll_eq_map (fragments : List (String × Fragment)) (active : List String)
    (ss : List Selection) : inlineAll fragments active ss = ss.map (inline fragments active) := by
  induction ss with
  | nil => rw [inlineAll, List.map_nil]
  | cons s ss ih => rw [inlineAll, ih, List.map_cons]

@[simp] theorem inline_field (f : FieldHead) (ss : List Selection) :
    inline fragments active (.field f ss) = .field f (ss.map (inline fragments active)) := by
  rw [inline, inlineAll_eq_map]

@[simp] theorem inline_inlineFragment (f : InlineHead) (ss : List Selection) :
    inline fragments active (.inlineFragment f ss) =
      .inlineFragment f (ss.map (inline fragments active)) := by
  rw [inline, inlineAll_eq_map]

theorem inline_missing {s : Spread} (h : fragments.lookup s.name.value = none) :
    inline fragments active (.spread s) = .spread s := by
  rw [inline]
  split
  · rfl
  · simp_all

theorem inline_followed {s : Spread} {fragment : Fragment}
    (h : fragments.lookup s.name.value = some fragment) (hname : s.name.value ∉ active) :
    inline fragments active (.spread s) =
      .inlineFragment ⟨s.pos, some fragment.condition, s.directives, fragment.brace⟩
        (fragment.selections.map (inline fragments (s.name.value :: active))) := by
  rw [inline]
  split
  · simp_all
  · rw [dif_neg hname, inlineAll_eq_map]
    simp_all

/-- Induction along inlining, with one case for each way a spread may go. -/
theorem inline_induct (fragments : List (String × Fragment))
    {motive : List String → Selection → Prop}
    (field : ∀ active f ss, (∀ s ∈ ss, motive active s) → motive active (.field f ss))
    (missing : ∀ active s, fragments.lookup s.name.value = none → motive active (.spread s))
    (reentry : ∀ active s fragment, fragments.lookup s.name.value = some fragment →
      s.name.value ∈ active → motive active (.spread s))
    (followed : ∀ active s fragment, fragments.lookup s.name.value = some fragment →
      s.name.value ∉ active →
      (∀ inner ∈ fragment.selections, motive (s.name.value :: active) inner) →
      motive active (.spread s))
    (inlineFragment : ∀ active f ss, (∀ s ∈ ss, motive active s) →
      motive active (.inlineFragment f ss)) :
    ∀ active selection, motive active selection :=
  (inline.mutual_induct fragments motive (fun active ss => ∀ s ∈ ss, motive active s)
    field missing reentry followed inlineFragment (fun _ _ h => nomatch h)
    fun active s ss hs hss t ht => by
      rcases List.mem_cons.1 ht with rfl | ht
      · exact hs
      · exact hss t ht).1

theorem nodes_eq_map (ss : List Selection) : nodes ss = ss.map node := by
  induction ss with
  | nil => rw [nodes, List.map_nil]
  | cons s ss ih => rw [nodes, ih, List.map_cons]

theorem node_mem_nodes {s : Selection} {ss : List Selection} (h : s ∈ ss) : s.node ∈ nodes ss := by
  rw [nodes_eq_map]
  exact List.mem_map_of_mem h

/-! ## What is spread in a selection -/

theorem spreads_field (f : FieldHead) (ss : List Selection) :
    (field f ss).node.spreads = Node.spreadsAll (nodes ss) := by
  cases ss <;> rfl

theorem spreads_inlineFragment (f : InlineHead) (ss : List Selection) :
    (inlineFragment f ss).node.spreads = Node.spreadsAll (nodes ss) := rfl

end Selection

theorem Fragment.spreads_node (f : Fragment) :
    f.node.spreads = Node.spreadsAll (Selection.nodes f.selections) := rfl

theorem Document.lookup_fragmentNodes (doc : Document) (name : String) :
    doc.fragmentNodes.lookup name = (doc.fragmentIndex.lookup name).map Fragment.node := by
  unfold fragmentNodes
  induction doc.fragmentIndex with
  | nil => rfl
  | cons f fs ih =>
    rw [List.map_cons, List.lookup_cons, List.lookup_cons, ih]
    split <;> rfl

theorem Document.lookup_fragmentNodes_of_lookup {doc : Document} {name : String}
    {fragment : Fragment} (h : doc.fragmentIndex.lookup name = some fragment) :
    doc.fragmentNodes.lookup name = some fragment.node := by
  rw [lookup_fragmentNodes, h]
  rfl

namespace Selection

variable {doc : Document} {active : List String}

/-! ## Inlining without active fragments -/

/-- In an acyclic document active fragments that lead to a selection do not matter. -/
theorem inline_subset (hacyclic : IsAcyclic doc.fragmentNodes) (active : List String)
    (selection : Selection) : selection.node.LedTo doc.fragmentNodes active →
      ∀ fewer ⊆ active, selection.inline doc.fragmentIndex active =
        selection.inline doc.fragmentIndex fewer := by
  induction active, selection using inline_induct doc.fragmentIndex with
  | field active f ss ih =>
    intro hled fewer hfewer
    rw [inline_field, inline_field]
    refine congrArg (field f) (List.map_congr_left fun s hs => ?_)
    exact ih s hs (hled.of_mem (spreads_field f ss) (node_mem_nodes hs)) fewer hfewer
  | missing active s hlookup =>
    intro _ fewer _
    rw [inline_missing hlookup, inline_missing hlookup]
  | reentry active s fragment hlookup hname =>
    intro hled
    exact absurd hname (Node.LedTo.not_mem hled hacyclic)
  | followed active s fragment hlookup hname ih =>
    intro hled fewer hfewer
    rw [inline_followed hlookup hname, inline_followed hlookup fun h => hname (hfewer h)]
    refine congrArg (inlineFragment _) (List.map_congr_left fun inner hinner => ?_)
    have hinside := Node.LedTo.fragment hled (Document.lookup_fragmentNodes_of_lookup hlookup)
    exact ih inner hinner (hinside.of_mem fragment.spreads_node (node_mem_nodes hinner)) _
      (List.cons_subset_cons _ hfewer)
  | inlineFragment active f ss ih =>
    intro hled fewer hfewer
    rw [inline_inlineFragment, inline_inlineFragment]
    refine congrArg (inlineFragment f) (List.map_congr_left fun s hs => ?_)
    exact ih s hs (hled.of_mem (spreads_inlineFragment f ss) (node_mem_nodes hs)) fewer hfewer

/-- **Inlining replaces a spread by the inlined selections of its fragment.** -/
theorem inline_spread (hacyclic : IsAcyclic doc.fragmentNodes) {s : Spread} {fragment : Fragment}
    (h : doc.fragmentIndex.lookup s.name.value = some fragment) :
    (spread s).inline doc.fragmentIndex [] =
      .inlineFragment ⟨s.pos, some fragment.condition, s.directives, fragment.brace⟩
        (fragment.selections.map (inline doc.fragmentIndex [])) := by
  rw [inline_followed h List.not_mem_nil]
  refine congrArg (inlineFragment _) (List.map_congr_left fun inner hinner => ?_)
  have hspread : (Node.spread none s.name.value).LedTo doc.fragmentNodes [] := .nil
  have hinside := hspread.fragment (Document.lookup_fragmentNodes_of_lookup h)
  exact inline_subset hacyclic _ inner
    (hinside.of_mem fragment.spreads_node (node_mem_nodes hinner)) [] (List.nil_subset _)

end Selection

/-! ## Walking in step -/

/-- A node inside another at the same level is below the limit together with it. -/
theorem Walk.guarded_guarded (ctx : WalkContext) (pos pos' : Option Nat) (level : Int)
    (inside : Walk Int) :
    guarded ctx pos level (guarded ctx pos' level inside) = guarded ctx pos level inside := by
  unfold guarded
  split <;> rfl

/-- Two lists of expansions are walked alike if their members are. -/
theorem Expansion.walkAll_congr {α : Type} {ctx ctx' : WalkContext} {f g : α → Expansion}
    {level : Int} : ∀ {l : List α}, (∀ a ∈ l, (f a).walk ctx level = (g a).walk ctx' level) →
      walkAll ctx (l.map f) level = walkAll ctx' (l.map g) level
  | [], _ => rfl
  | [a], h => h a List.mem_cons_self
  | a :: b :: more, h => by
    have hrest : walkAll ctx ((b :: more).map f) level = walkAll ctx' ((b :: more).map g) level :=
      walkAll_congr fun c hc => h c (List.mem_cons_of_mem a hc)
    simp only [List.map_cons] at hrest ⊢
    rw [walkAll, walkAll, h a List.mem_cons_self, hrest]

namespace Selection

variable {doc : Document}

theorem node_field (f : FieldHead) {ss : List Selection} (h : ss ≠ []) :
    (field f ss).node = .field (some f.pos) f.name.value (some (nodes ss)) := by
  cases ss with
  | nil => exact absurd rfl h
  | cons s ss => rfl

theorem walkAll_inline (ctx : WalkContext) {active : List String} {ss : List Selection}
    (level : Int) (h : ∀ s ∈ ss, (s.node.expand doc.fragmentNodes active).walk ctx level =
      ((s.inline doc.fragmentIndex active).node.expand [] []).walk { ctx with fragments := [] }
        level) :
    Expansion.walkAll ctx (Node.expandAll doc.fragmentNodes active (nodes ss)) level =
      Expansion.walkAll { ctx with fragments := [] }
        (Node.expandAll [] [] (nodes (ss.map (inline doc.fragmentIndex active)))) level := by
  rw [Node.expandAll_eq_map, Node.expandAll_eq_map, nodes_eq_map, nodes_eq_map, List.map_map,
    List.map_map, List.map_map]
  exact Expansion.walkAll_congr h

/-- **A selection and its inlining are walked alike.** -/
theorem walk_inline (hacyclic : IsAcyclic doc.fragmentNodes) (ctx : WalkContext)
    (active : List String) (selection : Selection) :
    selection.node.LedTo doc.fragmentNodes active → ∀ level,
      (selection.node.expand doc.fragmentNodes active).walk ctx level =
        ((selection.inline doc.fragmentIndex active).node.expand [] []).walk
          { ctx with fragments := [] } level := by
  induction active, selection using inline_induct doc.fragmentIndex with
  | field active f ss ih =>
    intro hled level
    rw [inline_field]
    by_cases hne : ss = []
    · subst hne
      rw [List.map_nil, node, Node.expand_leaf, Node.expand_leaf]
      rfl
    · have hchildren := walkAll_inline ctx (level + 1) fun s hs =>
        ih s hs (hled.of_mem (spreads_field f ss) (node_mem_nodes hs)) (level + 1)
      rw [node_field f hne, node_field f (by simpa using hne), Node.expand_field,
        Node.expand_field, Expansion.walk, Expansion.walk, hchildren]
      rfl
  | missing active s hlookup =>
    intro _ level
    have hnode : doc.fragmentNodes.lookup s.name.value = none := by
      rw [Document.lookup_fragmentNodes, hlookup]
      rfl
    rw [inline_missing hlookup, node, Node.expand_missing _ hnode, Node.expand_missing _ rfl]
    rfl
  | reentry active s fragment hlookup hname =>
    intro hled
    exact absurd hname (Node.LedTo.not_mem hled hacyclic)
  | followed active s fragment hlookup hname ih =>
    intro hled level
    have hlookup' := Document.lookup_fragmentNodes_of_lookup hlookup
    have hinside := Node.LedTo.fragment hled hlookup'
    have hchildren := walkAll_inline ctx level fun inner hinner =>
      ih inner hinner (hinside.of_mem fragment.spreads_node (node_mem_nodes hinner)) level
    rw [inline_followed hlookup hname, node, node, Node.expand_followed _ hlookup' hname,
      Fragment.node, Node.expand_group, Node.expand_group, Expansion.walk, Expansion.walk,
      Expansion.walk, Walk.guarded_guarded, hchildren]
    rfl
  | inlineFragment active f ss ih =>
    intro hled level
    have hchildren := walkAll_inline ctx level fun s hs =>
      ih s hs (hled.of_mem (spreads_inlineFragment f ss) (node_mem_nodes hs)) level
    rw [inline_inlineFragment, node, node, Node.expand_group, Node.expand_group, Expansion.walk,
      Expansion.walk, hchildren]
    rfl

end Selection

/-! ## Walking an inlined operation -/

/-- An operation with the spreads of defined fragments inlined. -/
def Document.inline (doc : Document) (op : Operation) : Operation :=
  { op with selections := op.selections.map (Selection.inline doc.fragmentIndex []) }

/-- **Spreading equals inlining.** In an acyclic document, the walk of an inlined operation without
fragments ends as the walk of the operation does, with the same reports and the same calls. -/
theorem Walk.run_inline {doc : Document} (hacyclic : IsAcyclic doc.fragmentNodes) (op : Operation)
    (name : String) (limit : Int) (policy : Policy) (room : Option Nat) (level : Int) :
    run ⟨[], limit, name, policy, room⟩ (doc.inline op).node level [] =
      run ⟨doc.fragmentNodes, limit, name, policy, room⟩ op.node level [] := by
  have hall : ∀ s ∈ op.selections, _ = _ := fun s _ =>
    Selection.walk_inline hacyclic ⟨doc.fragmentNodes, limit, name, policy, room⟩ [] s .nil level
  have hselections := Selection.walkAll_inline _ level hall
  rw [run_eq_walk, run_eq_walk, Operation.node, Operation.node, Node.expand_group,
    Node.expand_group, Expansion.walk, Expansion.walk, hselections]
  rfl

/-- A query with a fragment that is spread twice and spreads another, and with a missing spread. -/
def Operation.nested : Operation :=
  .bare "Q" [.bareSpread "F", .bareField "a" [.bareSpread "F", .bareSpread "G"]]

def Document.nested : Document :=
  ⟨[.operation .nested, .fragment (.bare "F" "T" [.bareField "b" [.bareSpread "H"]]),
    .fragment (.bare "H" "T" [.bareField "c" [.bareField "d" []]])]⟩

theorem Document.fragmentNodes_nested : nested.fragmentNodes =
    [("F", .group (some 0) [.field (some 0) "b" (some [.spread (some 0) "H"])]),
      ("H", .group (some 0) [.field (some 0) "c" (some [.field (some 0) "d" none])])] := rfl

theorem Document.isAcyclic_nested : IsAcyclic nested.fragmentNodes := by
  refine .of_rank (fun name => if name = "F" then 1 else 0) ?_
  rintro name spread ⟨fragment, hlookup, hspread⟩
  have hmem := mem_of_lookup hlookup
  simp only [fragmentNodes_nested, List.mem_cons, Prod.mk.injEq, List.not_mem_nil,
    or_false] at hmem
  rcases hmem with ⟨rfl, rfl⟩ | ⟨rfl, rfl⟩
  · obtain rfl : spread = "H" := by simpa [Node.spreads, Node.spreadsAll] using hspread
    decide
  · simp [Node.spreads, Node.spreadsAll] at hspread

theorem Walk.run_inline_nested : IsAcyclic Document.nested.fragmentNodes ∧
    run ⟨[], 2, "Q", .empty, none⟩ (Document.nested.inline .nested).node 0 [] =
      run ⟨Document.nested.fragmentNodes, 2, "Q", .empty, none⟩ Operation.nested.node 0 [] :=
  ⟨Document.isAcyclic_nested,
    run_inline Document.isAcyclic_nested .nested "Q" 2 .empty none 0⟩

end QueryDepth
