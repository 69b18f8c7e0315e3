import QueryDepth.Proofs.Depth.FragmentGraph
import QueryDepth.Proofs.Depth.Inlining
import QueryDepth.Proofs.Depth.Measuring

/-!
# What a rule sees of the fragments

A walk looks fragments up by name, and it comes only to names that are reached in the fragment graph
of its policy. So other fragments may be there or not, and may say anything.

**Theorem (`run_congr`).** Two documents with the same operations, of which all reached names have
the same fragments, are measured alike: a depth rule returns the same depths, reports, calls and
records, with any room for reports, and ends alike if it does not come to its end.

The proof goes along the expansion, which may enter cyclic fragments up to where they are entered
again. The invariant is that whatever is spread in a node is reached from the operation (`Traced`).
Below an ignored field nothing is looked up, although the expansion goes on there.
-/

namespace QueryDepth

/-! ## One walk -/

/-- What follows the question whether a field is ignored matters only if it is not. -/
theorem Walk.ignored_congr {ctx : WalkContext} {name : String} {inside inside' : Walk Int}
    (h : ctx.policy.skips name = false → inside = inside') :
    (do if ← ignored ctx name then return 0 else inside : Walk Int) =
      (do if ← ignored ctx name then return 0 else inside' : Walk Int) := by
  funext s
  rw [bind_apply, bind_apply, ignored_apply]
  cases hanswer : (ctx.policy.ignores name).answer with
  | error message => rfl
  | ok b =>
    have hskips := Policy.skips_of_answer hanswer
    cases b with
    | true => rfl
    | false => rw [h hskips]

section

variable {ctx : WalkContext} {fragments : List (String × Node)} {root : Node}

/-- **A walk depends only on the fragments that are reached.** -/
theorem walk_expand_congr
    (hlookup : ∀ name, root.Reaches ctx.fragments ctx.policy name →
      ctx.fragments.lookup name = fragments.lookup name) (active : List String) (node : Node) :
    node.Traced ctx.fragments ctx.policy root active → ∀ level,
      (node.expand ctx.fragments active).walk ctx level =
        (node.expand fragments active).walk { ctx with fragments } level := by
  induction active, node using Node.expand_induct ctx.fragments with
  | leaf active pos name =>
    intro _ level
    rw [Node.expand_leaf, Node.expand_leaf]
    rfl
  | field active pos name children ih =>
    intro htraced level
    rw [Node.expand_field, Node.expand_field, Node.expandAll_eq_map, Node.expandAll_eq_map,
      Expansion.walk, Expansion.walk]
    refine congrArg (Walk.guarded ctx pos level) (Walk.ignored_congr fun hskip => ?_)
    rw [Expansion.walkAll_congr fun child hchild =>
      ih child hchild (htraced.mono fun _ => .field hskip hchild) (level + 1)]
  | group active pos children ih =>
    intro htraced level
    rw [Node.expand_group, Node.expand_group, Node.expandAll_eq_map, Node.expandAll_eq_map,
      Expansion.walk, Expansion.walk]
    rw [Expansion.walkAll_congr fun child hchild =>
      ih child hchild (htraced.mono fun _ => .group hchild) level]
    rfl
  | missing active pos name hmissing =>
    intro htraced level
    have hsame := hlookup name (htraced.reached name .spread)
    rw [Node.expand_missing pos hmissing, Node.expand_missing pos (hsame ▸ hmissing)]
    rfl
  | reentry active pos name fragment hfound hname =>
    intro htraced level
    have hsame := hlookup name (htraced.reached name .spread)
    rw [Node.expand_reentry pos hfound hname, Node.expand_reentry pos (hsame ▸ hfound) hname]
    rfl
  | followed active pos name fragment hfound hname ih =>
    intro htraced level
    have hsame := hlookup name (htraced.reached name .spread)
    rw [Node.expand_followed pos hfound hname, Node.expand_followed pos (hsame ▸ hfound) hname,
      Expansion.walk, Expansion.walk, ih (htraced.fragment hfound) level]
    rfl
  | other active pos kind =>
    intro _ level
    rw [Node.expand_other, Node.expand_other]
    rfl

/-- So does the walk from the root. -/
theorem Walk.run_congr
    (hlookup : ∀ name, root.Reaches ctx.fragments ctx.policy name →
      ctx.fragments.lookup name = fragments.lookup name) (level : Int) :
    run ctx root level [] = run { ctx with fragments } root level [] := by
  rw [run_eq_walk, run_eq_walk, walk_expand_congr hlookup [] root .root_self level]

end

/-! ## All operations -/

/-- The name is reached from an operation, through spreads that do not stand below ignored
fields. -/
def Document.Reaches (doc : Document) (policy : Policy) (name : String) : Prop :=
  ∃ op ∈ doc.operations, op.node.Reaches doc.fragmentNodes policy name

theorem Document.exists_of_mem_operationNodes {doc : Document} {entry : String × Node}
    (h : entry ∈ doc.operationNodes) : ∃ op ∈ doc.operations, entry.2 = op.node := by
  obtain ⟨e, he, rfl⟩ := List.mem_map.1 h
  obtain ⟨before, after, hsplit, -⟩ := Index.mem_ofEntries.1 he
  have hmem : e ∈ doc.operations.map fun op => (op.label, op) := by simp [hsplit]
  obtain ⟨op, hop, rfl⟩ := List.mem_map.1 hmem
  exact ⟨op, hop, rfl⟩

namespace DepthRule

variable {rule : DepthRule}

theorem measureAll_congr {fragments fragments' : List (String × Node)} :
    ∀ (entries : List (String × Node)) (room : Option Nat),
      (∀ entry ∈ entries, ∀ name, entry.2.Reaches fragments rule.policy name →
        fragments.lookup name = fragments'.lookup name) →
      rule.measureAll fragments entries room = rule.measureAll fragments' entries room
  | [], _, _ => rfl
  | (name, node) :: entries, room, h => by
    have hfirst : Walk.run (rule.context fragments name room) node 0 [] =
        Walk.run (rule.context fragments' name room) node 0 [] :=
      Walk.run_congr (h (name, node) List.mem_cons_self) 0
    have hrest (more : Option Nat) := measureAll_congr entries more fun entry hentry =>
      h entry (List.mem_cons_of_mem _ hentry)
    simp only [measureAll, hfirst, hrest]

/-- **A rule sees only the operations and the fragments that they reach.** -/
theorem run_congr {doc doc' : Document} (hoperations : doc'.operationIndex = doc.operationIndex)
    (hfragments : ∀ name, doc.Reaches rule.policy name →
      doc'.fragmentIndex.lookup name = doc.fragmentIndex.lookup name) (room : Option Nat) :
    rule.run doc' room = rule.run doc room := by
  have hmeasured : rule.measureAll doc'.fragmentNodes doc'.operationNodes room =
      rule.measureAll doc.fragmentNodes doc.operationNodes room := by
    rw [Document.operationNodes, hoperations]
    refine (measureAll_congr doc.operationNodes room fun entry hentry name hreaches => ?_).symm
    obtain ⟨op, hop, hnode⟩ := Document.exists_of_mem_operationNodes hentry
    have hsame := hfragments name ⟨op, hop, hnode ▸ hreaches⟩
    rw [Document.lookup_fragmentNodes, Document.lookup_fragmentNodes, hsame]
  unfold run
  rw [hmeasured]

end DepthRule

end QueryDepth
