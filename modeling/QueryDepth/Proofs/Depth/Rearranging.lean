import QueryDepth.Proofs.Depth.Siblings
import QueryDepth.Proofs.Index

/-!
# Selections in another order

A node is *rearranged* by replacing the selections of every selection set by ones that are related
to them, say the same in another order or the same with some repeated, and rearranging each of these
in turn. Fragments are rearranged one by one under their names.

**Theorem (`run_rearranged`).** If the operation and its fragments are rearranged so that every
selection set has the same selections, in any order and number, a walk returns the same depth. If no
selection is repeated or left out, it reports the same, up to order.

The walk is followed along the expansion of the node, which says what is entered where, with any
node that it is rearranged into. Siblings start inside the same fragments in any order, so there is
nothing to say about the fragments that are active. What is left is that neither the greatest of
some depths nor the list of some reports, up to order, depends on the order of the siblings.
-/

namespace QueryDepth

/-- The one node is rearranged into the other. Selections are replaced by ones that `r` relates to
them, each of which is rearranged in turn: `pairs` has them before and after. -/
inductive Node.Rearranged (r : List Node → List Node → Prop) : Node → Node → Prop
  | leaf {pos : Option Nat} {name : String} :
      Rearranged r (.field pos name none) (.field pos name none)
  | field {pos : Option Nat} {name : String} {children : List Node} {pairs : List (Node × Node)} :
      r children (pairs.map Prod.fst) → (∀ p ∈ pairs, Rearranged r p.1 p.2) →
      Rearranged r (.field pos name (some children)) (.field pos name (some (pairs.map Prod.snd)))
  | group {pos : Option Nat} {children : List Node} {pairs : List (Node × Node)} :
      r children (pairs.map Prod.fst) → (∀ p ∈ pairs, Rearranged r p.1 p.2) →
      Rearranged r (.group pos children) (.group pos (pairs.map Prod.snd))
  | spread {pos : Option Nat} {name : String} : Rearranged r (.spread pos name) (.spread pos name)
  | other {pos : Option Nat} {kind : String} : Rearranged r (.other pos kind) (.other pos kind)

/-- The fragments have the same names, in order, and each is rearranged. -/
def FragmentsRearranged (r : List Node → List Node → Prop) :
    List (String × Node) → List (String × Node) → Prop :=
  List.Forall₂ fun f f' => f.1 = f'.1 ∧ f.2.Rearranged r f'.2

/-- The same selections, in any order and number. -/
def SameSelections (nodes nodes' : List Node) : Prop := ∀ node, node ∈ nodes ↔ node ∈ nodes'

variable {r : List Node → List Node → Prop}

/-! ## What rearranging keeps -/

mutual

/-- Any selection set may be left as it is. -/
theorem Node.Rearranged.refl (hr : ∀ nodes, r nodes nodes) : ∀ node : Node, node.Rearranged r node
  | .field pos name none => .leaf
  | .field pos name (some children) => by
    have hfield := @Rearranged.field r pos name children (children.map fun child => (child, child))
      (by rw [List.map_map]; exact (List.map_id children).symm ▸ hr children)
      (List.forall_mem_map.2 (Rearranged.refl_all hr children))
    rwa [List.map_map, show Prod.snd ∘ (fun child : Node => (child, child)) = id from rfl,
      List.map_id] at hfield
  | .group pos children => by
    have hgroup := @Rearranged.group r pos children (children.map fun child => (child, child))
      (by rw [List.map_map]; exact (List.map_id children).symm ▸ hr children)
      (List.forall_mem_map.2 (Rearranged.refl_all hr children))
    rwa [List.map_map, show Prod.snd ∘ (fun child : Node => (child, child)) = id from rfl,
      List.map_id] at hgroup
  | .spread pos name => .spread
  | .other pos kind => .other

theorem Node.Rearranged.refl_all (hr : ∀ nodes, r nodes nodes) :
    ∀ nodes : List Node, ∀ node ∈ nodes, node.Rearranged r node
  | [], _, h => absurd h List.not_mem_nil
  | first :: more, node, h => by
    rcases List.mem_cons.1 h with heq | hmore
    · rw [heq]
      exact Rearranged.refl hr first
    · exact Rearranged.refl_all hr more node hmore

end

theorem FragmentsRearranged.refl (hr : ∀ nodes, r nodes nodes) (fragments : List (String × Node)) :
    FragmentsRearranged r fragments fragments :=
  List.forall₂_same.2 fun f _ => ⟨rfl, .refl hr f.2⟩

theorem Node.Rearranged.imp {q : List Node → List Node → Prop}
    (hrq : ∀ nodes nodes', r nodes nodes' → q nodes nodes') {node node' : Node}
    (h : node.Rearranged r node') : node.Rearranged q node' := by
  induction h with
  | leaf => exact .leaf
  | field hr _ ih => exact .field (hrq _ _ hr) ih
  | group hr _ ih => exact .group (hrq _ _ hr) ih
  | spread => exact .spread
  | other => exact .other

theorem FragmentsRearranged.imp {q : List Node → List Node → Prop}
    (hrq : ∀ nodes nodes', r nodes nodes' → q nodes nodes')
    {fragments fragments' : List (String × Node)} (h : FragmentsRearranged r fragments fragments') :
    FragmentsRearranged q fragments fragments' :=
  List.Forall₂.imp (fun _ _ hf => ⟨hf.1, hf.2.imp hrq⟩) h

theorem sameSelections_of_perm (nodes nodes' : List Node) (h : nodes.Perm nodes') :
    SameSelections nodes nodes' := fun _ => h.mem_iff

/-- No node of another kind comes in. -/
theorem Node.Rearranged.every_isWalkable {node node' : Node}
    (h : node.Rearranged SameSelections node') :
    node.Every IsWalkable → node'.Every IsWalkable := by
  have hpairs {children : List Node} {pairs : List (Node × Node)}
      (hsame : SameSelections children (pairs.map Prod.fst))
      (ih : ∀ p ∈ pairs, p.1.Every IsWalkable → p.2.Every IsWalkable)
      (hchildren : ∀ child ∈ children, child.Every IsWalkable) :
      ∀ child ∈ pairs.map Prod.snd, child.Every IsWalkable := by
    intro child hchild
    obtain ⟨p, hp, rfl⟩ := List.mem_map.1 hchild
    exact ih p hp (hchildren p.1 ((hsame p.1).2 (List.mem_map_of_mem hp)))
  induction h with
  | leaf | spread | other => exact id
  | field hsame _ ih =>
    intro hnode
    cases hnode with
    | field _ hchildren => exact .field trivial (hpairs hsame ih hchildren)
  | group hsame _ ih =>
    intro hnode
    cases hnode with
    | group _ hchildren => exact .group trivial (hpairs hsame ih hchildren)

namespace FragmentsRearranged

variable {fragments fragments' : List (String × Node)}

theorem every_isWalkable (h : FragmentsRearranged SameSelections fragments fragments') :
    (∀ f ∈ fragments, f.2.Every Node.IsWalkable) → ∀ f ∈ fragments', f.2.Every Node.IsWalkable := by
  induction h with
  | nil => exact id
  | cons hf _ ih =>
    intro hall f hmem
    rcases List.mem_cons.1 hmem with rfl | hmem
    · exact hf.2.every_isWalkable (hall _ List.mem_cons_self)
    · exact ih (fun f hf => hall f (List.mem_cons_of_mem _ hf)) f hmem

/-- The fragments are related as entries of an index. -/
theorem sameKey (h : FragmentsRearranged r fragments fragments') :
    List.Forall₂ (Index.SameKey (Node.Rearranged r)) fragments fragments' := h

end FragmentsRearranged

namespace Node

variable {fragments fragments' : List (String × Node)} {active : List String} {children : List Node}
  {pairs : List (Node × Node)} {level : Int}

/-! ## Depths -/

/-- The same selections have the same greatest depth, if each keeps its depth. -/
theorem depthAll_rearranged {limit : Int} {policy : Policy}
    (hsame : SameSelections children (pairs.map Prod.fst))
    (hpairs : ∀ p ∈ pairs, (p.1.expand fragments active).depthAt limit policy level =
      (p.2.expand fragments' active).depthAt limit policy level) :
    Expansion.depthAll limit policy (expandAll fragments active children) level =
      Expansion.depthAll limit policy (expandAll fragments' active (pairs.map Prod.snd)) level := by
  refine Expansion.depthAll_congr (fun e he => ?_) (fun e' he' => ?_)
  · obtain ⟨child, hchild, rfl⟩ := mem_expandAll.1 he
    obtain ⟨p, hp, rfl⟩ := List.mem_map.1 ((hsame child).1 hchild)
    exact ⟨_, mem_expandAll.2 ⟨p.2, List.mem_map_of_mem hp, rfl⟩, (hpairs p hp).symm⟩
  · obtain ⟨child, hchild, rfl⟩ := mem_expandAll.1 he'
    obtain ⟨p, hp, rfl⟩ := List.mem_map.1 hchild
    exact ⟨_, mem_expandAll.2 ⟨p.1, (hsame p.1).2 (List.mem_map_of_mem hp), rfl⟩, hpairs p hp⟩

/-- **Rearranging keeps the depth.** -/
theorem depthAt_rearranged (hfragments : FragmentsRearranged SameSelections fragments fragments')
    (limit : Int) (policy : Policy) (active : List String) (node : Node) :
    ∀ node', node.Rearranged SameSelections node' → ∀ level,
      (node.expand fragments active).depthAt limit policy level =
        (node'.expand fragments' active).depthAt limit policy level := by
  induction active, node using expand_induct fragments with
  | leaf active pos name =>
    rintro _ ⟨⟩ level
    rw [expand_leaf, expand_leaf]
  | field active pos name children ih =>
    rintro _ (_ | @⟨_, _, _, pairs, hsame, hpairs⟩) level
    have hall := depthAll_rearranged hsame (fun p hp =>
      ih p.1 ((hsame p.1).2 (List.mem_map_of_mem hp)) p.2 (hpairs p hp) (level + 1))
    rw [expand_field, expand_field, Expansion.depthAt, Expansion.depthAt, hall]
  | group active pos children ih =>
    rintro _ (_ | _ | @⟨_, _, pairs, hsame, hpairs⟩) level
    have hall := depthAll_rearranged hsame (fun p hp =>
      ih p.1 ((hsame p.1).2 (List.mem_map_of_mem hp)) p.2 (hpairs p hp) level)
    rw [expand_group, expand_group, Expansion.depthAt, Expansion.depthAt, hall]
  | missing active pos name hlookup =>
    rintro _ ⟨⟩ level
    have hlookup' := Index.lookup_eq_none hfragments.sameKey hlookup
    rw [expand_missing pos hlookup, expand_missing pos hlookup']
  | reentry active pos name fragment hlookup hname =>
    rintro _ ⟨⟩ level
    obtain ⟨fragment', hlookup', -⟩ := Index.exists_lookup hfragments.sameKey hlookup
    rw [expand_reentry pos hlookup hname, expand_reentry pos hlookup' hname]
  | followed active pos name fragment hlookup hname ih =>
    rintro _ ⟨⟩ level
    obtain ⟨fragment', hlookup', hfragment⟩ := Index.exists_lookup hfragments.sameKey hlookup
    rw [expand_followed pos hlookup hname, expand_followed pos hlookup' hname, Expansion.depthAt,
      Expansion.depthAt, ih fragment' hfragment level]
  | other active pos kind =>
    rintro _ ⟨⟩ level
    rw [expand_other, expand_other]

/-! ## Reports -/

/-- Selections in another order are reported in another order. -/
theorem faultsAll_rearranged {ctx : WalkContext} (hperm : children.Perm (pairs.map Prod.fst))
    (hpairs : ∀ p ∈ pairs, ((p.1.expand fragments active).faultsAt ctx level).Perm
      ((p.2.expand fragments' active).faultsAt ctx level)) :
    (Expansion.faultsAll ctx (expandAll fragments active children) level).Perm
      (Expansion.faultsAll ctx (expandAll fragments' active (pairs.map Prod.snd)) level) := by
  rw [Expansion.faultsAll_eq_flatMap, Expansion.faultsAll_eq_flatMap, expandAll_eq_map,
    expandAll_eq_map, List.flatMap_map, List.map_map, List.flatMap_map]
  refine (hperm.flatMap_right _).trans ?_
  rw [List.flatMap_map]
  exact List.Perm.flatMap_left pairs hpairs

theorem Rearranged.pos_eq {node node' : Node} (h : node.Rearranged r node') :
    node.pos = node'.pos := by
  cases h <;> rfl

/-- **Rearranging keeps the reports, up to order.** -/
theorem faultsAt_rearranged (hfragments : FragmentsRearranged List.Perm fragments fragments')
    (ctx : WalkContext) (active : List String) (node : Node) :
    ∀ node', node.Rearranged List.Perm node' → ∀ level,
      ((node.expand fragments active).faultsAt ctx level).Perm
        ((node'.expand fragments' active).faultsAt ctx level) := by
  -- beyond the limit a node is reported by its place alone
  have hwithin {active : List String} {node node' : Node} (h : node.Rearranged List.Perm node')
      {level : Int} (hnodes : ¬ level > ctx.limit →
        ((node.expand fragments active).faultsAt ctx level).Perm
          ((node'.expand fragments' active).faultsAt ctx level)) :
      ((node.expand fragments active).faultsAt ctx level).Perm
        ((node'.expand fragments' active).faultsAt ctx level) := by
    by_cases hlevel : level > ctx.limit
    · rw [Expansion.faultsAt_of_gt hlevel, Expansion.faultsAt_of_gt hlevel, pos_expand, pos_expand,
        h.pos_eq]
    · exact hnodes hlevel
  induction active, node using expand_induct fragments with
  | leaf active pos name =>
    rintro _ ⟨⟩ level
    rw [expand_leaf, expand_leaf]
  | field active pos name children ih =>
    rintro _ (_ | @⟨_, _, _, pairs, hperm, hpairs⟩) level
    refine hwithin (.field hperm hpairs) fun hlevel => ?_
    rw [expand_field, expand_field, Expansion.faultsAt_field _ _ _ hlevel,
      Expansion.faultsAt_field _ _ _ hlevel]
    split
    · exact .refl _
    · exact faultsAll_rearranged hperm fun p hp =>
        ih p.1 (hperm.mem_iff.2 (List.mem_map_of_mem hp)) p.2 (hpairs p hp) (level + 1)
  | group active pos children ih =>
    rintro _ (_ | _ | @⟨_, _, pairs, hperm, hpairs⟩) level
    refine hwithin (.group hperm hpairs) fun hlevel => ?_
    rw [expand_group, expand_group, Expansion.faultsAt_group _ _ hlevel,
      Expansion.faultsAt_group _ _ hlevel]
    exact faultsAll_rearranged hperm fun p hp =>
      ih p.1 (hperm.mem_iff.2 (List.mem_map_of_mem hp)) p.2 (hpairs p hp) level
  | missing active pos name hlookup =>
    rintro _ ⟨⟩ level
    have hlookup' := Index.lookup_eq_none hfragments.sameKey hlookup
    rw [expand_missing pos hlookup, expand_missing pos hlookup']
  | reentry active pos name fragment hlookup hname =>
    rintro _ ⟨⟩ level
    obtain ⟨fragment', hlookup', -⟩ := Index.exists_lookup hfragments.sameKey hlookup
    rw [expand_reentry pos hlookup hname, expand_reentry pos hlookup' hname]
  | followed active pos name fragment hlookup hname ih =>
    rintro _ ⟨⟩ level
    obtain ⟨fragment', hlookup', hfragment⟩ := Index.exists_lookup hfragments.sameKey hlookup
    refine hwithin .spread fun hlevel => ?_
    rw [expand_followed pos hlookup hname, expand_followed pos hlookup' hname,
      Expansion.faultsAt_followed _ _ hlevel, Expansion.faultsAt_followed _ _ hlevel]
    exact ih fragment' hfragment level
  | other active pos kind =>
    rintro _ ⟨⟩ level
    rw [expand_other, expand_other]

end Node

namespace Walk

/-- **Sibling order does not matter.** A walk from any node, inside any fragments, returns a depth.
If in all selection sets of the node and of the fragments the selections are put into another order,
it returns the same depth and reports the same, up to order. If some of them are repeated as well,
it still returns the same depth. -/
theorem run_rearranged {fragments : List (String × Node)} {node : Node} {policy : Policy}
    (hfragments : ∀ f ∈ fragments, f.2.Every Node.IsWalkable) (hnode : node.Every Node.IsWalkable)
    (hpure : policy.Pure) (operation : String) (limit level : Int) (active : List String) :
    ∃ depth s, run ⟨fragments, limit, operation, policy, none⟩ node level active = (.ok depth, s) ∧
      (∀ fragments' node', FragmentsRearranged List.Perm fragments fragments' →
        node.Rearranged List.Perm node' →
        ∃ s', run ⟨fragments', limit, operation, policy, none⟩ node' level active =
            (.ok depth, s') ∧ s.reports.toList.Perm s'.reports.toList) ∧
      ∀ fragments' node', FragmentsRearranged SameSelections fragments fragments' →
        node.Rearranged SameSelections node' →
        ∃ s', run ⟨fragments', limit, operation, policy, none⟩ node' level active =
          (.ok depth, s') := by
  have hwalk {fragments : List (String × Node)} {node : Node}
      (hfragments : ∀ f ∈ fragments, f.2.Every Node.IsWalkable)
      (hnode : node.Every Node.IsWalkable) :
      run ⟨fragments, limit, operation, policy, none⟩ node level active = _ :=
    run_walkable rfl hpure hfragments hnode level active
  have hsame {fragments' : List (String × Node)} {node' : Node}
      (hfragments' : FragmentsRearranged SameSelections fragments fragments')
      (hnode' : node.Rearranged SameSelections node') :
      run ⟨fragments', limit, operation, policy, none⟩ node' level active =
        (.ok ((node.expand fragments active).depthAt limit policy level),
          (start active).record
            ((node'.expand fragments' active).faultsAt ⟨fragments', limit, operation, policy, none⟩
              level)
            ((node'.expand fragments' active).callsAt ⟨fragments', limit, operation, policy, none⟩
              level)) := by
    rw [Node.depthAt_rearranged hfragments' limit policy active node node' hnode' level]
    exact hwalk (hfragments'.every_isWalkable hfragments) (hnode'.every_isWalkable hnode)
  refine ⟨_, _, hwalk hfragments hnode, fun fragments' node' hfragments' hnode' => ?_,
    fun fragments' node' hfragments' hnode' => ⟨_, hsame hfragments' hnode'⟩⟩
  refine ⟨_, hsame (hfragments'.imp sameSelections_of_perm) (hnode'.imp sameSelections_of_perm), ?_⟩
  rw [reports_start_record, reports_start_record]
  exact Node.faultsAt_rearranged hfragments' _ active node node' hnode' level

end Walk

/-- `Operation.spiral` with its selections turned round. -/
def Operation.turned : Operation :=
  .bare "Q" [.bareSpread "G", .bareField "a" [.bareSpread "F"]]

/-- `Document.spiral` with the selections of the query and of the fragment turned round. -/
def Document.turned : Document :=
  ⟨[.operation .turned,
    .fragment (.bare "F" "T" [.bareField "b" [.bareField "c" []], .bareSpread "F"])]⟩

/-- `Operation.spiral` with its last selection repeated. -/
def Operation.stuttering : Operation :=
  .bare "Q" [.bareField "a" [.bareSpread "F"], .bareSpread "G", .bareSpread "G"]

/-- Two selections are turned round. -/
theorem Node.Rearranged.turn (pos : Option Nat) (first second : Node) :
    (Node.group pos [first, second]).Rearranged List.Perm (Node.group pos [second, first]) := by
  refine @Rearranged.group _ pos _ [(second, second), (first, first)] (.swap second first []) ?_
  simp [Rearranged.refl List.Perm.refl]

/-- The second of two selections is repeated. -/
theorem Node.Rearranged.again (pos : Option Nat) (first second : Node) :
    (Node.group pos [first, second]).Rearranged SameSelections
      (Node.group pos [first, second, second]) := by
  have hrefl (node : Node) : node.Rearranged SameSelections node := .refl (fun _ _ => Iff.rfl) node
  refine @Rearranged.group _ pos _ [(first, first), (second, second), (second, second)] ?_ ?_
  · intro node
    simp
  · simp [hrefl]

/-- Turned round, the missing spread is reported before what is in the field. -/
theorem Walk.run_rearranged_spiral :
    (∀ f ∈ Document.spiral.fragmentNodes, f.2.Every Node.IsWalkable) ∧
    Operation.spiral.node.Every Node.IsWalkable ∧ Policy.empty.Pure ∧
    FragmentsRearranged List.Perm Document.spiral.fragmentNodes Document.turned.fragmentNodes ∧
    Operation.spiral.node.Rearranged List.Perm Operation.turned.node ∧
    Operation.spiral.node.Rearranged SameSelections Operation.stuttering.node ∧
    ∃ s s' t,
      run ⟨Document.spiral.fragmentNodes, 1, "Q", .empty, none⟩ Operation.spiral.node 0 [] =
        (.ok 1, s) ∧
      run ⟨Document.turned.fragmentNodes, 1, "Q", .empty, none⟩ Operation.turned.node 0 [] =
        (.ok 1, s') ∧
      s.reports.toList.Perm s'.reports.toList ∧ s.reports ≠ s'.reports ∧
      run ⟨Document.spiral.fragmentNodes, 1, "Q", .empty, none⟩ Operation.stuttering.node 0 [] =
        (.ok 1, t) := by
  have hfragments : ∀ f ∈ Document.spiral.fragmentNodes, f.2.Every Node.IsWalkable :=
    fun f hf => (Document.spiral.every_fragmentNodes f hf).imp fun _ => And.left
  have hnode : Operation.spiral.node.Every Node.IsWalkable :=
    (Document.every_node .spiral).imp fun _ => And.left
  have hturned : FragmentsRearranged List.Perm Document.spiral.fragmentNodes
      Document.turned.fragmentNodes := .cons ⟨rfl, .turn _ _ _⟩ .nil
  have hturnedNode : Operation.spiral.node.Rearranged List.Perm Operation.turned.node :=
    .turn _ _ _
  have hagain : Operation.spiral.node.Rearranged SameSelections Operation.stuttering.node :=
    .again _ _ _
  obtain ⟨depth, s, hrun, hperm, hsame⟩ :=
    run_rearranged hfragments hnode Policy.pure_empty "Q" 1 0 []
  obtain rfl : depth = 1 := Except.ok.inj (congrArg Prod.fst hrun.symm)
  obtain ⟨s', hrun', hreports⟩ := hperm _ _ hturned hturnedNode
  obtain ⟨t, hrepeated⟩ := hsame _ _ (.refl (fun _ _ => Iff.rfl) _) hagain
  have hs : s.reports.toList = [⟨.cyclicFragment "F" "Q", some 0⟩, ⟨.tooDeep "Q" 1, some 0⟩,
      ⟨.missingFragment "G", some 0⟩] := congrArg (·.2.reports.toList) hrun.symm
  have hs' : s'.reports.toList = [⟨.missingFragment "G", some 0⟩, ⟨.tooDeep "Q" 1, some 0⟩,
      ⟨.cyclicFragment "F" "Q", some 0⟩] := congrArg (·.2.reports.toList) hrun'.symm
  have hdiffer : s.reports ≠ s'.reports := fun heq => by
    rw [heq, hs'] at hs
    exact absurd hs (by decide)
  exact ⟨hfragments, hnode, Policy.pure_empty, hturned, hturnedNode, hagain, s, s', t, hrun, hrun',
    hreports, hdiffer, hrepeated⟩

end QueryDepth
