import QueryDepth.Proofs.Depth.Limit

/-!
# Sites in the fragment-expanded tree

A site in the tree of an operation is a node together with the number of counting fields above it,
its *level*, and the fragments that were entered on the way to it. What stands right below a site is
read off its node: the selections of a field or of a group, and the fragment that a spread leads
into. Nothing stands below a field that is skipped or has no selection set, below a spread that
leads nowhere, and below a site whose level is beyond the limit. The *address* of a site says which
way leads to it from the root, by the numbers of the sites below one another. Addresses are ordered
like words, so that a site comes before those below it and these before those that follow it.

**Theorem (`run_reports_sites`).** A walk reports exactly the faults of the sites of the tree, in
the order of their addresses. The sites beyond the limit are the selections of the counting fields
at the limit.

Sites carry what the nodes of an expansion have lost, the names that are still to be resolved. The
proof goes along the tree by `below_induct` and compares sites with the visits of the expansion,
one step of which is `visits_eq`.
-/

namespace QueryDepth

/-- A node in the tree, with the number of counting fields above it and the fragments that were
entered on the way. -/
structure Site where
  node : Node
  level : Int
  entered : List String

namespace Site

section

variable (fragments : List (String × Node)) (limit : Int) (policy : Policy)

/-! ## The tree -/

/-- The sites right below a site, in order. -/
def below : Site → List Site
  | ⟨.field _ name (some children), level, entered⟩ =>
    if level > limit ∨ policy.skips name then []
    else children.map fun child => ⟨child, level + 1, entered⟩
  | ⟨.group _ children, level, entered⟩ =>
    if level > limit then [] else children.map fun child => ⟨child, level, entered⟩
  | ⟨.spread _ name, level, entered⟩ =>
    if level > limit ∨ name ∈ entered then []
    else ((fragments.lookup name).map fun fragment => ⟨fragment, level, name :: entered⟩).toList
  | ⟨.field _ _ none, _, _⟩ | ⟨.other _ _, _, _⟩ => []

/-- The site stands at this address, seen from a root. -/
inductive Leads : Site → List Nat → Site → Prop
  | here (root : Site) : Leads root [] root
  | down {root child site : Site} {i : Nat} {address : List Nat} :
      (root.below fragments limit policy)[i]? = some child → Leads child address site →
      Leads root (i :: address) site

/-- The list has all sites of the tree with their addresses, in the order of the addresses. -/
structure Enumerates (root : Site) (sites : List (List Nat × Site)) : Prop where
  ordered : sites.Pairwise fun a b => a.1 < b.1
  mem_iff : ∀ address site,
    (address, site) ∈ sites ↔ root.Leads fragments limit policy address site

/-- The site is a field that counts, with these selections. -/
def Counts (site : Site) (children : List Node) : Prop :=
  ∃ pos name, site.node = .field pos name (some children) ∧ policy.skips name = false

/-- What the walk comes to at a site. -/
def visit (site : Site) : Expansion × Int :=
  (site.node.expand fragments site.entered, site.level)

/-- What the walk comes to from a site on. -/
def visits (site : Site) : List (Expansion × Int) :=
  (site.node.expand fragments site.entered).visits limit policy site.level

end

/-- What is wrong with a site. Whatever is beyond the limit is too deep; down to the limit a spread
may be missing or cyclic. -/
def fault? (ctx : WalkContext) (site : Site) : Option PlacedFault :=
  if site.level > ctx.limit then some ⟨.tooDeep ctx.operation ctx.limit, site.node.pos⟩
  else match site.node with
    | .spread pos name =>
      match ctx.fragments.lookup name with
      | none => some ⟨.missingFragment name, pos⟩
      | some _ =>
        if name ∈ site.entered then some ⟨.cyclicFragment name ctx.operation, pos⟩ else none
    | _ => none

variable {fragments : List (String × Node)} {limit : Int} {policy : Policy}

/-- Induction along the tree. -/
theorem below_induct {motive : Site → Prop}
    (step : ∀ site : Site, (∀ child ∈ site.below fragments limit policy, motive child) →
      motive site) (site : Site) : motive site := by
  obtain ⟨node, level, entered⟩ := site
  induction entered, node using Node.expand_induct fragments generalizing level with
  | leaf entered pos name => exact step _ fun _ h => absurd h List.not_mem_nil
  | field entered pos name children ih =>
    refine step _ fun child hchild => ?_
    rw [below] at hchild
    split at hchild
    · exact absurd hchild List.not_mem_nil
    · obtain ⟨node, hnode, rfl⟩ := List.mem_map.1 hchild
      exact ih node hnode (level + 1)
  | group entered pos children ih =>
    refine step _ fun child hchild => ?_
    rw [below] at hchild
    split at hchild
    · exact absurd hchild List.not_mem_nil
    · obtain ⟨node, hnode, rfl⟩ := List.mem_map.1 hchild
      exact ih node hnode level
  | missing entered pos name hlookup =>
    refine step _ fun child hchild => ?_
    rw [below, hlookup] at hchild
    simp at hchild
  | reentry entered pos name fragment hlookup hname =>
    refine step _ fun child hchild => ?_
    rw [below, if_pos (.inr hname)] at hchild
    exact absurd hchild List.not_mem_nil
  | followed entered pos name fragment hlookup hname ih =>
    refine step _ fun child hchild => ?_
    rw [below, hlookup] at hchild
    split at hchild
    · exact absurd hchild List.not_mem_nil
    · rw [List.mem_singleton.1 hchild]
      exact ih level
  | other entered pos kind => exact step _ fun _ h => absurd h List.not_mem_nil

/-! ## Sites and visits -/

theorem visitsAll_expandAll (entered : List String) (level : Int) (children : List Node) :
    Expansion.visitsAll limit policy (Node.expandAll fragments entered children) level =
      (children.map fun child => ⟨child, level, entered⟩).flatMap
        (visits fragments limit policy) := by
  induction children with
  | nil => simp [Expansion.visitsAll]
  | cons child children ih =>
    rw [Node.expandAll, Expansion.visitsAll, ih]
    rfl

/-- **One step of the visits.** A site is visited, and then what stands right below it. -/
theorem visits_eq (site : Site) : site.visits fragments limit policy =
    site.visit fragments ::
      (site.below fragments limit policy).flatMap (visits fragments limit policy) := by
  obtain ⟨node, level, entered⟩ := site
  rw [visits, visit]
  dsimp only
  cases node with
  | field pos name children =>
    cases children with
    | none => rw [Node.expand_leaf, Expansion.visits, below, List.flatMap_nil]
    | some children =>
      rw [Node.expand_field, Expansion.visits, below, visitsAll_expandAll]
      split <;> rfl
  | group pos children =>
    rw [Node.expand_group, Expansion.visits, below, visitsAll_expandAll]
    split <;> rfl
  | other pos kind => rw [Node.expand_other, Expansion.visits, below, List.flatMap_nil]
  | spread pos name =>
    cases hlookup : fragments.lookup name with
    | none =>
      rw [Node.expand_missing pos hlookup, Expansion.visits, below, hlookup]
      simp
    | some fragment =>
      by_cases hname : name ∈ entered
      · rw [Node.expand_reentry pos hlookup hname, Expansion.visits, below, if_pos (.inr hname),
          List.flatMap_nil]
      · rw [Node.expand_followed pos hlookup hname, Expansion.visits, below, hlookup]
        by_cases hlevel : level > limit
        · simp [hlevel]
        · simp [hlevel, hname, visits]

/-- What is reported at a visit is what is wrong with the site. -/
theorem faultOf_visit (ctx : WalkContext) (site : Site) :
    ctx.faultOf (site.visit ctx.fragments) = site.fault? ctx := by
  obtain ⟨node, level, entered⟩ := site
  unfold visit WalkContext.faultOf fault?
  dsimp only
  rw [Node.pos_expand]
  split
  · rfl
  cases node with
  | field pos name children => cases children <;> simp
  | group pos children => simp
  | other pos kind => simp
  | spread pos name =>
    rw [Node.expand_spread]
    dsimp only
    cases ctx.fragments.lookup name with
    | none => rfl
    | some fragment => by_cases hname : name ∈ entered <;> simp [hname]

/-! ## The list of all sites -/

@[simp] theorem leads_nil_iff {root site : Site} :
    root.Leads fragments limit policy [] site ↔ site = root := by
  constructor
  · rintro ⟨⟩
    rfl
  · rintro rfl
    exact .here site

theorem leads_cons_iff {root site : Site} {i : Nat} {address : List Nat} :
    root.Leads fragments limit policy (i :: address) site ↔
      ∃ child, (root.below fragments limit policy)[i]? = some child ∧
        child.Leads fragments limit policy address site := by
  constructor
  · rintro (_ | ⟨hchild, hsite⟩)
    exact ⟨_, hchild, hsite⟩
  · rintro ⟨child, hchild, hsite⟩
    exact .down hchild hsite

/-- Lists of the sites from siblings on, one after the other, are the list of all sites from any of
them on, if the siblings are numbered from `i` on. -/
theorem exists_enumeration_siblings {siblings : List Site}
    (h : ∀ sibling ∈ siblings, ∃ sites, sibling.Enumerates fragments limit policy sites ∧
      sites.map (fun e => e.2.visit fragments) = sibling.visits fragments limit policy) (i : Nat) :
    ∃ sites : List (List Nat × Site), (sites.Pairwise fun a b => a.1 < b.1) ∧
      (∀ address site, (address, site) ∈ sites ↔ ∃ j sibling rest, siblings[j]? = some sibling ∧
        address = (i + j) :: rest ∧ sibling.Leads fragments limit policy rest site) ∧
      sites.map (fun e => e.2.visit fragments) =
        siblings.flatMap (visits fragments limit policy) := by
  induction siblings generalizing i with
  | nil => exact ⟨[], .nil, by simp, rfl⟩
  | cons sibling siblings ih =>
    obtain ⟨first, ⟨hordered, hmem⟩, hvisits⟩ := h sibling List.mem_cons_self
    obtain ⟨rest, hordered', hmem', hvisits'⟩ :=
      ih (fun s hs => h s (List.mem_cons_of_mem _ hs)) (i + 1)
    refine ⟨first.map (fun e => (i :: e.1, e.2)) ++ rest, ?_, fun address site => ?_, ?_⟩
    · rw [List.pairwise_append, List.pairwise_map]
      refine ⟨hordered.imp fun hlt => List.cons_lt_cons_iff.2 (.inr ⟨rfl, hlt⟩), hordered', ?_⟩
      rintro a ha ⟨address, site⟩ hb
      obtain ⟨e, -, rfl⟩ := List.mem_map.1 ha
      obtain ⟨j, _, _, -, rfl, -⟩ := (hmem' address site).1 hb
      exact List.cons_lt_cons_iff.2 (.inl (by omega))
    · rw [List.mem_append, hmem', List.mem_map]
      constructor
      · rintro (⟨⟨address, site⟩, he, heq⟩ | ⟨j, s, tail, hs, rfl, hsite⟩)
        · obtain ⟨rfl, rfl⟩ := Prod.mk.inj heq
          exact ⟨0, sibling, address, rfl, rfl, (hmem _ _).1 he⟩
        · exact ⟨j + 1, s, tail, hs, by rw [Nat.add_right_comm, Nat.add_assoc], hsite⟩
      · rintro ⟨j, s, tail, hs, rfl, hsite⟩
        cases j with
        | zero =>
          obtain rfl := Option.some.inj hs
          exact .inl ⟨(tail, site), (hmem _ _).2 hsite, rfl⟩
        | succ j => exact .inr ⟨j, s, tail, hs, by rw [Nat.add_right_comm, Nat.add_assoc], hsite⟩
    · rw [List.map_append, hvisits', List.map_map, List.flatMap_cons, ← hvisits]
      rfl

/-- **The visits are the sites of the tree in order.** -/
theorem exists_enumeration (root : Site) :
    ∃ sites, root.Enumerates fragments limit policy sites ∧
      sites.map (fun e => e.2.visit fragments) = root.visits fragments limit policy := by
  induction root using @below_induct fragments limit policy with
  | step root ih =>
    obtain ⟨sites, hordered, hmem, hvisits⟩ := exists_enumeration_siblings ih 0
    refine ⟨([], root) :: sites, ⟨List.pairwise_cons.2 ⟨?_, hordered⟩, fun address site => ?_⟩, ?_⟩
    · rintro ⟨address, site⟩ he
      obtain ⟨_, _, _, -, rfl, -⟩ := (hmem address site).1 he
      exact List.nil_lt_cons _ _
    · rw [List.mem_cons, hmem]
      cases address with
      | nil => simp
      | cons i address =>
        rw [leads_cons_iff]
        constructor
        · rintro (heq | ⟨j, child, rest, hchild, heq, hsite⟩)
          · exact absurd (congrArg Prod.fst heq) (List.cons_ne_nil _ _)
          · rw [Nat.zero_add] at heq
            obtain ⟨rfl, rfl⟩ := List.cons.inj heq
            exact ⟨child, hchild, hsite⟩
        · rintro ⟨child, hchild, hsite⟩
          exact .inr ⟨i, child, address, hchild, by rw [Nat.zero_add], hsite⟩
    · rw [List.map_cons, hvisits, visits_eq]

/-! ## Levels -/

theorem leads_concat_iff {root site : Site} {address : List Nat} {i : Nat} :
    root.Leads fragments limit policy (address ++ [i]) site ↔
      ∃ parent, root.Leads fragments limit policy address parent ∧
        (parent.below fragments limit policy)[i]? = some site := by
  induction address generalizing root with
  | nil => simp [leads_cons_iff]
  | cons j address ih =>
    rw [List.cons_append, leads_cons_iff]
    constructor
    · rintro ⟨child, hchild, hsite⟩
      obtain ⟨parent, hparent, hbelow⟩ := ih.1 hsite
      exact ⟨parent, .down hchild hparent, hbelow⟩
    · rintro ⟨parent, hparent, hbelow⟩
      obtain ⟨child, hchild, hparent⟩ := leads_cons_iff.1 hparent
      exact ⟨child, hchild, ih.2 ⟨parent, hparent, hbelow⟩⟩

theorem below_of_counts {site : Site} {children : List Node} (h : site.Counts policy children)
    (hlevel : site.level ≤ limit) : site.below fragments limit policy =
      children.map fun child => ⟨child, site.level + 1, site.entered⟩ := by
  obtain ⟨node, level, entered⟩ := site
  obtain ⟨pos, name, rfl, hskips⟩ := h
  have hgo : ¬ (level > limit ∨ policy.skips name = true) := by
    rw [hskips]
    simpa using hlevel
  rw [below, if_neg hgo]

/-- Only below a counting field the level rises. -/
theorem level_of_mem_below {parent site : Site} (h : site ∈ parent.below fragments limit policy) :
    parent.level ≤ limit ∧
      (site.level = parent.level ∨ ∃ children, parent.Counts policy children) := by
  obtain ⟨node, level, entered⟩ := parent
  cases node with
  | field pos name children =>
    cases children with
    | none => exact absurd h List.not_mem_nil
    | some children =>
      rw [below] at h
      split at h
      · exact absurd h List.not_mem_nil
      · rename_i hgo
        obtain ⟨hlevel, hcounts⟩ := not_or.1 hgo
        exact ⟨Int.not_lt.1 hlevel, .inr ⟨children, pos, name, rfl, Bool.eq_false_iff.2 hcounts⟩⟩
  | group pos children =>
    rw [below] at h
    split at h
    · exact absurd h List.not_mem_nil
    · rename_i hlevel
      obtain ⟨child, -, rfl⟩ := List.mem_map.1 h
      exact ⟨Int.not_lt.1 hlevel, .inl rfl⟩
  | spread pos name =>
    rw [below] at h
    split at h
    · exact absurd h List.not_mem_nil
    · rename_i hgo
      obtain ⟨hlevel, -⟩ := not_or.1 hgo
      obtain ⟨fragment, -, rfl⟩ := Option.map_eq_some_iff.1 (Option.mem_toList.1 h)
      exact ⟨Int.not_lt.1 hlevel, .inl rfl⟩
  | other pos kind => exact absurd h List.not_mem_nil

/-- **The sites beyond the limit are the selections of the counting fields at the limit.** -/
theorem beyond_iff {root site : Site} {address : List Nat} (hroot : root.level ≤ limit) :
    root.Leads fragments limit policy address site ∧ limit < site.level ↔
      ∃ above i parent children child, address = above ++ [i] ∧
        root.Leads fragments limit policy above parent ∧ parent.level = limit ∧
        parent.Counts policy children ∧ children[i]? = some child ∧
        site = ⟨child, limit + 1, parent.entered⟩ := by
  constructor
  · rintro ⟨hsite, hbeyond⟩
    obtain rfl | ⟨above, i, heq⟩ := address.eq_nil_or_concat
    · rw [leads_nil_iff.1 hsite] at hbeyond
      exact absurd hroot (Int.not_le.2 hbeyond)
    rw [List.concat_eq_append] at heq
    subst heq
    obtain ⟨parent, hparent, hbelow⟩ := leads_concat_iff.1 hsite
    obtain ⟨hlevel, hsame | ⟨children, hcounts⟩⟩ := level_of_mem_below (List.mem_of_getElem? hbelow)
    · rw [hsame] at hbeyond
      exact absurd hlevel (Int.not_le.2 hbeyond)
    rw [below_of_counts hcounts hlevel, List.getElem?_map] at hbelow
    obtain ⟨child, hchild, rfl⟩ := Option.map_eq_some_iff.1 hbelow
    have hlimit : parent.level = limit := Int.le_antisymm hlevel (Int.lt_add_one_iff.1 hbeyond)
    exact ⟨above, i, parent, children, child, rfl, hparent, hlimit, hcounts, hchild,
      by rw [hlimit]⟩
  · rintro ⟨above, i, parent, children, child, rfl, hparent, rfl, hcounts, hchild, rfl⟩
    refine ⟨leads_concat_iff.2 ⟨parent, hparent, ?_⟩, Int.lt_add_one_iff.2 (Int.le_refl _)⟩
    rw [below_of_counts hcounts (Int.le_refl _), List.getElem?_map, hchild, Option.map_some]

end Site

/-! ## The reports of an operation -/

namespace Walk

/-- **The reports of an operation are read off its tree.** A walk in a recording context comes to
its end, and it reports what is wrong with the sites of the operation's tree, each at the place of
its node, in the order of their addresses. The sites beyond the limit, each of which is reported,
are the selections of the counting fields at the limit. -/
theorem run_reports_sites (doc : Document) (op : Operation) (name : String) {limit : Int}
    (hlimit : 0 ≤ limit) {policy : Policy} (hpure : policy.Pure) :
    ∃ sites depth s,
      run ⟨doc.fragmentNodes, limit, name, policy, none⟩ op.node 0 [] = (.ok depth, s) ∧
      (Site.mk op.node 0 []).Enumerates doc.fragmentNodes limit policy sites ∧
      s.reports.toList =
        sites.filterMap (fun e => e.2.fault? ⟨doc.fragmentNodes, limit, name, policy, none⟩) ∧
      ∀ address site, (address, site) ∈ sites ∧ limit < site.level ↔
        ∃ above i parent children child, address = above ++ [i] ∧ (above, parent) ∈ sites ∧
          parent.level = limit ∧ parent.Counts policy children ∧ children[i]? = some child ∧
          site = ⟨child, limit + 1, parent.entered⟩ := by
  let ctx : WalkContext := ⟨doc.fragmentNodes, limit, name, policy, none⟩
  have hrun : run ctx op.node 0 [] = _ := run_fits rfl hpure op 0 rfl
  obtain ⟨sites, hsites, hvisits⟩ :
      ∃ sites, (Site.mk op.node 0 []).Enumerates doc.fragmentNodes limit policy sites ∧ _ :=
    Site.exists_enumeration _
  refine ⟨sites, _, _, hrun, hsites, ?_, fun address site => ?_⟩
  · have hfault : (ctx.faultOf ∘ fun e : List Nat × Site => e.2.visit doc.fragmentNodes) =
        fun e => e.2.fault? ctx := funext fun e => Site.faultOf_visit ctx e.2
    calc _ = (doc.expansion op).faultsAt ctx 0 := by rw [reports_start_record]
      _ = (sites.map fun e => e.2.visit doc.fragmentNodes).filterMap ctx.faultOf := by
        rw [hvisits]
        rfl
      _ = sites.filterMap fun e => e.2.fault? ctx := by
        rw [List.filterMap_map, hfault]
  · simp only [hsites.mem_iff]
    exact Site.beyond_iff hlimit

/-- The second selection of the fragment is only reached through the spread in the field. -/
theorem run_reports_sites_spiral : (0 : Int) ≤ 1 ∧ Policy.empty.Pure ∧
    ∃ (sites : List (List Nat × Site)) (depth : Int) (s : WalkState),
      run ⟨Document.spiral.fragmentNodes, 1, "Q", .empty, none⟩ Operation.spiral.node 0 [] =
        (.ok depth, s) ∧
      s.reports.toList = [⟨.cyclicFragment "F" "Q", some 0⟩, ⟨.tooDeep "Q" 1, some 0⟩,
        ⟨.missingFragment "G", some 0⟩] ∧
      s.reports.toList = sites.filterMap (fun e =>
        e.2.fault? ⟨Document.spiral.fragmentNodes, 1, "Q", .empty, none⟩) ∧
      ([0, 0, 0, 1, 0], ⟨.field (some 0) "c" none, 2, ["F"]⟩) ∈ sites := by
  have hlimit : (0 : Int) ≤ 1 := by decide
  obtain ⟨sites, depth, s, hrun, hsites, hreports, -⟩ :=
    run_reports_sites Document.spiral .spiral "Q" hlimit Policy.pure_empty
  refine ⟨hlimit, Policy.pure_empty, sites, depth, s, hrun, ?_, hreports, ?_⟩
  · have hlist : (run ⟨Document.spiral.fragmentNodes, 1, "Q", .empty, none⟩
        Operation.spiral.node 0 []).2.reports.toList = [⟨.cyclicFragment "F" "Q", some 0⟩,
          ⟨.tooDeep "Q" 1, some 0⟩, ⟨.missingFragment "G", some 0⟩] := rfl
    rw [hrun] at hlist
    exact hlist
  · rw [hsites.mem_iff]
    exact .down rfl (.down rfl (.down rfl (.down rfl (.down rfl (.here _)))))

end Walk

end QueryDepth
