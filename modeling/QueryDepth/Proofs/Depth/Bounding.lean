import Mathlib.Data.List.Forall2
import QueryDepth.Proofs.Depth.Returning
import QueryDepth.Proofs.Depth.Siblings
import QueryDepth.Proofs.Depth.Sites

/-!
# How far a depth passes the limit

A field at the limit adds one to what is below it. If it selects anything, all that fails, and the
field makes up for the failure; but if its selection set is there and empty, it counts one for
nothing. No parser gives such fields, but a document can be built with them.

**Theorem (`run_overruns_iff`).** A walk from a node within the limit returns at most one more than
what the limit leaves. It returns this one more if and only if it comes at the limit to a counting
field with an empty selection set. What is handed over for a document is within the limit
(`le_limit_of_handed`).

The proof follows the tree of sites. What a site *reaches* is its level and the depth found there
together; a site reaches beyond a bound if and only if one right below it does (`lt_reach_iff`).
-/

namespace QueryDepth

namespace Site

section

variable (fragments : List (String × Node)) (limit : Int) (policy : Policy)

/-- The depth that the walk finds at a site. -/
def depth (site : Site) : Int :=
  (site.node.expand fragments site.entered).depthAt limit policy site.level

/-- The level of a site and the depth that is found there. -/
def reach (site : Site) : Int := site.level + site.depth fragments limit policy

/-- From the root a counting field comes at the limit that selects nothing. -/
def Overruns (root : Site) : Prop :=
  ∃ address site, root.Leads fragments limit policy address site ∧ site.level = limit ∧
    site.Counts policy []

end

variable {fragments : List (String × Node)} {limit : Int} {policy : Policy}

/-! ## Depths along the tree -/

theorem depth_of_gt {site : Site} (h : site.level > limit) :
    site.depth fragments limit policy = failedDepth :=
  Expansion.depthAt_of_gt h policy _

theorem Counts.eq {site : Site} {children children' : List Node}
    (h : site.Counts policy children) (h' : site.Counts policy children') :
    children = children' := by
  obtain ⟨pos, name, hnode, -⟩ := h
  obtain ⟨pos', name', hnode', -⟩ := h'
  rw [hnode] at hnode'
  exact Option.some.inj (Node.field.inj hnode').2.2

/-- A counting field at the limit makes up for what fails below it. So it has a depth only if
nothing is. -/
theorem depth_of_counts {site : Site} {children : List Node} (hcounts : site.Counts policy children)
    (hlevel : site.level = limit) :
    0 < site.depth fragments limit policy ↔ children = [] := by
  obtain ⟨node, level, entered⟩ := site
  obtain ⟨pos, name, rfl, hskips⟩ := hcounts
  obtain rfl : level = limit := hlevel
  have hle : ¬ level > level := Int.lt_irrefl level
  have hgo : ¬ policy.skips name = true := Bool.eq_false_iff.1 hskips
  rw [depth, Node.expand_field, Expansion.depthAt, if_neg hle, if_neg hgo]
  constructor
  · intro hdepth
    by_contra hne
    have hbelow : level + 1 > level := Int.lt_add_one_iff.2 (Int.le_refl _)
    rw [Expansion.depthAll_of_gt hbelow policy (Node.expandAll_ne_nil hne)] at hdepth
    exact absurd hdepth (by decide)
  · rintro rfl
    rw [Node.expandAll, Expansion.depthAll]
    decide

/-! ## One step -/

section

variable {site : Site} {bound : Int}

theorem below_of_gt (h : site.level > limit) : site.below fragments limit policy = [] := by
  obtain ⟨node, level, entered⟩ := site
  have hgt : level > limit := h
  cases node with
  | field pos name children => cases children <;> simp [below, hgt]
  | spread pos name => simp [below, hgt]
  | group pos children => simp [below, hgt]
  | other pos kind => rfl

/-- A site with nothing below it and no depth of its own reaches as far as its level. -/
theorem lt_reach_iff_of_nil (hlevel : site.level ≤ bound)
    (hbelow : site.below fragments limit policy = [])
    (hdepth : site.depth fragments limit policy ≤ 0) :
    bound < site.reach fragments limit policy ↔
      ∃ child ∈ site.below fragments limit policy, bound < child.reach fragments limit policy := by
  rw [hbelow]
  refine iff_of_false ?_ fun ⟨child, hchild, _⟩ => absurd hchild List.not_mem_nil
  unfold reach
  omega

/-- A site with selections below it reaches as far as one of them. -/
theorem lt_reach_iff_of_children {children : List Node} {inside : Int} (hinside : inside ≤ bound)
    (hbelow : site.below fragments limit policy =
      children.map fun child => ⟨child, inside, site.entered⟩)
    (hreach : site.reach fragments limit policy = inside + Expansion.depthAll limit policy
      (Node.expandAll fragments site.entered children) inside) :
    bound < site.reach fragments limit policy ↔
      ∃ child ∈ site.below fragments limit policy, bound < child.reach fragments limit policy := by
  have hbound : 0 ≤ bound - inside := Int.sub_nonneg.2 hinside
  have hshift (d : Int) : bound < inside + d ↔ bound - inside < d := by omega
  rw [hbelow, hreach, hshift, Expansion.lt_depthAll_iff hbound]
  constructor
  · rintro ⟨e, he, hlt⟩
    obtain ⟨child, hchild, rfl⟩ := Node.mem_expandAll.1 he
    exact ⟨_, List.mem_map_of_mem hchild, (hshift _).2 hlt⟩
  · rintro ⟨s, hs, hlt⟩
    obtain ⟨child, hchild, rfl⟩ := List.mem_map.1 hs
    exact ⟨_, Node.mem_expandAll.2 ⟨child, hchild, rfl⟩, (hshift _).1 hlt⟩

/-- **One step.** A site reaches beyond a bound if and only if one right below it does. The bound
must leave room for the one that a counting field adds. -/
theorem lt_reach_iff (hlevel : site.level ≤ bound)
    (hroom : ∀ children, site.Counts policy children → site.level < bound) :
    bound < site.reach fragments limit policy ↔
      ∃ child ∈ site.below fragments limit policy, bound < child.reach fragments limit policy := by
  by_cases hgt : site.level > limit
  · have hdepth : site.depth fragments limit policy ≤ 0 := by
      rw [depth_of_gt hgt]
      decide
    exact lt_reach_iff_of_nil hlevel (below_of_gt hgt) hdepth
  obtain ⟨node, level, entered⟩ := site
  have hle : ¬ level > limit := hgt
  cases node with
  | field pos name children =>
    cases children with
    | none =>
      refine lt_reach_iff_of_nil hlevel rfl ?_
      simp [depth, Expansion.depthAt, hle]
    | some children =>
      cases hskips : policy.skips name with
      | true =>
        refine lt_reach_iff_of_nil hlevel ?_ ?_
        · simp [below, hskips]
        · simp [depth, Expansion.depthAt, hle, hskips]
      | false =>
        have hcounts : (Site.mk (.field pos name (some children)) level entered).Counts policy
            children := ⟨pos, name, rfl, hskips⟩
        refine lt_reach_iff_of_children (Int.add_one_le_iff.2 (hroom children hcounts))
          (below_of_counts hcounts (Int.not_lt.1 hle)) ?_
        simp [reach, depth, Expansion.depthAt, hle, hskips, Int.add_assoc]
  | group pos children =>
    have hbelow : (Site.mk (.group pos children) level entered).below fragments limit policy =
        children.map fun child => ⟨child, level, entered⟩ := by
      rw [below, if_neg hle]
    refine lt_reach_iff_of_children hlevel hbelow ?_
    simp [reach, depth, Expansion.depthAt, hle]
  | spread pos name =>
    cases hlookup : fragments.lookup name with
    | none =>
      refine lt_reach_iff_of_nil hlevel ?_ ?_
      · simp [below, hlookup]
      · simp [depth, Node.expand_missing pos hlookup, Expansion.depthAt, failedDepth]
    | some fragment =>
      by_cases hname : name ∈ entered
      · refine lt_reach_iff_of_nil hlevel ?_ ?_
        · simp [below, hname]
        · simp [depth, Node.expand_reentry pos hlookup hname, Expansion.depthAt, failedDepth]
      · have hbelow : (Site.mk (.spread pos name) level entered).below fragments limit policy =
            [⟨fragment, level, name :: entered⟩] := by
          simp [below, hle, hname, hlookup]
        have hreach : (Site.mk (.spread pos name) level entered).reach fragments limit policy =
            (Site.mk fragment level (name :: entered)).reach fragments limit policy := by
          simp [reach, depth, Node.expand_followed pos hlookup hname, Expansion.depthAt, hle]
        rw [hbelow, hreach]
        simp
  | other pos kind =>
    refine lt_reach_iff_of_nil hlevel rfl ?_
    simp [depth, Expansion.depthAt, hle]

end

/-! ## How far sites reach -/

/-- Below a site the level rises by at most one, and only below one within the limit. -/
theorem level_bounds_of_mem_below {parent child : Site}
    (h : child ∈ parent.below fragments limit policy) :
    parent.level ≤ limit ∧ parent.level ≤ child.level ∧ child.level ≤ parent.level + 1 := by
  obtain ⟨hlevel, hsame | ⟨children, hcounts⟩⟩ := level_of_mem_below h
  · omega
  · rw [below_of_counts hcounts hlevel] at h
    obtain ⟨_, -, rfl⟩ := List.mem_map.1 h
    exact ⟨hlevel, Int.le_of_lt (Int.lt_succ _), Int.le_refl _⟩

theorem level_le_of_leads {root site : Site} {address : List Nat}
    (h : root.Leads fragments limit policy address site) : root.level ≤ site.level := by
  induction h with
  | here root => exact Int.le_refl _
  | down hchild _ ih =>
    obtain ⟨-, hrises, -⟩ := level_bounds_of_mem_below (List.mem_of_getElem? hchild)
    exact Int.le_trans hrises ih

/-- **No site reaches beyond the limit by more than one.** -/
theorem reach_le (site : Site) :
    site.level ≤ limit + 1 → site.reach fragments limit policy ≤ limit + 1 := by
  induction site using @below_induct fragments limit policy with
  | step site ih =>
    intro hlevel
    rcases Int.lt_or_eq_of_le hlevel with hlt | heq
    · refine Int.not_lt.1 fun hreach => ?_
      obtain ⟨child, hchild, hbeyond⟩ := (lt_reach_iff hlevel fun _ _ => hlt).1 hreach
      obtain ⟨-, -, hrises⟩ := level_bounds_of_mem_below hchild
      exact Int.not_le.2 hbeyond (ih child hchild (by omega))
    · have hgt : site.level > limit := heq ▸ Int.lt_succ limit
      rw [reach, depth_of_gt hgt, heq]
      unfold failedDepth
      omega

theorem overruns_iff {root : Site} : root.Overruns fragments limit policy ↔
    (root.level = limit ∧ root.Counts policy []) ∨
      ∃ child ∈ root.below fragments limit policy, child.Overruns fragments limit policy := by
  constructor
  · rintro ⟨address, site, hsite, hhollow⟩
    cases hsite with
    | here _ => exact .inl hhollow
    | down hchild hbelow =>
      exact .inr ⟨_, List.mem_of_getElem? hchild, _, site, hbelow, hhollow⟩
  · rintro (hhollow | ⟨child, hchild, address, site, hsite, hhollow⟩)
    · exact ⟨[], root, .here root, hhollow⟩
    · obtain ⟨i, hi⟩ := List.getElem?_of_mem hchild
      exact ⟨i :: address, site, .down hi hsite, hhollow⟩

/-- **A site reaches beyond the limit exactly if a counting field comes there that selects
nothing.** -/
theorem lt_reach_limit_iff (site : Site) : site.level ≤ limit →
    (limit < site.reach fragments limit policy ↔ site.Overruns fragments limit policy) := by
  induction site using @below_induct fragments limit policy with
  | step site ih =>
    intro hlevel
    rw [overruns_iff]
    by_cases hroom : ∀ children, site.Counts policy children → site.level < limit
    · -- The field is further below, so one step is taken.
      have hself : ¬ (site.level = limit ∧ site.Counts policy []) := fun ⟨heq, hcounts⟩ =>
        Int.lt_irrefl limit (heq ▸ hroom [] hcounts)
      rw [lt_reach_iff hlevel hroom, or_iff_right hself]
      refine exists_congr fun child => and_congr_right fun hchild => ih child hchild ?_
      obtain ⟨-, hsame | ⟨children, hcounts⟩⟩ := level_of_mem_below hchild
      · exact hsame ▸ hlevel
      · obtain ⟨-, -, hrises⟩ := level_bounds_of_mem_below hchild
        have hlt := hroom children hcounts
        omega
    · -- The site is a counting field at the limit, and what is below it is beyond.
      simp only [not_forall, Int.not_lt] at hroom
      obtain ⟨children, hcounts, hge⟩ := hroom
      have heq : site.level = limit := Int.le_antisymm hlevel hge
      have hbelow : ¬ ∃ child ∈ site.below fragments limit policy,
          child.Overruns fragments limit policy := by
        rintro ⟨child, hchild, address, hollow, hsite, hlimit, -⟩
        rw [below_of_counts hcounts hlevel] at hchild
        obtain ⟨_, -, rfl⟩ := List.mem_map.1 hchild
        have hbeyond : site.level + 1 ≤ hollow.level := level_le_of_leads hsite
        omega
      have hdepth : 0 < site.depth fragments limit policy ↔ children = [] :=
        depth_of_counts hcounts heq
      rw [or_iff_left hbelow, reach, heq]
      constructor
      · intro hreach
        obtain rfl := hdepth.1 (by omega)
        exact ⟨rfl, hcounts⟩
      · rintro ⟨-, hhollow⟩
        have hpos := hdepth.2 (hcounts.eq hhollow)
        omega

end Site

/-! ## Walks and operations beyond the limit -/

namespace Walk

/-- **A depth passes the limit by at most one, and only for an empty selection set.** Whatever a
walk from a node within the limit returns is at most one more than the limit leaves, and it is more
than the limit leaves if and only if a counting field comes at the limit whose selection set is
empty. In a recording context it returns where depth has a meaning. The same holds of every depth
that is recorded for an operation. -/
theorem run_overruns_iff (fragments : List (String × Node)) (limit : Int) (policy : Policy) :
    (∀ (node : Node) (operation : String) (room : Option Nat) (level : Int) (active : List String),
      level ≤ limit →
      (room = none → policy.Pure → (∀ f ∈ fragments, f.2.Every Node.IsWalkable) →
        node.Every Node.IsWalkable →
        ∃ depth s, run ⟨fragments, limit, operation, policy, room⟩ node level active =
          (.ok depth, s)) ∧
      ∀ depth s, run ⟨fragments, limit, operation, policy, room⟩ node level active =
          (.ok depth, s) →
        depth ≤ limit - level + 1 ∧ (limit - level < depth ↔
          (Site.mk node level active).Overruns fragments limit policy)) ∧
    ∀ (operations : List (String × Node)) (receiver : Option Receiver) (room : Option Nat)
      (depths : DepthMap), 0 ≤ limit →
      (DepthRule.measureAll ⟨limit, policy, receiver⟩ fragments operations room).depths =
        .ok depths →
      List.Forall₂ (fun operation depth => depth.1 = operation.1 ∧ depth.2 ≤ limit + 1 ∧
        (limit < depth.2 ↔ (Site.mk operation.2 0 []).Overruns fragments limit policy))
        operations depths := by
  have hreach (site : Site) (hlevel : site.level ≤ limit) :
      site.depth fragments limit policy ≤ limit - site.level + 1 ∧
        (limit - site.level < site.depth fragments limit policy ↔
          site.Overruns fragments limit policy) := by
    have hle : site.reach fragments limit policy ≤ limit + 1 := Site.reach_le site (by omega)
    have hiff : limit < site.reach fragments limit policy ↔ site.Overruns fragments limit policy :=
      Site.lt_reach_limit_iff site hlevel
    unfold Site.reach at hle hiff
    rw [← hiff]
    omega
  refine ⟨fun node operation room level active hlevel => ⟨?_, fun depth s hrun => ?_⟩,
    fun operations receiver room depths hlimit hdepths => ?_⟩
  · intro hroom hpure hfragments hnode
    exact ⟨_, _, run_walkable hroom hpure hfragments hnode level active⟩
  · rw [eq_depthAt_of_run hrun]
    exact hreach ⟨node, level, active⟩ hlevel
  · rw [DepthRule.eq_depths_of_measureAll hdepths, List.forall₂_map_right_iff, List.forall₂_same]
    intro operation _
    have hoperation := hreach ⟨operation.2, 0, []⟩ hlimit
    rw [Int.sub_zero] at hoperation
    exact ⟨rfl, hoperation⟩

end Walk

/-- An operation with a field at the limit one whose selection set is there and empty. -/
def Node.hollow : Node := .group none [.field none "a" (some [.field none "b" (some [])])]

theorem Node.every_isWalkable_hollow : Node.hollow.Every Node.IsWalkable := by
  have hinner : (Node.field none "b" (some [])).Every Node.IsWalkable :=
    .field trivial fun _ hn => absurd hn List.not_mem_nil
  have houter : (Node.field none "a" (some [.field none "b" (some [])])).Every Node.IsWalkable :=
    .field trivial fun n hn => List.mem_singleton.1 hn ▸ hinner
  exact .group trivial fun n hn => List.mem_singleton.1 hn ▸ houter

/-- The depth two passes the limit one, and nothing is reported. -/
theorem Walk.run_overruns_iff_hollow :
    (0 : Int) ≤ 1 ∧ Policy.empty.Pure ∧ Node.hollow.Every Node.IsWalkable ∧
    (∃ s, run ⟨[], 1, "Q", .empty, none⟩ .hollow 0 [] = (.ok 2, s) ∧ s.reports = #[]) ∧
    (DepthRule.measureAll ⟨1, .empty, none⟩ [] [("Q", .hollow)] none).depths = .ok [("Q", 2)] ∧
    (Site.mk .hollow 0 []).Overruns [] 1 .empty := by
  have hlimit : (0 : Int) ≤ 1 := by decide
  obtain ⟨hwalk, hrecorded⟩ := run_overruns_iff [] 1 .empty
  obtain ⟨hreturns, -⟩ := hwalk .hollow "Q" none 0 [] hlimit
  obtain ⟨depth, s, hrun⟩ :=
    hreturns rfl Policy.pure_empty nofun Node.every_isWalkable_hollow
  have hwhole : run ⟨[], 1, "Q", .empty, none⟩ .hollow 0 [] = (.ok 2, start []) := rfl
  rw [hwhole] at hrun
  obtain ⟨hdepth, rfl⟩ := Prod.mk.inj hrun
  obtain rfl := Except.ok.inj hdepth
  have hdepths : (DepthRule.measureAll ⟨1, .empty, none⟩ [] [("Q", .hollow)] none).depths =
      .ok [("Q", 2)] := rfl
  obtain ⟨-, -, hrecordedIff⟩ :=
    (List.forall₂_cons.1 (hrecorded _ none none _ hlimit hdepths)).1
  exact ⟨hlimit, Policy.pure_empty, Node.every_isWalkable_hollow, ⟨_, hwhole, rfl⟩, hdepths,
    hrecordedIff.1 (by decide)⟩

theorem Walk.not_run_le_limit : ¬ ∀ (fragments : List (String × Node)) (limit : Int)
    (policy : Policy) (node : Node) (operation : String) (level : Int) (active : List String)
    (depth : Int) (s : WalkState), policy.Pure → (∀ f ∈ fragments, f.2.Every Node.IsWalkable) →
    node.Every Node.IsWalkable → level ≤ limit →
    run ⟨fragments, limit, operation, policy, none⟩ node level active = (.ok depth, s) →
    depth ≤ limit - level := by
  intro hclaim
  have hdepth := hclaim [] 1 .empty .hollow "Q" 0 [] 2 (start []) Policy.pure_empty nofun
    Node.every_isWalkable_hollow (by decide) rfl
  exact absurd hdepth (by decide)

/-! ## Operations of documents -/

/-- **What is handed over is within the limit**, for no field of a document has an empty selection
set. -/
theorem DepthRule.le_limit_of_handed {rule : DepthRule} (hlimit : 0 ≤ rule.limit) {doc : Document}
    {room : Option Nat} {depths : DepthMap} (h : (rule.run doc room).handed = some depths) :
    ∀ depth ∈ depths, depth.2 ≤ rule.limit := by
  rw [eq_depths_of_handed h]
  intro depth hdepth
  obtain ⟨entry, -, rfl⟩ := List.mem_map.1 hdepth
  have hclamp := Expansion.depthAt_clamp (Int.le_refl rule.limit) rule.policy
    (doc.expansion entry.2) 0 (doc.branching_expansion entry.2) hlimit
  rw [depthOf, hclamp, Int.sub_zero]
  exact Int.min_le_right ..

end QueryDepth
