import Mathlib.Data.List.Nodup
import QueryDepth.Proofs.Validation.Clean

/-!
# The search for cycles

The rule on fragment cycles searches from each fragment in turn, depth first, and looks into no
fragment twice, in all searches together. So it does not follow every path; that it misses no cycle
is shown by what a fragment is when it is left.

**Grounded names.** A name is grounded if every chain of spreads from it ends. A fragment is
grounded if all that it spreads is, and a grounded name is on no cycle.

**The invariant** (`Settled`). Every fragment that was visited is still entered, or grounded. A
spread of an entered fragment is found as a cycle. So in a search that finds nothing, a spread that
was followed leads to a grounded fragment (`settled_followSpread`); and when the last spread of a
fragment was, the fragment itself is grounded (`settled_foldl`, `searchSettles`, by induction on the
fuel). The fuel suffices, because every step down takes away one of the fragments that were never
visited.

**Theorem (`IsClean.isAcyclic`).** The fragments of a clean document are acyclic. The rule looks the
cycles of a fragment up by its offset, so the fragments must have different ones.
-/

namespace QueryDepth

open Relation

/-! ## Grounded names -/

/-- Every chain of spreads from the name ends. -/
def Grounded (fragments : List (String × Node)) (name : String) : Prop :=
  Acc (fun spread name => Spreads fragments name spread) name

theorem Grounded.not_transGen_self {fragments : List (String × Node)} {name : String}
    (h : Grounded fragments name) : ¬ TransGen (Spreads fragments) name name := by
  induction h with
  | intro name _ ih =>
    intro hcycle
    obtain ⟨spread, hstep, hback⟩ := TransGen.head'_iff.1 hcycle
    exact ih spread hstep (TransGen.tail' hback hstep)

/-- What is not defined spreads nothing. -/
theorem Document.grounded_of_not_defines {doc : Document} {name : String}
    (h : ¬ doc.Defines name) : Grounded doc.fragmentNodes name := by
  refine .intro name fun spread hspread => ?_
  obtain ⟨fragment, hlookup, -⟩ := hspread
  exact absurd (defines_of_lookup hlookup) h

/-! ## The spreads that are looked at -/

mutual

/-- What is spread in a selection is spread by it or in its selection sets. -/
theorem Selection.mem_spreads : ∀ (selection : Selection) {name : String},
    name ∈ selection.node.spreads →
      (∃ sp, selection = .spread sp ∧ sp.name.value = name) ∨
        ∃ sp ∈ selection.innerSpreads, sp.name.value = name
  | .field f [], name, h => by
    rw [Selection.node, Node.spreads] at h
    exact absurd h List.not_mem_nil
  | .field f (selection :: rest), name, h => by
    rw [Selection.node, Node.spreads, ← Selection.nodes] at h
    rw [Selection.innerSpreads]
    exact .inr (exists_mem_spreadsIn (selection :: rest) h)
  | .spread sp, name, h => by
    rw [Selection.node, Node.spreads] at h
    exact .inl ⟨sp, rfl, (List.mem_singleton.1 h).symm⟩
  | .inlineFragment f selections, name, h => by
    rw [Selection.node, Node.spreads] at h
    rw [Selection.innerSpreads]
    exact .inr (exists_mem_spreadsIn selections h)

theorem exists_mem_spreadsIn : ∀ (selections : List Selection) {name : String},
    name ∈ Node.spreadsAll (Selection.nodes selections) →
      ∃ sp ∈ spreadsIn selections, sp.name.value = name
  | [], name, h => by
    rw [Selection.nodes, Node.spreadsAll] at h
    exact absurd h List.not_mem_nil
  | selection :: rest, name, h => by
    rw [Selection.nodes, Node.spreadsAll] at h
    rw [spreadsIn, nestedSpreads]
    rcases List.mem_append.1 h with h | h
    · rcases Selection.mem_spreads selection h with ⟨sp, rfl, hsp⟩ | ⟨sp, hinner, hsp⟩
      · exact ⟨sp, List.mem_append_left _ List.mem_cons_self, hsp⟩
      · exact ⟨sp, List.mem_append_right _ (List.mem_append_right _ hinner), hsp⟩
    · obtain ⟨sp, hin, hsp⟩ := exists_mem_spreadsIn rest h
      refine ⟨sp, ?_, hsp⟩
      rcases List.mem_append.1 hin with hdirect | hnested
      · exact List.mem_append_left _
          (((List.sublist_cons_self selection rest).filterMap _).subset hdirect)
      · exact List.mem_append_right _ (List.mem_append_left _ hnested)

end

namespace Document

variable {doc : Document}

theorem exists_fragment_of_lookup {name : String} {node : Node}
    (h : doc.fragmentNodes.lookup name = some node) :
    ∃ f ∈ doc.fragments, f.name.value = name ∧ f.node = node := by
  obtain ⟨⟨key, f⟩, hindex, hentry⟩ := List.mem_map.1 (mem_of_lookup h)
  obtain ⟨rfl, rfl⟩ := Prod.mk.inj hentry
  obtain ⟨before, after, hsplit, -⟩ := Index.mem_ofEntries.1 hindex
  have hmem : (key, f) ∈ doc.fragments.map fun f => (f.name.value, f) := by
    rw [hsplit]
    exact List.mem_append_right _ List.mem_cons_self
  obtain ⟨g, hg, hkey⟩ := List.mem_map.1 hmem
  obtain ⟨rfl, rfl⟩ := Prod.mk.inj hkey
  exact ⟨g, hg, rfl, rfl⟩

/-- A fragment is grounded if all that it spreads is. -/
theorem grounded_of_spreadsIn (hnames : (doc.fragments.map (·.name.value)).Nodup) {f : Fragment}
    (hf : f ∈ doc.fragments)
    (h : ∀ sp ∈ spreadsIn f.selections, Grounded doc.fragmentNodes sp.name.value) :
    Grounded doc.fragmentNodes f.name.value := by
  refine .intro _ fun spread hspread => ?_
  obtain ⟨node, hlookup, hspread⟩ := hspread
  obtain ⟨g, hg, hname, rfl⟩ := exists_fragment_of_lookup hlookup
  obtain rfl := List.inj_on_of_nodup_map hnames hg hf hname
  obtain ⟨sp, hsp, rfl⟩ := exists_mem_spreadsIn g.selections hspread
  exact h sp hsp

/-! ## One search -/

/-- What a search does with a spread, on the way through the fragments that are entered. -/
def followSpread (doc : Document) (fuel : Nat) (path : List Spread) (entered : List (String × Nat))
    (search : CycleSearch) (sp : Spread) : CycleSearch :=
  match entered.lookup sp.name.value with
  | some start =>
    { search with
      found := search.found ++ [cycleViolation sp.name.value ((path ++ [sp]).drop start)] }
  | none =>
    match doc.fragment? sp.name.value with
    | some next => searchCycles doc fuel next (path ++ [sp]) entered search
    | none => search

theorem searchCycles_visited (fuel : Nat) {f : Fragment} (path : List Spread)
    (entered : List (String × Nat)) {search : CycleSearch} (h : f.name.value ∈ search.visited) :
    searchCycles doc fuel f path entered search = search := by
  cases fuel with
  | zero => rfl
  | succ fuel => rw [searchCycles, if_pos (by simpa using h)]

theorem searchCycles_fresh (fuel : Nat) {f : Fragment} (path : List Spread)
    (entered : List (String × Nat)) {search : CycleSearch} (h : f.name.value ∉ search.visited) :
    searchCycles doc (fuel + 1) f path entered search =
      (spreadsIn f.selections).foldl
        (followSpread doc fuel path ((f.name.value, path.length) :: entered))
        { search with visited := f.name.value :: search.visited } := by
  rw [searchCycles, if_neg (by simpa using h)]
  rfl

/-! ## What a search adds -/

/-- A search keeps what was visited and found before. -/
structure CycleSearch.Grows (search later : CycleSearch) : Prop where
  visited : search.visited ⊆ later.visited
  found : search.found <+: later.found

namespace CycleSearch.Grows

variable {search middle later : CycleSearch}

theorem refl : search.Grows search := ⟨fun _ h => h, List.prefix_rfl⟩

theorem trans (h : search.Grows middle) (h' : middle.Grows later) : search.Grows later :=
  ⟨fun _ hname => h'.visited (h.visited hname), h.found.trans h'.found⟩

/-- If nothing is found, nothing was found before. -/
theorem found_eq_nil (h : search.Grows later) (hnone : later.found = []) : search.found = [] :=
  List.prefix_nil.1 (hnone ▸ h.found)

theorem foldl {step : CycleSearch → Spread → CycleSearch}
    (h : ∀ (search : CycleSearch) sp, search.Grows (step search sp)) (sps : List Spread)
    (search : CycleSearch) :
    search.Grows (sps.foldl step search) := by
  induction sps generalizing search with
  | nil => exact refl
  | cons sp sps ih => exact (h search sp).trans (ih (step search sp))

end CycleSearch.Grows

theorem grows_followSpread {fuel : Nat}
    (h : ∀ f path entered (search : CycleSearch),
      search.Grows (searchCycles doc fuel f path entered search))
    (path : List Spread) (entered : List (String × Nat)) (search : CycleSearch) (sp : Spread) :
    search.Grows (followSpread doc fuel path entered search sp) := by
  unfold followSpread
  split
  · exact ⟨fun _ h => h, List.prefix_append _ _⟩
  · split
    · exact h _ _ _ _
    · exact .refl

theorem grows_searchCycles (doc : Document) (fuel : Nat) (f : Fragment) (path : List Spread)
    (entered : List (String × Nat)) (search : CycleSearch) :
    search.Grows (searchCycles doc fuel f path entered search) := by
  induction fuel generalizing f path entered search with
  | zero => exact .refl
  | succ fuel ih =>
    by_cases hvisited : f.name.value ∈ search.visited
    · rw [searchCycles_visited _ _ _ hvisited]
      exact .refl
    · rw [searchCycles_fresh _ _ _ hvisited]
      have hstart : search.Grows { search with visited := f.name.value :: search.visited } :=
        ⟨List.subset_cons_self _ _, List.prefix_rfl⟩
      exact hstart.trans (.foldl (grows_followSpread ih _ _) _ _)

/-! ## Room for the search -/

/-- How many fragments are not visited. -/
def unvisited (doc : Document) (visited : List String) : Nat :=
  (doc.fragments.filter fun f => f.name.value ∉ visited).length

theorem sublist_unvisited {visited later : List String} (h : visited ⊆ later) :
    (doc.fragments.filter fun f => f.name.value ∉ later).Sublist
      (doc.fragments.filter fun f => f.name.value ∉ visited) := by
  refine List.monotone_filter_right _ fun f hf => ?_
  simp only [decide_eq_true_eq] at hf ⊢
  exact fun hmem => hf (h hmem)

theorem unvisited_le {visited later : List String} (h : visited ⊆ later) :
    doc.unvisited later ≤ doc.unvisited visited :=
  (sublist_unvisited h).length_le

theorem unvisited_cons_lt {visited : List String} {f : Fragment} (hf : f ∈ doc.fragments)
    (hfresh : f.name.value ∉ visited) :
    doc.unvisited (f.name.value :: visited) < doc.unvisited visited := by
  have hsub := @sublist_unvisited doc _ _ (List.subset_cons_self f.name.value visited)
  refine Nat.lt_of_le_of_ne hsub.length_le fun hlength => ?_
  have hmem : f ∈ doc.fragments.filter fun g => g.name.value ∉ visited :=
    List.mem_filter.2 ⟨hf, by simpa using hfresh⟩
  rw [← hsub.eq_of_length hlength] at hmem
  simpa using (List.mem_filter.1 hmem).2

/-! ## What a search without findings shows -/

theorem notMem_keys_of_lookup {entered : List (String × Nat)} {name : String}
    (h : entered.lookup name = none) : name ∉ entered.map Prod.fst := by
  intro hmem
  obtain ⟨entry, hentry, rfl⟩ := List.mem_map.1 hmem
  simpa using List.lookup_eq_none_iff.1 h entry hentry

/-- Every visited fragment is still entered, or grounded. -/
def Settled (doc : Document) (entered : List (String × Nat)) (search : CycleSearch) : Prop :=
  ∀ name ∈ search.visited, name ∈ entered.map Prod.fst ∨ Grounded doc.fragmentNodes name

/-- A search with this much fuel that finds nothing leaves everything settled, and the fragment that
it began with grounded. -/
def SearchSettles (doc : Document) (fuel : Nat) : Prop :=
  ∀ {f : Fragment} {path : List Spread} {entered : List (String × Nat)} {search : CycleSearch},
    f ∈ doc.fragments → doc.unvisited search.visited < fuel →
    f.name.value ∉ entered.map Prod.fst → doc.Settled entered search →
    (searchCycles doc fuel f path entered search).found = [] →
      doc.Settled entered (searchCycles doc fuel f path entered search) ∧
        Grounded doc.fragmentNodes f.name.value

theorem settled_followSpread {fuel : Nat} (hsearch : doc.SearchSettles fuel) {path : List Spread}
    {entered : List (String × Nat)} {search : CycleSearch} {sp : Spread}
    (hroom : doc.unvisited search.visited < fuel) (hsettled : doc.Settled entered search)
    (hnone : (followSpread doc fuel path entered search sp).found = []) :
    doc.Settled entered (followSpread doc fuel path entered search sp) ∧
      Grounded doc.fragmentNodes sp.name.value := by
  unfold followSpread at hnone ⊢
  split at hnone
  · exact absurd hnone (List.append_ne_nil_of_right_ne_nil _ (List.cons_ne_nil _ _))
  · next hentered =>
    split at hnone
    · next next hnext =>
      obtain ⟨hmem, hname⟩ := mem_of_fragment? hnext
      have hkey : next.name.value ∉ entered.map Prod.fst := by
        rw [hname]
        exact notMem_keys_of_lookup hentered
      rw [← hname]
      exact hsearch hmem hroom hkey hsettled hnone
    · next hundefined =>
      refine ⟨hsettled, grounded_of_not_defines fun hdefined => ?_⟩
      rw [← fragment?_isSome, hundefined] at hdefined
      exact absurd hdefined Bool.false_ne_true

theorem settled_foldl {fuel : Nat} (hsearch : doc.SearchSettles fuel) {path : List Spread}
    {entered : List (String × Nat)} (sps : List Spread) {search : CycleSearch}
    (hroom : doc.unvisited search.visited < fuel) (hsettled : doc.Settled entered search)
    (hnone : (sps.foldl (followSpread doc fuel path entered) search).found = []) :
    doc.Settled entered (sps.foldl (followSpread doc fuel path entered) search) ∧
      ∀ sp ∈ sps, Grounded doc.fragmentNodes sp.name.value := by
  induction sps generalizing search with
  | nil => exact ⟨hsettled, nofun⟩
  | cons sp sps ih =>
    have hgrows := grows_followSpread (grows_searchCycles doc fuel) path entered
    have hstep := (CycleSearch.Grows.foldl hgrows sps _).found_eq_nil hnone
    obtain ⟨hfirst, hground⟩ := settled_followSpread hsearch hroom hsettled hstep
    have hless := Nat.lt_of_le_of_lt (unvisited_le (hgrows search sp).visited) hroom
    obtain ⟨hlast, hrest⟩ := ih hless hfirst hnone
    exact ⟨hlast, List.forall_mem_cons.2 ⟨hground, hrest⟩⟩

theorem searchSettles (hnames : (doc.fragments.map (·.name.value)).Nodup) (fuel : Nat) :
    doc.SearchSettles fuel := by
  induction fuel with
  | zero => exact fun _ hroom => absurd hroom (Nat.not_lt_zero _)
  | succ fuel ih =>
    intro f path entered search hf hroom hentered hsettled hnone
    by_cases hvisited : f.name.value ∈ search.visited
    · rw [searchCycles_visited _ _ _ hvisited]
      exact ⟨hsettled, (hsettled _ hvisited).resolve_left hentered⟩
    · rw [searchCycles_fresh _ _ _ hvisited] at hnone ⊢
      have hless : doc.unvisited (f.name.value :: search.visited) < fuel :=
        Nat.lt_of_lt_of_le (unvisited_cons_lt hf hvisited) (Nat.le_of_lt_succ hroom)
      have hstart : doc.Settled ((f.name.value, path.length) :: entered)
          { search with visited := f.name.value :: search.visited } := by
        intro name hname
        rcases List.mem_cons.1 hname with rfl | hname
        · exact .inl List.mem_cons_self
        · exact (hsettled name hname).imp_left (List.mem_cons_of_mem _)
      obtain ⟨hlast, hspreads⟩ := settled_foldl ih _ hless hstart hnone
      have hground := grounded_of_spreadsIn hnames hf hspreads
      refine ⟨fun name hname => ?_, hground⟩
      rcases hlast name hname with hentered | hgrounded
      · rcases List.mem_cons.1 hentered with rfl | hentered
        · exact .inr hground
        · exact .inl hentered
      · exact .inr hgrounded

/-! ## All searches -/

/-- The searches from some fragments on, each going on from what the one before has visited. -/
def cyclesFrom (doc : Document) (visited : List String) :
    List Fragment → List (Nat × List Violation)
  | [] => []
  | f :: fs =>
    let search := searchCycles doc (doc.fragments.length + 1) f [] [] ⟨visited, []⟩
    (f.pos, search.found) :: cyclesFrom doc search.visited fs

theorem foldl_cyclesFrom (fs : List Fragment) (visited : List String)
    (table : List (Nat × List Violation)) :
    (fs.foldl (fun (visited, table) f =>
      let search := searchCycles doc (doc.fragments.length + 1) f [] [] ⟨visited, []⟩
      (search.visited, table ++ [(f.pos, search.found)])) (visited, table)).2 =
        table ++ doc.cyclesFrom visited fs := by
  induction fs generalizing visited table with
  | nil => exact (List.append_nil table).symm
  | cons f fs ih =>
    rw [List.foldl_cons, ih, List.append_assoc]
    rfl

theorem cycles_eq (doc : Document) : doc.cycles = doc.cyclesFrom [] doc.fragments :=
  foldl_cyclesFrom doc.fragments [] []

theorem keys_cyclesFrom (visited : List String) (fs : List Fragment) :
    (doc.cyclesFrom visited fs).map Prod.fst = fs.map (·.pos) := by
  induction fs generalizing visited with
  | nil => rfl
  | cons f fs ih => rw [cyclesFrom, List.map_cons, List.map_cons, ih]

theorem grounded_of_cyclesFrom (hnames : (doc.fragments.map (·.name.value)).Nodup)
    {fs : List Fragment} (hfs : fs ⊆ doc.fragments) {visited : List String}
    (hsettled : doc.Settled [] ⟨visited, []⟩)
    (hnone : ∀ entry ∈ doc.cyclesFrom visited fs, entry.2 = []) :
    ∀ f ∈ fs, Grounded doc.fragmentNodes f.name.value := by
  induction fs generalizing visited with
  | nil => exact nofun
  | cons f fs ih =>
    rw [cyclesFrom, List.forall_mem_cons] at hnone
    have hroom : doc.unvisited visited < doc.fragments.length + 1 :=
      Nat.lt_succ_of_le (List.length_filter_le _ _)
    obtain ⟨hlast, hground⟩ := searchSettles hnames _ (hfs List.mem_cons_self) hroom
      List.not_mem_nil hsettled hnone.1
    exact List.forall_mem_cons.2
      ⟨hground, ih (fun g hg => hfs (List.mem_cons_of_mem _ hg)) hlast hnone.2⟩

/-- **Where no cycle is found, there is none.** -/
theorem IsClean.isAcyclic {s : Schema} (hclean : doc.IsClean s)
    (horder : doc.fragments.Pairwise fun f g => f.pos < g.pos ∧ f.name.pos < g.name.pos) :
    IsAcyclic doc.fragmentNodes := by
  have hnone : ∀ entry ∈ doc.cycles, entry.2 = [] := by
    intro entry hentry
    have hkeys : doc.cycles.map Prod.fst = doc.fragments.map (·.pos) := by
      rw [cycles_eq, keys_cyclesFrom]
    have hnodup : (doc.cycles.map Prod.fst).Nodup := by
      rw [hkeys]
      exact List.pairwise_map.2 (horder.imp fun h => Nat.ne_of_lt h.1)
    obtain ⟨f, hf, hpos⟩ := List.mem_map.1 (hkeys ▸ List.mem_map_of_mem hentry)
    have hsilent := hclean (.definition (.fragment f))
      (mem_visits_of_fragment hf List.mem_cons_self) Rule.noFragmentCycles
      (by simp [standardRules, lateRules])
    have hlookup : doc.cycles.lookup f.pos = some entry.2 :=
      hpos ▸ Index.lookup_of_mem hnodup hentry
    have hfound : (doc.cycles.lookup f.pos).getD [] = [] := hsilent
    rwa [hlookup] at hfound
  intro name hcycle
  obtain ⟨spread, ⟨node, hlookup, -⟩, -⟩ := TransGen.head'_iff.1 hcycle
  obtain ⟨f, hf, rfl, -⟩ := exists_fragment_of_lookup hlookup
  rw [cycles_eq] at hnone
  have hground := grounded_of_cyclesFrom (hclean.nodup_fragmentNames horder) (List.Subset.refl _)
    (fun _ h => absurd h List.not_mem_nil) hnone f hf
  exact hground.not_transGen_self hcycle

end Document

end QueryDepth
