import Mathlib.Data.List.Induction
import QueryDepth.Text.Width

/-!
# Cutting between clusters

The width of a text is the sum of the widths of its clusters, but a cluster may go on where the text
is cut: a mark that stands at the beginning of a line is drawn over the character before it, if both
are on one line. So widths of parts add up only if the parts are made of whole clusters.

**Theorems.** A character that takes columns begins a cluster, if it is not joined to the one before
(`clusters_append`). A list of clusters that is cut in two gives two texts with these clusters
(`clusters_before`, `clusters_behind`). So pieces have at most the width that they were cut to
(`width_le_of_mem_pieces`), and nothing gets lost between them (`flatten_pieces`); and a text of
which only blanks are too wide loses nothing else where it is cut (`exists_cutTo`).

Suffixes and appended texts follow the recursion from the left. Prefixes do not: they are by
induction from the right, where one more character begins a cluster or goes into the last (`Grows`).
-/

namespace QueryDepth.Text

/-! ## One step -/

/-- How a character of no column changes the cluster that it goes into: not at all, or it widens its
base, once. -/
def Absorbs (cluster : Cluster) (base : Option Char) (c : Char) (width : Nat)
    (base' : Option Char) : Prop :=
  width = cluster.width ∧ base' = base ∨
    c = '\ufe0f' ∧ base.isSome ∧ width = cluster.width + 1 ∧ base' = none

theorem Absorbs.le {cluster : Cluster} {base base' : Option Char} {c : Char} {width : Nat}
    (h : Absorbs cluster base c width base') : cluster.width ≤ width := by
  rcases h with ⟨h, -⟩ | ⟨-, -, h, -⟩ <;> omega

/-- The character does not join what follows. -/
def Apart (c : Char) (rest : List Char) : Prop := c = '\u200d' → rest = []

theorem charWidth_joiner : charWidth '\u200d' = 0 := by decide

theorem apart_of_charWidth {c : Char} (h : charWidth c ≠ 0) (rest : List Char) : Apart c rest := by
  rintro rfl
  exact absurd charWidth_joiner h

theorem clustersFrom_cons {c : Char} {rest : List Char} (h : Apart c rest) (cluster : Cluster)
    (base : Option Char) : clustersFrom cluster base (c :: rest) =
      if c = '\ufe0f' then
        if base.any isWidened then clustersFrom ⟨cluster.chars ++ [c], cluster.width + 1⟩ none rest
        else clustersFrom ⟨cluster.chars ++ [c], cluster.width⟩ base rest
      else
        match charWidth c with
        | 0 => clustersFrom ⟨cluster.chars ++ [c], cluster.width⟩ base rest
        | w => cluster :: clustersFrom ⟨[c], w⟩ (some c) rest := by
  have hside : ∀ c' rest', c = '\u200d' → rest = c' :: rest' → False := fun c' rest' hc hrest =>
    List.cons_ne_nil c' rest' (hrest.symm.trans (h hc))
  exact clustersFrom.eq_3 cluster base c rest hside

theorem ne_selector_of_charWidth {c : Char} (h : charWidth c ≠ 0) : c ≠ '\ufe0f' := by
  rintro rfl
  exact h (by decide)

/-- A character that takes columns begins a cluster. -/
theorem clustersFrom_next {c : Char} (h : charWidth c ≠ 0) (cluster : Cluster)
    (base : Option Char) (rest : List Char) : clustersFrom cluster base (c :: rest) =
      cluster :: clustersFrom ⟨[c], charWidth c⟩ (some c) rest := by
  obtain ⟨w, hw⟩ := Nat.exists_eq_succ_of_ne_zero h
  rw [clustersFrom_cons (apart_of_charWidth h rest), if_neg (ne_selector_of_charWidth h), hw]
  rfl

/-- Another one goes into the cluster before it. -/
theorem exists_absorbs {c : Char} (h : charWidth c = 0) (cluster : Cluster)
    (base : Option Char) : ∃ width base', Absorbs cluster base c width base' ∧
      ∀ rest, Apart c rest → clustersFrom cluster base (c :: rest) =
        clustersFrom ⟨cluster.chars ++ [c], width⟩ base' rest := by
  by_cases hselector : c = '\ufe0f'
  · by_cases hwidened : base.any isWidened = true
    · have hbase : base.isSome := by
        cases base with
        | none => exact absurd hwidened Bool.false_ne_true
        | some d => rfl
      refine ⟨cluster.width + 1, none, .inr ⟨hselector, hbase, rfl, rfl⟩, fun rest hrest => ?_⟩
      rw [clustersFrom_cons hrest, if_pos hselector, if_pos hwidened]
    · refine ⟨cluster.width, base, .inl ⟨rfl, rfl⟩, fun rest hrest => ?_⟩
      rw [clustersFrom_cons hrest, if_pos hselector, if_neg hwidened]
  · refine ⟨cluster.width, base, .inl ⟨rfl, rfl⟩, fun rest hrest => ?_⟩
    rw [clustersFrom_cons hrest, if_neg hselector, h]
    rfl

/-- Induction along the clusters. -/
theorem clustersFrom_induct {motive : List Char → Cluster → Option Char → Prop}
    (nil : ∀ cluster base, motive [] cluster base)
    (joined : ∀ c rest cluster base,
      motive rest ⟨cluster.chars ++ ['\u200d', c], cluster.width⟩ base →
      motive ('\u200d' :: c :: rest) cluster base)
    (absorbed : ∀ c rest cluster base width base', Apart c rest →
      Absorbs cluster base c width base' →
      (∀ more, Apart c more → clustersFrom cluster base (c :: more) =
        clustersFrom ⟨cluster.chars ++ [c], width⟩ base' more) →
      motive rest ⟨cluster.chars ++ [c], width⟩ base' → motive (c :: rest) cluster base)
    (next : ∀ c rest cluster base, charWidth c ≠ 0 →
      motive rest ⟨[c], charWidth c⟩ (some c) → motive (c :: rest) cluster base) :
    ∀ (cs : List Char) (cluster : Cluster) (base : Option Char), motive cs cluster base
  | [], cluster, base => nil cluster base
  | c :: rest, cluster, base => by
    have ih (rest' : List Char) (hlength : rest'.length < (c :: rest).length) :
        ∀ cluster base, motive rest' cluster base :=
      clustersFrom_induct nil joined absorbed next rest'
    by_cases hapart : Apart c rest
    · by_cases hwidth : charWidth c = 0
      · obtain ⟨width, base', habsorbs, hstep⟩ := exists_absorbs hwidth cluster base
        exact absorbed _ _ _ _ _ _ hapart habsorbs hstep (ih rest (Nat.lt_succ_self _) _ _)
      · exact next _ _ _ _ hwidth (ih rest (Nat.lt_succ_self _) _ _)
    · obtain ⟨rfl, hne⟩ := Classical.not_imp.1 hapart
      obtain ⟨d, rest, rfl⟩ := List.exists_cons_of_ne_nil hne
      have hlength : rest.length < ('\u200d' :: d :: rest).length :=
        Nat.lt_succ_of_lt (Nat.lt_succ_self _)
      exact joined _ _ _ _ (ih rest hlength _ _)
termination_by cs => cs.length
decreasing_by exact hlength

theorem clusters_cons {c : Char} (h : charWidth c ≠ 0) (rest : List Char) :
    clusters (c :: rest) = clustersFrom ⟨[c], charWidth c⟩ (some c) rest := by
  rw [clusters, if_neg h]

theorem clustersFrom_joiner (cluster : Cluster) (base : Option Char) (c : Char)
    (rest : List Char) : clustersFrom cluster base ('\u200d' :: c :: rest) =
      clustersFrom ⟨cluster.chars ++ ['\u200d', c], cluster.width⟩ base rest := by
  rw [clustersFrom]

theorem clustersWidth_append (A B : List Cluster) :
    clustersWidth (A ++ B) = clustersWidth A + clustersWidth B := by
  induction A with
  | nil => simp [clustersWidth]
  | cons a A ih =>
    rw [List.cons_append]
    simp only [clustersWidth, List.foldr_cons] at ih ⊢
    omega

/-! ## Whole texts -/

theorem flatMap_clustersFrom (cs : List Char) (cluster : Cluster) (base : Option Char) :
    (clustersFrom cluster base cs).flatMap (·.chars) = cluster.chars ++ cs := by
  induction cs, cluster, base using clustersFrom_induct with
  | nil cluster base => simp [clustersFrom]
  | joined c rest cluster base ih => rw [clustersFrom_joiner, ih]; simp
  | absorbed c rest cluster base width base' hapart _ hstep ih => rw [hstep rest hapart, ih]; simp
  | next c rest cluster base hwidth ih => rw [clustersFrom_next hwidth, List.flatMap_cons, ih]; rfl

/-- The characters of the clusters are the text. -/
theorem flatMap_clusters (cs : List Char) : (clusters cs).flatMap (·.chars) = cs := by
  cases cs with
  | nil => rfl
  | cons c rest => exact flatMap_clustersFrom rest _ _

/-- The first cluster grows, and all others begin with a character that takes columns. -/
theorem exists_clustersFrom (cs : List Char) (cluster : Cluster) (base : Option Char) :
    ∃ first more, clustersFrom cluster base cs = first :: more ∧ cluster.width ≤ first.width ∧
      ∀ b ∈ more, 0 < b.width := by
  induction cs, cluster, base using clustersFrom_induct with
  | nil cluster base => exact ⟨cluster, [], by rw [clustersFrom], Nat.le_refl _, nofun⟩
  | joined c rest cluster base ih => rwa [clustersFrom_joiner]
  | absorbed c rest cluster base width base' hapart habsorbs hstep ih =>
    obtain ⟨first, more, heq, hfirst, hmore⟩ := ih
    exact ⟨first, more, (hstep rest hapart).trans heq, Nat.le_trans habsorbs.le hfirst, hmore⟩
  | next c rest cluster base hwidth ih =>
    obtain ⟨first, more, heq, hfirst, hmore⟩ := ih
    refine ⟨cluster, first :: more, by rw [clustersFrom_next hwidth, heq], Nat.le_refl _, ?_⟩
    exact List.forall_mem_cons.2 ⟨Nat.lt_of_lt_of_le (Nat.pos_of_ne_zero hwidth) hfirst, hmore⟩

theorem width_pos_of_mem_clusters {cs : List Char} {first : Cluster} {more : List Cluster}
    (h : clusters cs = first :: more) : ∀ b ∈ more, 0 < b.width := by
  cases cs with
  | nil => exact nomatch h
  | cons c rest =>
    obtain ⟨first', more', heq, -, hmore⟩ := exists_clustersFrom rest ⟨[c], charWidth c⟩
      (if charWidth c = 0 then none else some c)
    obtain ⟨rfl, rfl⟩ := List.cons.inj (heq.symm.trans h)
    exact hmore

theorem charWidth_le (c : Char) : charWidth c ≤ 2 := by
  unfold charWidth
  dsimp only
  split
  · exact Nat.zero_le 2
  · split
    · exact Nat.le_succ 1
    · split
      · exact Nat.le_refl 2
      · split
        · exact Nat.zero_le 2
        · exact Nat.le_succ 1

/-- A base is widened at most once. -/
theorem width_le_of_mem_clustersFrom (cs : List Char) (cluster : Cluster) (base : Option Char)
    (hsome : base.isSome → cluster.width ≤ 2) (h : cluster.width ≤ 3) :
    ∀ b ∈ clustersFrom cluster base cs, b.width ≤ 3 := by
  induction cs, cluster, base using clustersFrom_induct with
  | nil cluster base =>
    rw [clustersFrom]
    exact fun b hb => List.mem_singleton.1 hb ▸ h
  | joined c rest cluster base ih =>
    rw [clustersFrom_joiner]
    exact ih hsome h
  | absorbed c rest cluster base width base' hapart habsorbs hstep ih =>
    rw [hstep rest hapart]
    rcases habsorbs with ⟨rfl, rfl⟩ | ⟨-, hbase, rfl, rfl⟩
    · exact ih hsome h
    · exact ih nofun (Nat.succ_le_succ (hsome hbase))
  | next c rest cluster base hwidth ih =>
    have hle := charWidth_le c
    rw [clustersFrom_next hwidth]
    exact List.forall_mem_cons.2 ⟨h, ih (fun _ => hle) (Nat.le_succ_of_le hle)⟩

theorem width_le_of_mem_clusters (cs : List Char) : ∀ b ∈ clusters cs, b.width ≤ 3 := by
  cases cs with
  | nil => exact nofun
  | cons c rest =>
    have hwidth := charWidth_le c
    exact width_le_of_mem_clustersFrom rest _ _ (fun _ => hwidth) (Nat.le_succ_of_le hwidth)

/-! ## Parts of a text -/

theorem clustersFrom_append {c : Char} (hc : charWidth c ≠ 0) (y x : List Char)
    (cluster : Cluster) (base : Option Char) (hx : x.getLast? ≠ some '\u200d') :
    clustersFrom cluster base (x ++ c :: y) =
      clustersFrom cluster base x ++ clusters (c :: y) := by
  have hend {d : Char} {rest : List Char} (h : (d :: rest).getLast? ≠ some '\u200d') :
      rest.getLast? ≠ some '\u200d' := by
    intro hlast
    rw [List.getLast?_cons, hlast] at h
    exact h rfl
  induction x, cluster, base using clustersFrom_induct with
  | nil cluster base =>
    rw [List.nil_append, clusters_cons hc, clustersFrom_next hc, clustersFrom]
    rfl
  | joined d rest cluster base ih =>
    rw [List.cons_append, List.cons_append, clustersFrom_joiner, clustersFrom_joiner]
    exact ih (hend (hend hx))
  | absorbed d rest cluster base width base' hapart _ hstep ih =>
    have hjoiner : d ≠ '\u200d' := by
      rintro rfl
      rw [hapart rfl] at hx
      exact hx rfl
    rw [List.cons_append, hstep _ fun h => absurd h hjoiner, hstep rest hapart]
    exact ih (hend hx)
  | next d rest cluster base hwidth ih =>
    rw [List.cons_append, clustersFrom_next hwidth, clustersFrom_next hwidth, List.cons_append,
      ih (hend hx)]

/-- **A character that takes columns, and is not joined to a text, begins its own cluster.** -/
theorem clusters_append {c : Char} (hc : charWidth c ≠ 0) {x : List Char} (y : List Char)
    (hx : x.getLast? ≠ some '\u200d') :
    clusters (x ++ c :: y) = clusters x ++ clusters (c :: y) := by
  cases x with
  | nil => rfl
  | cons d x =>
    by_cases hnil : x = []
    · rw [hnil, List.singleton_append]
      exact clustersFrom_append hc y [] _ _ nofun
    · rw [List.getLast?_cons_of_ne_nil hnil] at hx
      exact clustersFrom_append hc y x _ _ hx

/-- Clusters that follow others are the clusters of their text. -/
theorem clustersFrom_behind {B : List Cluster} (cs : List Char) (cluster : Cluster)
    (base : Option Char) : ∀ {A : List Cluster}, A ≠ [] → clustersFrom cluster base cs = A ++ B →
      clusters (B.flatMap (·.chars)) = B := by
  induction cs, cluster, base using clustersFrom_induct with
  | nil cluster base =>
    intro A hA h
    rw [clustersFrom] at h
    obtain ⟨a, A, rfl⟩ := List.exists_cons_of_ne_nil hA
    obtain ⟨-, rfl⟩ := List.append_eq_nil_iff.1 (List.cons.inj h).2.symm
    rfl
  | joined c rest cluster base ih =>
    rw [clustersFrom_joiner]
    exact ih
  | absorbed c rest cluster base width base' hapart _ hstep ih =>
    rw [hstep rest hapart]
    exact ih
  | next c rest cluster base hwidth ih =>
    intro A hA h
    rw [clustersFrom_next hwidth] at h
    obtain ⟨a, A, rfl⟩ := List.exists_cons_of_ne_nil hA
    by_cases hnil : A = []
    · have hB : clusters (c :: rest) = B := by
        rw [clusters_cons hwidth, (List.cons.inj h).2, hnil]
        rfl
      rw [← hB, flatMap_clusters]
    · exact ih hnil (List.cons.inj h).2

theorem clusters_behind {cs : List Char} {A B : List Cluster} (h : clusters cs = A ++ B) :
    clusters (B.flatMap (·.chars)) = B := by
  by_cases hA : A = []
  · rw [hA, List.nil_append] at h
    rw [← h, flatMap_clusters]
  · cases cs with
    | nil => exact absurd (List.append_eq_nil_iff.1 h.symm).1 hA
    | cons c rest => exact clustersFrom_behind rest _ _ hA h

/-! ## One character more -/

/-- The character begins a cluster, or goes into the last one. Only a selector can widen that. -/
inductive Grows (c : Char) : List Cluster → List Cluster → Prop
  | begins (A : List Cluster) : Grows c A (A ++ [⟨[c], charWidth c⟩])
  | joins {A : List Cluster} {last : Cluster} {width : Nat} : last.width ≤ width →
      (c ≠ '\ufe0f' → width = last.width) →
      Grows c (A ++ [last]) (A ++ [⟨last.chars ++ [c], width⟩])

theorem Grows.cons {c : Char} {A B : List Cluster} (h : Grows c A B) (a : Cluster) :
    Grows c (a :: A) (a :: B) := by
  cases h with
  | begins => exact .begins (a :: A)
  | joins hle heq => exact .joins (A := a :: _) hle heq

theorem grows_clustersFrom (d : Char) (cs : List Char) (cluster : Cluster) (base : Option Char) :
    Grows d (clustersFrom cluster base cs) (clustersFrom cluster base (cs ++ [d])) := by
  induction cs, cluster, base using clustersFrom_induct with
  | nil cluster base =>
    rw [List.nil_append, clustersFrom]
    by_cases hwidth : charWidth d = 0
    · obtain ⟨width, base', habsorbs, hstep⟩ := exists_absorbs hwidth cluster base
      rw [hstep [] fun _ => rfl, clustersFrom]
      refine Grows.joins (A := []) habsorbs.le fun hd => ?_
      exact (habsorbs.resolve_right fun h => hd h.1).1
    · rw [clustersFrom_next hwidth, clustersFrom]
      exact .begins [cluster]
  | joined c rest cluster base ih =>
    rw [List.cons_append, List.cons_append, clustersFrom_joiner, clustersFrom_joiner]
    exact ih
  | absorbed c rest cluster base width base' hapart habsorbs hstep ih =>
    by_cases hjoiner : c = '\u200d'
    · obtain rfl := hapart hjoiner
      have hwidth : width = cluster.width :=
        (habsorbs.resolve_right fun h => absurd (hjoiner.symm.trans h.1) (by decide)).1
      have hjoins : Grows d ([] ++ [⟨cluster.chars ++ ['\u200d'], cluster.width⟩])
          ([] ++ [⟨cluster.chars ++ ['\u200d'] ++ [d], cluster.width⟩]) :=
        .joins (Nat.le_refl _) fun _ => rfl
      rw [List.append_assoc cluster.chars] at hjoins
      rw [hstep [] hapart, hjoiner, List.cons_append, List.nil_append, clustersFrom_joiner,
        clustersFrom, clustersFrom, hwidth]
      exact hjoins
    · rw [hstep rest hapart, List.cons_append, hstep _ fun h => absurd h hjoiner]
      exact ih
  | next c rest cluster base hwidth ih =>
    rw [List.cons_append, clustersFrom_next hwidth, clustersFrom_next hwidth]
    exact ih.cons cluster

theorem grows_clusters {cs : List Char} (h : cs ≠ []) (c : Char) :
    Grows c (clusters cs) (clusters (cs ++ [c])) := by
  obtain ⟨d, rest, rfl⟩ := List.exists_cons_of_ne_nil h
  exact grows_clustersFrom c rest _ _

/-- Clusters that others follow are the clusters of their text. -/
theorem clusters_before {cs : List Char} {A B : List Cluster} (h : clusters cs = A ++ B) :
    clusters (A.flatMap (·.chars)) = A := by
  induction cs using List.reverseRecOn generalizing A B with
  | nil =>
    obtain ⟨rfl, -⟩ := List.append_eq_nil_iff.1 h.symm
    rfl
  | append_singleton cs c ih =>
    rcases B.eq_nil_or_concat with rfl | ⟨B, b, rfl⟩
    · rw [List.append_nil] at h
      rw [← h, flatMap_clusters]
    by_cases hcs : cs = []
    · have hlength : (A ++ B.concat b).length = 1 := by
        rw [← h, hcs, List.nil_append, clusters, clustersFrom, List.length_singleton]
      have hnil : A = [] := by
        refine List.eq_nil_of_length_eq_zero ?_
        rw [List.length_append, List.length_concat] at hlength
        omega
      rw [hnil]
      rfl
    have hgrows := grows_clusters hcs c
    rw [h, List.concat_eq_append, ← List.append_assoc] at hgrows
    generalize hold : clusters cs = old at hgrows
    generalize hnew : A ++ B ++ [b] = new at hgrows
    cases hgrows with
    | begins =>
      obtain ⟨rfl, -⟩ := List.append_inj' hnew rfl
      exact ih hold
    | @joins init last width hle heq =>
      obtain ⟨rfl, -⟩ := List.append_inj' hnew rfl
      rw [List.append_assoc] at hold
      exact ih hold

/-- **What is drawn behind a text does not narrow it**, and widens it only by a selector: some
clusters with the text in them are as wide as the text. -/
theorem exists_clusters_append (cs : List Char) {more : List Char} (h : '\ufe0f' ∉ more) :
    ∃ A B, clusters (cs ++ more) = A ++ B ∧ clustersWidth A = width cs ∧
      cs <+: A.flatMap (·.chars) := by
  by_cases hcs : cs = []
  · exact ⟨[], _, rfl, by rw [hcs]; rfl, by rw [hcs]; exact List.nil_prefix⟩
  induction more using List.reverseRecOn with
  | nil =>
    have hwhole : cs <+: (clusters cs).flatMap (·.chars) :=
      ⟨[], by rw [List.append_nil, flatMap_clusters]⟩
    exact ⟨clusters cs, [], by simp, rfl, hwhole⟩
  | append_singleton more c ih =>
    obtain ⟨A, B, hclusters, hwidth, hbegins⟩ := ih fun hmem => h (List.mem_append_left _ hmem)
    have hne : c ≠ '\ufe0f' := fun heq => h (by simp [heq])
    have hwhole : cs ++ more ≠ [] := List.append_ne_nil_of_left_ne_nil hcs more
    have hgrows := grows_clusters hwhole c
    rw [← List.append_assoc]
    generalize hnew : clusters (cs ++ more ++ [c]) = new at hgrows
    rw [hclusters] at hgrows
    generalize hold : A ++ B = old at hgrows
    cases hgrows with
    | begins =>
      refine ⟨A, B ++ [⟨[c], charWidth c⟩], ?_, hwidth, hbegins⟩
      rw [← hold, List.append_assoc]
    | @joins init last w hle heq =>
      rcases B.eq_nil_or_concat with rfl | ⟨B, b, rfl⟩
      · obtain rfl : A = init ++ [last] := by simpa using hold
        refine ⟨init ++ [⟨last.chars ++ [c], w⟩], [], by simp, ?_, ?_⟩
        · rw [← hwidth, clustersWidth_append, clustersWidth_append, heq hne]
          rfl
        · rw [List.flatMap_append] at hbegins ⊢
          refine hbegins.trans ?_
          simp
      · rw [List.concat_eq_append, ← List.append_assoc] at hold
        obtain ⟨rfl, -⟩ := List.append_inj' hold rfl
        exact ⟨A, B ++ [⟨last.chars ++ [c], w⟩], by simp, hwidth, hbegins⟩

theorem width_le_append (cs : List Char) {more : List Char} (h : '\ufe0f' ∉ more) :
    width cs ≤ width (cs ++ more) := by
  obtain ⟨A, B, hclusters, hwidth, -⟩ := exists_clusters_append cs h
  have hwhole : width (cs ++ more) = clustersWidth A + clustersWidth B := by
    rw [width, hclusters, clustersWidth_append]
  rw [hwhole, hwidth]
  exact Nat.le_add_right _ _

/-! ## Cutting -/

theorem clustersWithin_append {n : Nat} {A : List Cluster} (h : clustersWidth A ≤ n)
    (B : List Cluster) :
    clustersWithin n (A ++ B) = A ++ clustersWithin (n - clustersWidth A) B := by
  induction A generalizing n with
  | nil => rfl
  | cons a A ih =>
    have hwidth : clustersWidth (a :: A) = a.width + clustersWidth A := rfl
    rw [hwidth] at h
    rw [List.cons_append, clustersWithin, if_pos (by omega), ih (by omega), hwidth, Nat.sub_sub]
    rfl

theorem clustersWithin_begins (n : Nat) (A : List Cluster) : clustersWithin n A <+: A := by
  induction A generalizing n with
  | nil => exact List.prefix_rfl
  | cons a A ih =>
    rw [clustersWithin]
    split
    · exact (List.prefix_cons_inj a).2 (ih _)
    · exact List.nil_prefix

/-- **A text of which a beginning fits keeps it where it is cut.** -/
theorem exists_cutTo {n : Nat} {cs : List Char} (hfits : width cs ≤ n) {more : List Char}
    (hmore : '\ufe0f' ∉ more) :
    ∃ kept missing, cutTo n (cs ++ more) = cs ++ kept ++ List.replicate missing ' ' ∧
      kept <+: more := by
  obtain ⟨A, B, hclusters, hwidth, x, hx⟩ := exists_clusters_append cs hmore
  have htext : A.flatMap (·.chars) ++ B.flatMap (·.chars) = cs ++ more := by
    rw [← List.flatMap_append, ← hclusters, flatMap_clusters]
  have hkept : (clustersWithin n (A ++ B)).flatMap (·.chars) =
      cs ++ (x ++ (clustersWithin (n - clustersWidth A) B).flatMap (·.chars)) := by
    rw [clustersWithin_append (hwidth ▸ hfits), List.flatMap_append, ← hx, List.append_assoc]
  refine ⟨_, _, by rw [cutTo, hclusters, hkept], ?_⟩
  obtain ⟨rest, hrest⟩ := clustersWithin_begins (n - clustersWidth A) B
  refine ⟨rest.flatMap (·.chars), ?_⟩
  rw [← hx, List.append_assoc, List.append_cancel_left_eq] at htext
  rw [List.append_assoc, ← List.flatMap_append, hrest, htext]

/-! ## Pieces -/

section

variable {n : Nat} (hn : 3 ≤ n) {cs : List Char}

include hn

theorem width_le_of_mem_piecesFrom : ∀ (before : List Cluster) {piece rest : List Cluster},
    clusters cs = before ++ piece ++ rest → clustersWidth piece ≤ n →
    ∀ p ∈ piecesFrom n piece rest, width p ≤ n
  | before, piece, [], hclusters, hpiece => by
    rw [piecesFrom]
    split
    · exact nofun
    · intro p hp
      rw [List.append_nil] at hclusters
      rw [List.mem_singleton.1 hp, width, clusters_behind hclusters]
      exact hpiece
  | before, piece, c :: rest, hclusters, hpiece => by
    rw [piecesFrom]
    split
    · have hc : c.width ≤ n := Nat.le_trans (width_le_of_mem_clusters cs c (by simp [hclusters])) hn
      refine List.forall_mem_cons.2 ⟨?_, ?_⟩
      · rw [width, clusters_behind (clusters_before hclusters)]
        exact hpiece
      · exact width_le_of_mem_piecesFrom (before ++ piece) (by simp [hclusters]) hc
    · next hfits =>
      refine width_le_of_mem_piecesFrom before (by simp [hclusters]) ?_
      rw [clustersWidth_append]
      exact Nat.le_of_not_lt hfits

/-- **A piece is not wider than it was cut to.** -/
theorem width_le_of_mem_pieces : ∀ p ∈ pieces n cs, width p ≤ n :=
  width_le_of_mem_piecesFrom hn [] rfl (Nat.zero_le n)

omit hn in
theorem flatten_piecesFrom : ∀ {piece rest : List Cluster}, 0 < clustersWidth (piece ++ rest) →
    (∀ c ∈ rest, 0 < c.width) →
    (piecesFrom n piece rest).flatten = (piece ++ rest).flatMap (·.chars)
  | piece, [], hpos, _ => by
    rw [List.append_nil] at hpos
    rw [piecesFrom, if_neg (Nat.ne_of_gt hpos), List.append_nil, List.flatten_singleton]
  | piece, c :: rest, hpos, hrest => by
    obtain ⟨hc, hmore⟩ := List.forall_mem_cons.1 hrest
    rw [piecesFrom]
    split
    · have hnext : 0 < clustersWidth ([c] ++ rest) := Nat.lt_of_lt_of_le hc (Nat.le_add_right _ _)
      rw [List.flatten_cons, flatten_piecesFrom hnext hmore, ← List.flatMap_append]
      rfl
    · have hassoc : piece ++ [c] ++ rest = piece ++ c :: rest := by simp
      rw [flatten_piecesFrom (by rwa [hassoc]) hmore, hassoc]

/-- **Nothing gets lost between the pieces** of a text that takes columns. -/
theorem flatten_pieces (hpos : 0 < width cs) : (pieces n cs).flatten = cs := by
  rw [pieces]
  cases hclusters : clusters cs with
  | nil =>
    rw [width, hclusters] at hpos
    exact absurd hpos (Nat.lt_irrefl 0)
  | cons first more =>
    have hfirst : first.width ≤ n :=
      Nat.le_trans (width_le_of_mem_clusters cs first (by simp [hclusters])) hn
    have hskip : ¬ n < clustersWidth [] + first.width := by
      rw [clustersWidth, List.foldr_nil]
      omega
    have hwhole : 0 < clustersWidth ([first] ++ more) := by
      rw [List.singleton_append, ← hclusters]
      exact hpos
    rw [piecesFrom, if_neg hskip, List.nil_append,
      flatten_piecesFrom hwhole (width_pos_of_mem_clusters hclusters), List.singleton_append,
      ← hclusters, flatMap_clusters]

end

end QueryDepth.Text
