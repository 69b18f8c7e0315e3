import Mathlib.Data.List.Perm.Basic
import QueryDepth.Proofs.Depth.Limit

/-!
# The greatest depth of siblings

A walk folds the depths of siblings one after the other, and counts zero where there are none. What
comes out is the greatest of their depths, so neither their order matters nor how often one of them
stands there (`depthAll_congr`). What is reported about siblings is what is reported about each,
one after the other (`faultsAll_eq_flatMap`).
-/

namespace QueryDepth.Expansion

section

variable {limit level : Int} {policy : Policy} {es es' : List Expansion}

theorem depthAt_le_depthAll {e : Expansion} : ∀ {es : List Expansion}, e ∈ es →
    e.depthAt limit policy level ≤ depthAll limit policy es level
  | [e'], he => by
    rw [List.mem_singleton.1 he]
    exact Int.le_refl _
  | e' :: e'' :: more, he => by
    rw [depthAll]
    rcases List.mem_cons.1 he with rfl | hmore
    · exact Int.le_max_left ..
    · exact Int.le_trans (depthAt_le_depthAll hmore) (Int.le_max_right ..)

/-- The greatest depth is that of some sibling. -/
theorem exists_depthAt_eq_depthAll (limit : Int) (policy : Policy) (level : Int) :
    ∀ {es : List Expansion}, es ≠ [] →
      ∃ e ∈ es, e.depthAt limit policy level = depthAll limit policy es level
  | [], hne => absurd rfl hne
  | [e], _ => ⟨e, List.mem_singleton_self e, rfl⟩
  | e :: e' :: more, _ => by
    rw [depthAll]
    rcases Int.le_total (depthAll limit policy (e' :: more) level) (e.depthAt limit policy level)
      with hle | hle
    · exact ⟨e, List.mem_cons_self, (Int.max_eq_left hle).symm⟩
    · obtain ⟨deepest, hdeepest, heq⟩ :=
        exists_depthAt_eq_depthAll limit policy level (List.cons_ne_nil e' more)
      rw [Int.max_eq_right hle]
      exact ⟨deepest, List.mem_cons_of_mem e hdeepest, heq⟩

/-- Where there are no siblings zero counts, so a bound from there on is passed only by one. -/
theorem lt_depthAll_iff {bound : Int} (hbound : 0 ≤ bound) :
    bound < depthAll limit policy es level ↔ ∃ e ∈ es, bound < e.depthAt limit policy level := by
  constructor
  · intro hlt
    by_cases hne : es = []
    · rw [hne, depthAll] at hlt
      exact absurd hlt (Int.not_lt.2 hbound)
    · obtain ⟨e, he, heq⟩ := exists_depthAt_eq_depthAll limit policy level hne
      exact ⟨e, he, heq ▸ hlt⟩
  · rintro ⟨e, he, hlt⟩
    exact Int.lt_of_lt_of_le hlt (depthAt_le_depthAll he)

/-- Siblings count as failed exactly if there are some and all of them have failed. -/
theorem depthAll_eq_failedDepth_iff : depthAll limit policy es level = failedDepth ↔
    es ≠ [] ∧ ∀ e ∈ es, e.depthAt limit policy level = failedDepth := by
  constructor
  · intro hall
    refine ⟨?_, fun e he => ?_⟩
    · rintro rfl
      rw [depthAll] at hall
      exact absurd hall (by decide)
    · have hle : e.depthAt limit policy level ≤ failedDepth := hall ▸ depthAt_le_depthAll he
      exact Int.le_antisymm hle (failedDepth_le_depthAt limit policy e level)
  · rintro ⟨hne, hall⟩
    obtain ⟨e, he, heq⟩ := exists_depthAt_eq_depthAll limit policy level hne
    rw [← heq, hall e he]

/-- **Siblings that have the same depths have the same greatest depth.** -/
theorem depthAll_congr
    (hleft : ∀ e ∈ es, ∃ e' ∈ es', e'.depthAt limit policy level = e.depthAt limit policy level)
    (hright : ∀ e' ∈ es', ∃ e ∈ es, e.depthAt limit policy level = e'.depthAt limit policy level) :
    depthAll limit policy es level = depthAll limit policy es' level := by
  by_cases hne : es = []
  · have hne' : es' = [] := by
      refine List.eq_nil_iff_forall_not_mem.2 fun e' he' => ?_
      obtain ⟨e, he, -⟩ := hright e' he'
      exact List.not_mem_nil (hne ▸ he)
    rw [hne, hne']
  · obtain ⟨e, he, hmax⟩ := exists_depthAt_eq_depthAll limit policy level hne
    obtain ⟨f, hf, hsame⟩ := hleft e he
    obtain ⟨e', he', hmax'⟩ := exists_depthAt_eq_depthAll limit policy level (List.ne_nil_of_mem hf)
    obtain ⟨f', hf', hsame'⟩ := hright e' he'
    refine Int.le_antisymm ?_ ?_
    · rw [← hmax, ← hsame]
      exact depthAt_le_depthAll hf
    · rw [← hmax', ← hsame']
      exact depthAt_le_depthAll hf'

end

theorem faultsAll_eq_flatMap (ctx : WalkContext) (es : List Expansion) (level : Int) :
    faultsAll ctx es level = es.flatMap fun e => e.faultsAt ctx level := by
  induction es with
  | nil => rfl
  | cons e es ih => rw [faultsAll_cons, ih, List.flatMap_cons]

theorem mem_faultsAll {ctx : WalkContext} {level : Int} {r : PlacedFault} {es : List Expansion} :
    r ∈ faultsAll ctx es level ↔ ∃ e ∈ es, r ∈ e.faultsAt ctx level := by
  rw [faultsAll_eq_flatMap, List.mem_flatMap]

theorem faultsAt_of_faultsAll_eq_nil {ctx : WalkContext} {level : Int} {es : List Expansion}
    (hnone : faultsAll ctx es level = []) {e : Expansion} (he : e ∈ es) :
    e.faultsAt ctx level = [] :=
  List.eq_nil_iff_forall_not_mem.2 fun _ hr =>
    List.not_mem_nil (hnone ▸ mem_faultsAll.2 ⟨e, he, hr⟩)

end QueryDepth.Expansion
