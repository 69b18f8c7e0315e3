import Mathlib.Data.List.TakeWhile
import QueryDepth.Console.Markup

/-!
# Emoji codes

In a printed text the name of an emoji between colons stands for it. A text without such codes
(`Uncoded`) is left as it is, whatever emoji the library has (`replaceCodes_eq_drop`). The induction
is on the text and has to speak of the characters that are still to be passed over, since the reader
goes on inside a name that it has read.

A code has two colons and no blank, so that there is none in a text with a single colon, and none
reaches over a blank.
-/

namespace QueryDepth.Console

/-- `:name:`, for which an emoji would be printed if it is the name of one. -/
def IsEmojiCode (cs : List Char) : Prop :=
  ∃ name, cs = ':' :: name ++ [':'] ∧ name ≠ [] ∧ ∀ c ∈ name, Text.isBlank c = false

/-- There is no emoji code in the text. -/
def Uncoded (cs : List Char) : Prop := ∀ code, code <:+: cs → ¬ IsEmojiCode code

theorem Uncoded.of_cons {c : Char} {cs : List Char} (h : Uncoded (c :: cs)) : Uncoded cs :=
  fun code hcode => h code (hcode.trans (List.suffix_cons c cs).isInfix)

/-- A code has two colons. -/
theorem uncoded_of_count {cs : List Char} (h : cs.count ':' ≤ 1) : Uncoded cs := by
  rintro code hcode ⟨name, rfl, -, -⟩
  have hcount := hcode.sublist.count_le ':'
  rw [List.cons_append, List.count_cons_self, List.count_append,
    List.count_singleton_self] at hcount
  omega

theorem prefix_of_prefix_append_cons {code cs' : List Char} {c : Char} (hc : c ∉ code) :
    ∀ cs : List Char, code <+: cs ++ c :: cs' → code <+: cs
  | [], h => by
    rcases List.prefix_cons_iff.1 h with rfl | ⟨rest, rfl, -⟩
    · exact List.nil_prefix
    · exact absurd List.mem_cons_self hc
  | d :: cs, h => by
    rcases List.prefix_cons_iff.1 h with rfl | ⟨rest, rfl, hrest⟩
    · exact List.nil_prefix
    · have hc' : c ∉ rest := fun hmem => hc (List.mem_cons_of_mem d hmem)
      exact (List.prefix_cons_inj d).2 (prefix_of_prefix_append_cons hc' cs hrest)

/-- What stands in a text and does not hold some character stands before or behind it. -/
theorem infix_of_infix_append_cons {code cs' : List Char} {c : Char} (hc : c ∉ code) :
    ∀ cs : List Char, code <:+: cs ++ c :: cs' → code <:+: cs ∨ code <:+: cs'
  | [], h => by
    rcases List.infix_cons_iff.1 h with hprefix | hbehind
    · exact .inl (prefix_of_prefix_append_cons hc [] hprefix).isInfix
    · exact .inr hbehind
  | d :: cs, h => by
    rcases List.infix_cons_iff.1 h with hprefix | hinfix
    · exact .inl (prefix_of_prefix_append_cons hc (d :: cs) hprefix).isInfix
    · exact (infix_of_infix_append_cons hc cs hinfix).imp_left fun hbefore =>
        List.infix_cons_iff.2 (.inr hbefore)

/-- No code reaches over a blank. -/
theorem Uncoded.append_blank {cs cs' : List Char} {c : Char} (hc : Text.isBlank c = true)
    (h : Uncoded cs) (h' : Uncoded cs') : Uncoded (cs ++ c :: cs') := by
  intro code hcode hisCode
  have hnotMem : c ∉ code := by
    obtain ⟨name, rfl, -, hname⟩ := hisCode
    intro hmem
    simp only [List.cons_append, List.mem_cons, List.mem_append, List.not_mem_nil,
      or_false] at hmem
    rcases hmem with rfl | hmem | rfl
    · exact absurd hc (by decide)
    · rw [hname c hmem] at hc
      exact nomatch hc
    · exact absurd hc (by decide)
  rcases infix_of_infix_append_cons hnotMem cs hcode with hbefore | hbehind
  · exact h code hbefore hisCode
  · exact h' code hbehind hisCode

/-- A name that ends at a colon. -/
theorem exists_of_getElem?_takeWhile {p : Char → Bool} {cs : List Char} {c : Char}
    (h : cs[(cs.takeWhile p).length]? = some c) : ∃ rest, cs = cs.takeWhile p ++ c :: rest := by
  obtain ⟨rest, hrest⟩ := List.takeWhile_prefix (l := cs) p
  have hhead : rest.head? = some c := by
    rw [← hrest, List.getElem?_append_right (by rw [hrest]), hrest, Nat.sub_self,
      ← List.head?_eq_getElem?] at h
    exact h
  obtain ⟨more, rfl⟩ := List.head?_eq_some_iff.1 hhead
  exact ⟨more, hrest.symm⟩

/-- **Where there are no codes, nothing is replaced.** -/
theorem replaceCodes_eq_drop [MarkupLibrary] : ∀ {cs : List Char} (skipped : Nat), Uncoded cs →
    replaceCodes skipped cs = cs.drop skipped
  | [], skipped, _ => by rw [replaceCodes, List.drop_nil]
  | c :: cs, skipped + 1, h => by
    rw [replaceCodes, replaceCodes_eq_drop skipped h.of_cons, List.drop_succ_cons]
  | c :: cs, 0, h => by
    rw [replaceCodes]
    split
    · next hcode =>
      obtain ⟨rfl, hend⟩ := hcode
      obtain ⟨rest, hrest⟩ := exists_of_getElem?_takeWhile hend
      rw [replaceCodes_eq_drop _ h.of_cons]
      cases hname : cs.takeWhile fun d => d ≠ ':' ∧ Text.isBlank d = false with
      | nil =>
        rw [hname] at hrest
        rw [hrest]
        rfl
      | cons d name =>
        have hbare : ∀ c ∈ d :: name, Text.isBlank c = false := by
          intro c hc
          rw [← hname] at hc
          have hkept := List.mem_takeWhile_imp hc
          exact (of_decide_eq_true hkept).2
        rw [hname] at hrest
        refine absurd ⟨d :: name, rfl, List.cons_ne_nil _ _, hbare⟩ (h _ ⟨[], rest, ?_⟩)
        rw [hrest]
        simp
    · rw [replaceCodes_eq_drop 0 h.of_cons]
      rfl

end QueryDepth.Console
