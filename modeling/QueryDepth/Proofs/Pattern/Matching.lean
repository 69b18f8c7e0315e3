import QueryDepth.Pattern.Search

/-!
# Where a regular expression leads

A regular expression without repetition, references and conditions on what surrounds it is *plain*.
It relates places of a text: it leads from the place where it begins to match to the places where it
can end (`Regex.Leads`). A sequence composes these relations, alternatives unite them, an anchor
stays where it is.

**Theorem (`isSome_run_iff`).** The backtracking matcher finds a way for a plain expression exactly
if it leads to a place that the continuation accepts, whichever alternatives come first. So a search
succeeds exactly if the expression leads anywhere from some place of the text (`search_iff`).

The continuation may look at captures, so the induction is over all continuations whose success
depends on the place alone.
-/

namespace QueryDepth

namespace Regex

/-! ## Plain expressions -/

inductive IsPlain : Regex → Prop
  | empty : IsPlain .empty
  | char (mode : CaseMode) (c : Char) : IsPlain (.char mode c)
  | anchor (a : Anchor) : IsPlain (.anchor a)
  | cat {a b : Regex} (ha : IsPlain a) (hb : IsPlain b) : IsPlain (.cat a b)
  | alt {a b : Regex} (ha : IsPlain a) (hb : IsPlain b) : IsPlain (.alt a b)
  | group (index : Option Nat) {body : Regex} (h : IsPlain body) : IsPlain (.group index body)

/-- The expression can match between two places. -/
def Leads : Regex → Place → Place → Prop
  | .empty, p, q => q = p
  | .char mode x, p, q =>
    ∃ c after, p.after = c :: after ∧ mode.same x c = true ∧ q = ⟨c :: p.before, after⟩
  | .anchor a, p, q => a.holds p = true ∧ q = p
  | .cat a b, p, q => ∃ m, a.Leads p m ∧ b.Leads m q
  | .alt a b, p, q => a.Leads p q ∨ b.Leads p q
  | .group _ body, p, q => body.Leads p q
  | _, _, _ => False

theorem isSome_run_char {mode : CaseMode} {x : Char} {p : Place} {caps : Captures} {k : Cont}
    {accepts : Place → Prop} (hk : ∀ q caps, (k q caps).isSome = true ↔ accepts q) :
    ((Regex.char mode x).run p caps k).isSome = true ↔
      ∃ q, (Regex.char mode x).Leads p q ∧ accepts q := by
  obtain ⟨before, after⟩ := p
  cases after with
  | nil => simp [run, Leads]
  | cons c after =>
    by_cases hsame : mode.same x c = true
    · have hstep : ((Regex.char mode x).run ⟨before, c :: after⟩ caps k).isSome = true ↔
          accepts ⟨c :: before, after⟩ := by
        simp [run, hsame, hk]
      rw [hstep]
      constructor
      · exact fun haccepts => ⟨_, ⟨c, after, rfl, hsame, rfl⟩, haccepts⟩
      · rintro ⟨q, ⟨d, rest, hd, -, rfl⟩, haccepts⟩
        cases hd
        exact haccepts
    · simp [run, Leads, hsame]

/-- **The matcher finds a way exactly where there is one.** -/
theorem isSome_run_iff {r : Regex} (h : r.IsPlain) {p : Place} {caps : Captures} {k : Cont}
    {accepts : Place → Prop} (hk : ∀ q caps, (k q caps).isSome = true ↔ accepts q) :
    (r.run p caps k).isSome = true ↔ ∃ q, r.Leads p q ∧ accepts q := by
  induction h generalizing p caps k accepts with
  | empty => simp [run, Leads, hk]
  | char mode x => exact isSome_run_char hk
  | anchor a =>
    by_cases ha : a.holds p = true
    · simp [run, Leads, ha, hk]
    · simp [run, Leads, ha]
  | @cat a b _ _ iha ihb =>
    have hrest : ∀ q caps, (b.run q caps k).isSome = true ↔ ∃ q', b.Leads q q' ∧ accepts q' :=
      fun q caps => ihb hk
    rw [run, iha hrest]
    simp only [Leads]
    constructor
    · rintro ⟨m, hm, q, hq, haccepts⟩
      exact ⟨q, ⟨m, hm, hq⟩, haccepts⟩
    · rintro ⟨q, ⟨m, hm, hq⟩, haccepts⟩
      exact ⟨m, hm, q, hq, haccepts⟩
  | @alt a b _ _ iha ihb =>
    have hor : ((a.run p caps k).orElse fun _ => b.run p caps k).isSome = true ↔
        (a.run p caps k).isSome = true ∨ (b.run p caps k).isSome = true := by
      cases a.run p caps k <;> simp
    rw [run, hor, iha hk, ihb hk]
    simp only [Leads, or_and_right, exists_or]
  | group index _ ih =>
    cases index with
    | none =>
      rw [run, ih hk]
      rfl
    | some i =>
      rw [run, ih fun q caps => hk q _]
      rfl

theorem matchesAt_iff {r : Regex} (h : r.IsPlain) (p : Place) :
    r.matchesAt p = true ↔ ∃ q, r.Leads p q := by
  have haccepts : ∀ (q : Place) (caps : Captures), (some (q, caps) : Option Hit).isSome = true ↔
      True := by simp
  rw [matchesAt, isSome_run_iff h haccepts]
  simp only [and_true]

/-- A search tries all places. -/
theorem searchFrom_iff {r : Regex} {before after : List Char} :
    r.searchFrom before after = true ↔ ∃ skipped rest, after = skipped ++ rest ∧
      r.matchesAt ⟨skipped.reverse ++ before, rest⟩ = true := by
  induction after generalizing before with
  | nil =>
    rw [searchFrom]
    constructor
    · exact fun h => ⟨[], [], rfl, h⟩
    · rintro ⟨skipped, rest, hsplit, h⟩
      obtain ⟨rfl, rfl⟩ := List.append_eq_nil_iff.1 hsplit.symm
      exact h
  | cons c after ih =>
    rw [searchFrom, Bool.or_eq_true_iff, ih]
    constructor
    · rintro (h | ⟨skipped, rest, rfl, h⟩)
      · exact ⟨[], c :: after, rfl, h⟩
      · exact ⟨c :: skipped, rest, rfl, by simpa using h⟩
    · rintro ⟨skipped, rest, hsplit, h⟩
      rcases List.cons_eq_append_iff.1 hsplit with ⟨rfl, rfl⟩ | ⟨more, rfl, rfl⟩
      · exact .inl h
      · exact .inr ⟨more, rest, rfl, by simpa using h⟩

end Regex

theorem Pattern.search_iff {p : Pattern} (h : p.regex.IsPlain) {text : String} :
    p.search text = true ↔ ∃ skipped rest q, text.toList = skipped ++ rest ∧
      p.regex.Leads ⟨skipped.reverse, rest⟩ q := by
  rw [search, Regex.searchFrom_iff]
  simp only [Regex.matchesAt_iff h, List.append_nil]
  constructor
  · rintro ⟨skipped, rest, hsplit, q, hq⟩
    exact ⟨skipped, rest, q, hsplit, hq⟩
  · rintro ⟨skipped, rest, q, hsplit, hq⟩
    exact ⟨skipped, rest, hsplit, q, hq⟩

/-! ## Sequences, alternatives and words -/

namespace Regex

variable {p q : Place}

theorem isPlain_catAll : ∀ {rs : List Regex}, (∀ r ∈ rs, r.IsPlain) → (catAll rs).IsPlain
  | [], _ => .empty
  | [r], h => h r List.mem_cons_self
  | r :: _ :: _, h => .cat (h r List.mem_cons_self)
      (isPlain_catAll fun s hs => h s (List.mem_cons_of_mem _ hs))

theorem isPlain_altAll : ∀ {rs : List Regex}, (∀ r ∈ rs, r.IsPlain) → (altAll rs).IsPlain
  | [], _ => .empty
  | [r], h => h r List.mem_cons_self
  | r :: _ :: _, h => .alt (h r List.mem_cons_self)
      (isPlain_altAll fun s hs => h s (List.mem_cons_of_mem _ hs))

theorem leads_catAll_cons (r : Regex) (rs : List Regex) :
    (catAll (r :: rs)).Leads p q ↔ ∃ m, r.Leads p m ∧ (catAll rs).Leads m q := by
  cases rs with
  | nil => simp [catAll, Leads]
  | cons r' rs => rfl

/-- Alternatives lead where one of them does. -/
theorem leads_altAll {rs : List Regex} (h : rs ≠ []) :
    (altAll rs).Leads p q ↔ ∃ r ∈ rs, r.Leads p q := by
  induction rs with
  | nil => exact absurd rfl h
  | cons r rs ih =>
    cases rs with
    | nil => simp [altAll]
    | cons r' rs =>
      have hor : (altAll (r :: r' :: rs)).Leads p q ↔
          r.Leads p q ∨ (altAll (r' :: rs)).Leads p q := Iff.rfl
      rw [hor, ih (List.cons_ne_nil _ _)]
      simp only [List.mem_cons, exists_eq_or_imp]

/-- The characters of a word, one after the other. -/
def chars (word : List Char) : List Regex := word.map (.char .exact)

theorem isPlain_of_mem_chars {word : List Char} : ∀ r ∈ chars word, r.IsPlain := by
  intro r hr
  obtain ⟨c, -, rfl⟩ := List.mem_map.1 hr
  exact .char .exact c

/-- The characters of a word lead over that word. -/
theorem leads_catAll_chars {word : List Char} {more : List Regex} :
    (catAll (chars word ++ more)).Leads p q ↔ ∃ rest, p.after = word ++ rest ∧
      (catAll more).Leads ⟨word.reverse ++ p.before, rest⟩ q := by
  induction word generalizing p with
  | nil => simp [chars]
  | cons c word ih =>
    have hchars : chars (c :: word) ++ more = .char .exact c :: (chars word ++ more) := rfl
    rw [hchars, leads_catAll_cons]
    constructor
    · rintro ⟨m, ⟨d, after, hafter, hsame, rfl⟩, hm⟩
      obtain rfl : c = d := of_decide_eq_true hsame
      obtain ⟨rest, rfl, hrest⟩ := ih.1 hm
      exact ⟨rest, hafter, by simpa using hrest⟩
    · rintro ⟨rest, hafter, hrest⟩
      exact ⟨_, ⟨c, word ++ rest, hafter, decide_eq_true rfl, rfl⟩,
        ih.2 ⟨rest, rfl, by simpa using hrest⟩⟩

theorem leads_catAll_anchor {a : Anchor} {more : List Regex} :
    (catAll (.anchor a :: more)).Leads p q ↔ a.holds p = true ∧ (catAll more).Leads p q := by
  rw [leads_catAll_cons]
  constructor
  · rintro ⟨m, ⟨ha, rfl⟩, hm⟩
    exact ⟨ha, hm⟩
  · exact fun ⟨ha, hp⟩ => ⟨p, ⟨ha, rfl⟩, hp⟩

end Regex

end QueryDepth
