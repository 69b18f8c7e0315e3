import Mathlib.Data.List.Basic
import QueryDepth.Json.Reader
import QueryDepth.Json.Writer

/-!
# Strings and integers are read back

A string is written between quotes, one character after the other: as it is, as a letter behind a
backslash, or as one or two units of four hexadecimal digits (`escapeChar_cases`). An integer is
written as its decimal digits behind a sign.

**Theorem (`reads_string`, `reads_intText`).** Reading gives back the string or the integer that was
written and stops right behind it, whatever follows a string, and wherever a number does not go on.
What is written is ASCII.

For strings the induction is on the characters. A unit is read only if a character follows its
digits, so each step asks for a rest that is not empty; the closing quote provides it. No unit of a
character of the basic plane is half of a pair, so a character never merges with the one behind it.
-/

namespace QueryDepth.Json

open Decimal

/-- In front of this rest the reader takes the text off and gives the value, at every offset. -/
def Reads {α : Type} (reader : Rest → Reading (α × Rest)) (text rest : List Char) (a : α) : Prop :=
  ∀ pos, ∃ pos', reader ⟨text ++ rest, pos⟩ = .ok (a, ⟨rest, pos'⟩)

/-- Only ASCII characters. -/
def IsAscii (cs : List Char) : Prop := ∀ c ∈ cs, c.toNat < 128

@[simp] theorem isAscii_nil : IsAscii [] := fun _ h => nomatch h

@[simp] theorem isAscii_cons {c : Char} {cs : List Char} :
    IsAscii (c :: cs) ↔ c.toNat < 128 ∧ IsAscii cs :=
  List.forall_mem_cons

@[simp] theorem isAscii_append {cs cs' : List Char} :
    IsAscii (cs ++ cs') ↔ IsAscii cs ∧ IsAscii cs' :=
  List.forall_mem_append

variable {start fuel pos : Nat} {rest cs : List Char} {r : Rest} {c : Char}

/-! ## Units -/

theorem hexValue?_hexDigit : ∀ n < 16, hexValue? (hexDigit n) = some n := by decide

theorem toNat_hexDigit_lt : ∀ n < 16, (hexDigit n).toNat < 128 := by decide

/-- Four digits are read as the number that they were written for. -/
theorem hex4?_hexText {n : Nat} (h : n < 0x10000) : ∃ a b c d,
    hexText 4 n = [a, b, c, d] ∧ hex4? a b c d = some n := by
  refine ⟨_, _, _, _, rfl, ?_⟩
  have hread : ∀ m, hexValue? (hexDigit (m % 16)) = some (m % 16) := fun m =>
    hexValue?_hexDigit _ (Nat.mod_lt _ (by decide))
  simp only [hex4?, hread, Option.bind_eq_bind, Option.bind_some, Option.pure_def,
    Option.some.injEq]
  omega

theorem isAscii_unitEscape (n : Nat) : IsAscii (unitEscape n) := by
  have hdigit : ∀ m, (hexDigit (m % 16)).toNat < 128 := fun m =>
    toNat_hexDigit_lt _ (Nat.mod_lt _ (by decide))
  simp [unitEscape, hexText, hdigit]

theorem valid_toNat (c : Char) : c.toNat < 0xD800 ∨ 0xDFFF < c.toNat ∧ c.toNat < 0x110000 :=
  c.valid

/-- A character is no half of a pair. -/
theorem not_isSurrogate (c : Char) :
    isHighSurrogate c.toNat = false ∧ isLowSurrogate c.toNat = false := by
  have hvalid := valid_toNat c
  simp only [isHighSurrogate, isLowSurrogate, Bool.and_eq_false_iff, decide_eq_false_iff_not]
  omega

theorem charOfUnit_toNat (c : Char) : charOfUnit c.toNat = c := by
  obtain ⟨hhigh, hlow⟩ := not_isSurrogate c
  simp [charOfUnit, hhigh, hlow]

/-- The halves of a character beyond the basic plane, and the character that they make. -/
theorem pair_toNat (h : 0x10000 ≤ c.toNat) :
    isHighSurrogate (0xD800 + (c.toNat - 0x10000) / 0x400) = true ∧
    isLowSurrogate (0xDC00 + (c.toNat - 0x10000) % 0x400) = true ∧
    charOfPair (0xD800 + (c.toNat - 0x10000) / 0x400) (0xDC00 + (c.toNat - 0x10000) % 0x400) =
      c := by
  have hvalid := valid_toNat c
  refine ⟨?_, ?_, ?_⟩
  · simp only [isHighSurrogate, Bool.and_eq_true, decide_eq_true_eq]
    omega
  · simp only [isLowSurrogate, Bool.and_eq_true, decide_eq_true_eq]
    omega
  · rw [charOfPair]
    have hsum : 0x10000 + (0xD800 + (c.toNat - 0x10000) / 0x400 - 0xD800) * 0x400 +
        (0xDC00 + (c.toNat - 0x10000) % 0x400 - 0xDC00) = c.toNat := by omega
    rw [hsum, Char.ofNat_toNat]

/-! ## How a character is written -/

/-- **A character is written in one of four ways.** -/
theorem escapeChar_cases (c : Char) :
    (∃ k, simpleEscape? k = some c ∧ k.toNat < 128 ∧ escapeChar c = ['\\', k]) ∨
    (c ≠ '"' ∧ c ≠ '\\' ∧ 0x20 ≤ c.toNat ∧ c.toNat < 128 ∧ escapeChar c = [c]) ∨
    (c.toNat < 0x10000 ∧ escapeChar c = unitEscape c.toNat) ∨
    (0x10000 ≤ c.toNat ∧ escapeChar c = unitEscape (0xD800 + (c.toNat - 0x10000) / 0x400) ++
      unitEscape (0xDC00 + (c.toNat - 0x10000) % 0x400)) := by
  unfold escapeChar
  -- the seven letters come first
  iterate 7
    split
    · next h =>
      subst h
      refine .inl ⟨_, ?_, ?_, rfl⟩ <;> decide
  next hquote hback _ _ _ _ _ =>
  split
  · next h => exact .inr (.inl ⟨hquote, hback, h.1, by omega, rfl⟩)
  split
  · next h => exact .inr (.inr (.inl ⟨h, rfl⟩))
  · next h => exact .inr (.inr (.inr ⟨Nat.not_lt.1 h, rfl⟩))

theorem length_escapeChar_pos (c : Char) : 0 < (escapeChar c).length := by
  rcases escapeChar_cases c with ⟨k, -, -, h⟩ | ⟨-, -, -, -, h⟩ | ⟨-, h⟩ | ⟨-, h⟩ <;>
    rw [h] <;> exact Nat.succ_pos _

theorem isAscii_escapeChar (c : Char) : IsAscii (escapeChar c) := by
  rcases escapeChar_cases c with ⟨k, -, hk, h⟩ | ⟨-, -, -, hc, h⟩ | ⟨-, h⟩ | ⟨-, h⟩ <;> rw [h]
  · simpa using hk
  · simpa using hc
  · exact isAscii_unitEscape _
  · exact isAscii_append.2 ⟨isAscii_unitEscape _, isAscii_unitEscape _⟩

/-! ## How a character is read -/

theorem readChars_letter {k : Char} (hk : simpleEscape? k = some c)
    (h : readChars start fuel rest (pos + 2) = .ok (cs, r)) :
    readChars start (fuel + 1) ('\\' :: k :: rest) pos = .ok (c :: cs, r) := by
  have hunit : k ≠ 'u' := by
    rintro rfl
    exact nomatch hk
  rw [readChars]
  · simp only [hk, h]
    rfl
  · exact fun _ _ _ _ _ _ hu _ => hunit hu
  · exact fun hu => hunit hu

theorem readChars_itself (hquote : c ≠ '"') (hback : c ≠ '\\') (hc : 0x20 ≤ c.toNat)
    (h : readChars start fuel rest (pos + 1) = .ok (cs, r)) :
    readChars start (fuel + 1) (c :: rest) pos = .ok (c :: cs, r) := by
  rw [readChars]
  · simp only [Nat.not_lt.2 hc, if_false, h]
    rfl
  · exact hquote
  · exact fun _ _ _ _ _ _ hc' _ => hback hc'
  · exact fun _ hc' _ => hback hc'
  · exact fun hc' _ => hback hc'
  · exact fun _ _ hc' _ => hback hc'

theorem readChars_unit {n : Nat} (hn : n < 0x10000) (hhigh : isHighSurrogate n = false)
    (hrest : rest ≠ []) (h : readChars start fuel rest (pos + 6) = .ok (cs, r)) :
    readChars start (fuel + 1) (unitEscape n ++ rest) pos = .ok (charOfUnit n :: cs, r) := by
  obtain ⟨a, b, c, d, htext, hvalue⟩ := hex4?_hexText hn
  obtain ⟨e, rest, rfl⟩ := List.exists_cons_of_ne_nil hrest
  rw [unitEscape, htext]
  simp only [List.cons_append, List.nil_append]
  rw [readChars]
  simp only [hvalue, hhigh, h]
  rfl

theorem readChars_pair {high low : Nat} (hbound : high < 0x10000) (hbound' : low < 0x10000)
    (hhigh : isHighSurrogate high = true) (hlow : isLowSurrogate low = true) (hrest : rest ≠ [])
    (h : readChars start fuel rest (pos + 12) = .ok (cs, r)) :
    readChars start (fuel + 1) (unitEscape high ++ unitEscape low ++ rest) pos =
      .ok (charOfPair high low :: cs, r) := by
  obtain ⟨a, b, c, d, htext, hvalue⟩ := hex4?_hexText hbound
  obtain ⟨a', b', c', d', htext', hvalue'⟩ := hex4?_hexText hbound'
  obtain ⟨e, rest, rfl⟩ := List.exists_cons_of_ne_nil hrest
  rw [unitEscape, unitEscape, htext, htext']
  simp only [List.cons_append, List.nil_append]
  rw [readChars]
  simp only [hvalue, hvalue', hhigh, hlow, h]
  rfl

/-- **A written character is read back.** -/
theorem readChars_escapeChar (c : Char) (hrest : rest ≠ [])
    (h : readChars start fuel rest (pos + (escapeChar c).length) = .ok (cs, r)) :
    readChars start (fuel + 1) (escapeChar c ++ rest) pos = .ok (c :: cs, r) := by
  rcases escapeChar_cases c with ⟨k, hk, -, heq⟩ | ⟨hquote, hback, hc, -, heq⟩ | ⟨hc, heq⟩ |
    ⟨hc, heq⟩ <;> rw [heq] at h ⊢
  · exact readChars_letter hk h
  · exact readChars_itself hquote hback hc h
  · have hunit := readChars_unit hc (not_isSurrogate c).1 hrest h
    rwa [charOfUnit_toNat] at hunit
  · obtain ⟨hhigh, hlow, hpair⟩ := pair_toNat hc
    have hvalid := valid_toNat c
    have hboth := readChars_pair (by omega) (by omega) hhigh hlow hrest h
    rwa [hpair] at hboth

/-! ## Strings -/

theorem readChars_flatMap (start : Nat) (rest : List Char) : ∀ (cs : List Char) (fuel pos : Nat),
    cs.length < fuel → ∃ pos', readChars start fuel (cs.flatMap escapeChar ++ '"' :: rest) pos =
      .ok (cs, ⟨rest, pos'⟩)
  | [], fuel + 1, pos, _ => ⟨pos + 1, rfl⟩
  | c :: cs, fuel + 1, pos, hfuel => by
    obtain ⟨pos', h⟩ := readChars_flatMap start rest cs fuel (pos + (escapeChar c).length)
      (Nat.lt_of_succ_lt_succ hfuel)
    refine ⟨pos', ?_⟩
    rw [List.flatMap_cons, List.append_assoc]
    exact readChars_escapeChar c (by simp) h

theorem length_le_flatMap_escapeChar (cs : List Char) :
    cs.length ≤ (cs.flatMap escapeChar).length := by
  induction cs with
  | nil => exact Nat.le_refl 0
  | cons c cs ih =>
    have hpos := length_escapeChar_pos c
    simp only [List.flatMap_cons, List.length_append, List.length_cons]
    omega

/-- **A string is read back from between its quotes.** -/
theorem reads_string (s : String) (rest : List Char) :
    Reads readString (s.toList.flatMap escapeChar ++ ['"']) rest s := by
  intro pos
  have hlength := length_le_flatMap_escapeChar s.toList
  obtain ⟨pos', h⟩ := readChars_flatMap (pos - 1) rest s.toList
    ((s.toList.flatMap escapeChar ++ '"' :: rest).length + 1) pos (by
      rw [List.length_append]
      omega)
  refine ⟨pos', ?_⟩
  rw [List.append_assoc]
  show (readChars _ _ _ _ >>= _) = _
  rw [List.singleton_append, h]
  show Except.ok (String.ofList s.toList, _) = _
  rw [String.ofList_toList]

theorem isAscii_quote (s : String) : IsAscii (quote s) := by
  have hchars : IsAscii (s.toList.flatMap escapeChar) := by
    intro c hc
    obtain ⟨c', -, hc⟩ := List.mem_flatMap.1 hc
    exact isAscii_escapeChar c' c hc
  simpa [quote] using hchars

/-! ## Integers -/

/-- A number does not go on here. -/
def EndsNumber (rest : List Char) : Prop :=
  ∀ c ∈ rest.head?, isDigit c = false ∧ c ≠ '.' ∧ c ≠ 'e' ∧ c ≠ 'E'

theorem isDigit_iff (c : Char) : isDigit c = true ↔ '0' ≤ c ∧ c ≤ '9' := by
  simp [isDigit]

theorem ne_of_isDigit {c k : Char} (h : isDigit c = true) (hk : isDigit k = false) : c ≠ k := by
  rintro rfl
  rw [hk] at h
  exact nomatch h

theorem isDigit_of_mem_toDigits {n : Nat} {c : Char} (h : c ∈ Nat.toDigits 10 n) :
    isDigit c = true := by
  have hdigit : c.isDigit = true := Nat.isDigit_of_mem_toDigits (by decide) (by decide) h
  simpa [isDigit_iff, Char.isDigit, Char.le_def] using hdigit

theorem exists_digit (n : Nat) :
    ∃ c cs, Nat.toDigits 10 n = c :: cs ∧ isDigit c = true := by
  obtain ⟨c, cs, hcs⟩ := List.exists_cons_of_ne_nil (Nat.toDigits_ne_nil (n := n) (b := 10))
  exact ⟨c, cs, hcs, isDigit_of_mem_toDigits (n := n) (hcs ▸ List.mem_cons_self)⟩

theorem toList_intText_negSucc (n : Nat) :
    (intText (.negSucc n)).toList = '-' :: Nat.toDigits 10 (n + 1) := by
  simp [intText, natText]

/-- An integer begins with a sign or a digit. -/
theorem head_intText (n : Int) :
    ∃ c cs, (intText n).toList = c :: cs ∧ (c = '-' ∨ isDigit c = true) := by
  cases n with
  | ofNat n =>
    obtain ⟨c, cs, hcs, hc⟩ := exists_digit n
    exact ⟨c, cs, by rw [intText, natText, String.toList_ofList, hcs], .inr hc⟩
  | negSucc n => exact ⟨'-', _, toList_intText_negSucc n, .inl rfl⟩

theorem isAscii_intText (n : Int) : IsAscii (intText n).toList := by
  have hdigits : ∀ m, IsAscii (Nat.toDigits 10 m) := by
    intro m c hc
    have hle := ((isDigit_iff c).1 (isDigit_of_mem_toDigits hc)).2
    exact Nat.lt_of_le_of_lt (Char.le_def.1 hle) (by decide)
  cases n with
  | ofNat n =>
    rw [intText, natText, String.toList_ofList]
    exact hdigits n
  | negSucc n =>
    rw [toList_intText_negSucc]
    exact isAscii_cons.2 ⟨by decide, hdigits (n + 1)⟩

theorem natOfDigits_toDigits (n : Nat) : natOfDigits (Nat.toDigits 10 n) = n := by
  have hfold : natOfDigits (Nat.toDigits 10 n) = Nat.ofDigitChars 10 (Nat.toDigits 10 n) 0 := by
    rw [Nat.ofDigitChars_eq_foldl, natOfDigits]
    refine List.foldl_ext _ _ _ fun m c hc => ?_
    rw [digitValue?, if_pos ((isDigit_iff c).1 (isDigit_of_mem_toDigits hc))]
    rfl
  rw [hfold, Nat.ofDigitChars_ten_toDigits]

/-- No zero stands in front of other digits. -/
theorem head_toDigits {n : Nat} (h : 0 < n) : ∃ c cs, Nat.toDigits 10 n = c :: cs ∧ c ≠ '0' := by
  induction n using Nat.strongRecOn with
  | _ n ih =>
    by_cases hn : n < 10
    · refine ⟨_, _, Nat.toDigits_of_lt_base hn, fun hzero => ?_⟩
      rw [Nat.digitChar_eq_zero.1 hzero] at h
      exact Nat.lt_irrefl 0 h
    · obtain ⟨c, cs, hcs, hc⟩ := ih (n / 10) (by omega) (by omega)
      refine ⟨c, cs ++ [(n % 10).digitChar], ?_, hc⟩
      rw [Nat.toDigits_of_base_le (by decide) (Nat.not_lt.1 hn), hcs, List.cons_append]

theorem integerDigits_toDigits (n : Nat) (hrest : EndsNumber rest) :
    integerDigits (Nat.toDigits 10 n ++ rest) = some (Nat.toDigits 10 n) := by
  rcases Nat.eq_zero_or_pos n with rfl | hn
  · rfl
  have htake : (Nat.toDigits 10 n ++ rest).takeWhile isDigit = Nat.toDigits 10 n := by
    rw [List.takeWhile_append_of_pos fun c hc => isDigit_of_mem_toDigits hc]
    cases rest with
    | nil => simp
    | cons c rest => simp [(hrest c rfl).1]
  obtain ⟨c, cs, hcs, hc⟩ := head_toDigits hn
  rw [hcs, List.cons_append] at htake ⊢
  rw [integerDigits]
  · rw [htake]
  · intro _ h
    exact hc (List.cons.inj h).1

theorem exponentPart_of_endsNumber (hrest : EndsNumber rest) : exponentPart rest = none := by
  cases rest with
  | nil => rfl
  | cons c rest =>
    obtain ⟨-, -, he, hE⟩ := hrest c rfl
    simp [exponentPart, he, hE]

theorem fractionDigits_of_endsNumber (hrest : EndsNumber rest) : fractionDigits rest = [] := by
  cases rest with
  | nil => rfl
  | cons c rest =>
    obtain ⟨-, hpoint, -⟩ := hrest c rfl
    rw [fractionDigits]
    intro _ h
    exact hpoint (List.cons.inj h).1

theorem readMagnitude_toDigits (negative : Bool) (n pos : Nat) (hrest : EndsNumber rest) :
    readMagnitude negative ⟨Nat.toDigits 10 n ++ rest, pos⟩ =
      some (.int (if negative then -(n : Int) else n),
        ⟨rest, pos + (Nat.toDigits 10 n).length⟩) := by
  have hdrop : (Nat.toDigits 10 n ++ rest).drop (Nat.toDigits 10 n).length = rest := List.drop_left
  simp only [readMagnitude, integerDigits_toDigits n hrest, Rest.drop, hdrop,
    fractionDigits_of_endsNumber hrest, exponentPart_of_endsNumber hrest,
    Option.bind_eq_bind, Option.bind_some, List.isEmpty_nil, if_true, natOfDigits_toDigits]
  rfl

/-- Words begin with letters, and with a sign only before a letter. -/
theorem readWord_of_digit {c : Char} (h : isDigit c = true) (cs : List Char) (pos : Nat) :
    readWord ⟨c :: cs, pos⟩ words = none ∧ readWord ⟨'-' :: c :: cs, pos⟩ words = none := by
  have hne : ∀ k, isDigit k = false → (k == c) = false := fun k hk =>
    beq_eq_false_iff_ne.2 (ne_of_isDigit h hk).symm
  have hn := hne 'n' rfl
  have ht := hne 't' rfl
  have hf := hne 'f' rfl
  have hN := hne 'N' rfl
  have hI := hne 'I' rfl
  have hminus := hne '-' rfl
  constructor <;> simp [readWord, words, List.isPrefixOf, hn, ht, hf, hN, hI, hminus]

theorem readScalar_of_digit {c : Char} (hc : isDigit c = true) {cs : List Char} {pos : Nat}
    {found : Json × Rest} (h : readMagnitude false ⟨c :: cs, pos⟩ = some found) :
    readScalar ⟨c :: cs, pos⟩ = .ok found := by
  have hminus : c ≠ '-' := ne_of_isDigit hc rfl
  simp [readScalar, (readWord_of_digit hc cs pos).1, hminus, h]

theorem readScalar_of_minus {c : Char} (hc : isDigit c = true) {cs : List Char} {pos : Nat}
    {found : Json × Rest} (h : readMagnitude true ⟨c :: cs, pos + 1⟩ = some found) :
    readScalar ⟨'-' :: c :: cs, pos⟩ = .ok found := by
  simp [readScalar, (readWord_of_digit hc cs pos).2, Rest.drop, h]

/-- **An integer is read back** where no number goes on. -/
theorem reads_intText (n : Int) (hrest : EndsNumber rest) :
    Reads readScalar (intText n).toList rest (.int n) := by
  intro pos
  cases n with
  | ofNat n =>
    obtain ⟨c, cs, hcs, hc⟩ := exists_digit n
    have hread := readMagnitude_toDigits false n pos hrest
    rw [intText, natText, String.toList_ofList]
    rw [hcs, List.cons_append] at hread ⊢
    exact ⟨_, readScalar_of_digit hc hread⟩
  | negSucc n =>
    obtain ⟨c, cs, hcs, hc⟩ := exists_digit (n + 1)
    have hread := readMagnitude_toDigits true (n + 1) (pos + 1) hrest
    rw [toList_intText_negSucc]
    rw [hcs, List.cons_append] at hread ⊢
    exact ⟨_, readScalar_of_minus hc hread⟩

end QueryDepth.Json
