import QueryDepth.Text.Location

/-!
# When a location is exact

The exact location of a character counts the lines that line feeds and carriage returns have ended
before it, and the characters since the last of these. `Location.ofOffset` differs from it in two
ways: it takes some more characters, the *separators*, for line ends, and it places the first
character of a line behind the line before.

**Theorem (`ofOffset_eq_exact_iff`).** The location is exact if and only if the text before the
character has no separator and does not end with a line end; or, by accident, if it has exactly one
separator and ends with a line end that has an empty line before it.

Lines are compared by their number (`length_splitLines`). Where there are no separators
`splitLines` and `textLines` differ by the empty line at the end (`textLines_eq_splitLines`).
-/

namespace QueryDepth

/-- A character that ends a line for `splitLines`, and not for `textLines`. -/
def isSeparator (c : Char) : Bool := isLineBreak c && !(c = '\n' || c = '\r')

def separators (text : List Char) : Nat := text.countP isSeparator

theorem isSeparator_of_lineEnd {c : Char} (h : c = '\n' ∨ c = '\r') : isSeparator c = false := by
  rcases h with rfl | rfl <;> rfl

theorem isSeparator_eq_isLineBreak {c : Char} (h : ¬ (c = '\n' ∨ c = '\r')) :
    isSeparator c = isLineBreak c := by
  obtain ⟨hfeed, hreturn⟩ := not_or.1 h
  simp [isSeparator, hfeed, hreturn]

theorem isLineBreak_of_lineEnd {c : Char} (h : c = '\n' ∨ c = '\r') : isLineBreak c = true := by
  rcases h with rfl | rfl <;> rfl

namespace Location

/-- The location behind a text where only line feeds and carriage returns end lines. -/
def exactlyBehind (text : List Char) : Location :=
  ⟨(textLines text).length, ((textLines text).getLastD []).length + 1⟩

/-- The exact location of the character that has `offset` characters before it. -/
def exact (text : List Char) (offset : Nat) : Location := exactlyBehind (text.take offset)

end Location

/-! ## The two ways to split a text -/

/-- The first line with a character in front. -/
def extendFirst (c : Char) : List (List Char) → List (List Char)
  | [] => [[c]]
  | line :: more => (c :: line) :: more

theorem extendFirst_ne_nil (c : Char) (lines : List (List Char)) : extendFirst c lines ≠ [] := by
  cases lines <;> exact List.cons_ne_nil _ _

/-- The character and the one behind it are not the two that end one line together. -/
def Alone (c : Char) (rest : List Char) : Prop := ∀ more, c = '\r' → rest ≠ '\n' :: more

theorem splitLines_cons {c : Char} {rest : List Char} (h : Alone c rest) :
    splitLines (c :: rest) =
      if isLineBreak c then [] :: splitLines rest else extendFirst c (splitLines rest) := by
  rw [splitLines]
  · split
    · rfl
    · cases splitLines rest <;> rfl
  · exact h

theorem textLines_cons {c : Char} {rest : List Char} (h : Alone c rest) :
    textLines (c :: rest) =
      if c = '\n' ∨ c = '\r' then [] :: textLines rest else extendFirst c (textLines rest) := by
  rw [textLines]
  · split
    · rfl
    · cases textLines rest <;> rfl
  · exact h

/-- Induction along the line ends. -/
theorem lines_induct {motive : List Char → Prop} (nil : motive [])
    (pair : ∀ rest, motive rest → motive ('\r' :: '\n' :: rest))
    (alone : ∀ c rest, Alone c rest → motive rest → motive (c :: rest)) (text : List Char) :
    motive text := by
  fun_induction textLines text with
  | case1 => exact nil
  | case2 rest ih => exact pair rest ih
  | case3 c rest h _ ih => exact alone c rest h ih
  | case4 c rest h _ _ ih => exact alone c rest h ih
  | case5 c rest h _ _ _ _ ih => exact alone c rest h ih

/-! ## Numbers of lines -/

/-- The text is empty or ends with a character that ends a line for `splitLines`. -/
def isClosed (text : List Char) : Bool := text.getLast?.all isLineBreak

theorem isClosed_cons (c : Char) (rest : List Char) :
    isClosed (c :: rest) = if rest = [] then isLineBreak c else isClosed rest := by
  cases rest with
  | nil => rfl
  | cons d rest => simp [isClosed, List.getLast?_cons_cons]

theorem isClosed_cons_of_break {c : Char} (h : isLineBreak c = true) (rest : List Char) :
    isClosed (c :: rest) = isClosed rest := by
  rw [isClosed_cons]
  split
  · next hrest =>
    rw [hrest, h]
    rfl
  · rfl

theorem textLines_ne_nil (text : List Char) : textLines text ≠ [] := by
  induction text using lines_induct with
  | nil => exact List.cons_ne_nil _ _
  | pair rest _ =>
    rw [textLines]
    exact List.cons_ne_nil _ _
  | alone c rest halone _ =>
    rw [textLines_cons halone]
    split
    · exact List.cons_ne_nil _ _
    · exact extendFirst_ne_nil _ _

theorem splitLines_eq_nil_iff {text : List Char} : splitLines text = [] ↔ text = [] := by
  induction text using lines_induct with
  | nil => exact iff_of_true rfl rfl
  | pair rest _ =>
    rw [splitLines]
    exact iff_of_false (List.cons_ne_nil _ _) (List.cons_ne_nil _ _)
  | alone c rest halone _ =>
    rw [splitLines_cons halone]
    refine iff_of_false ?_ (List.cons_ne_nil _ _)
    split
    · exact List.cons_ne_nil _ _
    · exact extendFirst_ne_nil _ _

theorem length_extendFirst {c : Char} {lines : List (List Char)} (h : lines ≠ []) :
    (extendFirst c lines).length = lines.length := by
  cases lines with
  | nil => exact absurd rfl h
  | cons line more => rfl

/-- **The numbers of lines.** Every separator is one more line, and a line end at the end is one
less. -/
theorem length_splitLines (text : List Char) :
    (splitLines text).length + (if isClosed text then 1 else 0) =
      (textLines text).length + separators text := by
  induction text using lines_induct with
  | nil => rfl
  | pair rest ih =>
    have hclosed : isClosed ('\r' :: '\n' :: rest) = isClosed rest := by
      rw [isClosed_cons_of_break rfl, isClosed_cons_of_break rfl]
    have hseparators : separators ('\r' :: '\n' :: rest) = separators rest := by
      simp [separators, isSeparator]
    rw [splitLines, textLines, hclosed, hseparators, List.length_cons, List.length_cons]
    omega
  | alone c rest halone ih =>
    have hseparators : separators (c :: rest) =
        separators rest + if isSeparator c then 1 else 0 := List.countP_cons
    rw [splitLines_cons halone, textLines_cons halone, hseparators]
    by_cases hbreak : isLineBreak c = true
    · rw [if_pos hbreak, isClosed_cons_of_break hbreak, List.length_cons]
      by_cases hend : c = '\n' ∨ c = '\r'
      · rw [if_pos hend, isSeparator_of_lineEnd hend, List.length_cons]
        simp only [Bool.false_eq_true, if_false]
        omega
      · rw [if_neg hend, isSeparator_eq_isLineBreak hend, hbreak,
          length_extendFirst (textLines_ne_nil rest), if_pos rfl]
        omega
    · have hend : ¬ (c = '\n' ∨ c = '\r') := fun h => hbreak (isLineBreak_of_lineEnd h)
      have hplain : isSeparator c = false := by simp [isSeparator, hbreak]
      rw [if_neg hbreak, if_neg hend, hplain, length_extendFirst (textLines_ne_nil rest),
        isClosed_cons]
      by_cases hrest : rest = []
      · rw [hrest, if_pos rfl, if_neg hbreak]
        rfl
      · have hlines : splitLines rest ≠ [] := fun h => hrest (splitLines_eq_nil_iff.1 h)
        rw [if_neg hrest, length_extendFirst hlines, ih]
        simp

/-! ## The last lines -/

/-- **Without separators** the two ways differ by the empty line at the end. -/
theorem textLines_eq_splitLines {text : List Char} (h : separators text = 0) :
    textLines text = splitLines text ++ if isClosed text then [[]] else [] := by
  induction text using lines_induct with
  | nil => rfl
  | pair rest ih =>
    have hclosed : isClosed ('\r' :: '\n' :: rest) = isClosed rest := by
      rw [isClosed_cons_of_break rfl, isClosed_cons_of_break rfl]
    have hseparators : separators rest = 0 := by simpa [separators, isSeparator] using h
    rw [splitLines, textLines, hclosed, ih hseparators]
    rfl
  | alone c rest halone ih =>
    have hboth : separators rest = 0 ∧ isSeparator c = false := by
      simpa [separators, List.countP_cons] using h
    rw [splitLines_cons halone, textLines_cons halone, ih hboth.1]
    by_cases hend : c = '\n' ∨ c = '\r'
    · have hbreak := isLineBreak_of_lineEnd hend
      rw [if_pos hend, if_pos hbreak, isClosed_cons_of_break hbreak]
      rfl
    · have hbreak : isLineBreak c = false := isSeparator_eq_isLineBreak hend ▸ hboth.2
      rw [if_neg hend, hbreak, isClosed_cons, hbreak]
      by_cases hrest : rest = []
      · rw [hrest]
        rfl
      · rw [if_neg hrest]
        obtain ⟨line, more, hlines⟩ :=
          List.exists_cons_of_ne_nil fun h => hrest (splitLines_eq_nil_iff.1 h)
        rw [hlines]
        rfl

/-- A text that ends with a line end has an empty last line, and another one before it. -/
theorem textLines_of_lineEnd {text : List Char} {c : Char} (h : text.getLast? = some c)
    (hend : c = '\n' ∨ c = '\r') : ∃ line more, textLines text = line :: (more ++ [[]]) := by
  induction text using lines_induct with
  | nil => exact absurd h nofun
  | pair rest ih =>
    rw [textLines]
    by_cases hrest : rest = []
    · rw [hrest]
      exact ⟨[], [], rfl⟩
    · obtain ⟨d, rest, rfl⟩ := List.exists_cons_of_ne_nil hrest
      rw [List.getLast?_cons_cons, List.getLast?_cons_cons] at h
      obtain ⟨line, more, hlines⟩ := ih h
      exact ⟨[], line :: more, by rw [hlines]; rfl⟩
  | alone d rest halone ih =>
    rw [textLines_cons halone]
    by_cases hrest : rest = []
    · rw [hrest] at h ⊢
      obtain rfl : d = c := Option.some.inj h
      rw [if_pos hend]
      exact ⟨[], [], rfl⟩
    · obtain ⟨e, rest, rfl⟩ := List.exists_cons_of_ne_nil hrest
      rw [List.getLast?_cons_cons] at h
      obtain ⟨line, more, hlines⟩ := ih h
      rw [hlines]
      split
      · exact ⟨[], line :: more, rfl⟩
      · exact ⟨d :: line, more, rfl⟩

/-- The last line with a character behind. -/
def extendLast (c : Char) (lines : List (List Char)) : List (List Char) :=
  lines.dropLast ++ [lines.getLastD [] ++ [c]]

theorem extendLast_cons {c : Char} {line : List Char} {lines : List (List Char)} (h : lines ≠ []) :
    extendLast c (line :: lines) = line :: extendLast c lines := by
  obtain ⟨line', more, rfl⟩ := List.exists_cons_of_ne_nil h
  simp [extendLast]

theorem extendFirst_extendLast {c d : Char} {lines : List (List Char)} (h : lines ≠ []) :
    extendFirst d (extendLast c lines) = extendLast c (extendFirst d lines) := by
  obtain ⟨line, more, rfl⟩ := List.exists_cons_of_ne_nil h
  cases more with
  | nil => rfl
  | cons line' more =>
    rw [extendLast_cons (List.cons_ne_nil _ _), extendFirst, extendFirst,
      extendLast_cons (List.cons_ne_nil _ _)]

section

variable {c : Char} (hc : isSeparator c = true)

include hc

theorem not_lineEnd_of_isSeparator : ¬ (c = '\n' ∨ c = '\r') := fun h =>
  absurd hc (Bool.eq_false_iff.1 (isSeparator_of_lineEnd h))

theorem Alone.append_separator {d : Char} {rest : List Char} (h : Alone d rest) :
    Alone d (rest ++ [c]) := by
  intro more hd heq
  cases rest with
  | nil => exact not_lineEnd_of_isSeparator hc (.inl (List.cons.inj heq).1)
  | cons e rest => exact h rest hd (by rw [(List.cons.inj heq).1])

theorem textLines_append_separator (text : List Char) :
    textLines (text ++ [c]) = extendLast c (textLines text) := by
  have hend := not_lineEnd_of_isSeparator hc
  induction text using lines_induct with
  | nil =>
    have halone : Alone c [] := fun _ _ => nofun
    rw [List.nil_append, textLines_cons halone, if_neg hend]
    rfl
  | pair rest ih =>
    rw [List.cons_append, List.cons_append, textLines, textLines, ih,
      extendLast_cons (textLines_ne_nil rest)]
  | alone d rest halone ih =>
    rw [List.cons_append, textLines_cons (halone.append_separator hc), textLines_cons halone, ih]
    split
    · rw [extendLast_cons (textLines_ne_nil rest)]
    · exact extendFirst_extendLast (textLines_ne_nil rest)

theorem splitLines_append_separator (text : List Char) :
    splitLines (text ++ [c]) = splitLines text ++ if isClosed text then [[]] else [] := by
  have hbreak : isLineBreak c = true :=
    isSeparator_eq_isLineBreak (not_lineEnd_of_isSeparator hc) ▸ hc
  induction text using lines_induct with
  | nil =>
    have halone : Alone c [] := fun _ _ => nofun
    rw [List.nil_append, splitLines_cons halone, if_pos hbreak]
    rfl
  | pair rest ih =>
    rw [List.cons_append, List.cons_append, splitLines, splitLines, ih,
      isClosed_cons_of_break rfl, isClosed_cons_of_break rfl]
    rfl
  | alone d rest halone ih =>
    rw [List.cons_append, splitLines_cons (halone.append_separator hc), splitLines_cons halone, ih]
    by_cases hd : isLineBreak d = true
    · rw [if_pos hd, if_pos hd, isClosed_cons_of_break hd]
      rfl
    · rw [if_neg hd, if_neg hd, isClosed_cons]
      by_cases hrest : rest = []
      · rw [hrest, if_pos rfl, if_neg hd]
        rfl
      · rw [if_neg hrest]
        obtain ⟨line, more, hlines⟩ :=
          List.exists_cons_of_ne_nil fun h => hrest (splitLines_eq_nil_iff.1 h)
        rw [hlines]
        rfl

/-- If the only separator is the last character, it belongs to the last line of the one way and not
to that of the other. -/
theorem lines_append_separator {text : List Char} (h : separators text = 0) :
    splitLines (text ++ [c]) = textLines text ∧
      textLines (text ++ [c]) = extendLast c (splitLines (text ++ [c])) := by
  have hsplit : splitLines (text ++ [c]) = textLines text := by
    rw [splitLines_append_separator hc, textLines_eq_splitLines h]
  exact ⟨hsplit, hsplit ▸ textLines_append_separator hc text⟩

end

/-! ## Exact locations -/

/-- Nothing before a character makes its location inexact: there is no separator and no line end
right before it, or the two make up for each other. -/
inductive Undisturbed (before : List Char) : Prop
  | plain (hseparators : separators before = 0)
      (hend : ∀ c ∈ before.getLast?, ¬ (c = '\n' ∨ c = '\r'))
  | compensated (hseparators : separators before = 1)
      (hend : ∃ c ∈ before.getLast?, c = '\n' ∨ c = '\r')
      (hempty : (splitLines before).getLast? = some [])

namespace Location

section

variable {text : List Char} {c : Char} (hlast : text.getLast? = some c)

include hlast

theorem isClosed_of_getLast? : isClosed text = isLineBreak c := by
  rw [isClosed, hlast]
  rfl

theorem exists_behind : ∃ line, (splitLines text).getLast? = some line ∧
    behind text = ⟨(splitLines text).length, line.length + 1⟩ := by
  have hne : splitLines text ≠ [] := fun h => by
    rw [splitLines_eq_nil_iff.1 h] at hlast
    exact nomatch hlast
  have hline := List.getLast?_eq_some_getLast hne
  exact ⟨_, hline, by rw [behind, hline]⟩

/-- Behind a line end, one separator makes up for the line that is not counted. -/
theorem behind_eq_iff_of_lineEnd (hend : c = '\n' ∨ c = '\r') :
    behind text = exactlyBehind text ↔
      separators text = 1 ∧ (splitLines text).getLast? = some [] := by
  obtain ⟨line, hline, hbehind⟩ := exists_behind hlast
  have hexact : exactlyBehind text = ⟨(textLines text).length, 1⟩ := by
    obtain ⟨first, more, hlines⟩ := textLines_of_lineEnd hlast hend
    rw [exactlyBehind, hlines, ← List.cons_append, List.getLastD_concat]
    rfl
  have hlength := length_splitLines text
  rw [isClosed_of_getLast? hlast, isLineBreak_of_lineEnd hend, if_pos rfl] at hlength
  rw [hbehind, hexact, hline]
  constructor
  · intro h
    obtain ⟨hnumber, hcolumn⟩ := Location.mk.inj h
    obtain rfl : line = [] := List.length_eq_zero_iff.1 (Nat.succ.inj hcolumn)
    exact ⟨by omega, rfl⟩
  · rintro ⟨hone, hempty⟩
    obtain rfl : line = [] := Option.some.inj hempty
    have hnumber : (splitLines text).length = (textLines text).length := by omega
    rw [hnumber]
    rfl

/-- Behind a separator the line is right only if there is no other one; then the column is not. -/
theorem behind_ne_of_separator (hc : isSeparator c = true) : behind text ≠ exactlyBehind text := by
  obtain ⟨line, hline, hbehind⟩ := exists_behind hlast
  obtain ⟨before, rfl⟩ := List.getLast?_eq_some_iff.1 hlast
  have hseparators : separators (before ++ [c]) = separators before + 1 := by
    rw [separators, List.countP_append, List.countP_singleton, if_pos hc]
    rfl
  have hbreak : isLineBreak c = true :=
    isSeparator_eq_isLineBreak (not_lineEnd_of_isSeparator hc) ▸ hc
  have hlength := length_splitLines (before ++ [c])
  rw [isClosed_of_getLast? hlast, if_pos hbreak] at hlength
  intro h
  obtain ⟨hnumber, hcolumn⟩ := Location.mk.inj (hbehind.symm.trans h)
  have hnone : separators before = 0 := by omega
  have hlines := (lines_append_separator hc hnone).2
  rw [hlines, extendLast, List.getLastD_concat, List.getLastD_eq_getLast?, hline,
    Option.getD_some, List.length_append, List.length_singleton] at hcolumn
  omega

theorem behind_eq_iff_of_plain (hc : isLineBreak c = false) :
    behind text = exactlyBehind text ↔ separators text = 0 := by
  obtain ⟨line, hline, hbehind⟩ := exists_behind hlast
  have hclosed : isClosed text = false := (isClosed_of_getLast? hlast).trans hc
  constructor
  · intro h
    obtain ⟨hnumber, -⟩ := Location.mk.inj (hbehind.symm.trans h)
    have hlength := length_splitLines text
    rw [hclosed, if_neg Bool.false_ne_true] at hlength
    omega
  · intro hnone
    have hlines := textLines_eq_splitLines hnone
    rw [hclosed, if_neg Bool.false_ne_true, List.append_nil] at hlines
    rw [hbehind, exactlyBehind, hlines, List.getLastD_eq_getLast?, hline]
    rfl

end

theorem behind_eq_iff (text : List Char) : behind text = exactlyBehind text ↔ Undisturbed text := by
  obtain rfl | ⟨before, c, htext⟩ := text.eq_nil_or_concat
  · exact iff_of_true rfl (.plain rfl nofun)
  have hlast : text.getLast? = some c := by
    rw [htext, List.concat_eq_append, List.getLast?_concat]
  have honly : ∀ d ∈ text.getLast?, d = c := fun d hd => Option.some.inj (hd.symm.trans hlast)
  by_cases hend : c = '\n' ∨ c = '\r'
  · rw [behind_eq_iff_of_lineEnd hlast hend]
    constructor
    · rintro ⟨hone, hempty⟩
      exact .compensated hone ⟨c, hlast, hend⟩ hempty
    · rintro (⟨-, hno⟩ | ⟨hone, -, hempty⟩)
      · exact absurd hend (hno c hlast)
      · exact ⟨hone, hempty⟩
  · have hundisturbed : Undisturbed text ↔ separators text = 0 := by
      constructor
      · rintro (⟨hnone, -⟩ | ⟨-, ⟨d, hd, hdend⟩, -⟩)
        · exact hnone
        · exact absurd (honly d hd ▸ hdend) hend
      · exact fun hnone => .plain hnone fun d hd => honly d hd ▸ hend
    rw [hundisturbed]
    cases hbreak : isLineBreak c with
    | false => exact behind_eq_iff_of_plain hlast hbreak
    | true =>
      have hc : isSeparator c = true := isSeparator_eq_isLineBreak hend ▸ hbreak
      have hsome : 0 < separators text := List.countP_pos_iff.2 ⟨c, List.mem_of_getLast? hlast, hc⟩
      exact iff_of_false (behind_ne_of_separator hlast hc) (by omega)

/-- **Locations are exact behind an undisturbed text, and nowhere else.** -/
theorem ofOffset_eq_exact_iff (text : List Char) (offset : Nat) :
    ofOffset text offset = exact text offset ↔ Undisturbed (text.take offset) :=
  behind_eq_iff _

end Location

end QueryDepth
