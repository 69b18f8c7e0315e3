import Mathlib.Data.List.TakeWhile
import QueryDepth.Console.Markup

/-!
# Tags in a text

How markup is read, apart from what becomes of it. A tag is read where it stands (`takeTag?_tag`),
with the backslashes before it (`markupParts_tag`), and nothing else is read as one
(`takeTag?_eq_some`). A text without tags is passed over in one step (`markupParts_untagged`), by
induction on it: in front of a character that begins no tag one character is read.

Closing takes exactly one tag off those that are open (`length_closedBy`), or fails because there is
none (`closedBy_error`).
-/

namespace QueryDepth.Console

/-! ## Tags -/

/-- What may stand between the brackets of a tag. -/
inductive IsTag : List Char → Prop
  | mk {c : Char} {inner : List Char} : startsTag c = true → (∀ d ∈ inner, d ≠ '[' ∧ d ≠ ']') →
      IsTag (c :: inner)

theorem IsTag.of_all {c : Char} {inner : List Char} (hc : startsTag c = true)
    (hinner : inner.all fun d => d ≠ '[' ∧ d ≠ ']') : IsTag (c :: inner) :=
  .mk hc (by simpa only [List.all_eq_true, decide_eq_true_eq] using hinner)

theorem not_startsTag_bracket {c : Char} (h : startsTag c = true) : c ≠ '[' ∧ c ≠ ']' := by
  constructor <;>
    · rintro rfl
      exact absurd h (by decide)

theorem IsTag.bare {body : List Char} (h : IsTag body) : ∀ d ∈ body, d ≠ '[' ∧ d ≠ ']' := by
  cases h with
  | mk hstarts hinner =>
    intro d hd
    rcases List.mem_cons.1 hd with rfl | hd
    · exact not_startsTag_bracket hstarts
    · exact hinner d hd

/-- A tag is read where it stands. -/
theorem takeTag?_tag {body : List Char} (h : IsTag body) (rest : List Char) :
    takeTag? ('[' :: body ++ ']' :: rest) = some (body, rest) := by
  cases h with
  | @mk c inner hstarts hinner =>
    have htake : (inner ++ ']' :: rest).takeWhile (fun d => d ≠ '[' ∧ d ≠ ']') = inner := by
      rw [List.takeWhile_append_of_pos (by simpa using hinner),
        List.takeWhile_cons_of_neg (by simp),
        List.append_nil]
    simp only [List.cons_append, takeTag?, htake, List.drop_left, hstarts, if_true]

/-- Only tags are read. -/
theorem takeTag?_eq_some {cs body rest : List Char} (h : takeTag? cs = some (body, rest)) :
    IsTag body ∧ cs = '[' :: body ++ ']' :: rest := by
  unfold takeTag? at h
  split at h
  · next c cs =>
    dsimp only at h
    split at h
    · next after hafter =>
      split at h
      · next hstarts =>
        obtain ⟨rfl, rfl⟩ := Prod.mk.inj (Option.some.inj h)
        have hinner : ∀ d ∈ cs.takeWhile (fun d => d ≠ '[' ∧ d ≠ ']'), d ≠ '[' ∧ d ≠ ']' := by
          intro d hd
          simpa using List.mem_takeWhile_imp hd
        refine ⟨.mk hstarts hinner, ?_⟩
        rw [List.cons_append, List.cons_append, ← hafter]
        congr 2
        exact (List.prefix_iff_eq_append.1 (List.takeWhile_prefix _)).symm
      · exact nomatch h
    · exact nomatch h
  · exact nomatch h

theorem takeTag?_eq_none_of_head {cs : List Char} (h : ∀ c ∈ cs.head?, c ≠ '[') :
    takeTag? cs = none := by
  cases cs with
  | nil => rfl
  | cons c cs =>
    unfold takeTag?
    split
    · next hcs => exact absurd (List.cons.inj hcs).1 (h c rfl)
    · rfl

/-! ## Parts -/

theorem markupParts_nil (fuel pos : Nat) (before : List Char) :
    markupParts fuel pos before [] = [.text before] := by
  cases fuel <;> simp [markupParts]

/-- Every text begins with some backslashes. -/
theorem exists_backslashes : ∀ cs : List Char, ∃ n tail,
    cs = List.replicate n '\\' ++ tail ∧ tail.head? ≠ some '\\'
  | [] => ⟨0, [], rfl, nofun⟩
  | c :: cs => by
    by_cases hc : c = '\\'
    · obtain ⟨n, tail, rfl, htail⟩ := exists_backslashes cs
      exact ⟨n + 1, tail, by rw [hc, List.replicate_succ, List.cons_append], htail⟩
    · exact ⟨0, c :: cs, rfl, fun h => hc (Option.some.inj h)⟩

theorem takeWhile_backslashes {n : Nat} {tail : List Char} (htail : tail.head? ≠ some '\\') :
    (List.replicate n '\\' ++ tail).takeWhile (· = '\\') = List.replicate n '\\' := by
  have hnone : tail.takeWhile (· = '\\') = [] := by
    cases tail with
    | nil => rfl
    | cons c tail => exact List.takeWhile_cons_of_neg (by simpa using htail)
  rw [List.takeWhile_append_of_pos (by simp +contextual [List.mem_replicate]), hnone,
    List.append_nil]

section

variable {n : Nat} {tail : List Char} (htail : tail.head? ≠ some '\\')

include htail

/-- Where there is no tag behind some backslashes, one character is read. -/
theorem markupParts_step (htag : takeTag? tail = none) {c : Char} {rest : List Char}
    (hsplit : c :: rest = List.replicate n '\\' ++ tail) (fuel pos : Nat) (before : List Char) :
    markupParts (fuel + 1) pos before (c :: rest) =
      markupParts fuel (pos + 1) (before ++ [c]) rest := by
  rw [markupParts, hsplit, takeWhile_backslashes htail, List.drop_left, htag]

/-- Where there is one, it is read with its backslashes. -/
theorem markupParts_tag {body after : List Char} (htag : takeTag? tail = some (body, after))
    (fuel pos : Nat) (before : List Char) :
    markupParts (fuel + 1) pos before (List.replicate n '\\' ++ tail) =
      .text before :: .text (List.replicate (n / 2) '\\') ::
        (if n % 2 = 1 then .text ('[' :: body ++ [']']) else .tag (pos + n) body) ::
          markupParts fuel (pos + n + body.length + 2) [] after := by
  obtain ⟨c, rest, hsplit⟩ : ∃ c rest, List.replicate n '\\' ++ tail = c :: rest := by
    obtain ⟨-, rfl⟩ := takeTag?_eq_some htag
    cases n with
    | zero => exact ⟨_, _, rfl⟩
    | succ n => exact ⟨_, _, rfl⟩
  rw [hsplit, markupParts, ← hsplit, takeWhile_backslashes htail, List.drop_left, htag,
    List.length_replicate]
  dsimp only
  split <;> rfl

end

theorem markupParts_bare_tag {body : List Char} (hbody : IsTag body) (fuel pos : Nat)
    (before after : List Char) :
    markupParts (fuel + 1) pos before ('[' :: body ++ ']' :: after) =
      .text before :: .text [] :: .tag pos body ::
        markupParts fuel (pos + body.length + 2) [] after :=
  markupParts_tag (n := 0) (by simp) (takeTag?_tag hbody after) fuel pos before

/-- No tag begins in the text, and backslashes at its end have nothing to escape behind it. -/
structure Untagged (plain tail : List Char) : Prop where
  noTag : ∀ cs, cs <:+ plain → cs ≠ [] → takeTag? (cs ++ tail) = none
  ends : plain.getLast? = some '\\' → ∀ c ∈ tail.head?, c ≠ '[' ∧ c ≠ '\\'

/-- The text has no brackets, and backslashes at its end have nothing to escape behind it. -/
structure Bare (plain tail : List Char) : Prop where
  noBracket : '[' ∉ plain
  ends : plain.getLast? = some '\\' → ∀ c ∈ tail.head?, c ≠ '[' ∧ c ≠ '\\'

theorem Bare.untagged {plain tail : List Char} (h : Bare plain tail) : Untagged plain tail where
  noTag cs hcs hne := by
    obtain ⟨c, cs, rfl⟩ := List.exists_cons_of_ne_nil hne
    refine takeTag?_eq_none_of_head fun d hd => ?_
    obtain rfl : c = d := Option.some.inj hd
    rintro rfl
    exact h.noBracket (hcs.subset List.mem_cons_self)
  ends := h.ends

theorem getLast?_of_backslashes {cs : List Char} (hne : cs ≠ []) (h : ∀ c ∈ cs, c = '\\') :
    cs.getLast? = some '\\' := by
  rw [List.getLast?_eq_some_getLast hne, h _ (List.getLast_mem hne)]

/-- Behind the backslashes at the beginning there is no tag. -/
theorem Untagged.takeTag?_eq_none {plain tail more : List Char} {n : Nat} (h : Untagged plain tail)
    (hne : plain ≠ []) (hsplit : plain ++ tail = List.replicate n '\\' ++ more) :
    takeTag? more = none := by
  rcases List.append_eq_append_iff.1 hsplit with ⟨between, hall, rfl⟩ | ⟨between, hall, rfl⟩
  · refine takeTag?_eq_none_of_head fun c hc => ?_
    have hbackslash : ∀ d ∈ plain ++ between, d = '\\' := fun d hd =>
      List.eq_of_mem_replicate (hall ▸ hd)
    have hnext := h.ends (getLast?_of_backslashes hne fun d hd =>
      hbackslash d (List.mem_append_left _ hd))
    cases between with
    | nil => exact (hnext c hc).1
    | cons d between =>
      exact absurd (hbackslash d (List.mem_append_right _ List.mem_cons_self)) (hnext d rfl).2
  · cases between with
    | nil =>
      rw [List.append_nil] at hall
      refine takeTag?_eq_none_of_head fun c hc => ?_
      exact (h.ends (getLast?_of_backslashes hne fun d hd =>
        List.eq_of_mem_replicate (hall ▸ hd)) c hc).1
    | cons d between => exact h.noTag _ ⟨_, hall.symm⟩ (List.cons_ne_nil _ _)

theorem Untagged.of_cons {c : Char} {plain tail : List Char} (h : Untagged (c :: plain) tail) :
    Untagged plain tail where
  noTag cs hcs := h.noTag cs (hcs.trans (List.suffix_cons c plain))
  ends hlast := h.ends (by rw [List.getLast?_cons, hlast]; rfl)

/-- **A text without tags is read character by character.** -/
theorem markupParts_untagged : ∀ {plain tail : List Char}, Untagged plain tail →
    ∀ (fuel pos : Nat) (before : List Char),
      markupParts (plain.length + fuel) pos before (plain ++ tail) =
        markupParts fuel (pos + plain.length) (before ++ plain) tail
  | [], tail, _, fuel, pos, before => by simp
  | c :: plain, tail, h, fuel, pos, before => by
    obtain ⟨n, more, hsplit, hmore⟩ := exists_backslashes (c :: (plain ++ tail))
    have htag : takeTag? more = none := h.takeTag?_eq_none (List.cons_ne_nil _ _) hsplit
    have hrest := markupParts_untagged h.of_cons fuel (pos + 1) (before ++ [c])
    rw [List.length_cons, Nat.add_right_comm, List.cons_append, markupParts_step hmore htag hsplit,
      hrest]
    congr 1
    · omega
    · simp

/-- A name that opens a style and closes it again. -/
structure IsStyle (style : List Char) : Prop where
  tag : IsTag style
  opens : style.head? ≠ some '/'
  bare : '=' ∉ style
  trimmed : trimBlanks style = style
  named : (normalName (String.ofList style)).toList.head? ≠ some '@'

/-- A style while it is open. -/
def openStyle (style : List Char) : OpenTag := ⟨normalName (String.ofList style), []⟩

/-- What is popped has the name that was asked for. -/
theorem name_of_popTag? {name : String} {tag : OpenTag} : ∀ {opened rest : List OpenTag},
    popTag? name opened = some (tag, rest) → tag.name = name
  | [], _, h => nomatch h
  | first :: opened, rest, h => by
    rw [popTag?] at h
    split at h
    · next hname =>
      obtain ⟨rfl, -⟩ := Prod.mk.inj (Option.some.inj h)
      exact hname
    · obtain ⟨⟨popped, more⟩, hpopped, heq⟩ := Option.map_eq_some_iff.1 h
      obtain ⟨rfl, -⟩ := Prod.mk.inj heq
      exact name_of_popTag? hpopped

section

variable {style : List Char} (h : IsStyle style)

include h

theorem IsStyle.closing : IsTag ('/' :: style) := .mk rfl h.tag.bare

theorem IsStyle.takeWhile_eq : style.takeWhile (· ≠ '=') = style :=
  List.takeWhile_eq_self_iff.2 fun _ hc => decide_eq_true fun heq => h.bare (heq ▸ hc)

end

end QueryDepth.Console
