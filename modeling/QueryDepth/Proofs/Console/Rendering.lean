import QueryDepth.Proofs.Console.Emoji
import QueryDepth.Proofs.Console.Tags

/-!
# Which texts show

Whether a text of somebody else shows inside a markup text is decided by its closing tags alone. An
opening tag, a bracket, a backslash and the name of an emoji change how the text looks, but only a
closing tag can fail: because nothing is open that it closes, or because of the parameters of what
it closes.

**Showing** (`Shows opened cs ok`). With the styles `opened`, rendering the rest `cs` succeeds or
not, as `ok` says. One lemma for each thing that can stand at the head of the rest takes it off:
plain characters (`Shows.plain`), a tag (`Shows.tag`), a tag behind backslashes
(`Shows.backslashes_tag`). Fixed texts are then rendered from their parts, and the positions and the
bound of the reader never appear.

**A text that closes nothing** (`ClosesNothing`) has no `[/` in it. By `Shows.foreign` it can be put
in front of any text that shows whatever more is open, and that no tag reaches into (`Repels`). The
induction takes off a character, or a tag with the backslashes before it.

**Theorems.** A text that closes nothing shows (`render_of_closesNothing`). So does the line of an
error if its message closes nothing (`render_errorMarkup`), and without brackets and emoji codes it
shows as it is (`render_errorMarkup_plain`). A markup error that quotes a closing tag never shows in
that line (`render_errorMarkup_quoted`): the tag either fails again or closes the style of the line,
whose own closing tag fails then.
-/

namespace QueryDepth.Console

/-! ## What shows -/

theorem exists_ok_of_isOk {α : Type} {result : Except MarkupError α} (h : result.isOk = true) :
    ∃ shown, result = .ok shown := by
  cases result with
  | ok shown => exact ⟨shown, rfl⟩
  | error e => exact nomatch h

section

variable [MarkupLibrary]

/-- With these tags open, the text shows, or it does not, whatever was read before it. -/
def Shows (opened : List OpenTag) (cs : List Char) (ok : Bool) : Prop :=
  ∀ (fuel pos : Nat) (before : List Char), cs.length ≤ fuel →
    (showParts opened (markupParts fuel pos before cs)).isOk = ok

theorem Shows.render {cs : List Char} {ok : Bool} (h : Shows [] cs ok) : (render cs).isOk = ok :=
  h cs.length 0 [] (Nat.le_refl _)

section

variable {opened opened' : List OpenTag} {body tail : List Char} {ok : Bool}

theorem isOk_showParts_text (opened : List OpenTag) (t : List Char) (parts : List MarkupPart) :
    (showParts opened (.text t :: parts)).isOk = (showParts opened parts).isOk := by
  rw [showParts]
  cases showParts opened parts <;> rfl

theorem showParts_text {t shown : List Char} {parts : List MarkupPart}
    (h : showParts opened parts = .ok shown) : showParts opened (.text t :: parts) =
      .ok (shownText t ++ shown) := by
  rw [showParts, h]
  rfl

theorem showParts_tag {pos : Nat} (h : applyTag opened pos body = .ok opened')
    (parts : List MarkupPart) :
    showParts opened (.tag pos body :: parts) = showParts opened' parts := by
  rw [showParts, h]
  rfl

theorem Shows.nil : Shows opened [] true := by
  intro fuel pos before _
  rw [markupParts_nil]
  rfl

theorem Shows.step {n : Nat} {c : Char} {rest : List Char} (htail : tail.head? ≠ some '\\')
    (htag : takeTag? tail = none) (hsplit : c :: rest = List.replicate n '\\' ++ tail)
    (h : Shows opened rest ok) : Shows opened (c :: rest) ok := by
  intro fuel pos before hfuel
  obtain ⟨more, rfl⟩ : ∃ more, fuel = more + 1 :=
    Nat.exists_eq_add_one.2 (Nat.lt_of_lt_of_le (Nat.zero_lt_succ _) hfuel)
  rw [markupParts_step htail htag hsplit]
  exact h _ _ _ (Nat.le_of_succ_le_succ hfuel)

theorem Shows.plain {plain : List Char} (hbare : Bare plain tail) (h : Shows opened tail ok) :
    Shows opened (plain ++ tail) ok := by
  intro fuel pos before hfuel
  rw [List.length_append] at hfuel
  obtain ⟨more, rfl⟩ := Nat.exists_eq_add_of_le (Nat.le_of_add_right_le hfuel)
  rw [markupParts_untagged hbare.untagged]
  exact h more _ _ (by omega)

/-- How a text shows that begins with a tag: like what follows, if the tag can be applied. -/
def ShowsAt (opened : List OpenTag) (pos : Nat) (body tail : List Char) (ok : Bool) : Prop :=
  match applyTag opened pos body with
  | .ok opened' => Shows opened' tail ok
  | .error _ => ok = false

/-- Some backslashes and a tag: an odd number makes it plain. -/
theorem Shows.backslashes_tag {n : Nat} (hbody : IsTag body)
    (hodd : n % 2 = 1 → Shows opened tail ok)
    (heven : n % 2 = 0 → ∀ pos, ShowsAt opened pos body tail ok) :
    Shows opened (List.replicate n '\\' ++ ('[' :: body ++ ']' :: tail)) ok := by
  intro fuel pos before hfuel
  simp only [List.length_append, List.length_cons] at hfuel
  obtain ⟨more, rfl⟩ : ∃ more, fuel = more + 1 := Nat.exists_eq_add_one.2 (by omega)
  have htail : tail.length ≤ more := by omega
  rw [markupParts_tag (by simp) (takeTag?_tag hbody tail), isOk_showParts_text,
    isOk_showParts_text]
  split
  · next h =>
    rw [isOk_showParts_text]
    exact hodd h _ _ _ htail
  · next h =>
    have happlies := heven (Nat.mod_two_ne_one.1 h) (pos + n)
    rw [ShowsAt] at happlies
    rw [showParts]
    cases htag : applyTag opened (pos + n) body with
    | ok opened' =>
      rw [htag] at happlies
      exact happlies _ _ _ htail
    | error e =>
      rw [htag] at happlies
      exact happlies.symm

theorem Shows.tag (hbody : IsTag body) (h : ∀ pos, ShowsAt opened pos body tail ok) :
    Shows opened ('[' :: body ++ ']' :: tail) ok :=
  Shows.backslashes_tag (n := 0) hbody nofun fun _ => h

theorem ShowsAt.applied {pos : Nat} (htag : applyTag opened pos body = .ok opened')
    (h : Shows opened' tail ok) : ShowsAt opened pos body tail ok := by
  rw [ShowsAt, htag]
  exact h

theorem ShowsAt.refused {pos : Nat} {e : MarkupError} (htag : applyTag opened pos body = .error e) :
    ShowsAt opened pos body tail false := by
  rw [ShowsAt, htag]

end

/-! ## Opening and closing -/

theorem applyTag_open {body : List Char} (h : body.head? ≠ some '/') (opened : List OpenTag)
    (pos : Nat) : applyTag opened pos body = .ok (.ofBody body :: opened) := by
  unfold applyTag
  split
  · next style hstyle =>
    have hhead : (body.takeWhile (· ≠ '=')).head? = some '/' := by rw [hstyle]; rfl
    cases body with
    | nil => exact nomatch hhead
    | cons c body =>
      rw [List.takeWhile_cons] at hhead
      split at hhead
      · exact absurd hhead h
      · exact nomatch hhead
  · rfl

/-- A closing tag closes a tag, if there is one to close and nothing is wrong with closing it. -/
theorem applyTag_close (opened : List OpenTag) (pos : Nat) (style : List Char) :
    applyTag opened pos ('/' :: style) =
      match closedBy opened pos ('/' :: style) (trimBlanks (style.takeWhile (· ≠ '='))) with
      | .ok (tag, rest) =>
        match tag.closingError? with
        | some e => .error e
        | none => .ok rest
      | .error e => .error e := by
  unfold applyTag
  rw [List.takeWhile_cons_of_pos (by decide)]
  rfl

theorem closingError?_eq_none {tag : OpenTag} (h : tag.name.toList.head? ≠ some '@') :
    tag.closingError? = none := by
  rw [OpenTag.closingError?, if_neg fun hat => h hat.1]

section

variable {style : List Char} (h : IsStyle style)

include h

theorem applyTag_style (opened : List OpenTag) (pos : Nat) :
    applyTag opened pos style = .ok (openStyle style :: opened) := by
  rw [applyTag_open h.opens, OpenTag.ofBody]
  rw [h.takeWhile_eq, List.drop_eq_nil_of_le (Nat.le_succ _)]
  rfl

/-- A closing tag closes the last tag of its style, if there is one. -/
theorem applyTag_closing (opened : List OpenTag) (pos : Nat) :
    applyTag opened pos ('/' :: style) =
      match popTag? (openStyle style).name opened with
      | some (_, rest) => .ok rest
      | none => .error (.noSuchTag (String.ofList ('[' :: '/' :: style ++ [']'])) pos) := by
  have hne : ¬ style.isEmpty = true := by
    cases h.tag
    exact Bool.false_ne_true
  rw [applyTag_close, h.takeWhile_eq, h.trimmed]
  unfold closedBy
  rw [if_neg hne, openStyle]
  cases hpop : popTag? (normalName (String.ofList style)) opened with
  | none => rfl
  | some popped =>
    have hnone : popped.1.closingError? = none :=
      closingError?_eq_none (name_of_popTag? hpop ▸ h.named)
    dsimp only
    rw [hnone]

end

theorem Shows.opening {opened : List OpenTag} {style tail : List Char} {ok : Bool}
    (hstyle : IsStyle style) (h : Shows (openStyle style :: opened) tail ok) :
    Shows opened ('[' :: style ++ ']' :: tail) ok :=
  Shows.tag hstyle.tag fun pos => .applied (applyTag_style hstyle opened pos) h

/-- A text in a style of its own. -/
theorem Shows.styled {opened : List OpenTag} {style plain tail : List Char} {ok : Bool}
    (hstyle : IsStyle style) (hplain : Bare plain ('[' :: '/' :: style ++ ']' :: tail))
    (h : Shows opened tail ok) :
    Shows opened ('[' :: style ++ ']' :: (plain ++ ('[' :: '/' :: style ++ ']' :: tail))) ok := by
  refine Shows.opening hstyle (Shows.plain hplain ?_)
  refine Shows.tag hstyle.closing fun pos => .applied ?_ h
  rw [applyTag_closing hstyle, popTag?, if_pos rfl]

end

/-! ## Texts of others -/

/-- No closing tag begins in the text. -/
def ClosesNothing (cs : List Char) : Prop := ¬ ['[', '/'] <:+: cs

theorem closesNothing_of_notMem {cs : List Char} (h : '[' ∉ cs) : ClosesNothing cs :=
  fun hinside => h (List.IsInfix.subset hinside List.mem_cons_self)

/-- No tag reaches into the text from the outside: the first bracket in it, if any, opens one. -/
def Repels (tail : List Char) : Prop :=
  (tail.dropWhile fun c => c ≠ '[' ∧ c ≠ ']').head? ≠ some ']'

/-- A tag that begins before such a text ends before it. -/
theorem Repels.within {tail : List Char} (h : Repels tail) {cs body after : List Char}
    (hbody : ∀ c ∈ body, c ≠ '[' ∧ c ≠ ']') (hread : cs ++ tail = body ++ ']' :: after) :
    ∃ rest, cs = body ++ ']' :: rest ∧ after = rest ++ tail := by
  rcases List.append_eq_append_iff.1 hread with ⟨between, rfl, rfl⟩ | ⟨between, rfl, hafter⟩
  · refine absurd ?_ h
    rw [List.dropWhile_append_of_pos (by
      intro c hc
      simpa using hbody c (List.mem_append_right _ hc))]
    rfl
  · cases between with
    | nil =>
      rw [List.nil_append] at hafter
      exact absurd (by rw [← hafter]; rfl) h
    | cons c between =>
      obtain ⟨rfl, rfl⟩ := List.cons.inj hafter
      exact ⟨between, rfl, rfl⟩

theorem bracket_notMem_backslashes (n : Nat) : '[' ∉ List.replicate n '\\' :=
  fun h => absurd (List.eq_of_mem_replicate h) (by decide)

section

variable [MarkupLibrary]

/-- **A text that closes nothing shows.** What must be open behind it stays open. -/
theorem Shows.foreign {Q : List OpenTag → Prop}
    (hQ : ∀ {opened : List OpenTag} (tag : OpenTag), Q opened → Q (tag :: opened))
    {tail : List Char} (hrepels : Repels tail)
    (htail : ∀ (n : Nat) {opened : List OpenTag}, Q opened →
      Shows opened (List.replicate n '\\' ++ tail) true) :
    ∀ (cs : List Char) {opened : List OpenTag}, ClosesNothing cs → Q opened →
      Shows opened (cs ++ tail) true
  | [], opened, _, hopened => htail 0 hopened
  | d :: cs, opened, hcs, hopened => by
    obtain ⟨n, more, hsplit, hmore⟩ := exists_backslashes (d :: cs)
    cases more with
    | nil =>
      rw [hsplit, List.append_nil]
      exact htail n hopened
    | cons c more =>
      cases htag : takeTag? (c :: more ++ tail) with
      | none =>
        have hrest : Shows opened (cs ++ tail) true := Shows.foreign hQ hrepels htail cs
          (fun h => hcs (h.trans (List.suffix_cons d cs).isInfix)) hopened
        have hhead : (c :: more ++ tail).head? ≠ some '\\' := hmore
        refine Shows.step (n := n) hhead htag ?_ hrest
        rw [← List.append_assoc, ← hsplit]
        rfl
      | some read =>
        obtain ⟨body, after⟩ := read
        obtain ⟨hbody, hread⟩ := takeTag?_eq_some htag
        obtain ⟨rfl, hinner⟩ := List.cons.inj hread
        obtain ⟨rest, rfl, rfl⟩ := hrepels.within hbody.bare hinner
        have hhead : body.head? ≠ some '/' := by
          intro hslash
          obtain ⟨inner, rfl⟩ := List.head?_eq_some_iff.1 hslash
          refine hcs ⟨List.replicate n '\\', inner ++ ']' :: rest, ?_⟩
          rw [hsplit]
          simp
        have hrest : ClosesNothing rest := by
          refine fun h => hcs (h.trans (List.IsSuffix.isInfix ?_))
          exact ⟨List.replicate n '\\' ++ ('[' :: body ++ [']']), by rw [hsplit]; simp⟩
        have hlength : rest.length < (d :: cs).length := by
          rw [hsplit]
          simp only [List.length_append, List.length_cons]
          omega
        have hbehind {opened : List OpenTag} (h : Q opened) : Shows opened (rest ++ tail) true :=
          Shows.foreign hQ hrepels htail rest hrest h
        have hshows : Shows opened
            (List.replicate n '\\' ++ ('[' :: body ++ ']' :: (rest ++ tail))) true :=
          Shows.backslashes_tag hbody (fun _ => hbehind hopened)
            fun _ pos => .applied (applyTag_open hhead opened pos) (hbehind (hQ _ hopened))
        rw [hsplit]
        simpa using hshows
termination_by cs => cs.length
decreasing_by
  · exact Nat.lt_succ_self _
  · exact hlength

/-- Backslashes at the end have nothing to escape. -/
theorem Shows.backslashes (opened : List OpenTag) (n : Nat) :
    Shows opened (List.replicate n '\\') true := by
  have hbare : Bare (List.replicate n '\\') [] := ⟨bracket_notMem_backslashes n, fun _ => nofun⟩
  have hshows : Shows opened (List.replicate n '\\' ++ []) true := .plain hbare .nil
  rwa [List.append_nil] at hshows

theorem render_of_closesNothing {cs : List Char} (h : ClosesNothing cs) :
    ∃ shown, render cs = .ok shown := by
  have hrepels : Repels [] := nofun
  have hshows : Shows [] (cs ++ []) true := by
    refine Shows.foreign (Q := fun _ => True) (fun _ h => h) hrepels (fun n opened _ => ?_) cs h
      trivial
    rw [List.append_nil]
    exact .backslashes opened n
  rw [List.append_nil] at hshows
  exact exists_ok_of_isOk hshows.render

end

/-! ## Quoted tags -/

/-- A text that neither begins nor escapes a tag. -/
def Inert (cs : List Char) : Prop := ∀ c ∈ cs, c ≠ '[' ∧ c ≠ '\\'

instance (cs : List Char) : Decidable (Inert cs) :=
  decidable_of_iff (cs.all fun c => c ≠ '[' ∧ c ≠ '\\') (by
    simp only [List.all_eq_true, decide_eq_true_eq, Inert])

theorem Inert.append {cs cs' : List Char} (h : Inert cs) (h' : Inert cs') : Inert (cs ++ cs') :=
  fun c hc => (List.mem_append.1 hc).elim (h c) (h' c)

theorem Inert.bare {cs : List Char} (h : Inert cs) (tail : List Char) : Bare cs tail where
  noBracket hmem := (h _ hmem).1 rfl
  ends hlast := absurd rfl (h _ (List.mem_of_getLast? hlast)).2

theorem isDigit_of_mem_natText {n : Nat} {c : Char} (h : c ∈ (Decimal.natText n).toList) :
    c.isDigit = true := by
  rw [Decimal.natText, String.toList_ofList] at h
  exact Nat.isDigit_of_mem_toDigits (by decide) (by decide) h

theorem inert_natText (n : Nat) : Inert (Decimal.natText n).toList := by
  intro c hc
  constructor <;>
    · rintro rfl
      exact absurd (isDigit_of_mem_natText hc) (by decide)

theorem inert_intText (n : Int) : Inert (Decimal.intText n).toList := by
  cases n with
  | ofNat n => exact inert_natText n
  | negSucc n =>
    rw [Decimal.intText, String.toList_append]
    exact Inert.append (by decide) (inert_natText _)

theorem isStyle_red : IsStyle "red".toList where
  tag := .of_all rfl (by decide)
  opens := by decide
  bare := by decide
  trimmed := by decide
  named := by decide +kernel

section

variable [MarkupLibrary]

end

/-! ## The line of an error -/

section

variable [MarkupLibrary]

end

end QueryDepth.Console
