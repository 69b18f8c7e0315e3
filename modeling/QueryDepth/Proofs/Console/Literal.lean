import Mathlib.Data.List.Infix
import QueryDepth.Proofs.Console.Printing
import QueryDepth.Proofs.Console.Wrapping

/-!
# Messages that are printed in full

The message of a finding is put into markup as it is, so what looks like a tag in it is taken for a
tag and does not show: of `Int cannot represent non-integer value: [b]` the last word is missing.

**Theorem (`Report.printed_literal`).** If all messages are `Literal`, a report that is printed on
the console ends with them, in order, each with its places, but for blanks.

A literal message is read character by character to the end (`prints_literal`), so that the line of
its finding shows it in full (`render_literal`). Wrapping does not lose anything, because words of
the message begin with characters that take columns.

`Prints` says what a text shows, with what was read since the last tag. There is a rule for plain
characters, for a tag and for the end. What was read must stand for itself (`Verbatim`): then it
shows as it is, whatever emoji the library knows.
-/

namespace QueryDepth

open Console Text

namespace Console

/-! ## What a text shows -/

/-- What shows of a plain text. -/
def visible (cs : List Char) : List Char := cs.filter fun c => !isSilent c

/-- No bracket stands behind a backslash. -/
def EscapesNothing (cs : List Char) : Prop := cs.IsChain fun b c => b = '\\' → c ≠ '['

instance (cs : List Char) : Decidable (EscapesNothing cs) := by
  unfold EscapesNothing
  infer_instance

theorem unescapeBrackets_of_escapesNothing : ∀ {cs : List Char}, EscapesNothing cs →
    unescapeBrackets cs = cs
  | [], _ => rfl
  | c :: cs, h => by
    have hrest : unescapeBrackets cs = cs := unescapeBrackets_of_escapesNothing h.tail
    unfold unescapeBrackets
    split
    · next hcs =>
      rw [hcs] at h
      exact absurd rfl (h.rel_head? rfl rfl)
    · next hcs =>
      obtain ⟨rfl, rfl⟩ := List.cons.inj hcs
      rw [hrest]
    · next hcs => exact nomatch hcs

theorem escapesNothing_of_notMem : ∀ {cs : List Char}, '[' ∉ cs → EscapesNothing cs
  | [], _ => .nil
  | c :: cs, h => by
    have hcs : '[' ∉ cs := fun hmem => h (List.mem_cons_of_mem _ hmem)
    refine List.IsChain.cons (escapesNothing_of_notMem hcs) fun d hd _ => ?_
    rintro rfl
    exact hcs (List.mem_of_head? hd)

/-- The text stands for itself: it has no bracket behind a backslash and no emoji code. -/
structure Verbatim (cs : List Char) : Prop where
  escapes : EscapesNothing cs
  codes : Uncoded cs

theorem Verbatim.nil : Verbatim [] := ⟨.nil, uncoded_of_count (Nat.zero_le 1)⟩

theorem Inert.verbatim {cs : List Char} (h : Inert cs) (hcodes : Uncoded cs) : Verbatim cs where
  escapes := escapesNothing_of_notMem fun hmem => (h _ hmem).1 rfl
  codes := hcodes

section

variable [MarkupLibrary]

theorem Verbatim.shownText_eq {cs : List Char} (h : Verbatim cs) : shownText cs = visible cs := by
  rw [shownText, unescapeBrackets_of_escapesNothing h.escapes, replaceCodes_eq_drop 0 h.codes]
  rfl

/-- With these tags open, this is what shows of some text behind another that was read. -/
def Prints (opened : List OpenTag) (before cs shown : List Char) : Prop :=
  ∀ fuel pos, cs.length ≤ fuel → showParts opened (markupParts fuel pos before cs) = .ok shown

theorem Prints.render {cs shown : List Char} (h : Prints [] [] cs shown) :
    render cs = .ok shown :=
  h cs.length 0 (Nat.le_refl _)

section

variable {opened opened' : List OpenTag} {before plain tail shown body style : List Char}

theorem Prints.nil (h : Verbatim before) : Prints opened before [] (visible before) := by
  intro fuel pos _
  have hend : showParts opened [] = .ok [] := rfl
  rw [markupParts_nil, showParts_text hend, h.shownText_eq, List.append_nil]

theorem Prints.read (hplain : Untagged plain tail)
    (h : Prints opened (before ++ plain) tail shown) :
    Prints opened before (plain ++ tail) shown := by
  intro fuel pos hfuel
  rw [List.length_append] at hfuel
  obtain ⟨more, rfl⟩ := Nat.exists_eq_add_of_le (Nat.le_of_add_right_le hfuel)
  rw [markupParts_untagged hplain]
  exact h more _ (by omega)

theorem Prints.tag (hbefore : Verbatim before) (hbody : IsTag body)
    (happly : ∀ pos, applyTag opened pos body = .ok opened') (h : Prints opened' [] tail shown) :
    Prints opened before ('[' :: body ++ ']' :: tail) (visible before ++ shown) := by
  intro fuel pos hfuel
  simp only [List.cons_append, List.length_append, List.length_cons] at hfuel
  obtain ⟨more, rfl⟩ : ∃ more, fuel = more + 1 := Nat.exists_eq_add_one.2 (by omega)
  have hbehind : showParts opened (.text [] :: .tag pos body ::
      markupParts more (pos + body.length + 2) [] tail) = .ok shown :=
    showParts_text ((showParts_tag (happly pos) _).trans (h more _ (by omega)))
  rw [markupParts_bare_tag hbody, showParts_text hbehind, hbefore.shownText_eq]

/-- A text in a style of its own. -/
theorem Prints.styled (hbefore : Verbatim before) (hstyle : IsStyle style) (hplain : Inert plain)
    (hcodes : Uncoded plain) (h : Prints opened [] tail shown) :
    Prints opened before ('[' :: style ++ ']' :: (plain ++ ('[' :: '/' :: style ++ ']' :: tail)))
      (visible before ++ (visible plain ++ shown)) := by
  refine Prints.tag hbefore hstyle.tag (applyTag_style hstyle opened) ?_
  refine Prints.read (hplain.bare _).untagged
    (Prints.tag (hplain.verbatim hcodes) hstyle.closing ?_ h)
  intro pos
  rw [applyTag_closing hstyle, popTag?, if_pos rfl]

end

end

/-! ## Literal messages -/

/-- A message that stands for itself on the console: it has no tag and nothing that escapes one, no
emoji code, no control character that is not blank, and every word in it takes a column at once. -/
structure Literal (message : List Char) : Prop where
  noTag : ∀ cs, cs <:+ message → takeTag? cs = none
  noEscape : EscapesNothing message
  noEmoji : ∀ cs, cs <:+: message → ¬ IsEmojiCode cs
  noControl : ∀ c ∈ message, isSilent c = true → isBlank c = true
  spaced : WellSpaced (' ' :: message)

/-- Behind a text without tags no tag reaches into it. -/
theorem takeTag?_append {cs tail : List Char} (hne : cs ≠ []) (h : takeTag? cs = none)
    (hrepels : Repels tail) : takeTag? (cs ++ tail) = none := by
  cases htag : takeTag? (cs ++ tail) with
  | none => rfl
  | some read =>
    obtain ⟨body, after⟩ := read
    obtain ⟨hbody, hread⟩ := takeTag?_eq_some htag
    obtain ⟨c, cs, rfl⟩ := List.exists_cons_of_ne_nil hne
    obtain ⟨rfl, hinner⟩ := List.cons.inj hread
    obtain ⟨rest, rfl, -⟩ := hrepels.within hbody.bare hinner
    rw [← List.cons_append, takeTag?_tag hbody] at h
    exact nomatch h

/-- What stands behind a message has no brackets or backslashes at its beginning. -/
theorem Literal.untagged {message tail : List Char} (h : Literal message) (hrepels : Repels tail)
    (hhead : ∀ c ∈ tail.head?, c ≠ '[' ∧ c ≠ '\\') : Untagged (' ' :: message) tail where
  noTag cs hcs hne := by
    rcases List.suffix_cons_iff.1 hcs with rfl | hcs
    · exact takeTag?_eq_none_of_head fun c hc => by
        obtain rfl : ' ' = c := Option.some.inj hc
        decide
    · exact takeTag?_append hne (h.noTag cs hcs) hrepels
  ends _ := hhead

theorem Literal.verbatim_cons {message : List Char} (h : Literal message) :
    Verbatim (' ' :: message) where
  escapes := h.noEscape.cons fun _ _ hspace => absurd hspace (by decide)
  codes := Uncoded.append_blank (by decide) Verbatim.nil.codes h.noEmoji

/-- Characters that do not show and are blank may be left out between words. -/
theorem wellSpaced_visible : ∀ {b : Char} {cs : List Char}, WellSpaced (b :: cs) →
    (∀ c ∈ cs, isSilent c = true → isBlank c = true) → WellSpaced (b :: visible cs)
  | _, [], _, _ => .singleton _
  | b, c :: cs, h, hsilent => by
    obtain ⟨hc, hcs⟩ := List.forall_mem_cons.1 hsilent
    have hbehind : WellSpaced (c :: visible cs) := wellSpaced_visible h.tail hcs
    have hfirst := h.rel_head? (y := c) rfl
    by_cases hshows : isSilent c = true
    · have hvisible : visible (c :: cs) = visible cs := by simp [visible, hshows]
      rw [hvisible]
      exact hbehind.imp_head fun hrel _ => hrel (hc hshows)
    · have hvisible : visible (c :: cs) = c :: visible cs := by simp [visible, hshows]
      rw [hvisible]
      exact hbehind.cons fun d hd => (Option.some.inj hd) ▸ hfirst

theorem condensed_visible {cs : List Char} (h : ∀ c ∈ cs, isSilent c = true → isBlank c = true) :
    condensed (visible cs) = condensed cs := by
  rw [condensed, visible, List.filter_filter, condensed]
  refine List.filter_congr fun c hc => ?_
  cases hsilent : isSilent c with
  | false => simp
  | true => simp [h c hc hsilent]

theorem visible_append (cs cs' : List Char) : visible (cs ++ cs') = visible cs ++ visible cs' :=
  List.filter_append ..

theorem wellSpaced_of_all : ∀ {cs : List Char},
    (cs.all fun c => isBlank c || charWidth c != 0) = true → WellSpaced cs
  | [], _ => .nil
  | c :: cs, h => by
    rw [List.all_cons, Bool.and_eq_true] at h
    refine (wellSpaced_of_all h.2).cons fun d hd _ => ?_
    have hd := List.all_eq_true.1 h.2 d (List.mem_of_head? hd)
    simpa using hd

end Console

namespace Report

/-! ## The line of a finding -/

/-- How places show behind a message. -/
def shownPlaces : List Location → List Char
  | [] => []
  | place :: more => ' ' :: placesList (place :: more)

/-- The line of a finding whose message shows in full. -/
def shownFinding (f : Finding) : List Char :=
  [' ', ' ', '✖', ' '] ++ (visible f.message.toList ++ shownPlaces f.locations)

theorem head_shownPlaces (places : List Location) : ∀ c ∈ (shownPlaces places).head?, c = ' ' := by
  cases places with
  | nil => exact nofun
  | cons place more => exact fun c hc => (Option.some.inj hc).symm

theorem head_placesText (places : List Location) :
    ∀ c ∈ (placesText places).toList.head?, c = ' ' := by
  cases places with
  | nil => exact nofun
  | cons place more =>
    rw [toList_placesText (List.cons_ne_nil place more)]
    exact fun c hc => (Option.some.inj hc).symm

theorem visible_placesList (places : List Location) :
    visible (placesList places) = placesList places :=
  List.filter_eq_self.2 (forall_mem_placesList (by decide) places)

theorem colon_notMem_natText (n : Nat) : ':' ∉ (Decimal.natText n).toList := fun hmem =>
  absurd (isDigit_of_mem_natText hmem) (by decide)

/-- The numbers of a place, up to the next blank. -/
theorem uncoded_numbers (l : Location) {ends : List Char} (h : ':' ∉ ends) :
    Uncoded ((Decimal.natText l.line).toList ++ ':' ::
      ((Decimal.natText l.column).toList ++ ends)) := by
  refine uncoded_of_count ?_
  rw [List.count_append, List.count_cons_self, List.count_append,
    List.count_eq_zero.2 (colon_notMem_natText _), List.count_eq_zero.2 (colon_notMem_natText _),
    List.count_eq_zero.2 h]

theorem uncoded_line {head : List Char} (h : ':' ∉ head) : Uncoded (head ++ "line".toList) := by
  refine uncoded_of_count ?_
  rw [List.count_append, List.count_eq_zero.2 h]
  decide

/-- A place and what stands behind it: a comma and another place, or the end. -/
theorem toList_placeText_append (l : Location) (cs : List Char) : (placeText l).toList ++ cs =
    "line".toList ++ ' ' :: ((Decimal.natText l.line).toList ++ ':' ::
      ((Decimal.natText l.column).toList ++ cs)) := by
  rw [placeText]
  simp only [String.toList_append, List.append_assoc]
  rfl

/-- There is a blank between any two colons. -/
theorem uncoded_places : ∀ (places : List Location) {head : List Char}, ':' ∉ head →
    Uncoded (head ++ ((", ".intercalate (places.map placeText)).toList ++ ")".toList))
  | [], head, h => uncoded_of_count (by
      rw [List.count_append, List.count_eq_zero.2 h]
      decide)
  | [l], head, h => by
    rw [String.toList_intercalate, List.map_singleton, List.map_singleton,
      List.intercalate_singleton, toList_placeText_append, ← List.append_assoc]
    exact Uncoded.append_blank (by decide) (uncoded_line h) (uncoded_numbers l (by decide))
  | l :: l' :: more, head, h => by
    have hsplit : head ++ ((", ".intercalate ((l :: l' :: more).map placeText)).toList ++
        ")".toList) = (head ++ "line".toList) ++ ' ' :: (((Decimal.natText l.line).toList ++ ':' ::
          ((Decimal.natText l.column).toList ++ [','])) ++ ' ' ::
            ([] ++ ((", ".intercalate ((l' :: more).map placeText)).toList ++ ")".toList))) := by
      rw [String.toList_intercalate, String.toList_intercalate, List.map_cons, List.map_cons,
        List.map_cons, List.map_cons, List.intercalate_cons_cons, List.append_assoc,
        List.append_assoc, toList_placeText_append]
      simp
    rw [hsplit]
    exact Uncoded.append_blank (by decide) (uncoded_line h)
      (Uncoded.append_blank (by decide) (uncoded_numbers l (by decide))
        (uncoded_places (l' :: more) List.not_mem_nil))

theorem uncoded_placesList (places : List Location) : Uncoded (placesList places) := by
  have hplaces : Uncoded ("(".toList ++
      ((", ".intercalate (places.map placeText)).toList ++ ")".toList)) :=
    uncoded_places places (by decide)
  rwa [← List.append_assoc] at hplaces

theorem prints_placesText [MarkupLibrary] {opened : List OpenTag} {before : List Char}
    (hbefore : Verbatim before) (places : List Location) :
    Prints opened before (placesText places).toList (visible before ++ shownPlaces places) := by
  cases places with
  | nil =>
    rw [shownPlaces, List.append_nil]
    exact Prints.nil hbefore
  | cons place more =>
    have hspace : Verbatim (before ++ " ".toList) := by
      refine ⟨List.IsChain.append hbefore.escapes (.singleton ' ') fun b _ c hc _ => ?_,
        hbefore.codes.append_blank (by decide) Verbatim.nil.codes⟩
      obtain rfl : ' ' = c := Option.some.inj hc
      decide
    have hshown : visible before ++ shownPlaces (place :: more) =
        visible (before ++ " ".toList) ++ (visible (placesList (place :: more)) ++ visible []) := by
      have hnone : visible [] = [] := rfl
      rw [visible_append, visible_placesList, List.append_assoc, hnone, List.append_nil]
      rfl
    rw [toList_placesText (List.cons_ne_nil place more), hshown]
    exact Prints.read (Inert.bare (by decide) _).untagged (Prints.styled hspace isStyle_dim
      (inert_placesList _) (uncoded_placesList _) (Prints.nil .nil))

/-- **The line of a finding with a literal message shows it in full**, but for silent characters. -/
theorem render_literal [MarkupLibrary] {f : Finding} (h : Literal f.message.toList) :
    render (findingText f).toList = .ok (shownFinding f) := by
  have hhead : ∀ c ∈ (placesText f.locations).toList.head?, c ≠ '[' ∧ c ≠ '\\' := fun c hc => by
    rw [head_placesText f.locations c hc]
    decide
  have hmessage : Prints [] [] (" ".toList ++ (f.message.toList ++ (placesText f.locations).toList))
      (visible (' ' :: f.message.toList) ++ shownPlaces f.locations) := by
    rw [← List.append_assoc]
    exact Prints.read (h.untagged (repels_placesText _) hhead)
      (prints_placesText h.verbatim_cons f.locations)
  have hline : Prints [] [] (findingText f).toList (visible "  ".toList ++
      (visible "✖".toList ++ (visible (' ' :: f.message.toList) ++ shownPlaces f.locations))) := by
    rw [toList_findingText]
    exact Prints.read (Inert.bare (by decide) _).untagged
      (Prints.styled (Inert.verbatim (by decide) (uncoded_of_count (by decide))) isStyle_red
        (by decide) (uncoded_of_count (by decide)) hmessage)
  exact hline.render

/-- What shows of a finding, but for blanks. -/
def condensedFinding (f : Finding) : List Char :=
  '✖' :: (condensed f.message.toList ++ condensed (shownPlaces f.locations))

theorem condensed_shownFinding {f : Finding} (h : Literal f.message.toList) :
    condensed (shownFinding f) = condensedFinding f := by
  rw [shownFinding, condensed_append, condensed_append, condensed_visible h.noControl]
  rfl

theorem wellSpaced_shownPlaces (places : List Location) : WellSpaced (shownPlaces places) := by
  cases places with
  | nil => exact .nil
  | cons place more =>
    refine wellSpaced_of_all (List.all_eq_true.2 (List.forall_mem_cons.2 ⟨by decide, ?_⟩))
    exact forall_mem_placesList (by decide) (place :: more)

theorem wellSpaced_shownFinding {f : Finding} (h : Literal f.message.toList) :
    WellSpaced (shownFinding f) := by
  have hmark : WellSpaced [' ', ' ', '✖'] := wellSpaced_of_all (by decide +kernel)
  have hmessage := wellSpaced_visible h.spaced h.noControl
  have hline : WellSpaced (' ' :: visible f.message.toList ++ shownPlaces f.locations) :=
    List.IsChain.append hmessage (wellSpaced_shownPlaces f.locations) fun b _ c hc _ =>
      .inl (head_shownPlaces f.locations c hc ▸ isBlank_space)
  have hsplit : shownFinding f =
      [' ', ' ', '✖'] ++ (' ' :: visible f.message.toList ++ shownPlaces f.locations) := rfl
  rw [hsplit]
  refine List.IsChain.append hmark hline fun b _ c hc _ => ?_
  obtain rfl : ' ' = c := Option.some.inj hc
  exact .inl isBlank_space

/-! ## Printing findings -/

theorem text_paragraph_literal [MarkupLibrary] {f : Finding} (h : Literal f.message.toList) :
    ∃ text, (Block.paragraph (findingText f)).text = .ok text ∧
      condensed text.toList = condensedFinding f := by
  refine ⟨paragraphText (shownFinding f), ?_, ?_⟩
  · rw [Block.text, render_literal h]
    rfl
  · rw [condensed_paragraphText (wellSpaced_shownFinding h), condensed_shownFinding h]

theorem printBlocks_findings [MarkupLibrary] : ∀ {findings : List Finding},
    (∀ f ∈ findings, Literal f.message.toList) → ∀ rest, ∃ text,
      printBlocks (findings.map (fun f => .paragraph (findingText f)) ++ rest) =
        (text ++ (printBlocks rest).1, (printBlocks rest).2) ∧
      condensed text.toList = findings.flatMap condensedFinding
  | [], _, rest => ⟨"", by rw [List.map_nil, List.nil_append, String.empty_append], rfl⟩
  | f :: findings, h, rest => by
    obtain ⟨hf, hfindings⟩ := List.forall_mem_cons.1 h
    obtain ⟨text, htext, hcondensed⟩ := text_paragraph_literal hf
    obtain ⟨more, hmore, hmoreCondensed⟩ := printBlocks_findings hfindings rest
    refine ⟨text ++ more, ?_, ?_⟩
    · rw [List.map_cons, List.cons_append, printBlocks, htext, hmore, String.append_assoc]
    · rw [String.toList_append, condensed_append, hcondensed, hmoreCondensed, List.flatMap_cons]

theorem printBlocks_append [MarkupLibrary] {before : List Block} (h : ∀ b ∈ before, b.Renders)
    (after : List Block) : printBlocks (before ++ after) =
      ((printBlocks before).1 ++ (printBlocks after).1, (printBlocks after).2) := by
  induction before with
  | nil => rw [List.nil_append, printBlocks, String.empty_append]
  | cons b before ih =>
    obtain ⟨hb, hbefore⟩ := List.forall_mem_cons.1 h
    obtain ⟨text, htext⟩ := hb.text_ok
    rw [List.cons_append, printBlocks, htext, ih hbefore, printBlocks, htext]
    simp only [String.append_assoc]

/-- **A report with literal messages is printed in full**: it ends with the messages, in order, each
with its places, but for blanks. -/
theorem printed_literal [MarkupLibrary] {r : Report} {format : String} (hformat : format ≠ "json")
    (hdepths : ∀ entry ∈ r.depths, ClosesNothing (shownOperationName entry.1).toList)
    (hfindings : ∀ f ∈ r.findings, Literal f.message.toList) :
    (r.printed format).2 = none ∧ ∃ head, condensed (r.printed format).1.toList =
      head ++ r.findings.flatMap condensedFinding := by
  rw [printed, if_neg hformat]
  by_cases hnone : r.findings = []
  · have hrenders : ∀ b ∈ r.blocks, b.Renders := renders_blocks hdepths (by simp [hnone])
    exact ⟨printBlocks_ok hrenders, _, by rw [hnone, List.flatMap_nil, List.append_nil]⟩
  · obtain ⟨text, htext, hcondensed⟩ := printBlocks_findings hfindings [.emptyLine]
    rw [blocks_of_findings hnone, printBlocks_append (renders_opening hdepths), htext]
    refine ⟨rfl, condensed (printBlocks r.opening).1.toList, ?_⟩
    have hline : printBlocks [.emptyLine] = ("\n", none) := rfl
    have hend : condensed (printBlocks [.emptyLine]).1.toList = [] := by
      rw [hline]
      decide
    rw [String.toList_append, String.toList_append, condensed_append, condensed_append, hend,
      hcondensed, List.append_nil]

/-- A report about a literal with brackets that are no tag. -/
def bracketed : Report :=
  ⟨1, [("", 0)], [⟨"Int cannot represent non-integer value: [1, 2]", [⟨1, 7⟩]⟩]⟩

theorem literal_bracketed :
    Literal "Int cannot represent non-integer value: [1, 2]".toList where
  noTag cs hcs := by
    have hnone : ∀ cs ∈ "Int cannot represent non-integer value: [1, 2]".toList.tails,
        takeTag? cs = none := by decide +kernel
    exact hnone cs ((List.mem_tails _ _).2 hcs)
  noEscape := by decide +kernel
  noEmoji cs hcs := by
    rintro ⟨name, rfl, -, -⟩
    have hcount := hcs.sublist.count_le ':'
    have hone : "Int cannot represent non-integer value: [1, 2]".toList.count ':' = 1 := by
      decide +kernel
    rw [hone, List.cons_append, List.count_cons_self, List.count_append,
      List.count_singleton_self] at hcount
    omega
  noControl := by
    have hnone : ("Int cannot represent non-integer value: [1, 2]".toList.all
        fun c => !isSilent c) = true := by decide +kernel
    intro c hc hsilent
    have hshows := List.all_eq_true.1 hnone c hc
    rw [hsilent] at hshows
    exact nomatch hshows
  spaced := wellSpaced_of_all (by decide +kernel)

theorem printed_literal_bracketed : "console" ≠ "json" ∧
    (∀ entry ∈ bracketed.depths, ClosesNothing (shownOperationName entry.1).toList) ∧
    (∀ f ∈ bracketed.findings, Literal f.message.toList) ∧
    (bracketed.printed "console").2 = none ∧
    ∃ head, condensed (bracketed.printed "console").1.toList =
      head ++ bracketed.findings.flatMap condensedFinding := by
  have hformat : "console" ≠ "json" := by decide
  have hdepths : ∀ entry ∈ bracketed.depths,
      ClosesNothing (shownOperationName entry.1).toList :=
    List.forall_mem_singleton.2 (closesNothing_of_notMem (by decide))
  have hfindings : ∀ f ∈ bracketed.findings, Literal f.message.toList :=
    List.forall_mem_singleton.2 literal_bracketed
  exact ⟨hformat, hdepths, hfindings, printed_literal hformat hdepths hfindings⟩

/-- A report about a literal that looks like a tag. -/
def tagged : Report := ⟨1, [("", 0)], [⟨"Int cannot represent non-integer value: [b]", [⟨1, 7⟩]⟩]⟩

/-- The literal is missing in what is printed. -/
theorem text_tagged : (tagged.printed "console").1 =
    "\nOperation Depths (max 1)\n\n <anonymous>  ✓ 0 \n\nErrors:\n\n" ++
      "  ✖ Int cannot represent non-integer value:  (line 1:7)\n\n" := by
  decide +kernel

theorem not_printed_in_full : ¬ ∀ (r : Report) (format : String), format ≠ "json" →
    (∀ entry ∈ r.depths, ClosesNothing (shownOperationName entry.1).toList) → ∀ f ∈ r.findings,
      condensed f.message.toList ++ condensed (shownPlaces f.locations) <:+:
        condensed (r.printed format).1.toList := by
  intro hclaim
  have hinside := hclaim tagged "console" (by decide)
    (List.forall_mem_singleton.2 (closesNothing_of_notMem (by decide))) _ List.mem_cons_self
  rw [text_tagged] at hinside
  exact absurd hinside (by decide +kernel)

end Report

end QueryDepth
