import Mathlib.Data.List.Chain
import Mathlib.Data.List.TakeWhile
import QueryDepth.Console.Wrap
import QueryDepth.Proofs.Text.Clusters

/-!
# Wrapped paragraphs

A paragraph is broken into lines, blanks at the end of a line may be dropped, tabs become blanks,
and a line that is still too wide is cut. Only the last of these could lose a character that is not
blank.

**Theorem (`condensed_paragraphText`).** But for blanks, a paragraph is the text it is made of, if
the text is well spaced: a word of it begins with a character that takes columns.

Lines are a cut of the text (`flatten_cutAt`), whatever the offsets of the breaks are. What is left
to show is that every line fits, but for blanks at its end, so that it is not cut
(`fitsIn_of_mem_cutAt`). The induction follows the words, and its invariant is about the line that
is not ended yet: it fits, the column is its width, and the next word begins a cluster (`Meets`), so
that widths add up.
-/

namespace QueryDepth.Console

open Text

/-- A text without its blanks. -/
def condensed (cs : List Char) : List Char := cs.filter fun c => !isBlank c

@[simp] theorem condensed_append (cs cs' : List Char) :
    condensed (cs ++ cs') = condensed cs ++ condensed cs' := List.filter_append ..

theorem condensed_blanks {cs : List Char} (h : ∀ c ∈ cs, isBlank c = true) : condensed cs = [] :=
  List.filter_eq_nil_iff.2 fun c hc => by simp [h c hc]

theorem isBlank_space : isBlank ' ' = true := by decide

/-! ## Blanks at the end -/

theorem exists_blanksAtEnd (cs : List Char) :
    ∃ blanks, cs = dropBlanksAtEnd cs ++ blanks ∧ ∀ c ∈ blanks, isBlank c = true := by
  refine ⟨(cs.reverse.takeWhile isBlank).reverse, ?_, fun c hc => ?_⟩
  · rw [dropBlanksAtEnd, ← List.reverse_append, List.takeWhile_append_dropWhile,
      List.reverse_reverse]
  · exact List.mem_takeWhile_imp (List.mem_reverse.1 hc)

theorem dropBlanksAtEnd_append_blanks (cs : List Char) {blanks : List Char}
    (h : ∀ c ∈ blanks, isBlank c = true) :
    dropBlanksAtEnd (cs ++ blanks) = dropBlanksAtEnd cs := by
  rw [dropBlanksAtEnd, List.reverse_append, List.dropWhile_append_of_pos (by simpa using h)]
  rfl

theorem dropBlanksAtEnd_append (cs : List Char) {word : List Char}
    (h : ∃ c ∈ word, isBlank c = false) :
    dropBlanksAtEnd (cs ++ word) = cs ++ dropBlanksAtEnd word := by
  obtain ⟨c, hc, hblank⟩ := h
  have hne : (word.reverse.dropWhile isBlank).isEmpty = false := by
    rw [Bool.eq_false_iff]
    intro hempty
    rw [List.isEmpty_iff, List.dropWhile_eq_nil_iff] at hempty
    exact absurd (hempty c (List.mem_reverse.2 hc)) (by simp [hblank])
  rw [dropBlanksAtEnd, List.reverse_append, List.dropWhile_append, hne, if_neg Bool.false_ne_true,
    List.reverse_append, List.reverse_reverse]
  rfl

theorem selector_notMem_blanks {cs : List Char} (h : ∀ c ∈ cs, isBlank c = true) :
    '\ufe0f' ∉ cs := fun hmem => absurd (h _ hmem) (by decide)

/-- The line fits in so many columns, but for blanks at its end. -/
def FitsIn (n : Nat) (line : List Char) : Prop := width (dropBlanksAtEnd line) ≤ n

theorem width_dropBlanksAtEnd_le (line : List Char) :
    width (dropBlanksAtEnd line) ≤ width line := by
  obtain ⟨blanks, hline, hblanks⟩ := exists_blanksAtEnd line
  conv_rhs => rw [hline]
  exact width_le_append _ (selector_notMem_blanks hblanks)

theorem fitsIn_of_width_le {n : Nat} {line : List Char} (h : width line ≤ n) : FitsIn n line :=
  Nat.le_trans (width_dropBlanksAtEnd_le line) h

theorem fitsIn_nil (n : Nat) : FitsIn n [] := fitsIn_of_width_le (Nat.zero_le n)

theorem exists_dropExcess (n : Nat) (line : List Char) :
    ∃ blanks, dropExcess n line = dropBlanksAtEnd line ++ blanks ∧
      ∀ c ∈ blanks, isBlank c = true := by
  obtain ⟨blanks, hline, hblanks⟩ := exists_blanksAtEnd line
  have hlength : line.length = (dropBlanksAtEnd line).length + blanks.length := by
    rw [← List.length_append, ← hline]
  have htake (k : Nat) (hk : (dropBlanksAtEnd line).length ≤ k) : line.take k =
      dropBlanksAtEnd line ++ blanks.take (k - (dropBlanksAtEnd line).length) := by
    conv_lhs => rw [hline, List.take_append, List.take_of_length_le hk]
  refine ⟨_, htake _ (by omega), fun c hc => hblanks c (List.mem_of_mem_take hc)⟩

/-- **A line that fits loses only blanks.** -/
theorem condensed_fitLine {n : Nat} {line : List Char} (h : FitsIn n line) :
    condensed (fitLine n (dropExcess n line)) = condensed line := by
  obtain ⟨blanks, hline, hblanks⟩ := exists_blanksAtEnd line
  obtain ⟨kept, hkept, hkeptBlank⟩ := exists_dropExcess n line
  have hcore : condensed line = condensed (dropBlanksAtEnd line) := by
    rw [hline, condensed_append, condensed_blanks hblanks, List.append_nil, ← hline]
  rw [hkept, fitLine, hcore]
  split
  · obtain ⟨kept', missing, hcut, hbegins⟩ := exists_cutTo h (selector_notMem_blanks hkeptBlank)
    have hblank : ∀ c ∈ kept', isBlank c = true := fun c hc => hkeptBlank c (hbegins.subset hc)
    have hmissing : ∀ c ∈ List.replicate missing ' ', isBlank c = true := fun c hc =>
      List.eq_of_mem_replicate hc ▸ isBlank_space
    rw [hcut, condensed_append, condensed_append, condensed_blanks hblank,
      condensed_blanks hmissing, List.append_nil, List.append_nil]
  · rw [condensed_append, condensed_blanks hkeptBlank, List.append_nil]

/-! ## Words -/

/-- Every word behind a blank begins with a character that takes columns. -/
def WellSpaced (cs : List Char) : Prop :=
  cs.IsChain fun b c => isBlank b = true → isBlank c = true ∨ charWidth c ≠ 0

theorem drop_length_takeWhile (p : Char → Bool) (cs : List Char) :
    cs.drop (cs.takeWhile p).length = cs.dropWhile p := by
  have hsplit : cs.takeWhile p ++ cs.dropWhile p = cs := List.takeWhile_append_dropWhile
  calc cs.drop (cs.takeWhile p).length
    _ = (cs.takeWhile p ++ cs.dropWhile p).drop (cs.takeWhile p).length := by rw [hsplit]
    _ = cs.dropWhile p := List.drop_left

theorem head_dropWhile {p : Char → Bool} {cs : List Char} :
    ∀ c ∈ (cs.dropWhile p).head?, p c = false := by
  intro c hc
  have h := List.head?_dropWhile_not p cs
  rw [Option.mem_def.1 hc] at h
  exact h

/-- A word ends with blanks if another word follows. -/
structure IsWord (word rest : List Char) : Prop where
  visible : ∃ c ∈ word, isBlank c = false
  ends : rest ≠ [] → ∃ b, word.getLast? = some b ∧ isBlank b = true
  next : ∀ c ∈ rest.head?, isBlank c = false

theorem nextWord?_eq_some {cs word rest : List Char} (h : nextWord? cs = some (word, rest)) :
    cs = word ++ rest ∧ IsWord word rest := by
  unfold nextWord? at h
  dsimp only at h
  rw [← List.drop_drop, drop_length_takeWhile, drop_length_takeWhile] at h
  generalize hbegun : cs.dropWhile isBlank = begun at h
  generalize hended : begun.dropWhile (fun c => !isBlank c) = ended at h
  have hcs : cs = cs.takeWhile isBlank ++ (begun.takeWhile (fun c => !isBlank c) ++
      (ended.takeWhile isBlank ++ ended.dropWhile isBlank)) := by
    rw [List.takeWhile_append_dropWhile, ← hended, List.takeWhile_append_dropWhile, ← hbegun,
      List.takeWhile_append_dropWhile]
  split at h
  · exact nomatch h
  next hne =>
  obtain ⟨rfl, rfl⟩ := Prod.mk.inj (Option.some.inj h)
  rw [drop_length_takeWhile]
  refine ⟨by simpa only [List.append_assoc] using hcs, ⟨?_, fun hrest => ?_, head_dropWhile⟩⟩
  · have hword : begun.takeWhile (fun c => !isBlank c) ≠ [] := fun heq => hne (by rw [heq]; rfl)
    obtain ⟨c, hc⟩ := List.exists_mem_of_ne_nil _ hword
    exact ⟨c, by simp [hc], by simpa using List.mem_takeWhile_imp hc⟩
  · obtain ⟨b, hb⟩ : ∃ b, (ended.takeWhile isBlank).getLast? = some b := by
      cases ended with
      | nil => exact absurd rfl hrest
      | cons c ended =>
        have hc : (!isBlank c) = false := head_dropWhile c (by rw [hended]; rfl)
        rw [List.takeWhile_cons_of_pos (by simpa using hc)]
        exact ⟨_, List.getLast?_cons ..⟩
    refine ⟨b, ?_, List.mem_takeWhile_imp (List.mem_of_getLast? hb)⟩
    rw [List.getLast?_append, hb]
    rfl

theorem nextWord?_eq_none {cs : List Char} (h : nextWord? cs = none) :
    ∀ c ∈ cs, isBlank c = true := by
  unfold nextWord? at h
  dsimp only at h
  rw [drop_length_takeWhile] at h
  split at h
  · next hempty =>
    have hnil : cs.dropWhile isBlank = [] := by
      cases hbegun : cs.dropWhile isBlank with
      | nil => rfl
      | cons c begun =>
        have hc : isBlank c = false := head_dropWhile c (by rw [hbegun]; rfl)
        rw [hbegun, List.takeWhile_cons_of_pos (by simp [hc])] at hempty
        exact nomatch hempty
    exact List.dropWhile_eq_nil_iff.1 hnil
  · exact nomatch h

/-! ## Lines -/

theorem flatten_cutAt : ∀ (bs : List Nat) (from_ : Nat) (cs : List Char),
    (cutAt from_ bs cs).flatten = cs
  | [], from_, cs => by rw [cutAt, List.flatten_singleton]
  | b :: bs, from_, cs => by
    rw [cutAt, List.flatten_cons, flatten_cutAt, List.take_append_drop]

/-- A break at the end of what was read cuts it off. There is none at the beginning of the text,
where nothing was read. -/
theorem mem_cutAt_break {from_ : Nat} {bs : List Nat} {cur more line : List Char}
    (h : line ∈ cutAt from_ ((if from_ + cur.length = 0 then [] else [from_ + cur.length]) ++ bs)
      (cur ++ more)) : line = cur ∨ line ∈ cutAt (from_ + cur.length) bs more := by
  split at h
  · next hstart =>
    obtain ⟨rfl, hlength⟩ := Nat.add_eq_zero_iff.1 hstart
    obtain rfl := List.eq_nil_of_length_eq_zero hlength
    exact .inr h
  · rw [List.singleton_append, cutAt, Nat.add_sub_cancel_left, List.take_left,
      List.drop_left] at h
    exact List.mem_cons.1 h

/-- The lines of pieces: what was there before, the pieces, and what the last one begins. -/
theorem exists_cutAt_pieceBreaks (bs : List Nat) (more : List Char) :
    ∀ {parts : List (List Char)} (hne : parts ≠ []) (from_ : Nat) (cur : List Char),
      ∃ from', from' + (parts.getLast hne).length =
          from_ + cur.length + parts.flatten.length ∧
        ∀ line ∈ cutAt from_ (pieceBreaks (from_ + cur.length) parts ++ bs)
            (cur ++ (parts.flatten ++ more)),
          line = cur ∨ line ∈ parts ∨ line ∈ cutAt from' bs (parts.getLast hne ++ more)
  | [p], _, from_, cur => by
    rw [pieceBreaks, pieceBreaks, List.append_nil, List.getLast_singleton,
      List.flatten_singleton]
    exact ⟨from_ + cur.length, rfl, fun line hline => (mem_cutAt_break hline).imp_right .inr⟩
  | p :: q :: ps, _, from_, cur => by
    obtain ⟨from', hfrom, hlines⟩ :=
      exists_cutAt_pieceBreaks bs more (List.cons_ne_nil q ps) (from_ + cur.length) p
    rw [pieceBreaks, List.flatten_cons, List.getLast_cons_cons, List.append_assoc,
      List.append_assoc]
    refine ⟨from', by rw [hfrom, List.length_append, Nat.add_assoc], fun line hline => ?_⟩
    refine (mem_cutAt_break hline).imp_right fun hbehind => ?_
    rcases hlines line hbehind with rfl | hpiece | hlast
    · exact .inl List.mem_cons_self
    · exact .inl (List.mem_cons_of_mem _ hpiece)
    · exact .inr hlast

/-- What was read of a line ends where the next word begins a cluster. -/
def Meets (cur cs : List Char) : Prop :=
  cur ≠ [] → ∀ c ∈ cs.head?, charWidth c ≠ 0 ∧ cur.getLast? ≠ some '\u200d'

theorem Meets.width_append {cur cs word : List Char} (h : Meets cur cs) (hword : word <+: cs) :
    width (cur ++ word) = width cur + width word := by
  by_cases hcur : cur = []
  · rw [hcur, List.nil_append, width_nil, Nat.zero_add]
  cases word with
  | nil => rw [List.append_nil, width_nil, Nat.add_zero]
  | cons c word =>
    obtain ⟨rest, rfl⟩ := hword
    obtain ⟨hc, hlast⟩ := h hcur c rfl
    rw [width, clusters_append hc word hlast, clustersWidth_append]
    rfl

theorem meets_nil (cs : List Char) : Meets [] cs := fun h => absurd rfl h

/-- The next word begins a cluster, because it stands behind a blank. -/
theorem IsWord.meets {word rest cur : List Char} (h : IsWord word rest)
    (hspaced : WellSpaced (word ++ rest)) (hcur : cur.getLast? = word.getLast?) :
    Meets cur rest := by
  intro _ c hc
  obtain ⟨b, hb, hblank⟩ := h.ends (by rintro rfl; exact nomatch hc)
  have hnext := (List.isChain_append.1 hspaced).2.2 b hb c hc hblank
  refine ⟨hnext.resolve_left (by simp [h.next c hc]), ?_⟩
  rw [hcur, hb]
  rintro heq
  rw [Option.some.inj heq] at hblank
  exact absurd hblank (by decide)

theorem dropBlanksAtEnd_begins (cs : List Char) : dropBlanksAtEnd cs <+: cs := by
  obtain ⟨blanks, hcs, -⟩ := exists_blanksAtEnd cs
  exact ⟨blanks, hcs.symm⟩

theorem getLast?_getLast_flatten {parts : List (List Char)} (hne : parts ≠ [])
    (hlast : parts.getLast hne ≠ []) :
    (parts.getLast hne).getLast? = parts.flatten.getLast? := by
  conv_rhs => rw [← List.dropLast_append_getLast hne, List.flatten_append, List.flatten_singleton,
    List.getLast?_append_of_ne_nil _ hlast]

section

variable {n fuel from_ : Nat} {cur word rest : List Char}

/-- Wherever the text goes on with a line that fits, all its lines fit. -/
def LinesFit (n fuel : Nat) (cs : List Char) : Prop :=
  ∀ (from_ : Nat) (cur : List Char), FitsIn n cur → Meets cur cs →
    ∀ line ∈ cutAt from_ (breaks n .fold (from_ + cur.length) (width cur) (wordsOf fuel cs))
      (cur ++ cs), FitsIn n line

/-- Blanks go to the end of the line. -/
theorem fitsIn_of_mem_cutAt_blanks (hcur : FitsIn n cur) {blanks : List Char}
    (h : ∀ c ∈ blanks, isBlank c = true) :
    ∀ line ∈ cutAt from_ [] (cur ++ blanks), FitsIn n line := by
  intro line hline
  rw [cutAt] at hline
  rw [List.mem_singleton.1 hline, FitsIn, dropBlanksAtEnd_append_blanks cur h]
  exact hcur

/-- A word may go on with the line. -/
theorem LinesFit.append (h : LinesFit n fuel rest) (hword : IsWord word rest)
    (hspaced : WellSpaced (word ++ rest)) (hmeets : Meets cur (word ++ rest))
    (hfits : width cur + width (dropBlanksAtEnd word) ≤ n) :
    ∀ line ∈ cutAt from_ (breaks n .fold (from_ + cur.length + word.length)
      (width cur + width word) (wordsOf fuel rest)) (cur ++ (word ++ rest)), FitsIn n line := by
  obtain ⟨c, hc, -⟩ := hword.visible
  have hcore : width (cur ++ dropBlanksAtEnd word) = width cur + width (dropBlanksAtEnd word) :=
    hmeets.width_append ((dropBlanksAtEnd_begins word).trans (List.prefix_append word rest))
  have hline : FitsIn n (cur ++ word) := by
    rw [FitsIn, dropBlanksAtEnd_append cur hword.visible, hcore]
    exact hfits
  have hlast : (cur ++ word).getLast? = word.getLast? :=
    List.getLast?_append_of_ne_nil _ (List.ne_nil_of_mem hc)
  rw [← hmeets.width_append (List.prefix_append word rest), Nat.add_assoc, ← List.length_append,
    ← List.append_assoc]
  exact h from_ _ hline (hword.meets hspaced hlast)

/-- A word may be cut into parts that fit: the last part begins a line. -/
theorem LinesFit.parts (h : LinesFit n fuel rest) (from_ : Nat) (hword : IsWord word rest)
    (hspaced : WellSpaced (word ++ rest)) (hcur : FitsIn n cur) {parts : List (List Char)}
    (hne : parts ≠ []) (hflatten : parts.flatten = word) (hfits : ∀ p ∈ parts, FitsIn n p) :
    ∀ line ∈ cutAt from_ (pieceBreaks (from_ + cur.length) parts ++ breaks n .fold
      (from_ + cur.length + word.length) (width (parts.getLast hne)) (wordsOf fuel rest))
      (cur ++ (word ++ rest)), FitsIn n line := by
  obtain ⟨from', hfrom, hlines⟩ := exists_cutAt_pieceBreaks (breaks n .fold
    (from_ + cur.length + word.length) (width (parts.getLast hne)) (wordsOf fuel rest)) rest hne
    from_ cur
  have hlast : Meets (parts.getLast hne) rest := fun hnil =>
    hword.meets hspaced (hflatten ▸ getLast?_getLast_flatten hne hnil) hnil
  rw [hflatten] at hfrom hlines
  intro line hline
  rcases hlines line hline with rfl | hpart | hbegun
  · exact hcur
  · exact hfits line hpart
  · rw [← hfrom] at hbegun
    exact h from' _ (hfits _ (List.getLast_mem hne)) hlast line hbegun

end

/-- **Every line fits**, but for blanks at its end. -/
theorem linesFit {n : Nat} (hn : 3 ≤ n) : ∀ {fuel : Nat} {cs : List Char}, cs.length ≤ fuel →
    WellSpaced cs → LinesFit n fuel cs
  | 0, cs, hfuel, _ => fun from_ cur hcur _ => by
    obtain rfl := List.eq_nil_of_length_eq_zero (Nat.le_zero.1 hfuel)
    exact fitsIn_of_mem_cutAt_blanks hcur nofun
  | fuel + 1, cs, hfuel, hspaced => by
    intro from_ cur hcur hmeets
    rw [wordsOf]
    cases hnext : nextWord? cs with
    | none => exact fitsIn_of_mem_cutAt_blanks hcur (nextWord?_eq_none hnext)
    | some read =>
      obtain ⟨word, rest⟩ := read
      obtain ⟨rfl, hword⟩ := nextWord?_eq_some hnext
      have hbehind : LinesFit n fuel rest := by
        refine linesFit hn ?_ hspaced.right_of_append
        obtain ⟨c, hc, -⟩ := hword.visible
        have hpos := List.length_pos_of_mem hc
        rw [List.length_append] at hfuel
        omega
      dsimp only
      rw [breaks]
      dsimp only
      split
      · next hfits => exact hbehind.append hword hspaced hmeets hfits
      split
      · next hfolds =>
        have hwide : n < width word := Nat.lt_of_lt_of_le hfolds.1 (width_dropBlanksAtEnd_le word)
        have hflatten := flatten_pieces hn (Nat.lt_of_le_of_lt (Nat.zero_le n) hwide)
        have hne : pieces n word ≠ [] := by
          intro hnil
          rw [hnil, List.flatten_nil] at hflatten
          exact absurd hwide (hflatten ▸ Nat.not_lt_zero n)
        rw [List.getLast?_eq_some_getLast hne]
        exact hbehind.parts from_ hword hspaced hcur hne hflatten fun p hp =>
          fitsIn_of_width_le (width_le_of_mem_pieces hn p hp)
      · next hshort =>
        have hfits : FitsIn n word := Nat.le_of_not_lt fun hlt => hshort ⟨hlt, rfl⟩
        have hlines := hbehind.parts from_ hword hspaced hcur (List.cons_ne_nil word [])
          List.flatten_singleton fun p hp => List.mem_singleton.1 hp ▸ hfits
        rw [pieceBreaks, pieceBreaks, List.append_nil, List.getLast_singleton] at hlines
        exact hlines

/-! ## Tabs and line feeds -/

theorem replicate_spaces_blank (k : Nat) : ∀ c ∈ List.replicate k ' ', isBlank c = true :=
  fun _ hc => List.eq_of_mem_replicate hc ▸ isBlank_space

theorem condensed_expandTabs (column : Nat) (run cs : List Char) :
    condensed (expandTabs column run cs) = condensed (run ++ cs) := by
  fun_induction expandTabs column run cs with
  | case1 column run => rw [List.append_nil]
  | case2 column run rest position stop ih =>
    rw [condensed_append, condensed_append, ih, condensed_blanks (replicate_spaces_blank _),
      condensed_append run, List.append_nil]
    rfl
  | case3 column run c rest htab ih => rw [ih, List.append_assoc]; rfl

/-- Blanks may take the place of a blank. -/
theorem WellSpaced.blanks {before after : List Char} {b : Char} (hb : isBlank b = true)
    (h : WellSpaced (before ++ b :: after)) (k : Nat) :
    WellSpaced (before ++ (List.replicate (k + 1) ' ' ++ after)) := by
  obtain ⟨hbefore, hafter⟩ := List.isChain_split.1 h
  have hspaces : WellSpaced (List.replicate (k + 1) ' ') :=
    List.isChain_replicate_of_rel _ fun _ => .inl isBlank_space
  refine List.IsChain.append hbefore.left_of_append (List.IsChain.append hspaces
    hafter.of_cons fun x hx y hy _ => ?_) fun x hx y hy _ => ?_
  · exact hafter.rel_head? hy hb
  · obtain rfl : ' ' = y := Option.some.inj hy
    exact .inl isBlank_space

theorem wellSpaced_expandTabs (column : Nat) (run cs before : List Char)
    (h : WellSpaced (before ++ (run ++ cs))) : WellSpaced (before ++ expandTabs column run cs) := by
  fun_induction expandTabs column run cs generalizing before with
  | case1 column run => rwa [List.append_nil] at h
  | case2 column run rest position stop ih =>
    rw [← List.append_assoc] at h
    have hspaces := WellSpaced.blanks (by decide) h (stop - position)
    rw [← List.append_assoc] at hspaces
    have hexpanded := ih (before ++ run ++ List.replicate (stop - position + 1) ' ') hspaces
    simpa only [List.append_assoc] using hexpanded
  | case3 column run c rest htab ih => exact ih before (by rwa [List.append_assoc])

/-- The first piece is the text up to the first line feed. -/
theorem exists_splitFeeds : ∀ cs : List Char, ∃ first more, splitFeeds cs = first :: more ∧
    (first :: more).flatMap condensed = condensed cs ∧ first <+: cs ∧ ∀ line ∈ more, line <:+: cs
  | [] => ⟨[], [], rfl, rfl, List.prefix_rfl, nofun⟩
  | c :: rest => by
    obtain ⟨first, more, hsplit, hcondensed, hfirst, hmore⟩ := exists_splitFeeds rest
    have hwithin : ∀ line ∈ more, line <:+: c :: rest := fun line hline =>
      (hmore line hline).trans (List.suffix_cons c rest).isInfix
    rw [splitFeeds, hsplit]
    split
    · next hfeed =>
      refine ⟨[], first :: more, rfl, ?_, List.nil_prefix, List.forall_mem_cons.2
        ⟨hfirst.isInfix.trans (List.suffix_cons c rest).isInfix, hwithin⟩⟩
      rw [List.flatMap_cons, hcondensed, hfeed]
      rfl
    · refine ⟨c :: first, more, rfl, ?_, (List.prefix_cons_inj c).2 hfirst, hwithin⟩
      rw [List.flatMap_cons] at hcondensed ⊢
      rw [← List.singleton_append, condensed_append, List.append_assoc, hcondensed,
        ← condensed_append]
      rfl

theorem condensed_splitFeeds (cs : List Char) :
    (splitFeeds cs).flatMap condensed = condensed cs := by
  obtain ⟨first, more, hsplit, hcondensed, -⟩ := exists_splitFeeds cs
  rw [hsplit, hcondensed]

theorem infix_of_mem_splitFeeds {cs line : List Char} (h : line ∈ splitFeeds cs) :
    line <:+: cs := by
  obtain ⟨first, more, hsplit, -, hfirst, hmore⟩ := exists_splitFeeds cs
  rw [hsplit] at h
  rcases List.mem_cons.1 h with rfl | h
  · exact hfirst.isInfix
  · exact hmore line h

theorem WellSpaced.of_mem_splitFeeds {cs line : List Char} (h : WellSpaced cs)
    (hline : line ∈ splitFeeds cs) : WellSpaced line :=
  List.IsChain.infix h (infix_of_mem_splitFeeds hline)

/-! ## Paragraphs -/

theorem condensed_flatten : ∀ lines : List (List Char),
    condensed lines.flatten = lines.flatMap condensed
  | [] => rfl
  | line :: more => by
    rw [List.flatten_cons, condensed_append, condensed_flatten more, List.flatMap_cons]

theorem condensed_intercalate {sep : List Char} (hsep : ∀ c ∈ sep, isBlank c = true) :
    ∀ lines : List (List Char), condensed (sep.intercalate lines) = lines.flatMap condensed
  | [] => rfl
  | [line] => by rw [List.intercalate_singleton, List.flatMap_singleton]
  | line :: line' :: more => by
    rw [List.intercalate_cons_cons, condensed_append, condensed_append, condensed_blanks hsep,
      condensed_intercalate hsep (line' :: more), List.append_nil]
    rfl

/-- **A line of text in lines of limited width is the same line**, but for blanks. -/
theorem condensed_wrapLine {n : Nat} (hn : 3 ≤ n) {line : List Char} (h : WellSpaced line) :
    ((wrapLine n .fold line).map (fitLine n)).flatMap condensed = condensed line := by
  have hspaced : WellSpaced (expandTabs 0 [] line) := wellSpaced_expandTabs 0 [] line [] h
  have hfits := linesFit hn (Nat.le_refl _) hspaced 0 [] (fitsIn_nil n) (meets_nil _)
  rw [wrapLine, List.map_map, List.flatMap_map]
  calc (cutAt 0 (breaks n .fold 0 0 (wordsOf (expandTabs 0 [] line).length (expandTabs 0 [] line)))
        (expandTabs 0 [] line)).flatMap (fun l => condensed (fitLine n (dropExcess n l)))
    _ = (cutAt 0 (breaks n .fold 0 0 (wordsOf (expandTabs 0 [] line).length
          (expandTabs 0 [] line))) (expandTabs 0 [] line)).flatMap condensed :=
      List.flatMap_congr fun l hl => condensed_fitLine (hfits l hl)
    _ = condensed (expandTabs 0 [] line) := by rw [← condensed_flatten, flatten_cutAt]
    _ = condensed line := condensed_expandTabs 0 [] line

/-- **But for blanks, a paragraph is the text it is made of.** -/
theorem condensed_paragraphText {shown : List Char} (h : WellSpaced shown) :
    condensed (paragraphText shown).toList = condensed shown := by
  have hsame : String.toList ∘ String.ofList = id := funext fun _ => String.toList_ofList
  have hblank : ∀ c ∈ "\n".toList, isBlank c = true := List.forall_mem_singleton.2 (by decide)
  have hlines : (splitFeeds shown).flatMap (fun line =>
      ((wrapLine consoleWidth .fold line).map (fitLine consoleWidth)).flatMap condensed) =
        (splitFeeds shown).flatMap condensed :=
    List.flatMap_congr fun line hline =>
      condensed_wrapLine (by decide) (h.of_mem_splitFeeds hline)
  rw [paragraphText, String.toList_append, String.toList_intercalate, condensed_append,
    condensed_blanks hblank, condensed_intercalate hblank, List.map_map, hsame, List.map_id,
    List.flatMap_assoc, hlines, condensed_splitFeeds, List.append_nil]

end QueryDepth.Console
