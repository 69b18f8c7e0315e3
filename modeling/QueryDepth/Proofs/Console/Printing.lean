import Mathlib.Tactic.IntervalCases
import QueryDepth.Proofs.Console.Rendering
import QueryDepth.Report

/-!
# Which reports are printed

A report is printed block by block, and the printing ends at the first block with a text that does
not show. The texts of a report are its own, but for the names of operations and the messages of
findings.

**Theorem (`Report.renders_blocks`).** All blocks of a report are printed if no name and no message
in it closes anything. If the printing ends early, some text did not show
(`exists_error_of_printBlocks`).
-/

namespace QueryDepth

open Console

/-! ## Blocks -/

namespace Console

theorem mapM_ok {α β ε : Type} {f : α → Except ε β} : ∀ {l : List α},
    (∀ a ∈ l, ∃ b, f a = .ok b) → ∃ bs, l.mapM f = .ok bs
  | [], _ => ⟨[], rfl⟩
  | a :: l, h => by
    obtain ⟨b, hb⟩ := h a List.mem_cons_self
    obtain ⟨bs, hbs⟩ := mapM_ok fun a ha => h a (List.mem_cons_of_mem _ ha)
    refine ⟨b :: bs, ?_⟩
    rw [List.mapM_cons, hb, hbs]
    rfl

section

variable [MarkupLibrary]

namespace Block

/-- Every text of the block shows. -/
def Renders : Block → Prop
  | .paragraph markup => ∃ shown, render markup.toList = .ok shown
  | .table rows => ∀ row ∈ rows, (∃ shown, render row.1.toList = .ok shown) ∧
      ∃ shown, render row.2.toList = .ok shown
  | .emptyLine => True

theorem Renders.text_ok {b : Block} (h : b.Renders) : ∃ text, b.text = .ok text := by
  cases b with
  | paragraph markup =>
    obtain ⟨shown, hshown⟩ := h
    exact ⟨paragraphText shown, by rw [text, hshown]; rfl⟩
  | table rows =>
    obtain ⟨left, hleft⟩ := mapM_ok (f := fun r : String × String => render r.1.toList)
      fun row hrow => (h row hrow).1
    obtain ⟨right, hright⟩ := mapM_ok (f := fun r : String × String => render r.2.toList)
      fun row hrow => (h row hrow).2
    refine ⟨tableText (left.zip right), ?_⟩
    rw [text, renderRows, hleft, hright]
    rfl
  | emptyLine => exact ⟨"\n", rfl⟩

end Block

theorem printBlocks_ok : ∀ {blocks : List Block}, (∀ b ∈ blocks, b.Renders) →
    (printBlocks blocks).2 = none
  | [], _ => rfl
  | b :: blocks, h => by
    obtain ⟨text, htext⟩ := (h b List.mem_cons_self).text_ok
    rw [printBlocks, htext]
    exact printBlocks_ok fun b hb => h b (List.mem_cons_of_mem _ hb)

end

end Console

/-! ## Reports -/

theorem isStyle_boldCyan : IsStyle "bold cyan".toList :=
  ⟨.of_all rfl (by decide), by decide, by decide, by decide, by decide +kernel⟩

theorem isStyle_dim : IsStyle "dim".toList :=
  ⟨.of_all rfl (by decide), by decide, by decide, by decide, by decide +kernel⟩

theorem isStyle_green : IsStyle "green".toList :=
  ⟨.of_all rfl (by decide), by decide, by decide, by decide, by decide +kernel⟩

theorem isStyle_yellow : IsStyle "yellow".toList :=
  ⟨.of_all rfl (by decide), by decide, by decide, by decide, by decide +kernel⟩

/-- A text in a style, between texts without tags. -/
theorem shows_styled [MarkupLibrary] {style : List Char} (hstyle : IsStyle style)
    (before plain after : List Char) (hbefore : Inert before) (hplain : Inert plain)
    (hafter : Inert after) :
    Shows [] (before ++ ('[' :: style ++ ']' ::
      (plain ++ ('[' :: '/' :: style ++ ']' :: after)))) true := by
  refine Shows.plain (hbefore.bare _) (Shows.styled hstyle (hplain.bare _) ?_)
  rw [← List.append_nil after]
  exact Shows.plain (hafter.bare _) .nil

theorem mem_digits_of_isDigit {c : Char} (h : c.isDigit = true) : c ∈ "0123456789".toList := by
  have hbounds : 48 ≤ c.toNat ∧ c.toNat ≤ 57 := by
    unfold Char.isDigit at h
    rw [Bool.and_eq_true, decide_eq_true_eq, decide_eq_true_eq] at h
    exact ⟨UInt32.le_iff_toNat_le.1 h.1, UInt32.le_iff_toNat_le.1 h.2⟩
  obtain ⟨hlow, hhigh⟩ := hbounds
  rw [← Char.ofNat_toNat c]
  interval_cases c.toNat <;> decide

theorem forall_mem_intercalate {P : Char → Prop} {sep : List Char} (hsep : ∀ c ∈ sep, P c) :
    ∀ {texts : List (List Char)}, (∀ t ∈ texts, ∀ c ∈ t, P c) → ∀ c ∈ sep.intercalate texts, P c
  | [], _ => by
    rw [List.intercalate_nil]
    exact nofun
  | [t], h => by
    rw [List.intercalate_singleton]
    exact h t List.mem_cons_self
  | t :: t' :: more, h => by
    rw [List.intercalate_cons_cons]
    have hmore := forall_mem_intercalate hsep fun u hu => h u (List.mem_cons_of_mem _ hu)
    exact List.forall_mem_append.2
      ⟨List.forall_mem_append.2 ⟨h t List.mem_cons_self, hsep⟩, hmore⟩

namespace Report

theorem render_depthCell [MarkupLibrary] (limit depth : Int) :
    ∃ shown, render (depthCell limit depth).toList = .ok shown := by
  have hafter : Inert (" ".toList ++ (Decimal.intText depth).toList) :=
    Inert.append (by decide) (inert_intText depth)
  refine exists_ok_of_isOk (Shows.render ?_)
  unfold depthCell
  split
  · exact shows_styled isStyle_red [] "✖".toList " error".toList nofun (by decide) (by decide)
  · split
    · rw [String.toList_append]
      exact shows_styled isStyle_yellow [] "⚠".toList _ nofun (by decide) hafter
    · rw [String.toList_append]
      exact shows_styled isStyle_green [] "✓".toList _ nofun (by decide) hafter

/-- What stands behind the message of a finding. -/
def placesText (places : List Location) : String :=
  if places.isEmpty then ""
  else " [dim](" ++ ", ".intercalate (places.map placeText) ++ ")[/dim]"

/-- The places, without what makes them dim. -/
def placesList (places : List Location) : List Char :=
  "(".toList ++ (", ".intercalate (places.map placeText)).toList ++ ")".toList

/-- Only a few characters stand in places. -/
theorem forall_mem_placesList {p : Char → Bool}
    (h : "(line :, )0123456789".toList.all p = true) (places : List Location) :
    ∀ c ∈ placesList places, p c = true := by
  have hpart (part : String) (hsubset : part.toList ⊆ "(line :, )0123456789".toList) :
      ∀ c ∈ part.toList, p c = true := fun c hc => List.all_eq_true.1 h c (hsubset hc)
  have hnumber (n : Nat) : ∀ c ∈ (Decimal.natText n).toList, p c = true := fun c hc =>
    hpart "0123456789" (by decide) c (mem_digits_of_isDigit (isDigit_of_mem_natText hc))
  have hplace (l : Location) : ∀ c ∈ (placeText l).toList, p c = true := by
    rw [placeText]
    simp only [String.toList_append, List.forall_mem_append]
    exact ⟨⟨⟨hpart "line " (by decide), hnumber l.line⟩, hpart ":" (by decide)⟩, hnumber l.column⟩
  rw [placesList, String.toList_intercalate, List.map_map]
  simp only [List.forall_mem_append]
  refine ⟨⟨hpart "(" (by decide), forall_mem_intercalate (hpart ", " (by decide)) fun t ht => ?_⟩,
    hpart ")" (by decide)⟩
  obtain ⟨l, -, rfl⟩ := List.mem_map.1 ht
  exact hplace l

theorem inert_placesList (places : List Location) : Inert (placesList places) := fun c hc =>
  of_decide_eq_true
    (forall_mem_placesList (p := fun c => c ≠ '[' ∧ c ≠ '\\') (by decide) places c hc)

theorem toList_placesText {places : List Location} (h : places ≠ []) :
    (placesText places).toList = " ".toList ++ ('[' :: "dim".toList ++ ']' ::
      (placesList places ++ ('[' :: '/' :: "dim".toList ++ ']' :: []))) := by
  rw [placesText, if_neg (by simpa using h), placesList]
  simp only [String.toList_append, List.append_assoc]
  rfl

theorem repels_placesText (places : List Location) : Repels (placesText places).toList := by
  by_cases h : places = []
  · rw [h]
    exact nofun
  · rw [toList_placesText h]
    simp [Repels]

theorem shows_placesText [MarkupLibrary] (places : List Location) (opened : List OpenTag)
    (n : Nat) : Shows opened (List.replicate n '\\' ++ (placesText places).toList) true := by
  by_cases h : places = []
  · have hempty : (placesText []).toList = [] := rfl
    rw [h, hempty, List.append_nil]
    exact .backslashes opened n
  · rw [toList_placesText h, ← List.append_assoc]
    refine Shows.plain ⟨?_, ?_⟩ (Shows.styled isStyle_dim ((inert_placesList places).bare _) .nil)
    · intro hmem
      exact (List.mem_append.1 hmem).elim (bracket_notMem_backslashes n) (by decide)
    · intro hlast
      rw [List.getLast?_append] at hlast
      exact absurd hlast (by simp)

theorem toList_findingText (f : Finding) : (findingText f).toList =
    "  ".toList ++ ('[' :: "red".toList ++ ']' :: ("✖".toList ++
      ('[' :: '/' :: "red".toList ++ ']' :: (" ".toList ++
        (f.message.toList ++ (placesText f.locations).toList))))) := by
  change ("  [red]✖[/red] " ++ f.message ++ placesText f.locations).toList = _
  simp only [String.toList_append, List.append_assoc]
  rfl

theorem render_findingText [MarkupLibrary] {f : Finding} (h : ClosesNothing f.message.toList) :
    ∃ shown, render (findingText f).toList = .ok shown := by
  refine exists_ok_of_isOk (Shows.render ?_)
  rw [toList_findingText]
  refine Shows.plain (Inert.bare (by decide) _) (Shows.styled isStyle_red (Inert.bare (by decide) _)
    (Shows.plain (Inert.bare (by decide) _) ?_))
  exact Shows.foreign (Q := fun _ => True) (fun _ h => h) (repels_placesText _)
    (fun n opened _ => shows_placesText _ opened n) _ h trivial

theorem render_title [MarkupLibrary] (limit : Int) :
    ∃ shown, render ("\n[bold cyan]Operation Depths[/bold cyan] [dim](max " ++
      Decimal.intText limit ++ ")[/dim]\n").toList = .ok shown := by
  have htext : ("\n[bold cyan]Operation Depths[/bold cyan] [dim](max " ++ Decimal.intText limit ++
      ")[/dim]\n").toList = "\n".toList ++ ('[' :: "bold cyan".toList ++ ']' ::
        ("Operation Depths".toList ++ ('[' :: '/' :: "bold cyan".toList ++ ']' ::
          (" ".toList ++ ('[' :: "dim".toList ++ ']' ::
            (("(max ".toList ++ (Decimal.intText limit).toList ++ ")".toList) ++
              ('[' :: '/' :: "dim".toList ++ ']' :: "\n".toList))))))) := by
    simp only [String.toList_append, List.append_assoc]
    rfl
  have hlimit : Inert ("(max ".toList ++ (Decimal.intText limit).toList ++ ")".toList) :=
    (Inert.append (by decide) (inert_intText limit)).append (by decide)
  refine exists_ok_of_isOk (Shows.render ?_)
  rw [htext]
  exact Shows.plain (Inert.bare (by decide) _) (Shows.styled isStyle_boldCyan
    (Inert.bare (by decide) _) (shows_styled isStyle_dim _ _ _ (by decide) hlimit (by decide)))

/-- What is printed before the findings, if there are any. -/
def opening (r : Report) : List Block :=
  [.paragraph ("\n[bold cyan]Operation Depths[/bold cyan] [dim](max " ++ Decimal.intText r.limit
      ++ ")[/dim]\n"),
    .table (r.depths.map fun (name, depth) => (shownOperationName name, depthCell r.limit depth)),
    .paragraph "\n[bold cyan]Errors:[/bold cyan]\n"]

theorem blocks_of_findings {r : Report} (h : r.findings ≠ []) : r.blocks = r.opening ++
    (r.findings.map (fun f => Block.paragraph (findingText f)) ++ [Block.emptyLine]) := by
  have hok : ¬ r.isOk = true := fun hempty => h (List.isEmpty_iff.1 hempty)
  unfold blocks opening
  dsimp only
  rw [if_neg hok]
  rfl

theorem blocks_of_no_findings {r : Report} (h : r.findings = []) : r.blocks =
    r.opening.take 2 ++
      [Block.paragraph "\n[green]✓ No issues found[/green]", Block.emptyLine] := by
  have hok : r.isOk = true := List.isEmpty_iff.2 h
  unfold blocks opening
  dsimp only
  rw [if_pos hok]
  rfl

theorem renders_opening [MarkupLibrary] {r : Report}
    (hdepths : ∀ entry ∈ r.depths, ClosesNothing (shownOperationName entry.1).toList) :
    ∀ b ∈ r.opening, b.Renders := by
  have herrors : ∃ shown, render "\n[bold cyan]Errors:[/bold cyan]\n".toList = .ok shown :=
    exists_ok_of_isOk (Shows.render (shows_styled isStyle_boldCyan "\n".toList "Errors:".toList
      "\n".toList (by decide) (by decide) (by decide)))
  have htable : (Block.table (r.depths.map fun (name, depth) =>
      (shownOperationName name, depthCell r.limit depth))).Renders := by
    intro row hrow
    obtain ⟨entry, hentry, rfl⟩ := List.mem_map.1 hrow
    exact ⟨render_of_closesNothing (hdepths entry hentry), render_depthCell r.limit entry.2⟩
  intro b hb
  simp only [opening, List.mem_cons, List.not_mem_nil, or_false] at hb
  rcases hb with rfl | rfl | rfl
  · exact render_title r.limit
  · exact htable
  · exact herrors

theorem render_noIssues [MarkupLibrary] :
    ∃ shown, render "\n[green]✓ No issues found[/green]".toList = .ok shown := by
  have htext : "\n[green]✓ No issues found[/green]".toList =
      "\n".toList ++ ('[' :: "green".toList ++ ']' :: ("✓ No issues found".toList ++
        ('[' :: '/' :: "green".toList ++ ']' :: []))) := by
    decide +kernel
  rw [htext]
  refine exists_ok_of_isOk (Shows.render ?_)
  exact shows_styled isStyle_green _ _ [] (by decide) (by decide) nofun

/-- **A report is printed if no text in it closes anything.** -/
theorem renders_blocks [MarkupLibrary] {r : Report}
    (hdepths : ∀ entry ∈ r.depths, ClosesNothing (shownOperationName entry.1).toList)
    (hfindings : ∀ f ∈ r.findings, ClosesNothing f.message.toList) :
    ∀ b ∈ r.blocks, b.Renders := by
  have hopening := renders_opening hdepths
  by_cases hnone : r.findings = []
  · intro b hb
    rw [blocks_of_no_findings hnone] at hb
    simp only [List.mem_append, List.mem_cons, List.not_mem_nil, or_false] at hb
    rcases hb with hb | rfl | rfl
    · exact hopening b (List.mem_of_mem_take hb)
    · exact render_noIssues
    · trivial
  · intro b hb
    rw [blocks_of_findings hnone] at hb
    simp only [List.mem_append, List.mem_map, List.mem_singleton] at hb
    rcases hb with hb | ⟨f, hf, rfl⟩ | rfl
    · exact hopening b hb
    · exact render_findingText (hfindings f hf)
    · trivial

end Report

end QueryDepth
