import QueryDepth.Document.Token
import QueryDepth.Ignore.Normalize
import QueryDepth.Proofs.Pattern.Reading

/-!
# Ignore options made of names

An ignore option that is a text is a regular expression, and its rule matches the names in which the
expression is found anywhere. What this means for options that are made of names and anchors:

| option           | the rule matches         |
| ---------------- | ------------------------ |
| `word`           | names that contain it    |
| `^word`          | names that begin with it |
| `word$`          | names that end with it   |
| `^word$`         | just this name           |
| `^(a\|b\|…)$`    | just these names         |

**Theorem.** `IgnoreRule.ofData_words`, for all words and all names, whichever of the words are
beginnings of each other.

The option is compiled by `Pattern.compile_items` or `Pattern.compile_choice` to a plain expression,
and `Pattern.search_iff` says where that leads. Names have no line feeds, so the anchor `$` holds
only at their end (`Regex.holds_lastLineEnd`).
-/

namespace QueryDepth

open Regex PatternReader

/-! ## Where words and anchors are found -/

section

variable {p q : Place} {word : List Char}

theorem Regex.holds_lastLineEnd (h : '\n' ∉ p.after) :
    Anchor.lastLineEnd.holds p = true ↔ p.after = [] := by
  have hfeed : p.after ≠ ['\n'] := fun hafter => h (hafter ▸ List.mem_singleton_self _)
  simp [Anchor.holds, hfeed]

/-- A word before an anchor at the end leads over all that is left. -/
theorem Regex.leads_word_end (h : '\n' ∉ p.after) :
    (catAll (chars word ++ [.anchor .lastLineEnd])).Leads p q ↔
      p.after = word ∧ q = ⟨word.reverse ++ p.before, []⟩ := by
  rw [leads_catAll_chars]
  constructor
  · rintro ⟨rest, hafter, hholds, rfl⟩
    have hrest : rest = [] :=
      (holds_lastLineEnd fun hmem => h (hafter ▸ List.mem_append_right _ hmem)).1 hholds
    exact ⟨by rw [hafter, hrest, List.append_nil], by rw [hrest]⟩
  · rintro ⟨hafter, rfl⟩
    exact ⟨[], by rw [hafter, List.append_nil], (holds_lastLineEnd List.not_mem_nil).2 rfl, rfl⟩

end

section

variable {p : Pattern} {rs : List Regex} {text : String} {word : List Char}

/-- An expression that begins with `^` is found at the beginning only. -/
theorem Pattern.search_textStart (hp : p.regex = catAll (.anchor .textStart :: rs))
    (hplain : ∀ r ∈ rs, r.IsPlain) :
    p.search text = true ↔ ∃ q, (catAll rs).Leads ⟨[], text.toList⟩ q := by
  have hregex : p.regex.IsPlain :=
    hp ▸ isPlain_catAll (List.forall_mem_cons.2 ⟨.anchor _, hplain⟩)
  rw [search_iff hregex]
  simp only [hp, leads_catAll_anchor]
  constructor
  · rintro ⟨skipped, rest, q, hsplit, hstart, hq⟩
    have hskipped : skipped = [] := by simpa [Anchor.holds] using hstart
    rw [hskipped] at hq hsplit
    exact ⟨q, hsplit ▸ hq⟩
  · rintro ⟨q, hq⟩
    exact ⟨[], text.toList, q, rfl, rfl, hq⟩

/-- The characters of a word lead over it. -/
theorem Regex.leads_catAll_word {m q : Place} : (catAll (chars word)).Leads m q ↔
    ∃ rest, m.after = word ++ rest ∧ q = ⟨word.reverse ++ m.before, rest⟩ := by
  have h : (catAll (chars word ++ [])).Leads m q ↔ ∃ rest, m.after = word ++ rest ∧
      (catAll []).Leads ⟨word.reverse ++ m.before, rest⟩ q := leads_catAll_chars
  rwa [List.append_nil] at h

theorem Pattern.search_word (hp : p.regex = catAll (chars word)) :
    p.search text = true ↔ word <:+: text.toList := by
  rw [search_iff (hp ▸ isPlain_catAll isPlain_of_mem_chars), hp]
  simp only [leads_catAll_word]
  constructor
  · rintro ⟨skipped, rest, q, hsplit, more, rfl, -⟩
    exact ⟨skipped, more, by rw [hsplit, List.append_assoc]⟩
  · rintro ⟨skipped, more, hsplit⟩
    exact ⟨skipped, word ++ more, _, by rw [← hsplit, List.append_assoc], more, rfl, rfl⟩

theorem Pattern.search_word_end (hp : p.regex = catAll (chars word ++ [.anchor .lastLineEnd]))
    (htext : '\n' ∉ text.toList) : p.search text = true ↔ word <:+ text.toList := by
  have hplain : ∀ r ∈ chars word ++ [Regex.anchor .lastLineEnd], r.IsPlain :=
    List.forall_mem_append.2 ⟨isPlain_of_mem_chars, List.forall_mem_singleton.2 (.anchor _)⟩
  rw [search_iff (hp ▸ isPlain_catAll hplain), hp]
  constructor
  · rintro ⟨skipped, rest, q, hsplit, hq⟩
    have hrest : '\n' ∉ rest := fun hmem => htext (hsplit ▸ List.mem_append_right _ hmem)
    obtain ⟨rfl, -⟩ := (leads_word_end hrest).1 hq
    exact ⟨skipped, hsplit.symm⟩
  · rintro ⟨skipped, hsplit⟩
    have hword : '\n' ∉ word := fun hmem => htext (hsplit ▸ List.mem_append_right _ hmem)
    exact ⟨skipped, word, _, hsplit.symm, (leads_word_end hword).2 ⟨rfl, rfl⟩⟩

theorem Pattern.search_start_word (hp : p.regex = catAll (.anchor .textStart :: chars word)) :
    p.search text = true ↔ word <+: text.toList := by
  rw [search_textStart hp isPlain_of_mem_chars]
  constructor
  · rintro ⟨q, hq⟩
    obtain ⟨rest, hrest, -⟩ := leads_catAll_word.1 hq
    exact ⟨rest, hrest.symm⟩
  · rintro ⟨rest, hrest⟩
    exact ⟨_, leads_catAll_word.2 ⟨rest, hrest.symm, rfl⟩⟩

theorem Pattern.search_start_word_end
    (hp : p.regex = catAll (.anchor .textStart :: (chars word ++ [.anchor .lastLineEnd])))
    (htext : '\n' ∉ text.toList) : p.search text = true ↔ text.toList = word := by
  have hplain : ∀ r ∈ chars word ++ [Regex.anchor .lastLineEnd], r.IsPlain :=
    List.forall_mem_append.2 ⟨isPlain_of_mem_chars, List.forall_mem_singleton.2 (.anchor _)⟩
  rw [search_textStart hp hplain]
  simp only [leads_word_end (p := ⟨[], text.toList⟩) htext, exists_and_left, exists_eq, and_true]

/-- A choice leads over each of its words. -/
theorem Regex.leads_choice {m q : Place} {words : List (List Char)} (hne : words ≠ []) :
    (choice words).Leads m q ↔
      ∃ word ∈ words, ∃ rest, m.after = word ++ rest ∧ q = ⟨word.reverse ++ m.before, rest⟩ := by
  have hmap : words.map (fun word => catAll (chars word)) ≠ [] := by simpa using hne
  rw [leads_altAll hmap]
  constructor
  · rintro ⟨r, hr, hleads⟩
    obtain ⟨word, hword, rfl⟩ := List.mem_map.1 hr
    exact ⟨word, hword, leads_catAll_word.1 hleads⟩
  · rintro ⟨word, hword, hleads⟩
    exact ⟨_, List.mem_map_of_mem hword, leads_catAll_word.2 hleads⟩

theorem Regex.isPlain_choice {words : List (List Char)} : (choice words).IsPlain := by
  refine isPlain_altAll fun r hr => ?_
  obtain ⟨word, -, rfl⟩ := List.mem_map.1 hr
  exact isPlain_catAll isPlain_of_mem_chars

theorem Pattern.search_choice {words : List (List Char)} (hne : words ≠ [])
    (hp : p.regex = catAll
      [.anchor .textStart, .group (some 1) (choice words), .anchor .lastLineEnd])
    (htext : '\n' ∉ text.toList) : p.search text = true ↔ text.toList ∈ words := by
  have hplain : ∀ r ∈ [Regex.group (some 1) (choice words), .anchor .lastLineEnd], r.IsPlain :=
    List.forall_mem_cons.2 ⟨.group _ isPlain_choice, List.forall_mem_singleton.2 (.anchor _)⟩
  have hgroup : ∀ {m q : Place}, (Regex.group (some 1) (choice words)).Leads m q ↔
      (choice words).Leads m q := Iff.rfl
  rw [search_textStart hp hplain]
  simp only [leads_catAll_cons, hgroup, leads_choice hne]
  constructor
  · rintro ⟨q, m, ⟨word, hword, rest, hsplit, rfl⟩, m', ⟨hholds, -⟩, -⟩
    have hsplit : text.toList = word ++ rest := hsplit
    have hrest : rest = [] :=
      (holds_lastLineEnd fun hmem => htext (hsplit ▸ List.mem_append_right _ hmem)).1 hholds
    rw [hsplit, hrest, List.append_nil]
    exact hword
  · intro hword
    have hend : Anchor.lastLineEnd.holds ⟨text.toList.reverse, []⟩ = true := rfl
    exact ⟨⟨text.toList.reverse, []⟩, ⟨text.toList.reverse, []⟩,
      ⟨text.toList, hword, [], (List.append_nil _).symm, by rw [List.append_nil]⟩,
      ⟨text.toList.reverse, []⟩, ⟨hend, rfl⟩, rfl⟩

end

/-! ## Options -/

/-- Names are made of letters, digits and underscores. -/
def IsNameText (name : String) : Prop := ∀ c ∈ name.toList, Token.isNameChar c = true

instance (name : String) : Decidable (IsNameText name) :=
  decidable_of_iff (name.toList.all Token.isNameChar = true) List.all_eq_true

namespace IgnoreRule

/-- The option has a rule, which tells for every name whether it is among the chosen ones. -/
def Selects (source : String) (chosen : String → Prop) : Prop :=
  ∃ rule, ofData (.text source) = .ok rule ∧ ∀ name, IsNameText name →
    ∃ matched, (rule.ask name).answer = .ok matched ∧ (matched = true ↔ chosen name)

theorem isLiteral_of_isNameChar {c : Char} (h : Token.isNameChar c = true) : IsLiteral c := by
  have hspecial : (special.all fun d => !Token.isNameChar d) = true := by decide
  intro hmem
  have hnot := List.all_eq_true.1 hspecial c hmem
  rw [h] at hnot
  exact Bool.false_ne_true hnot

theorem selects_of_compile {source : String} {regex : Regex} {chosen : String → Prop}
    (hcompile : Pattern.compile source = .ok ⟨source, {}, regex⟩)
    (hsearch : ∀ text : String, '\n' ∉ text.toList →
      (Pattern.search ⟨source, {}, regex⟩ text = true ↔ chosen text)) :
    Selects source chosen := by
  refine ⟨.pattern ⟨source, {}, regex⟩, by rw [ofData, hcompile], fun name hname => ?_⟩
  have hfeed : '\n' ∉ name.toList := fun hmem => absurd (hname _ hmem) (by decide)
  exact ⟨_, rfl, hsearch name hfeed⟩

section

variable {word : String} {words : List String}

theorem isLiteral_of_mem (hword : IsNameText word) : ∀ c ∈ word.toList, IsLiteral c :=
  fun c hc => isLiteral_of_isNameChar (hword c hc)

theorem isItem_of_mem (hword : IsNameText word) : ∀ c ∈ word.toList, IsItem c :=
  fun c hc => .literal (isLiteral_of_mem hword c hc)

theorem map_item_word (hword : IsNameText word) : word.toList.map item = chars word.toList :=
  map_item_of_literal (isLiteral_of_mem hword)

theorem isItem_of_mem_end (hword : IsNameText word) : ∀ c ∈ word.toList ++ ['$'], IsItem c :=
  List.forall_mem_append.2 ⟨isItem_of_mem hword, List.forall_mem_singleton.2 .stop⟩

theorem selects_word (hword : IsNameText word) :
    Selects word fun name => word.toList <:+: name.toList := by
  have hcompile := Pattern.compile_items (isItem_of_mem hword)
  rw [map_item_word hword] at hcompile
  exact selects_of_compile hcompile fun text _ => Pattern.search_word rfl

theorem selects_start_word (hword : IsNameText word) :
    Selects ("^" ++ word) fun name => word.toList <+: name.toList := by
  have hsource : ("^" ++ word).toList = '^' :: word.toList := String.toList_append
  have hall : ∀ c ∈ ("^" ++ word).toList, IsItem c :=
    hsource ▸ List.forall_mem_cons.2 ⟨.start, isItem_of_mem hword⟩
  have hcompile := Pattern.compile_items hall
  rw [hsource, List.map_cons, map_item_word hword] at hcompile
  exact selects_of_compile hcompile fun text _ => Pattern.search_start_word rfl

theorem selects_word_end (hword : IsNameText word) :
    Selects (word ++ "$") fun name => word.toList <:+ name.toList := by
  have hsource : (word ++ "$").toList = word.toList ++ ['$'] := String.toList_append
  have hall : ∀ c ∈ (word ++ "$").toList, IsItem c := hsource ▸ isItem_of_mem_end hword
  have hcompile := Pattern.compile_items hall
  rw [hsource, List.map_append, map_item_word hword] at hcompile
  exact selects_of_compile hcompile fun text => Pattern.search_word_end rfl

theorem selects_start_word_end (hword : IsNameText word) :
    Selects ("^" ++ word ++ "$") fun name => name = word := by
  have hsource : ("^" ++ word ++ "$").toList = '^' :: (word.toList ++ ['$']) := by
    rw [String.toList_append, String.toList_append]
    rfl
  have hall : ∀ c ∈ ("^" ++ word ++ "$").toList, IsItem c :=
    hsource ▸ List.forall_mem_cons.2 ⟨.start, isItem_of_mem_end hword⟩
  have hcompile := Pattern.compile_items hall
  rw [hsource, List.map_cons, List.map_append, map_item_word hword] at hcompile
  refine selects_of_compile hcompile fun text htext => ?_
  rw [Pattern.search_start_word_end rfl htext, String.toList_inj]

theorem selects_choice (hne : words ≠ []) (hwords : ∀ w ∈ words, IsNameText w) :
    Selects ("^(" ++ "|".intercalate words ++ ")$") fun name => name ∈ words := by
  have hsource : ("^(" ++ "|".intercalate words ++ ")$").toList =
      '^' :: '(' :: (barred (words.map String.toList) ++ [')', '$']) := by
    rw [String.toList_append, String.toList_append, String.toList_intercalate]
    rfl
  have hliterals : ∀ w ∈ words.map String.toList, ∀ c ∈ w, IsLiteral c := by
    intro w hw
    obtain ⟨name, hname, rfl⟩ := List.mem_map.1 hw
    exact isLiteral_of_mem (hwords name hname)
  have hnonempty : words.map String.toList ≠ [] := by simpa using hne
  refine selects_of_compile (Pattern.compile_choice hnonempty hliterals hsource)
    fun text htext => ?_
  rw [Pattern.search_choice hnonempty rfl htext]
  constructor
  · intro hmem
    obtain ⟨name, hname, htoList⟩ := List.mem_map.1 hmem
    exact String.toList_inj.1 htoList ▸ hname
  · exact fun hmem => List.mem_map_of_mem hmem

end

/-- **Options made of names select what they say.** -/
theorem ofData_words {word : String} (hword : IsNameText word) {words : List String}
    (hne : words ≠ []) (hwords : ∀ w ∈ words, IsNameText w) :
    Selects word (fun name => word.toList <:+: name.toList) ∧
    Selects ("^" ++ word) (fun name => word.toList <+: name.toList) ∧
    Selects (word ++ "$") (fun name => word.toList <:+ name.toList) ∧
    Selects ("^" ++ word ++ "$") (fun name => name = word) ∧
    Selects ("^(" ++ "|".intercalate words ++ ")$") (fun name => name ∈ words) :=
  ⟨selects_word hword, selects_start_word hword, selects_word_end hword,
    selects_start_word_end hword, selects_choice hne hwords⟩

/-- One of the words is the beginning of the other, and both are chosen. -/
theorem ofData_words_overlapping :
    Selects "ab" (fun name => "ab".toList <:+: name.toList) ∧
    Selects "^ab" (fun name => "ab".toList <+: name.toList) ∧
    Selects "ab$" (fun name => "ab".toList <:+ name.toList) ∧
    Selects "^ab$" (fun name => name = "ab") ∧
    Selects "^(a|ab)$" (fun name => name ∈ ["a", "ab"]) := by
  have hword : IsNameText "ab" := by decide
  have hwords : ∀ w ∈ ["a", "ab"], IsNameText w := by decide
  have hselects := ofData_words hword (List.cons_ne_nil _ _) hwords
  exact hselects

end IgnoreRule

end QueryDepth
