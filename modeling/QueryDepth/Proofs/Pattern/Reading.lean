import QueryDepth.Pattern.Reader
import QueryDepth.Proofs.Pattern.Matching

/-!
# What a pattern without special characters is read as

A character without a meaning of its own is *literal*. Together with the two anchors `^` and `$`
these are the characters that are an item by themselves (`IsItem`, `item`). The reader moves over a
text without backslashes, character by character; its state at a place is what it knew at the
beginning, with the units from that place on (`PatternState.on`).

**Run lemmas.** One item is one step of `branch` (`branch_item`), so a row of items is read as their
sequence (`branch_items`, by induction on the row). Literal words between bars are read as
alternatives (`alternatives_words`, by induction on the words), and these in parentheses as a group
(`group_words`).

**Theorems.** A pattern of items compiles to their sequence (`Pattern.compile_items`). Literal words
between bars, in parentheses and anchored on both sides, compile to a group of alternatives between
the anchors (`Pattern.compile_choice`).
-/

namespace QueryDepth

/-! ## Items -/

namespace Regex

/-- The characters that have a meaning of their own in a pattern. -/
def special : List Char := ['\\', '[', '(', ')', '?', '*', '+', '{', '.', '^', '$', '|']

def IsLiteral (c : Char) : Prop := c ∉ special

/-- The character is an item of a pattern by itself. -/
inductive IsItem : Char → Prop
  | literal {c : Char} (h : IsLiteral c) : IsItem c
  | start : IsItem '^'
  | stop : IsItem '$'

/-- The item that the character is. -/
def item : Char → Regex
  | '^' => .anchor .textStart
  | '$' => .anchor .lastLineEnd
  | c => .char .exact c

theorem IsLiteral.ne {c d : Char} (h : IsLiteral c) (hd : d ∈ special) : c ≠ d :=
  fun hcd => h (hcd ▸ hd)

theorem IsItem.ne_backslash {c : Char} (h : IsItem c) : c ≠ '\\' := by
  cases h with
  | literal h => exact h.ne (by decide)
  | start => decide
  | stop => decide

theorem item_of_literal {c : Char} (h : IsLiteral c) : item c = .char .exact c := by
  unfold item
  split
  · exact absurd rfl (h.ne (d := '^') (by decide))
  · exact absurd rfl (h.ne (d := '$') (by decide))
  · rfl

theorem map_item_of_literal {word : List Char} (h : ∀ c ∈ word, IsLiteral c) :
    word.map item = chars word :=
  List.map_congr_left fun c hc => item_of_literal (h c hc)

end Regex

/-! ## The reader on characters -/

/-- No character is a backslash, so every character is a unit. -/
def Unescaped (cs : List Char) : Prop := ∀ c ∈ cs, c ≠ '\\'

namespace PatternState

/-- The state with the characters `cs` left, the first of which is at `pos`. -/
def on (s : PatternState) (cs : List Char) (pos : Nat) : PatternState :=
  { s with units := PatternUnit.split cs pos }

/-- The state inside a group. -/
def opening (s : PatternState) : PatternState := { s with nextGroup := s.nextGroup + 1 }

/-- The state after a group with the given body. -/
def closing (s : PatternState) (body : Regex) : PatternState :=
  { s.opening with closed := (s.nextGroup, body.extent s.closed) :: s.closed }

/-- The state at the beginning of a pattern. -/
def initial (cs : List Char) : PatternState :=
  ⟨PatternUnit.split cs 0, cs.length, {}, 1, [], [], none, [], false⟩

end PatternState

namespace PatternReader

open Regex

variable {α β : Type} {s s' : PatternState} {c : Char} {cs rest : List Char} {pos : Nat}

theorem run_bind_ok {p : PatternReader α} {f : α → PatternReader β} {a : α}
    (h : p.run s = .ok (a, s')) : (p >>= f).run s = (f a).run s' := by
  rw [StateT.run_bind, h]
  rfl

theorem split_cons (hc : c ≠ '\\') (cs : List Char) (pos : Nat) :
    PatternUnit.split (c :: cs) pos = ⟨pos, false, c⟩ :: PatternUnit.split cs (pos + 1) := by
  rw [PatternUnit.split]
  exact fun _ _ h _ => hc h

theorem settle_split (h : Unescaped cs) (pos : Nat) :
    settle (PatternUnit.split cs pos) = .ok (PatternUnit.split cs pos) := by
  cases cs with
  | nil => rfl
  | cons c cs =>
    obtain ⟨hc, -⟩ := List.forall_mem_cons.1 h
    rw [split_cons hc]
    unfold settle
    split
    · next hsplit => exact absurd (congrArg PatternUnit.char (List.cons.inj hsplit).1) hc
    · rfl

theorem run_next : next?.run (s.on cs pos) = .ok ((PatternUnit.split cs pos).head?, s.on cs pos) :=
  rfl

theorem run_take (h : Unescaped (c :: cs)) :
    take.run (s.on (c :: cs) pos) = .ok (some ⟨pos, false, c⟩, s.on cs (pos + 1)) := by
  obtain ⟨hc, hcs⟩ := List.forall_mem_cons.1 h
  have hget : (get : PatternReader PatternState).run (s.on (c :: cs) pos) =
      .ok (s.on (c :: cs) pos, s.on (c :: cs) pos) := rfl
  have hunits : (s.on (c :: cs) pos).units =
      ⟨pos, false, c⟩ :: PatternUnit.split cs (pos + 1) := split_cons hc cs pos
  rw [take, run_bind_ok hget, hunits]
  simp only [settle_split hcs]
  rfl

theorem run_accept (h : Unescaped (c :: cs)) :
    (accept c).run (s.on (c :: cs) pos) = .ok (true, s.on cs (pos + 1)) := by
  rw [accept, run_bind_ok run_next, split_cons (List.forall_mem_cons.1 h).1]
  simp only [List.head?_cons, isPlain, Bool.not_false, Bool.true_and, decide_true, if_true]
  rw [run_bind_ok (run_take h)]
  rfl

theorem run_accept_other (hcs : Unescaped cs) (h : ∀ d ∈ cs.head?, d ≠ c) :
    (accept c).run (s.on cs pos) = .ok (false, s.on cs pos) := by
  rw [accept, run_bind_ok run_next]
  cases cs with
  | nil => rfl
  | cons d cs =>
    rw [split_cons (List.forall_mem_cons.1 hcs).1]
    simp only [List.head?_cons, isPlain, decide_eq_false (h d rfl), Bool.and_false,
      Bool.false_eq_true, if_false]
    rfl

/-! ## Items one after the other -/

section

variable {fuel : Nat} {top first : Bool} {items : List Regex}

/-- **Step**: an item is put in front of those that were read. -/
theorem branch_item (hc : IsItem c) (h : Unescaped (c :: cs)) :
    (branch (fuel + 1) top first {} items).run (s.on (c :: cs) pos) =
      (branch fuel top first {} (item c :: items)).run (s.on cs (pos + 1)) := by
  rw [branch, run_bind_ok run_next, split_cons hc.ne_backslash]
  have hends : ¬ ((isPlain '|' ⟨pos, false, c⟩ || isPlain ')' ⟨pos, false, c⟩) = true) := by
    cases hc with
    | literal hc =>
      simp [isPlain, hc.ne (d := '|') (by decide), hc.ne (d := ')') (by decide)]
    | start => simp [isPlain]
    | stop => simp [isPlain]
  simp only [List.head?_cons, if_neg hends]
  rw [run_bind_ok (run_take h)]
  cases hc with
  | literal hc =>
    rw [item_of_literal hc]
    simp only [Bool.false_eq_true, if_false, Bool.false_and]
    split
    all_goals first | rfl | exact absurd rfl (hc.ne (by decide))
  | start => rfl
  | stop => rfl

/-- The branch ends before a bar, a closing parenthesis and at the end. -/
theorem branch_stop (hcs : Unescaped cs) (hstop : ∀ d ∈ cs.head?, d = '|' ∨ d = ')') :
    (branch (fuel + 1) top first {} items).run (s.on cs pos) = .ok (items, s.on cs pos) := by
  rw [branch, run_bind_ok run_next]
  cases cs with
  | nil => rfl
  | cons d cs =>
    rw [split_cons (List.forall_mem_cons.1 hcs).1]
    rcases hstop d rfl with rfl | rfl <;> rfl

/-- **Run**: items are read up to where the branch ends. -/
theorem branch_items (hcs : ∀ c ∈ cs, IsItem c) (hrest : Unescaped rest)
    (hstop : ∀ d ∈ rest.head?, d = '|' ∨ d = ')') (hfuel : cs.length < fuel) :
    (branch fuel top first {} items).run (s.on (cs ++ rest) pos) =
      .ok ((cs.map item).reverse ++ items, s.on rest (pos + cs.length)) := by
  induction cs generalizing fuel items pos with
  | nil =>
    obtain ⟨fuel, rfl⟩ := Nat.exists_eq_add_one_of_ne_zero (Nat.ne_of_gt hfuel)
    exact branch_stop hrest hstop
  | cons c cs ih =>
    obtain ⟨hc, hcs⟩ := List.forall_mem_cons.1 hcs
    obtain ⟨fuel, rfl⟩ := Nat.exists_eq_add_one_of_ne_zero (Nat.ne_zero_of_lt hfuel)
    have hunescaped : Unescaped (c :: (cs ++ rest)) :=
      List.forall_mem_cons.2 ⟨hc.ne_backslash,
        List.forall_mem_append.2 ⟨fun d hd => (hcs d hd).ne_backslash, hrest⟩⟩
    rw [List.cons_append, branch_item hc hunescaped, ih hcs (Nat.lt_of_succ_lt_succ hfuel)]
    simp [Nat.add_assoc, Nat.add_comm 1]

theorem branch_word (hcs : ∀ c ∈ cs, IsLiteral c) (hrest : Unescaped rest)
    (hstop : ∀ d ∈ rest.head?, d = '|' ∨ d = ')') (hfuel : cs.length < fuel) :
    (branch fuel top first {} []).run (s.on (cs ++ rest) pos) =
      .ok ((chars cs).reverse, s.on rest (pos + cs.length)) := by
  rw [branch_items (fun c hc => .literal (hcs c hc)) hrest hstop hfuel, List.append_nil,
    map_item_of_literal hcs]

end

/-! ## Words between bars -/

section

variable {fuel : Nat} {top first : Bool} {items : List Regex} {s'' : PatternState}

/-- What `alternatives` does with a branch. -/
theorem alternatives_branch (hflags : s.flags = {})
    (hbranch : (branch fuel top (top && first) {} []).run s = .ok (items, s')) :
    (alternatives (fuel + 1) top first {}).run s = (do
      if ← accept '|' then
        return catAll items.reverse :: (← alternatives fuel top false {})
      else return [catAll items.reverse] : PatternReader (List Regex)).run s' := by
  have hget : (get : PatternReader PatternState).run s = .ok (s, s) := rfl
  have hsame : (if top then s.flags else {}) = ({} : Flags) := by rw [hflags, ite_self]
  rw [alternatives, run_bind_ok hget]
  simp only [hsame]
  rw [run_bind_ok hbranch]

theorem alternatives_last (hflags : s.flags = {})
    (hbranch : (branch fuel top (top && first) {} []).run s = .ok (items, s'.on rest pos))
    (hrest : Unescaped rest) (hstop : ∀ d ∈ rest.head?, d ≠ '|') :
    (alternatives (fuel + 1) top first {}).run s =
      .ok ([catAll items.reverse], s'.on rest pos) := by
  rw [alternatives_branch hflags hbranch, run_bind_ok (run_accept_other hrest hstop)]
  rfl

theorem alternatives_bar (hflags : s.flags = {})
    (hbranch : (branch fuel top (top && first) {} []).run s = .ok (items, s'.on ('|' :: rest) pos))
    (hrest : Unescaped rest) {rs : List Regex}
    (hmore : (alternatives fuel top false {}).run (s'.on rest (pos + 1)) = .ok (rs, s'')) :
    (alternatives (fuel + 1) top first {}).run s = .ok (catAll items.reverse :: rs, s'') := by
  have haccept : (accept '|').run (s'.on ('|' :: rest) pos) = .ok (true, s'.on rest (pos + 1)) :=
    run_accept (List.forall_mem_cons.2 ⟨by decide, hrest⟩)
  rw [alternatives_branch hflags hbranch, run_bind_ok haccept]
  simp only [if_true]
  rw [run_bind_ok hmore]
  rfl

end

/-- The words one after the other, with a bar between two of them. -/
abbrev barred (words : List (List Char)) : List Char := ['|'].intercalate words

theorem barred_cons_cons (word word' : List Char) (words : List (List Char)) :
    barred (word :: word' :: words) = word ++ '|' :: barred (word' :: words) := by
  simp [barred, List.intercalate_cons_cons]

section

variable {fuel : Nat} {first : Bool} {words : List (List Char)}

theorem literal_or_bar_of_mem_barred (hwords : ∀ word ∈ words, ∀ c ∈ word, IsLiteral c) :
    ∀ c ∈ barred words, IsLiteral c ∨ c = '|' := by
  induction words with
  | nil => exact fun c hc => absurd hc List.not_mem_nil
  | cons word words ih =>
    obtain ⟨hword, hwords⟩ := List.forall_mem_cons.1 hwords
    have hhead : ∀ c ∈ word, IsLiteral c ∨ c = '|' := fun c hc => .inl (hword c hc)
    cases words with
    | nil => simpa [barred] using hhead
    | cons word' words =>
      rw [barred_cons_cons]
      exact List.forall_mem_append.2 ⟨hhead, List.forall_mem_cons.2 ⟨.inr rfl, ih hwords⟩⟩

theorem unescaped_barred (hwords : ∀ word ∈ words, ∀ c ∈ word, IsLiteral c) :
    Unescaped (barred words) := by
  intro c hc
  rcases literal_or_bar_of_mem_barred hwords c hc with hliteral | rfl
  · exact hliteral.ne (by decide)
  · decide

/-- Behind an opening parenthesis the words ask for no other kind of group. -/
theorem head?_barred_ne (hwords : ∀ word ∈ words, ∀ c ∈ word, IsLiteral c) (rest : List Char) :
    ∀ d ∈ (barred words ++ ')' :: rest).head?, d ≠ '?' := by
  intro d hd
  cases hbarred : barred words with
  | nil =>
    rw [hbarred] at hd
    obtain rfl : ')' = d := Option.some.inj hd
    decide
  | cons c cs =>
    rw [hbarred] at hd
    obtain rfl : c = d := Option.some.inj hd
    rcases literal_or_bar_of_mem_barred hwords c (hbarred ▸ List.mem_cons_self) with hc | rfl
    · exact hc.ne (by decide)
    · decide

/-- Each word is an alternative. -/
theorem alternatives_words (hflags : s.flags = {}) (hne : words ≠ [])
    (hwords : ∀ word ∈ words, ∀ c ∈ word, IsLiteral c) (hrest : Unescaped (')' :: rest))
    (hfuel : (barred words).length + 1 < fuel) :
    (alternatives fuel false first {}).run (s.on (barred words ++ ')' :: rest) pos) =
      .ok (words.map fun word => catAll (chars word),
        s.on (')' :: rest) (pos + (barred words).length)) := by
  induction words generalizing fuel first pos with
  | nil => exact absurd rfl hne
  | cons word words ih =>
    obtain ⟨hword, hmore⟩ := List.forall_mem_cons.1 hwords
    obtain ⟨fuel, rfl⟩ := Nat.exists_eq_add_one_of_ne_zero (Nat.ne_zero_of_lt hfuel)
    have hthis : catAll (chars word).reverse.reverse = catAll (chars word) := by
      rw [List.reverse_reverse]
    cases words with
    | nil =>
      have hbarred : barred [word] = word := by simp [barred]
      rw [hbarred] at hfuel ⊢
      have hbranch : (branch fuel false false {} []).run (s.on (word ++ ')' :: rest) pos) =
          .ok ((chars word).reverse, s.on (')' :: rest) (pos + word.length)) :=
        branch_word hword hrest (by simp) (Nat.lt_of_succ_lt_succ hfuel)
      rw [List.map_singleton, ← hthis]
      exact alternatives_last hflags hbranch hrest (by simp)
    | cons word' words =>
      have hlater : Unescaped (barred (word' :: words) ++ ')' :: rest) :=
        List.forall_mem_append.2 ⟨unescaped_barred hmore, hrest⟩
      have hlength : (barred (word :: word' :: words)).length =
          word.length + (1 + (barred (word' :: words)).length) := by
        rw [barred_cons_cons, List.length_append, List.length_cons, Nat.add_comm 1]
      have hbranch : (branch fuel false false {} []).run
          (s.on (word ++ '|' :: (barred (word' :: words) ++ ')' :: rest)) pos) =
          .ok ((chars word).reverse,
            s.on ('|' :: (barred (word' :: words) ++ ')' :: rest)) (pos + word.length)) :=
        branch_word hword (List.forall_mem_cons.2 ⟨by decide, hlater⟩) (by simp) (by omega)
      have halternatives : (alternatives fuel false false {}).run
          (s.on (barred (word' :: words) ++ ')' :: rest) (pos + word.length + 1)) =
          .ok ((word' :: words).map fun word => catAll (chars word),
            s.on (')' :: rest) (pos + word.length + 1 + (barred (word' :: words)).length)) :=
        ih (List.cons_ne_nil _ _) hmore (by omega)
      rw [hlength, barred_cons_cons, List.append_assoc, List.cons_append, List.map_cons, ← hthis,
        ← Nat.add_assoc, ← Nat.add_assoc]
      exact alternatives_bar (s := s.on _ pos) hflags hbranch hlater halternatives

end

/-! ## Words in parentheses -/

section

variable {fuel start : Nat} {top first : Bool} {items : List Regex} {words : List (List Char)}

theorem groupKind_capture (hcs : Unescaped cs) (h : ∀ d ∈ cs.head?, d ≠ '?') :
    (groupKind start fuel).run (s.on cs pos) = .ok (.capture none, s.on cs pos) := by
  rw [groupKind, run_bind_ok (run_accept_other hcs h)]
  rfl

/-- The words as alternatives. -/
abbrev choice (words : List (List Char)) : Regex :=
  altAll (words.map fun word => catAll (chars word))

theorem group_words (hflags : s.flags = {}) (hne : words ≠ [])
    (hwords : ∀ word ∈ words, ∀ c ∈ word, IsLiteral c) (hrest : Unescaped (')' :: rest))
    (hfuel : (barred words).length + 2 < fuel) :
    (group fuel start {} (.capture none)).run (s.on (barred words ++ ')' :: rest) pos) =
      .ok (.group (some s.nextGroup) (choice words),
        (s.closing (choice words)).on rest (pos + (barred words).length + 1)) := by
  obtain ⟨fuel, rfl⟩ := Nat.exists_eq_add_one_of_ne_zero (Nat.ne_zero_of_lt hfuel)
  have hopen : (openGroup none).run (s.on (barred words ++ ')' :: rest) pos) =
      .ok (s.nextGroup, s.opening.on (barred words ++ ')' :: rest) pos) := rfl
  have hbody : (alternatives fuel false false {}).run
      (s.opening.on (barred words ++ ')' :: rest) pos) =
      .ok (words.map fun word => catAll (chars word),
        s.opening.on (')' :: rest) (pos + (barred words).length)) :=
    alternatives_words hflags hne hwords hrest (by omega)
  have hinner : innerFlags {} (.capture none) = {} := rfl
  rw [group, run_bind_ok hopen]
  simp only [bind_assoc, pure_bind, hinner]
  have hclose : (accept ')').run (s.opening.on (')' :: rest) (pos + (barred words).length)) =
      .ok (true, s.opening.on rest (pos + (barred words).length + 1)) := run_accept hrest
  rw [run_bind_ok hbody, closeParen]
  simp only [bind_assoc]
  rw [run_bind_ok hclose]
  rfl

/-- **Step**: a group of words is put in front of the items that were read. -/
theorem branch_group (hflags : s.flags = {}) (hne : words ≠ [])
    (hwords : ∀ word ∈ words, ∀ c ∈ word, IsLiteral c) (hrest : Unescaped (')' :: rest))
    (hfuel : (barred words).length + 2 < fuel) :
    (branch (fuel + 1) top first {} items).run (s.on ('(' :: (barred words ++ ')' :: rest)) pos) =
      (branch fuel top first {} (.group (some s.nextGroup) (choice words) :: items)).run
        ((s.closing (choice words)).on rest
          (pos + 1 + (barred words).length + 1)) := by
  have hinside : Unescaped (barred words ++ ')' :: rest) :=
    List.forall_mem_append.2 ⟨unescaped_barred hwords, hrest⟩
  have hall : Unescaped ('(' :: (barred words ++ ')' :: rest)) :=
    List.forall_mem_cons.2 ⟨by decide, hinside⟩
  have hkind : (groupKind pos fuel).run (s.on (barred words ++ ')' :: rest) (pos + 1)) =
      .ok (.capture none, s.on (barred words ++ ')' :: rest) (pos + 1)) :=
    groupKind_capture hinside (head?_barred_ne hwords rest)
  have hgroup : (group fuel pos {} (.capture none)).run
      (s.on (barred words ++ ')' :: rest) (pos + 1)) =
      .ok (.group (some s.nextGroup) (choice words),
        (s.closing (choice words)).on rest (pos + 1 + (barred words).length + 1)) :=
    group_words hflags hne hwords hrest hfuel
  rw [branch, run_bind_ok run_next, split_cons (by decide)]
  have hends : ¬ ((isPlain '|' ⟨pos, false, '('⟩ || isPlain ')' ⟨pos, false, '('⟩) = true) := by
    simp [isPlain]
  simp only [List.head?_cons, if_neg hends]
  rw [run_bind_ok (run_take hall)]
  simp only [Bool.false_eq_true, if_false, Bool.false_and]
  rw [run_bind_ok hkind]
  exact run_bind_ok hgroup

end

/-! ## Whole patterns -/

theorem length_split (h : Unescaped cs) (pos : Nat) :
    (PatternUnit.split cs pos).length = cs.length := by
  induction cs generalizing pos with
  | nil => rfl
  | cons c cs ih =>
    obtain ⟨hc, hcs⟩ := List.forall_mem_cons.1 h
    rw [split_cons hc, List.length_cons, ih hcs, List.length_cons]

theorem whole_of_branch {source : List Char} {items : List Regex} {fuel : Nat}
    (hsource : Unescaped source)
    (hbranch : (branch fuel true true {} []).run (PatternState.initial source) =
      .ok (items, s.on [] pos))
    (hasked : s.asked = []) (hbehind : s.variableBehind = false) :
    (whole (fuel + 1)).run (PatternState.initial source) =
      .ok (catAll items.reverse, s.on [] pos) := by
  have hall : (alternatives (fuel + 1) true true {}).run (PatternState.initial source) =
      .ok ([catAll items.reverse], s.on [] pos) :=
    alternatives_last rfl hbranch (fun _ h => absurd h List.not_mem_nil) (by simp)
  have hget : ∀ t : PatternState, (get : PatternReader PatternState).run t = .ok (t, t) :=
    fun _ => rfl
  have hlift : ∀ (us : List PatternUnit) (t : PatternState),
      (liftM (Except.ok us : Except PatternError _) : PatternReader _).run t = .ok (us, t) :=
    fun _ _ => rfl
  have hset : ∀ t t' : PatternState, (set t' : PatternReader PUnit).run t = .ok ((), t') :=
    fun _ _ => rfl
  rw [whole, run_bind_ok (hget _)]
  simp only [PatternState.initial, settle_split hsource]
  rw [run_bind_ok (hlift _ _), run_bind_ok (hset _ _), ← PatternState.initial,
    run_bind_ok hall, run_bind_ok run_next]
  have hask : (s.on [] pos).asked = [] := hasked
  have hwidth : (s.on [] pos).variableBehind = false := hbehind
  simp only [PatternUnit.split, List.head?_nil, Option.isSome_none, Bool.false_eq_true, if_false]
  rw [run_bind_ok (hget _)]
  simp only [hask, List.find?_nil, hwidth, Bool.false_eq_true, if_false]
  rfl

theorem compile_of_branch {source : String} {items : List Regex} (hsource : Unescaped source.toList)
    (hbranch : (branch (3 * source.length + 2) true true {} []).run
      (PatternState.initial source.toList) = .ok (items, s.on [] pos))
    (hflags : s.flags = {}) (hasked : s.asked = []) (hbehind : s.variableBehind = false) :
    Pattern.compile source = .ok ⟨source, {}, catAll items.reverse⟩ := by
  have hlength : (PatternUnit.split source.toList 0).length = source.length := by
    rw [length_split hsource, String.length_toList]
  have hstate : (s.on [] pos).flags = {} := hflags
  rw [Pattern.compile, Pattern.compileWith]
  simp only [hlength]
  rw [← PatternState.initial, whole_of_branch hsource hbranch hasked hbehind]
  simp only [hstate]

end PatternReader

open PatternReader Regex

/-- **A pattern of items compiles to their sequence.** -/
theorem Pattern.compile_items {source : String} (h : ∀ c ∈ source.toList, IsItem c) :
    Pattern.compile source = .ok ⟨source, {}, catAll (source.toList.map item)⟩ := by
  have hbranch : (branch (3 * source.length + 2) true true {} []).run
      ((PatternState.initial source.toList).on (source.toList ++ []) 0) =
      .ok ((source.toList.map item).reverse ++ [],
        (PatternState.initial source.toList).on [] (0 + source.toList.length)) :=
    branch_items h (fun _ h => absurd h List.not_mem_nil) (by simp)
      (by rw [String.length_toList]; omega)
  rw [List.append_nil, List.append_nil] at hbranch
  have hcompile := compile_of_branch (fun c hc => (h c hc).ne_backslash) hbranch rfl rfl rfl
  rw [hcompile, List.reverse_reverse]

/-- **Words between bars, in parentheses and anchored on both sides, compile to a choice.** -/
theorem Pattern.compile_choice {words : List (List Char)} (hne : words ≠ [])
    (hwords : ∀ word ∈ words, ∀ c ∈ word, IsLiteral c) {source : String}
    (hsource : source.toList = '^' :: '(' :: (barred words ++ [')', '$'])) :
    Pattern.compile source = .ok ⟨source, {},
      catAll [.anchor .textStart, .group (some 1) (choice words), .anchor .lastLineEnd]⟩ := by
  have hparen : Unescaped [')', '$'] :=
    List.forall_mem_cons.2 ⟨by decide, List.forall_mem_singleton.2 (by decide)⟩
  have hall : Unescaped ('^' :: '(' :: (barred words ++ [')', '$'])) :=
    List.forall_mem_cons.2 ⟨by decide, List.forall_mem_cons.2 ⟨by decide,
      List.forall_mem_append.2 ⟨unescaped_barred hwords, hparen⟩⟩⟩
  have hlength : source.length = (barred words).length + 4 := by
    rw [← String.length_toList, hsource]
    simp
  have hbranch : (branch (3 * source.length + 2) true true {} []).run
      (PatternState.initial source.toList) = .ok ([.anchor .lastLineEnd,
        .group (some 1) (choice words), .anchor .textStart],
        ((PatternState.initial source.toList).closing (choice words)).on []
          (0 + 1 + 1 + (barred words).length + 1 + 1)) := by
    obtain ⟨fuel, hfuel, henough⟩ : ∃ fuel, 3 * source.length + 2 = fuel + 1 + 1 ∧
        (barred words).length + 2 < fuel := ⟨3 * source.length, rfl, by omega⟩
    have hend : (branch fuel true true {} [.group (some 1) (choice words), .anchor .textStart]).run
        (((PatternState.initial source.toList).closing (choice words)).on ['$']
          (0 + 1 + 1 + (barred words).length + 1)) = .ok ([.anchor .lastLineEnd,
        .group (some 1) (choice words), .anchor .textStart],
        ((PatternState.initial source.toList).closing (choice words)).on []
          (0 + 1 + 1 + (barred words).length + 1 + 1)) :=
      branch_items (List.forall_mem_singleton.2 .stop) (fun _ h => absurd h List.not_mem_nil)
        (by simp) (by rw [List.length_singleton]; omega)
    have hinitial : PatternState.initial source.toList =
        (PatternState.initial source.toList).on ('^' :: '(' :: (barred words ++ [')', '$'])) 0 :=
      hsource ▸ rfl
    rw [hinitial, hfuel, branch_item .start hall, branch_group rfl hne hwords hparen henough]
    exact hend
  exact compile_of_branch (hsource ▸ hall) hbranch rfl rfl rfl

end QueryDepth
