import QueryDepth.Document.Token

/-!
# Where tokens stand

The tokens of a text are listed in the order in which they stand, so every token behind a name has a
greater offset than the name.

**Theorem (`pairwise_scan`).** Of two tokens of a text, if the first is a name then it stands
properly before the second. The names of a text consist of letters, digits and underscores
(`isNameChar_of_mem_scan`).

A name is the only token whose length matters here: it takes at least the character that it begins
with. Other tokens only must not go back.
-/

namespace QueryDepth

/-- The token is a name. -/
def Lexeme.IsName (l : Lexeme) : Prop := ∃ text, l.token = .name text

namespace Token

/-! ## Single tokens -/

section

variable {t : Token} {n : Nat} {name : String}

theorem scanString_ne_name (fuel : Nat) (cs : List Char) (done : Nat) (text : List Char) :
    scanString fuel cs done text = .ok (t, n) → t ≠ .name name := by
  fun_induction scanString fuel cs done text with
  | case3 =>
    intro h
    obtain ⟨rfl, -⟩ := Prod.mk.inj (Except.ok.inj h)
    exact nofun
  | case4 | case7 =>
    rename_i ih
    exact ih
  | _ => exact nofun

theorem scanBlock_ne_name (fuel : Nat) (cs : List Char) (done : Nat) (line : List Char)
    (lines : List (List Char)) :
    scanBlock fuel cs done line lines = .ok (t, n) → t ≠ .name name := by
  fun_induction scanBlock fuel cs done line lines with
  | case3 =>
    intro h
    obtain ⟨rfl, -⟩ := Prod.mk.inj (Except.ok.inj h)
    exact nofun
  | case1 | case2 => exact nofun
  | _ =>
    rename_i ih
    exact ih

theorem scanNumber_ne_name {cs : List Char} (h : scanNumber cs = .ok (t, n)) : t ≠ .name name := by
  have hnumber {found : Prop} [Decidable found] {text : String} {stop : Nat}
      (he : (Except.ok (if found then int text else float text, stop) : Scan (Token × Nat))
        = .ok (t, n)) : t ≠ .name name := by
    obtain ⟨rfl, -⟩ := Prod.mk.inj (Except.ok.inj he)
    split <;> exact nofun
  simp only [scanNumber, bind, Except.bind] at h
  split at h <;> try contradiction
  split at h <;> try contradiction
  split at h <;> try contradiction
  split at h
  · split at h
    · contradiction
    · exact hnumber h
  · exact hnumber h

/-- A name takes at least one character, and its characters are those of names. -/
theorem scanOne_name {cs : List Char} (h : scanOne cs = .ok (.name name, n)) :
    0 < n ∧ ∀ c ∈ name.toList, isNameChar c := by
  unfold scanOne at h
  split at h
  · cases h
  · exact absurd rfl (scanBlock_ne_name _ _ _ _ _ h)
  · exact absurd rfl (scanString_ne_name _ _ _ _ h)
  · cases h
  · rename_i c rest _ _ _
    split at h
    · cases h
    · split at h
      · exact absurd rfl (scanNumber_ne_name h)
      · split at h
        · rename_i hstart
          obtain ⟨hname, rfl⟩ := Prod.mk.inj (Except.ok.inj h)
          cases hname
          have hchar : isNameChar c = true := by simp only [isNameChar, hstart, Bool.true_or]
          constructor
          · rw [List.takeWhile_cons_of_pos hchar]
            exact Nat.succ_pos _
          · intro d hd
            rw [String.toList_ofList] at hd
            exact List.all_eq_true.mp List.all_takeWhile d hd
        · split at h <;> contradiction

end

/-! ## All tokens -/

/-- Tokens stand at the offset where scanning begins, or behind it. -/
theorem le_of_mem_scanFrom (fuel : Nat) (cs : List Char) (pos : Nat) :
    ∀ l ∈ scanFrom fuel cs pos, pos ≤ l.pos := by
  fun_induction scanFrom fuel cs pos with
  | case1 | case2 => exact fun l hl => Nat.le_of_eq (List.mem_singleton.mp hl ▸ rfl)
  | case3 =>
    rename_i ih
    intro l hl
    exact Nat.le_of_succ_le (ih l hl)
  | case4 =>
    rename_i ih
    intro l hl
    have := ih l hl
    omega
  | case5 =>
    intro l hl
    rw [List.mem_singleton.mp hl]
    exact Nat.le_add_right _ _
  | case6 =>
    rename_i ih
    intro l hl
    rcases List.mem_cons.mp hl with rfl | hl
    · exact Nat.le_refl _
    · exact Nat.le_of_add_right_le (ih l hl)

theorem pairwise_scanFrom (fuel : Nat) (cs : List Char) (pos : Nat) :
    (scanFrom fuel cs pos).Pairwise fun a b => a.IsName → a.pos < b.pos := by
  fun_induction scanFrom fuel cs pos with
  | case1 | case2 | case5 => exact List.pairwise_singleton _ _
  | case3 | case4 =>
    rename_i ih
    exact ih
  | case6 =>
    rename_i hone ih
    refine List.pairwise_cons.mpr ⟨fun l hl hname => ?_, ih⟩
    obtain ⟨text, rfl⟩ := hname
    have hlength := (scanOne_name hone).1
    have := le_of_mem_scanFrom _ _ _ l hl
    exact Nat.lt_of_lt_of_le (Nat.lt_add_of_pos_right hlength) this

/-- A token behind a name has a greater offset. -/
theorem pairwise_scan (text : List Char) :
    (scan text).Pairwise fun a b => a.IsName → a.pos < b.pos :=
  pairwise_scanFrom _ _ _

end Token

end QueryDepth
