import QueryDepth.Proofs.Document.Tokens

/-!
# Tokens stand where they are spelled

Names and punctuators are spelled by the characters that they are made of.

**Theorem (`spelling_prefix_of_mem_scan`).** At the offset of a token the text begins with the
spelling of the token.

The scanner counts characters while it drops them. The two agree because no token but the last one
is empty (`scanOne_spelling`), whatever kind it is of.
-/

namespace QueryDepth.Token

/-- The characters of a name or of a punctuator. -/
def spelling : Token → List Char
  | .name text => text.toList
  | .punct p => p.text.toList
  | _ => []

/-! ## Single tokens -/

section

variable {t : Token} {n done : Nat} {cs : List Char}

theorem lt_of_scanDigits (h : scanDigits cs done = .ok n) : done < n := by
  unfold scanDigits at h
  split at h
  · split at h
    · next c rest hdigit =>
      rw [List.takeWhile_cons_of_pos hdigit, List.length_cons] at h
      have := Except.ok.inj h
      omega
    · exact absurd h nofun
  · exact absurd h nofun

theorem lt_of_scanInteger (h : scanInteger cs done = .ok n) : done < n := by
  unfold scanInteger at h
  split at h
  · split at h
    · exact absurd h nofun
    · have := Except.ok.inj h
      omega
  · have := Except.ok.inj h
    omega
  · exact lt_of_scanDigits h

theorem le_of_scanFraction (h : scanFraction cs done = .ok n) : done ≤ n := by
  unfold scanFraction at h
  split at h
  · exact Nat.le_of_lt (Nat.lt_of_succ_lt (lt_of_scanDigits h))
  · exact Nat.le_of_eq (Except.ok.inj h)

theorem le_of_scanExponent (h : scanExponent cs done = .ok n) : done ≤ n := by
  unfold scanExponent at h
  split at h
  · split at h
    · split at h
      · split at h
        · have := lt_of_scanDigits h
          omega
        · have := lt_of_scanDigits h
          omega
      · have := lt_of_scanDigits h
        omega
    · exact Nat.le_of_eq (Except.ok.inj h)
  · exact Nat.le_of_eq (Except.ok.inj h)

theorem scanNumber_spelling (h : scanNumber cs = .ok (t, n)) : t.spelling = [] ∧ 0 < n := by
  simp only [scanNumber, bind, Except.bind] at h
  split at h <;> try contradiction
  next whole hwhole =>
  split at h <;> try contradiction
  next fraction hfraction =>
  split at h <;> try contradiction
  next stop hstop =>
  have hlength := lt_of_scanInteger hwhole
  have hmore := le_of_scanFraction hfraction
  have hlast := le_of_scanExponent hstop
  have hnumber {found : Prop} [Decidable found] {text : String}
      (he : (Except.ok (if found then int text else float text, stop) : Scan (Token × Nat))
        = .ok (t, n)) : t.spelling = [] ∧ 0 < n := by
    obtain ⟨rfl, rfl⟩ := Prod.mk.inj (Except.ok.inj he)
    exact ⟨by split <;> rfl, by omega⟩
  split at h
  · split at h
    · contradiction
    · exact hnumber h
  · exact hnumber h

theorem scanString_spelling (fuel : Nat) (cs : List Char) (done : Nat) (text : List Char) :
    scanString fuel cs done text = .ok (t, n) → t.spelling = [] ∧ done < n := by
  fun_induction scanString fuel cs done text with
  | case3 =>
    intro h
    obtain ⟨rfl, rfl⟩ := Prod.mk.inj (Except.ok.inj h)
    exact ⟨rfl, Nat.lt_succ_self _⟩
  | case4 | case7 =>
    rename_i ih
    intro h
    obtain ⟨hspelling, hlt⟩ := ih h
    exact ⟨hspelling, by omega⟩
  | _ =>
    intro h
    cases h

theorem scanBlock_spelling (fuel : Nat) (cs : List Char) (done : Nat) (line : List Char)
    (lines : List (List Char)) :
    scanBlock fuel cs done line lines = .ok (t, n) → t.spelling = [] ∧ done < n := by
  fun_induction scanBlock fuel cs done line lines with
  | case3 =>
    intro h
    obtain ⟨rfl, rfl⟩ := Prod.mk.inj (Except.ok.inj h)
    exact ⟨rfl, by omega⟩
  | case1 | case2 =>
    intro h
    cases h
  | _ =>
    rename_i ih
    intro h
    obtain ⟨hspelling, hlt⟩ := ih h
    exact ⟨hspelling, by omega⟩

theorem punctuator?_text {c : Char} {p : Punctuator} (h : punctuator? c = some p) :
    p.text.toList = [c] := by
  unfold punctuator? at h
  split at h <;> cases h <;> rfl

/-- A token is at the head of the text, and it takes at least one character if there is one. -/
theorem scanOne_spelling {c : Char} {rest : List Char} (h : scanOne (c :: rest) = .ok (t, n)) :
    t.spelling <+: c :: rest ∧ 0 < n := by
  unfold scanOne at h
  split at h
  · contradiction
  · obtain ⟨hspelling, hlt⟩ := scanBlock_spelling _ _ _ _ _ h
    exact ⟨hspelling ▸ List.nil_prefix, by omega⟩
  · obtain ⟨hspelling, hlt⟩ := scanString_spelling _ _ _ _ h
    exact ⟨hspelling ▸ List.nil_prefix, by omega⟩
  · next more hcs =>
    cases h
    exact ⟨⟨more, hcs.symm⟩, by decide⟩
  · next d more _ _ _ hcs =>
    obtain ⟨rfl, rfl⟩ := List.cons.inj hcs
    split at h
    · next p hp =>
      cases h
      exact ⟨⟨rest, by rw [spelling, punctuator?_text hp]; rfl⟩, Nat.one_pos⟩
    · split at h
      · obtain ⟨hspelling, hlt⟩ := scanNumber_spelling h
        exact ⟨hspelling ▸ List.nil_prefix, hlt⟩
      · split at h
        · next hstart =>
          cases h
          have hchar : isNameChar c = true := by simp only [isNameChar, hstart, Bool.true_or]
          refine ⟨?_, ?_⟩
          · rw [spelling, String.toList_ofList]
            exact List.takeWhile_prefix _
          · rw [List.takeWhile_cons_of_pos hchar]
            exact Nat.succ_pos _
        · split at h <;> contradiction

end

/-! ## All tokens -/

theorem spelling_prefix_of_mem_scanFrom (fuel : Nat) (cs : List Char) (pos : Nat) :
    ∀ l ∈ scanFrom fuel cs pos, ∃ k, l.pos = pos + k ∧ l.token.spelling <+: cs.drop k := by
  fun_induction scanFrom fuel cs pos with
  | case1 | case2 =>
    intro l hl
    rw [List.mem_singleton.1 hl]
    exact ⟨0, rfl, List.nil_prefix⟩
  | case3 =>
    rename_i ih
    intro l hl
    obtain ⟨k, hpos, hprefix⟩ := ih l hl
    exact ⟨k + 1, by omega, hprefix⟩
  | case4 =>
    rename_i ih
    intro l hl
    obtain ⟨k, hpos, hprefix⟩ := ih l hl
    rw [List.drop_drop] at hprefix
    exact ⟨_ + k + 1, by omega, hprefix⟩
  | case5 fuel c rest pos _ _ fault n =>
    intro l hl
    rw [List.mem_singleton.1 hl]
    exact ⟨n, rfl, List.nil_prefix⟩
  | case6 fuel c rest pos _ _ token n hone ih =>
    obtain ⟨hspelling, hlength⟩ := scanOne_spelling hone
    intro l hl
    rcases List.mem_cons.1 hl with rfl | hl
    · exact ⟨0, rfl, hspelling⟩
    · obtain ⟨k, hpos, hprefix⟩ := ih l hl
      rw [List.drop_drop] at hprefix
      obtain ⟨m, rfl⟩ := Nat.exists_eq_add_one_of_ne_zero (Nat.ne_of_gt hlength)
      exact ⟨m + k + 1, by omega, hprefix⟩

/-- **Tokens stand where they are spelled.** -/
theorem spelling_prefix_of_mem_scan {text : List Char} {l : Lexeme} (h : l ∈ scan text) :
    l.token.spelling <+: text.drop l.pos := by
  obtain ⟨k, hpos, hprefix⟩ := spelling_prefix_of_mem_scanFrom _ _ _ l h
  rw [hpos, Nat.zero_add]
  exact hprefix

end QueryDepth.Token
