import Mathlib.Data.List.Forall2
import Mathlib.Data.List.Induction
import QueryDepth.Index

/-!
# What an index holds

Keys of an index are distinct, and each has its last value.

**Theorem (`mem_ofEntries`).** An entry of a sequence is in its index if and only if its key does
not come again after it. So entries with distinct keys are their own index (`ofEntries_of_nodup`).

An index is determined by the order in which its keys come first (`keys_ofEntries`) and by what is
found under each key, which is its last value (`lookup_ofEntries`). Entries that are related one by
one have indexes that are (`forall₂_ofEntries`).
-/

namespace QueryDepth.Index

variable {κ α β : Type} [DecidableEq κ]

@[simp] theorem ofEntries_nil : ofEntries ([] : List (κ × α)) = [] := rfl

@[simp] theorem ofEntries_concat (entries : List (κ × α)) (e : κ × α) :
    ofEntries (entries ++ [e]) = put e.1 e.2 (ofEntries entries) := by
  simp [ofEntries]

theorem nodup_keys_put {key : κ} {value : α} {l : List (κ × α)} (h : (l.map Prod.fst).Nodup) :
    ((put key value l).map Prod.fst).Nodup := by
  rw [keys_put]
  split
  · exact h
  · next hkey =>
    refine List.nodup_append.2 ⟨h, by simp, fun a ha b hb => ?_⟩
    rw [List.mem_singleton.1 hb]
    rintro rfl
    exact hkey ha

theorem nodup_keys_ofEntries (entries : List (κ × α)) :
    ((ofEntries entries).map Prod.fst).Nodup := by
  induction entries using List.reverseRecOn with
  | nil => exact List.nodup_nil
  | append_singleton entries e ih =>
    rw [ofEntries_concat]
    exact nodup_keys_put ih

/-- An index has the keys of its entries. -/
theorem mem_keys_ofEntries {key : κ} {entries : List (κ × α)} :
    key ∈ (ofEntries entries).map Prod.fst ↔ key ∈ entries.map Prod.fst := by
  induction entries using List.reverseRecOn with
  | nil => rfl
  | append_singleton entries e ih =>
    rw [ofEntries_concat, keys_put, List.map_append, List.map_singleton, List.mem_append, ← ih]
    split
    · next hkey =>
      refine ⟨.inl, fun h => ?_⟩
      rcases h with h | h
      · exact h
      · rw [List.mem_singleton.1 h]
        exact hkey
    · exact List.mem_append

/-- After putting a value there is the new entry, and of the others those with another key. -/
theorem mem_put {key : κ} {value : α} {e : κ × α} : ∀ {l : List (κ × α)},
    (l.map Prod.fst).Nodup → (e ∈ put key value l ↔ e = (key, value) ∨ e.1 ≠ key ∧ e ∈ l)
  | [], _ => by simp [put]
  | (k, v) :: rest, h => by
    obtain ⟨hk, hrest⟩ := List.nodup_cons.1 h
    by_cases hkey : k = key
    · subst hkey
      have hother : e ∈ rest → e.1 ≠ k := by
        rintro he rfl
        have hmem : e.1 ∈ rest.map Prod.fst := List.mem_map_of_mem he
        exact hk hmem
      rw [put, if_pos rfl, List.mem_cons, List.mem_cons]
      constructor
      · rintro (rfl | he)
        · exact .inl rfl
        · exact .inr ⟨hother he, .inr he⟩
      · rintro (rfl | ⟨hne, rfl | he⟩)
        · exact .inl rfl
        · exact absurd rfl hne
        · exact .inr he
    · rw [put, if_neg hkey, List.mem_cons, List.mem_cons, mem_put hrest]
      constructor
      · rintro (rfl | rfl | ⟨hne, he⟩)
        · exact .inr ⟨hkey, .inl rfl⟩
        · exact .inl rfl
        · exact .inr ⟨hne, .inr he⟩
      · rintro (rfl | ⟨hne, rfl | he⟩)
        · exact .inr (.inl rfl)
        · exact .inl rfl
        · exact .inr (.inr ⟨hne, he⟩)

/-- **The last entry of a key is the one in the index.** -/
theorem mem_ofEntries {entries : List (κ × α)} {e : κ × α} :
    e ∈ ofEntries entries ↔
      ∃ before after, entries = before ++ e :: after ∧ ∀ later ∈ after, later.1 ≠ e.1 := by
  induction entries using List.reverseRecOn with
  | nil => simp
  | append_singleton entries d ih =>
    rw [ofEntries_concat, mem_put (nodup_keys_ofEntries entries), ih]
    constructor
    · rintro (rfl | ⟨hne, before, after, rfl, hafter⟩)
      · exact ⟨entries, [], rfl, nofun⟩
      · refine ⟨before, after ++ [d], by simp, fun later hlater => ?_⟩
        rcases List.mem_append.1 hlater with hlater | hlater
        · exact hafter later hlater
        · rw [List.mem_singleton.1 hlater]
          exact hne.symm
    · rintro ⟨before, after, hsplit, hafter⟩
      rcases List.eq_nil_or_concat after with rfl | ⟨after', d', rfl⟩
      · exact .inl (List.singleton_inj.1 (List.append_inj_right' hsplit rfl)).symm
      · rw [List.concat_eq_append] at hsplit hafter
        rw [← List.cons_append, ← List.append_assoc] at hsplit
        obtain ⟨rfl, hd⟩ := List.append_inj' hsplit rfl
        obtain rfl := List.singleton_inj.1 hd
        refine .inr ⟨(hafter d (by simp)).symm, before, after', rfl, fun later hlater => ?_⟩
        exact hafter later (by simp [hlater])

theorem put_of_notMem {key : κ} {value : α} {l : List (κ × α)} (h : key ∉ l.map Prod.fst) :
    put key value l = l ++ [(key, value)] := by
  induction l with
  | nil => rfl
  | cons e l ih =>
    obtain ⟨hne, hrest⟩ := List.ne_and_not_mem_of_not_mem_cons h
    rw [put, if_neg (Ne.symm hne), ih hrest, List.cons_append]

/-- Entries with distinct keys are their own index. -/
theorem ofEntries_of_nodup {entries : List (κ × α)} (h : (entries.map Prod.fst).Nodup) :
    ofEntries entries = entries := by
  induction entries using List.reverseRecOn with
  | nil => rfl
  | append_singleton entries e ih =>
    rw [List.map_append, List.nodup_append] at h
    obtain ⟨hentries, -, hapart⟩ := h
    have hnew : e.1 ∉ entries.map Prod.fst := fun hmem => hapart _ hmem _ List.mem_cons_self rfl
    rw [ofEntries_concat, ih hentries, put_of_notMem hnew]

/-- Of distinct keys each is found with its own value. -/
theorem lookup_of_mem {l : List (κ × α)} {entry : κ × α} (hkeys : (l.map Prod.fst).Nodup)
    (h : entry ∈ l) : l.lookup entry.1 = some entry.2 := by
  induction l with
  | nil => exact absurd h List.not_mem_nil
  | cons first rest ih =>
    obtain ⟨hfirst, hrest⟩ := List.nodup_cons.1 hkeys
    rcases List.mem_cons.1 h with rfl | h
    · rw [List.lookup_cons, beq_self_eq_true]
    · have hother : (entry.1 == first.1) = false :=
        beq_false_of_ne fun heq => hfirst (heq ▸ List.mem_map_of_mem h)
      rw [List.lookup_cons, hother]
      exact ih hrest h

/-! ## What is found in an index -/

theorem lookup_cons_eq (e : κ × α) (l : List (κ × α)) (key : κ) :
    (e :: l).lookup key = if key = e.1 then some e.2 else l.lookup key := by
  rw [List.lookup_cons]
  by_cases h : key = e.1
  · simp [h]
  · rw [beq_false_of_ne h, if_neg h]

theorem lookup_put (key other : κ) (value : α) (l : List (κ × α)) :
    (put key value l).lookup other = if other = key then some value else l.lookup other := by
  induction l with
  | nil => simp [put, lookup_cons_eq]
  | cons e l ih =>
    by_cases hkey : e.1 = key
    · by_cases h : other = key <;> simp [put, lookup_cons_eq, hkey, h]
    · by_cases h : other = e.1 <;> simp [put, lookup_cons_eq, hkey, ih, h]

/-- **The last value of a key is found.** -/
theorem lookup_ofEntries (entries : List (κ × α)) (key : κ) :
    (ofEntries entries).lookup key =
      ((entries.filter fun e => e.1 = key).getLast?).map Prod.snd := by
  induction entries using List.reverseRecOn with
  | nil => rfl
  | append_singleton entries e ih =>
    rw [ofEntries_concat, lookup_put, ih, List.filter_append]
    by_cases h : key = e.1
    · simp [h]
    · simp [h, Ne.symm h]

/-- An entry does not matter for what is found under another key, nor if its key comes again. -/
theorem lookup_ofEntries_of_later {before after : List (κ × α)} {e : κ × α} {key : κ}
    (h : e.1 = key → ∃ later ∈ after, later.1 = key) :
    (ofEntries (before ++ e :: after)).lookup key = (ofEntries (before ++ after)).lookup key := by
  rw [lookup_ofEntries, lookup_ofEntries, List.filter_append, List.filter_append, List.filter_cons]
  by_cases hkey : e.1 = key
  · obtain ⟨later, hlater, hsame⟩ := h hkey
    have hmem : later ∈ after.filter fun e => e.1 = key := by simp [hlater, hsame]
    obtain ⟨last, hlast⟩ := Option.isSome_iff_exists.1
      (List.getLast?_isSome.2 (List.ne_nil_of_mem hmem))
    simp [hkey, List.getLast?_append, List.getLast?_cons, hlast]
  · simp [hkey]

/-- **The keys stand in the order in which they come first.** -/
theorem keys_ofEntries (entries : List (κ × α)) :
    (ofEntries entries).map Prod.fst = (entries.map Prod.fst).eraseDups := by
  induction entries using List.reverseRecOn with
  | nil => rfl
  | append_singleton entries e ih =>
    have hsingle : [e.1].eraseDups = [e.1] := rfl
    rw [ofEntries_concat, keys_put, ih, List.map_append, List.eraseDups_append]
    by_cases h : e.1 ∈ entries.map Prod.fst <;> simp [h, List.removeAll, hsingle]

/-- Distinct keys in order, and what is found under each, are all there is in a list. -/
theorem eq_of_lookup {l l' : List (κ × α)} (hl : (l.map Prod.fst).Nodup)
    (hkeys : l.map Prod.fst = l'.map Prod.fst) (h : ∀ key, l.lookup key = l'.lookup key) :
    l = l' := by
  have hself : ∀ {l : List (κ × α)}, (l.map Prod.fst).Nodup →
      (l.map Prod.fst).filterMap (fun key => (l.lookup key).map fun value => (key, value)) = l := by
    intro l hl
    rw [List.filterMap_map]
    calc _ = l.filterMap some := List.filterMap_congr fun e he => by simp [lookup_of_mem hl he]
      _ = l := List.filterMap_some
  have hl' : (l'.map Prod.fst).Nodup := hkeys ▸ hl
  rw [← hself hl, ← hself hl', hkeys]
  simp only [h]

/-! ## Indexes with related values -/

/-- The entries have the same key, and related values. -/
def SameKey (r : α → β → Prop) (e : κ × α) (e' : κ × β) : Prop := e.1 = e'.1 ∧ r e.2 e'.2

variable {r : α → β → Prop}

theorem forall₂_put {key : κ} {value : α} {value' : β} (hvalue : r value value')
    {l : List (κ × α)} {l' : List (κ × β)} (h : List.Forall₂ (SameKey r) l l') :
    List.Forall₂ (SameKey r) (put key value l) (put key value' l') := by
  induction h with
  | nil => exact .cons ⟨rfl, hvalue⟩ .nil
  | @cons e e' l l' he hrest ih =>
    obtain ⟨⟨k, v⟩, ⟨k', v'⟩⟩ := e, e'
    obtain ⟨rfl, hv⟩ := he
    by_cases hkey : k = key
    · simp only [put, hkey, if_true]
      exact .cons ⟨rfl, hvalue⟩ hrest
    · simp only [put, hkey, if_false]
      exact .cons ⟨rfl, hv⟩ ih

/-- Related entries have related indexes. -/
theorem forall₂_ofEntries {entries : List (κ × α)} {entries' : List (κ × β)}
    (h : List.Forall₂ (SameKey r) entries entries') :
    List.Forall₂ (SameKey r) (ofEntries entries) (ofEntries entries') := by
  have hfoldl : ∀ (acc : List (κ × α)) (acc' : List (κ × β)), List.Forall₂ (SameKey r) acc acc' →
      List.Forall₂ (SameKey r) (entries.foldl (fun acc e => put e.1 e.2 acc) acc)
        (entries'.foldl (fun acc e => put e.1 e.2 acc) acc') := by
    induction h with
    | nil => exact fun _ _ hacc => hacc
    | @cons e e' _ _ he _ ih =>
      obtain ⟨⟨k, v⟩, ⟨k', v'⟩⟩ := e, e'
      obtain ⟨rfl, hv⟩ := he
      exact fun acc acc' hacc => ih _ _ (forall₂_put hv hacc)
  exact hfoldl [] [] .nil

/-- A function of the values may be applied before or after the entries are put into an index. -/
theorem map_ofEntries (f : α → β) (entries : List (κ × α)) :
    (ofEntries entries).map (fun e => (e.1, f e.2)) =
      ofEntries (entries.map fun e => (e.1, f e.2)) := by
  have hentries : List.Forall₂ (SameKey fun a b => f a = b) entries
      (entries.map fun e => (e.1, f e.2)) :=
    List.forall₂_map_right_iff.2 (List.forall₂_same.2 fun _ _ => ⟨rfl, rfl⟩)
  rw [← List.forall₂_eq_eq_eq, List.forall₂_map_left_iff]
  exact (forall₂_ofEntries hentries).imp fun _ _ h => Prod.ext h.1 h.2

/-- Under every key there are related values, or none in both lists. -/
theorem rel_lookup {l : List (κ × α)} {l' : List (κ × β)} (h : List.Forall₂ (SameKey r) l l')
    (key : κ) : Option.Rel r (l.lookup key) (l'.lookup key) := by
  induction h with
  | nil => exact .none
  | @cons e e' _ _ he _ ih =>
    obtain ⟨⟨k, v⟩, ⟨k', v'⟩⟩ := e, e'
    obtain ⟨rfl, hv⟩ := he
    rw [List.lookup_cons, List.lookup_cons]
    cases key == k with
    | true => exact .some hv
    | false => exact ih

theorem lookup_eq_none {l : List (κ × α)} {l' : List (κ × β)} (h : List.Forall₂ (SameKey r) l l')
    {key : κ} (hlookup : l.lookup key = none) : l'.lookup key = none := by
  have hrel := rel_lookup h key
  rw [hlookup] at hrel
  generalize l'.lookup key = found at hrel
  cases hrel
  rfl

theorem exists_lookup {l : List (κ × α)} {l' : List (κ × β)} (h : List.Forall₂ (SameKey r) l l')
    {key : κ} {value : α} (hlookup : l.lookup key = some value) :
    ∃ value', l'.lookup key = some value' ∧ r value value' := by
  have hrel := rel_lookup h key
  rw [hlookup] at hrel
  generalize l'.lookup key = found at hrel
  cases hrel with
  | some hvalue => exact ⟨_, rfl, hvalue⟩

end QueryDepth.Index
