import QueryDepth.Proofs.Index
import QueryDepth.Proofs.Json.Scalars

/-!
# Values are read back

**Theorem (`read_pretty`).** Reading the indented form of a value gives the value back. This holds
for every *exact* value: one without floats, in which no object has a name twice. Its indented form
is ASCII.

The induction is on the value, with `ReadsBack` as the hypothesis for its parts: the indented form
is read at any depth, in front of any rest where a number does not go on, as soon as there is as
much fuel as text. Behind an item stands a comma or the end of a line, so the condition on the rest
holds for the parts. Items and members are read from one on (`itemsText`, `membersText`), by
induction on the list; the steps of the reader are lemmas of their own.
-/

namespace QueryDepth.Json

open Decimal

/-- Values that one text can spell exactly. -/
inductive Exact : Json → Prop
  | null : Exact .null
  | bool (b : Bool) : Exact (.bool b)
  | int (n : Int) : Exact (.int n)
  | str (s : String) : Exact (.str s)
  | arr {items : List Json} : (∀ v ∈ items, Exact v) → Exact (.arr items)
  | obj {members : List (String × Json)} : (members.map Prod.fst).Nodup →
      (∀ m ∈ members, Exact m.2) → Exact (.obj members)

variable {fuel pos depth : Nat} {rest cs : List Char} {r s : Rest} {v : Json}

/-! ## Blanks -/

/-- No blank stands here. -/
def Visible (rest : List Char) : Prop := ∀ c ∈ rest.head?, isBlank c = false

theorem visible_cons {c : Char} (hc : isBlank c = false) (rest : List Char) :
    Visible (c :: rest) := by
  rintro _ ⟨⟩
  exact hc

theorem skipBlanks_append {blanks : List Char} (hblanks : ∀ c ∈ blanks, isBlank c = true)
    (hrest : Visible rest) (pos : Nat) :
    (Rest.mk (blanks ++ rest) pos).skipBlanks = ⟨rest, pos + blanks.length⟩ := by
  have htake : (blanks ++ rest).takeWhile isBlank = blanks := by
    rw [List.takeWhile_append_of_pos hblanks]
    cases rest with
    | nil => simp
    | cons c rest => simp [hrest c rfl]
  have hdrop : (blanks ++ rest).drop blanks.length = rest := List.drop_left
  simp only [Rest.skipBlanks, Rest.drop, htake, hdrop]

theorem skipBlanks_cons {c : Char} (hc : isBlank c = false) (rest : List Char) (pos : Nat) :
    (Rest.mk (c :: rest) pos).skipBlanks = ⟨c :: rest, pos⟩ := by
  have hnone : ∀ c ∈ ([] : List Char), isBlank c = true := fun _ h => nomatch h
  exact skipBlanks_append hnone (visible_cons hc rest) pos

theorem skipBlanks_newLine (depth : Nat) (hrest : Visible rest) (pos : Nat) :
    (Rest.mk (newLine depth ++ rest) pos).skipBlanks = ⟨rest, pos + (newLine depth).length⟩ := by
  refine skipBlanks_append (fun c hc => ?_) hrest pos
  rcases List.mem_cons.1 hc with rfl | hc
  · rfl
  · rw [List.eq_of_mem_replicate hc]
    rfl

theorem endsNumber_newLine (depth : Nat) (rest : List Char) :
    EndsNumber (newLine depth ++ rest) := by
  rintro _ ⟨⟩
  decide

theorem endsNumber_comma (rest : List Char) : EndsNumber (',' :: rest) := by
  rintro _ ⟨⟩
  decide

/-! ## Texts of items and members -/

/-- The items from one on, up to the closing bracket. -/
def itemsText (depth : Nat) (v : Json) (vs : List Json) : List Char :=
  prettyAt (depth + 1) v ++ prettyItems depth vs ++ newLine depth ++ [']']

/-- The members from one on, up to the closing brace. -/
def membersText (depth : Nat) (name : String) (v : Json) (ms : List (String × Json)) :
    List Char :=
  quote name ++ ':' :: ' ' :: prettyAt (depth + 1) v ++ prettyMembers depth ms ++ newLine depth
    ++ ['}']

theorem prettyAt_arr (depth : Nat) (v : Json) (vs : List Json) :
    prettyAt depth (.arr (v :: vs)) = '[' :: (newLine (depth + 1) ++ itemsText depth v vs) := by
  simp [prettyAt, itemsText]

theorem prettyAt_obj (depth : Nat) (name : String) (v : Json) (ms : List (String × Json)) :
    prettyAt depth (.obj ((name, v) :: ms)) =
      '{' :: (newLine (depth + 1) ++ membersText depth name v ms) := by
  simp [prettyAt, membersText]

theorem itemsText_nil (depth : Nat) (v : Json) (rest : List Char) :
    itemsText depth v [] ++ rest = prettyAt (depth + 1) v ++ (newLine depth ++ ']' :: rest) := by
  simp [itemsText, prettyItems]

theorem itemsText_cons (depth : Nat) (v w : Json) (ws : List Json) (rest : List Char) :
    itemsText depth v (w :: ws) ++ rest =
      prettyAt (depth + 1) v ++ ',' :: (newLine (depth + 1) ++ (itemsText depth w ws ++ rest)) := by
  simp [itemsText, prettyItems]

/-- The text of a member behind the quote that opens its name. -/
theorem membersText_eq (depth : Nat) (name : String) (v : Json) (ms : List (String × Json))
    (rest : List Char) : membersText depth name v ms ++ rest =
      '"' :: (name.toList.flatMap escapeChar ++ ['"'] ++ ':' :: ' ' ::
        (prettyAt (depth + 1) v ++
          (prettyMembers depth ms ++ (newLine depth ++ '}' :: rest)))) := by
  simp [membersText, quote]

theorem visible_membersText (depth : Nat) (name : String) (v : Json) (ms : List (String × Json))
    (rest : List Char) : Visible (membersText depth name v ms ++ rest) :=
  visible_cons (by decide) _

theorem prettyMembers_cons (depth : Nat) (name : String) (v : Json) (ms : List (String × Json))
    (rest : List Char) : prettyMembers depth ((name, v) :: ms) ++ (newLine depth ++ '}' :: rest) =
      ',' :: (newLine (depth + 1) ++ (membersText depth name v ms ++ rest)) := by
  simp [prettyMembers, membersText]

/-! ## Steps of the reader -/

theorem readValue_scalar {c : Char} (hquote : c ≠ '"') (hbrace : c ≠ '{') (hbracket : c ≠ '[')
    (h : readScalar ⟨c :: cs, pos⟩ = .ok (v, r)) :
    readValue (fuel + 1) ⟨c :: cs, pos⟩ = .ok (v, r) := by
  simp [readValue, hquote, hbrace, hbracket, h]

theorem readValue_string {text : String} (h : readString ⟨cs, pos + 1⟩ = .ok (text, r)) :
    readValue (fuel + 1) ⟨'"' :: cs, pos⟩ = .ok (.str text, r) := by
  simp [readValue, Rest.drop, bind, Except.bind, h]
  rfl

theorem readValue_items {items : List Json} {inner : Rest}
    (hinner : (Rest.mk cs (pos + 1)).skipBlanks = inner) (hopen : inner.chars.head? ≠ some ']')
    (h : readItems fuel inner = .ok (items, r)) :
    readValue (fuel + 1) ⟨'[' :: cs, pos⟩ = .ok (.arr items, r) := by
  rcases inner with ⟨chars, offset⟩
  have hne : ∀ rest, chars = ']' :: rest → False := by
    rintro rest rfl
    exact hopen rfl
  simp [readValue, Rest.drop, hinner, h]

theorem readValue_members {members : List (String × Json)} {inner : Rest}
    (hinner : (Rest.mk cs (pos + 1)).skipBlanks = inner) (hopen : inner.chars.head? ≠ some '}')
    (h : readMembers fuel inner = .ok (members, r)) :
    readValue (fuel + 1) ⟨'{' :: cs, pos⟩ = .ok (.obj (Index.ofEntries members), r) := by
  rcases inner with ⟨chars, offset⟩
  have hne : ∀ rest, chars = '}' :: rest → False := by
    rintro rest rfl
    exact hopen rfl
  simp [readValue, Rest.drop, hinner, h]

theorem readItems_last {pos' : Nat} (h : readValue fuel s = .ok (v, r))
    (hclose : r.skipBlanks = ⟨']' :: cs, pos'⟩) :
    readItems (fuel + 1) s = .ok ([v], ⟨cs, pos' + 1⟩) := by
  simp [readItems, bind, Except.bind, Rest.drop, h, hclose]

theorem readItems_more {vs : List Json} {pos' : Nat} {s' r' : Rest}
    (h : readValue fuel s = .ok (v, r)) (hcomma : r.skipBlanks = ⟨',' :: cs, pos'⟩)
    (hnext : (Rest.mk cs (pos' + 1)).skipBlanks = s') (hmore : readItems fuel s' = .ok (vs, r')) :
    readItems (fuel + 1) s = .ok (v :: vs, r') := by
  simp [readItems, bind, Except.bind, Rest.drop, h, hcomma, hnext, hmore]
  rfl

/-- Behind its opening quote a name is read, then a colon and a value. -/
def ReadsMember (fuel : Nat) (cs : List Char) (pos : Nat) (name : String) (v : Json)
    (r : Rest) : Prop :=
  ∃ s s' cs' pos', readString ⟨cs, pos + 1⟩ = .ok (name, s) ∧
    s.skipBlanks = ⟨':' :: cs', pos'⟩ ∧ (Rest.mk cs' (pos' + 1)).skipBlanks = s' ∧
    readValue fuel s' = .ok (v, r)

theorem readMembers_last {name : String} {pos' : Nat} (h : ReadsMember fuel cs pos name v r)
    (hclose : r.skipBlanks = ⟨'}' :: rest, pos'⟩) :
    readMembers (fuel + 1) ⟨'"' :: cs, pos⟩ = .ok ([(name, v)], ⟨rest, pos' + 1⟩) := by
  obtain ⟨_, _, _, _, hname, hcolon, hskip, hvalue⟩ := h
  simp [readMembers, bind, Except.bind, Rest.drop, hname, hcolon, hskip, hvalue, hclose]

theorem readMembers_more {name : String} {ms : List (String × Json)} {pos' : Nat} {s' r' : Rest}
    (h : ReadsMember fuel cs pos name v r) (hcomma : r.skipBlanks = ⟨',' :: rest, pos'⟩)
    (hnext : (Rest.mk rest (pos' + 1)).skipBlanks = s')
    (hmore : readMembers fuel s' = .ok (ms, r')) :
    readMembers (fuel + 1) ⟨'"' :: cs, pos⟩ = .ok ((name, v) :: ms, r') := by
  obtain ⟨_, _, _, _, hname, hcolon, hskip, hvalue⟩ := h
  simp [readMembers, bind, Except.bind, Rest.drop, hname, hcolon, hskip, hvalue, hcomma, hnext,
    hmore]
  rfl

/-! ## Items and members -/

/-- A value begins with a character of its own. -/
theorem Exact.head (h : Exact v) (depth : Nat) :
    ∃ c cs, prettyAt depth v = c :: cs ∧ isBlank c = false ∧ c ≠ ']' := by
  cases h with
  | null => exact ⟨_, _, rfl, by decide, by decide⟩
  | bool b => cases b <;> exact ⟨_, _, rfl, by decide, by decide⟩
  | int n =>
    obtain ⟨c, cs, hcs, rfl | hc⟩ := head_intText n
    · exact ⟨_, cs, hcs, by decide, by decide⟩
    · refine ⟨c, cs, hcs, ?_, ne_of_isDigit hc rfl⟩
      have hblank : c ≠ ' ' ∧ c ≠ '\t' ∧ c ≠ '\n' ∧ c ≠ '\r' :=
        ⟨ne_of_isDigit hc rfl, ne_of_isDigit hc rfl, ne_of_isDigit hc rfl, ne_of_isDigit hc rfl⟩
      simp [isBlank, hblank]
  | str text => exact ⟨_, _, rfl, by decide, by decide⟩
  | @arr items _ => cases items <;> exact ⟨_, _, rfl, by decide, by decide⟩
  | @obj members _ _ => cases members <;> exact ⟨_, _, rfl, by decide, by decide⟩

theorem Exact.visible (h : Exact v) (depth : Nat) (rest : List Char) :
    Visible (prettyAt depth v ++ rest) := by
  obtain ⟨c, cs, hcs, hc, -⟩ := h.head depth
  rw [hcs]
  exact visible_cons hc _

theorem Exact.visible_itemsText (h : Exact v) (depth : Nat) (vs : List Json) (rest : List Char) :
    Visible (itemsText depth v vs ++ rest) := by
  rw [itemsText, List.append_assoc, List.append_assoc, List.append_assoc]
  exact h.visible (depth + 1) _

/-- The indented form is read back at any depth, where no number goes on behind it. -/
def ReadsBack (v : Json) : Prop := ∀ (depth fuel : Nat) (rest : List Char),
  (prettyAt depth v).length ≤ fuel → EndsNumber rest →
    Reads (readValue fuel) (prettyAt depth v) rest v

/-- A member is taken off in front of what may follow it. -/
theorem readsMember (depth fuel : Nat) (name : String) (hexact : Exact v) (hread : ReadsBack v)
    (hfuel : (prettyAt depth v).length ≤ fuel) (hrest : EndsNumber rest) (pos : Nat) :
    ∃ pos', ReadsMember fuel
      (name.toList.flatMap escapeChar ++ ['"'] ++ ':' :: ' ' :: (prettyAt depth v ++ rest)) pos
      name v ⟨rest, pos'⟩ := by
  obtain ⟨pos₁, hname⟩ := reads_string name (':' :: ' ' :: (prettyAt depth v ++ rest)) (pos + 1)
  obtain ⟨pos₂, hvalue⟩ := hread depth fuel rest hfuel hrest (pos₁ + 1 + [' '].length)
  have hblank : ∀ c ∈ [' '], isBlank c = true := by simp [isBlank]
  have hskip := skipBlanks_append hblank (hexact.visible depth rest) (pos₁ + 1)
  have hcolon : (Rest.mk (':' :: ' ' :: (prettyAt depth v ++ rest)) pos₁).skipBlanks = _ :=
    skipBlanks_cons (by decide) _ pos₁
  exact ⟨pos₂, _, _, _, pos₁, hname, hcolon, hskip, hvalue⟩

theorem reads_items (depth : Nat) (rest : List Char) (vs : List Json) : ∀ (v : Json) (fuel : Nat),
    (∀ w ∈ v :: vs, Exact w ∧ ReadsBack w) → (itemsText depth v vs).length ≤ fuel →
      Reads (readItems fuel) (itemsText depth v vs) rest (v :: vs) := by
  induction vs with
  | nil =>
    intro v fuel hitems hfuel pos
    simp only [itemsText, List.length_append, List.length_cons] at hfuel
    obtain ⟨fuel, rfl⟩ : ∃ f, fuel = f + 1 := ⟨fuel - 1, by omega⟩
    obtain ⟨pos', h⟩ := (hitems v List.mem_cons_self).2 (depth + 1) fuel _ (by omega)
      (endsNumber_newLine depth (']' :: rest)) pos
    rw [itemsText_nil]
    exact ⟨_, readItems_last h (skipBlanks_newLine depth (visible_cons (by decide) rest) pos')⟩
  | cons w ws ih =>
    intro v fuel hitems hfuel pos
    have hmore : ∀ u ∈ w :: ws, Exact u ∧ ReadsBack u := fun u hu =>
      hitems u (List.mem_cons_of_mem _ hu)
    have hlength := congrArg List.length (itemsText_cons depth v w ws [])
    simp only [List.length_append, List.length_cons, List.length_nil] at hlength
    obtain ⟨fuel, rfl⟩ : ∃ f, fuel = f + 1 := ⟨fuel - 1, by omega⟩
    obtain ⟨pos', h⟩ := (hitems v List.mem_cons_self).2 (depth + 1) fuel _ (by omega)
      (endsNumber_comma (newLine (depth + 1) ++ (itemsText depth w ws ++ rest))) pos
    obtain ⟨pos'', h'⟩ := ih w fuel hmore (by omega) (pos' + 1 + (newLine (depth + 1)).length)
    have hexact : Exact w := (hmore w List.mem_cons_self).1
    have hnext := skipBlanks_newLine (depth + 1) (hexact.visible_itemsText depth ws rest) (pos' + 1)
    rw [itemsText_cons]
    exact ⟨_, readItems_more h (skipBlanks_cons (by decide) _ pos') hnext h'⟩

theorem reads_members (depth : Nat) (rest : List Char) (ms : List (String × Json)) :
    ∀ (name : String) (v : Json) (fuel : Nat),
      (∀ m ∈ (name, v) :: ms, Exact m.2 ∧ ReadsBack m.2) →
      (membersText depth name v ms).length ≤ fuel →
        Reads (readMembers fuel) (membersText depth name v ms) rest ((name, v) :: ms) := by
  induction ms with
  | nil =>
    intro name v fuel hmembers hfuel pos
    obtain ⟨hexact, hread⟩ : Exact v ∧ ReadsBack v := hmembers (name, v) List.mem_cons_self
    simp only [membersText, List.length_append, List.length_cons] at hfuel
    obtain ⟨fuel, rfl⟩ : ∃ f, fuel = f + 1 := ⟨fuel - 1, by omega⟩
    obtain ⟨pos', h⟩ := readsMember (depth + 1) fuel name hexact hread (by omega)
      (endsNumber_newLine depth ('}' :: rest)) pos
    rw [membersText_eq]
    exact ⟨_, readMembers_last h (skipBlanks_newLine depth (visible_cons (by decide) rest) pos')⟩
  | cons m ms ih =>
    obtain ⟨name', w⟩ := m
    intro name v fuel hmembers hfuel pos
    obtain ⟨hexact, hread⟩ : Exact v ∧ ReadsBack v := hmembers (name, v) List.mem_cons_self
    have hmore : ∀ m ∈ (name', w) :: ms, Exact m.2 ∧ ReadsBack m.2 := fun m hm =>
      hmembers m (List.mem_cons_of_mem _ hm)
    have hlength := congrArg List.length (membersText_eq depth name v ((name', w) :: ms) [])
    rw [prettyMembers_cons] at hlength
    simp only [List.length_append, List.length_cons, List.length_nil] at hlength
    obtain ⟨fuel, rfl⟩ : ∃ f, fuel = f + 1 := ⟨fuel - 1, by omega⟩
    obtain ⟨pos', h⟩ := readsMember (depth + 1) fuel name hexact hread (by omega)
      (endsNumber_comma (newLine (depth + 1) ++ (membersText depth name' w ms ++ rest))) pos
    obtain ⟨pos'', h'⟩ := ih name' w fuel hmore (by omega)
      (pos' + 1 + (newLine (depth + 1)).length)
    rw [membersText_eq, prettyMembers_cons]
    have hnext := skipBlanks_newLine (depth + 1) (visible_membersText depth name' w ms rest)
      (pos' + 1)
    exact ⟨_, readMembers_more h (skipBlanks_cons (by decide) _ pos') hnext h'⟩

/-! ## Values -/

theorem exists_fuel {n fuel : Nat} (h : n + 1 ≤ fuel) : ∃ f, fuel = f + 1 ∧ n ≤ f :=
  ⟨fuel - 1, by omega, by omega⟩

/-- A value that is one word is read back, whatever follows it. -/
theorem readsBack_scalar {c : Char} (htext : ∀ depth, prettyAt depth v = c :: cs)
    (hquote : c ≠ '"') (hbrace : c ≠ '{') (hbracket : c ≠ '[')
    (h : ∀ rest, EndsNumber rest → Reads readScalar (c :: cs) rest v) : ReadsBack v := by
  intro depth fuel rest hlength hrest pos
  rw [htext] at hlength ⊢
  obtain ⟨fuel, rfl, -⟩ := exists_fuel hlength
  obtain ⟨pos', hread⟩ := h rest hrest pos
  exact ⟨pos', readValue_scalar hquote hbrace hbracket hread⟩

theorem readsBack_null : ReadsBack .null :=
  readsBack_scalar (fun _ => rfl) (by decide) (by decide) (by decide) fun _ _ _ => ⟨_, rfl⟩

theorem readsBack_bool (b : Bool) : ReadsBack (.bool b) := by
  cases b
  · exact readsBack_scalar (fun _ => rfl) (by decide) (by decide) (by decide) fun _ _ _ => ⟨_, rfl⟩
  · exact readsBack_scalar (fun _ => rfl) (by decide) (by decide) (by decide) fun _ _ _ => ⟨_, rfl⟩

theorem readsBack_int (n : Int) : ReadsBack (.int n) := by
  obtain ⟨c, cs, hcs, hc⟩ := head_intText n
  have hne : ∀ k, isDigit k = false → '-' ≠ k → c ≠ k := by
    rintro k hk hminus
    rcases hc with rfl | hc
    · exact hminus
    · exact ne_of_isDigit hc hk
  refine readsBack_scalar (fun _ => hcs) (hne _ rfl (by decide)) (hne _ rfl (by decide))
    (hne _ rfl (by decide)) fun rest hrest => ?_
  rw [← hcs]
  exact reads_intText n hrest

theorem readsBack_str (s : String) : ReadsBack (.str s) := by
  intro depth fuel rest hlength _ pos
  obtain ⟨fuel, rfl, -⟩ := exists_fuel hlength
  obtain ⟨pos', h⟩ := reads_string s rest (pos + 1)
  exact ⟨pos', readValue_string h⟩

theorem readsBack_arr {items : List Json} (hitems : ∀ v ∈ items, Exact v ∧ ReadsBack v) :
    ReadsBack (.arr items) := by
  intro depth fuel rest hlength _ pos
  rcases items with _ | ⟨v, vs⟩
  · obtain ⟨fuel, rfl, -⟩ := exists_fuel hlength
    exact ⟨_, rfl⟩
  rw [prettyAt_arr] at hlength ⊢
  obtain ⟨fuel, rfl, hinside⟩ := exists_fuel hlength
  rw [List.length_append] at hinside
  have hexact : Exact v := (hitems v List.mem_cons_self).1
  obtain ⟨pos', h⟩ := reads_items depth rest vs v fuel hitems (by omega)
    (pos + 1 + (newLine (depth + 1)).length)
  have hinner := skipBlanks_newLine (depth + 1) (hexact.visible_itemsText depth vs rest) (pos + 1)
  rw [List.cons_append, List.append_assoc]
  refine ⟨pos', readValue_items hinner ?_ h⟩
  obtain ⟨c, cs, hcs, -, hc⟩ := hexact.head (depth + 1)
  simpa [itemsText, hcs] using hc

/-- No name is there twice, so the reader keeps every member. -/
theorem readsBack_obj {members : List (String × Json)} (hnames : (members.map Prod.fst).Nodup)
    (hmembers : ∀ m ∈ members, Exact m.2 ∧ ReadsBack m.2) : ReadsBack (.obj members) := by
  intro depth fuel rest hlength _ pos
  rcases members with _ | ⟨⟨name, v⟩, ms⟩
  · obtain ⟨fuel, rfl, -⟩ := exists_fuel hlength
    exact ⟨_, rfl⟩
  rw [prettyAt_obj] at hlength ⊢
  obtain ⟨fuel, rfl, hinside⟩ := exists_fuel hlength
  rw [List.length_append] at hinside
  obtain ⟨pos', h⟩ := reads_members depth rest ms name v fuel hmembers (by omega)
    (pos + 1 + (newLine (depth + 1)).length)
  have hinner := skipBlanks_newLine (depth + 1) (visible_membersText depth name v ms rest)
    (pos + 1)
  have hvalue := readValue_members hinner (by simp [membersText_eq]) h
  rw [Index.ofEntries_of_nodup hnames] at hvalue
  rw [List.cons_append, List.append_assoc]
  exact ⟨pos', hvalue⟩

/-- **The indented form of an exact value is read back.** -/
theorem Exact.readsBack (h : Exact v) : ReadsBack v := by
  induction h with
  | null => exact readsBack_null
  | bool b => exact readsBack_bool b
  | int n => exact readsBack_int n
  | str s => exact readsBack_str s
  | arr hitems ih => exact readsBack_arr fun v hv => ⟨hitems v hv, ih v hv⟩
  | obj hnames hmembers ih => exact readsBack_obj hnames fun m hm => ⟨hmembers m hm, ih m hm⟩

/-! ## Whole texts -/

theorem isAscii_newLine (depth : Nat) : IsAscii (newLine depth) := by
  intro c hc
  rcases List.mem_cons.1 hc with rfl | hc
  · decide
  · rw [List.eq_of_mem_replicate hc]
    decide

theorem isAscii_prettyItems (depth : Nat) {vs : List Json}
    (h : ∀ v ∈ vs, ∀ depth, IsAscii (prettyAt depth v)) : IsAscii (prettyItems depth vs) := by
  induction vs with
  | nil => exact isAscii_nil
  | cons v vs ih =>
    have hv := h v List.mem_cons_self (depth + 1)
    have hvs := ih fun w hw => h w (List.mem_cons_of_mem _ hw)
    simp [prettyItems, isAscii_newLine, hv, hvs]

theorem isAscii_prettyMembers (depth : Nat) {ms : List (String × Json)}
    (h : ∀ m ∈ ms, ∀ depth, IsAscii (prettyAt depth m.2)) : IsAscii (prettyMembers depth ms) := by
  induction ms with
  | nil => exact isAscii_nil
  | cons m ms ih =>
    have hm := h m List.mem_cons_self (depth + 1)
    have hms := ih fun m hm => h m (List.mem_cons_of_mem _ hm)
    simp [prettyMembers, isAscii_newLine, isAscii_quote, hm, hms]

/-- **The indented form of an exact value is ASCII.** -/
theorem Exact.isAscii (h : Exact v) (depth : Nat) : IsAscii (prettyAt depth v) := by
  induction h generalizing depth with
  | null => simp [prettyAt]
  | bool b => cases b <;> simp [prettyAt]
  | int n => exact isAscii_intText n
  | str text => exact isAscii_quote text
  | @arr items _ ih =>
    have hitems := isAscii_prettyItems depth ih
    cases items with
    | nil => simp [prettyAt]
    | cons v vs => simpa [prettyItems, prettyAt_arr, itemsText, isAscii_newLine] using hitems
  | @obj members _ _ ih =>
    have hmembers := isAscii_prettyMembers depth ih
    rcases members with _ | ⟨⟨name, v⟩, ms⟩
    · simp [prettyAt]
    · simpa [prettyMembers, prettyAt_obj, membersText, isAscii_newLine, isAscii_quote]
        using hmembers

/-- **Reading the indented form of an exact value gives the value back**, with blanks behind it. -/
theorem read_pretty (h : Exact v) {blanks : String}
    (hblanks : ∀ c ∈ blanks.toList, isBlank c = true) : read (v.pretty ++ blanks) = .ok v := by
  have hchars : (v.pretty ++ blanks).toList = prettyAt 0 v ++ blanks.toList := by
    rw [String.toList_append, pretty, String.toList_ofList]
  have hends : EndsNumber blanks.toList := by
    intro c hc
    have hblank := hblanks c (List.mem_of_mem_head? hc)
    simp only [isBlank, Bool.or_eq_true, decide_eq_true_eq] at hblank
    rcases hblank with ((rfl | rfl) | rfl) | rfl <;> decide
  obtain ⟨c, cs, hcs, hc, -⟩ := h.head 0
  have hmark : c ≠ '\uFEFF' := by
    rintro rfl
    exact absurd (h.isAscii 0 '\uFEFF' (hcs ▸ List.mem_cons_self)) (by decide)
  obtain ⟨pos', hread⟩ := h.readsBack 0 ((prettyAt 0 v ++ blanks.toList).length + 1) blanks.toList
    (by rw [List.length_append]; omega) hends 0
  have hstart : (Rest.mk (prettyAt 0 v ++ blanks.toList) 0).skipBlanks =
      ⟨prettyAt 0 v ++ blanks.toList, 0⟩ := by
    rw [hcs]
    exact skipBlanks_cons hc _ 0
  have hnothing : Visible [] := fun _ h => nomatch h
  have hend := skipBlanks_append hblanks hnothing pos'
  rw [List.append_nil] at hend
  unfold read
  simp only [hchars, hstart, hread]
  rw [hcs, List.cons_append]
  simp [hmark, hend]

end QueryDepth.Json
