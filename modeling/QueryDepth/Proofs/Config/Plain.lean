import QueryDepth.Yaml.Library

/-!
# Plain data

A configuration file spells *plain* data: null, booleans, numbers, texts, bytes, dates with and
without a time, and collections of these, which may hold themselves. Patterns, predicates and
policies can only be made by a program.

**Libraries** (`LawfulYaml`). A library that reads YAML is lawful if whatever it reads is plain, as
with loaders that are called safe.

**Theorem (`plain_of_load`).** Whatever the reader that is defined here reads is plain. The proof
follows its recursion over nodes.

Values can hold numbers with a point, predicates and policies, which have no decidable equality.
`Data.same` decides it for the others, so that it can be checked what a text spells.
-/

namespace QueryDepth

/-! ## Plain data -/

/-- Made of null, booleans, numbers, texts, bytes, dates and collections alone. -/
inductive Data.IsPlain : Data → Prop
  | null : IsPlain .null
  | bool (b : Bool) : IsPlain (.bool b)
  | int (n : Int) : IsPlain (.int n)
  | float (x : Float) : IsPlain (.float x)
  | text (s : String) : IsPlain (.text s)
  | bytes (bs : List UInt8) : IsPlain (.bytes bs)
  | date (d : Date) : IsPlain (.date d)
  | timestamp (t : Timestamp) : IsPlain (.timestamp t)
  | list {items : List Data} (hitems : ∀ v ∈ items, IsPlain v) : IsPlain (.list items)
  | tuple {items : List Data} (hitems : ∀ v ∈ items, IsPlain v) : IsPlain (.tuple items)
  | set {items : List Data} (hitems : ∀ v ∈ items, IsPlain v) : IsPlain (.set items)
  | mapping {entries : List (Data × Data)} (hkeys : ∀ e ∈ entries, IsPlain e.1)
      (hvalues : ∀ e ∈ entries, IsPlain e.2) : IsPlain (.mapping entries)
  | loop {mark : Nat} {body : Data} (hbody : IsPlain body)
      (hcollection : body.isCollection = true) : IsPlain (.loop mark body)
  | again (mark : Nat) : IsPlain (.again mark)

/-- A library that makes plain data of every file. -/
class LawfulYaml [YamlLibrary] : Prop where
  plain {path : String} {bytes : List UInt8} {v : Data} (h : YamlLibrary.load path bytes = .ok v) :
    v.IsPlain

namespace Data

variable {mark : Nat} {whole v : Data}

theorem putItems_eq_map (mark : Nat) (whole : Data) (items : List Data) :
    putItems mark whole items = items.map (put mark whole) := by
  induction items with
  | nil => rfl
  | cons v items ih => rw [putItems, ih, List.map_cons]

theorem putEntries_eq_map (mark : Nat) (whole : Data) (entries : List (Data × Data)) :
    putEntries mark whole entries =
      entries.map fun e => (put mark whole e.1, put mark whole e.2) := by
  induction entries with
  | nil => rfl
  | cons e entries ih => rw [putEntries, ih, List.map_cons]

theorem isCollection_put (h : v.isCollection = true) :
    (put mark whole v).isCollection = true := by
  cases v with
  | list | tuple | set | mapping => rfl
  | _ => exact nomatch h

/-- Putting plain data into plain data makes plain data. -/
theorem IsPlain.put (hwhole : whole.IsPlain) (hv : v.IsPlain) :
    (Data.put mark whole v).IsPlain := by
  induction hv with
  | null => exact .null
  | bool b => exact .bool b
  | int n => exact .int n
  | float x => exact .float x
  | text s => exact .text s
  | bytes bs => exact .bytes bs
  | date d => exact .date d
  | timestamp t => exact .timestamp t
  | list _ ih =>
    rw [Data.put, putItems_eq_map]
    exact .list (List.forall_mem_map.2 ih)
  | tuple _ ih =>
    rw [Data.put, putItems_eq_map]
    exact .tuple (List.forall_mem_map.2 ih)
  | set _ ih =>
    rw [Data.put, putItems_eq_map]
    exact .set (List.forall_mem_map.2 ih)
  | mapping _ _ ihkeys ihvalues =>
    rw [Data.put, putEntries_eq_map]
    exact .mapping (List.forall_mem_map.2 ihkeys) (List.forall_mem_map.2 ihvalues)
  | loop hbody hcollection ih =>
    rw [Data.put]
    split
    · exact .loop hbody hcollection
    · exact .loop ih (isCollection_put hcollection)
  | again m =>
    rw [Data.put]
    split
    · exact hwhole
    · exact .again m

theorem IsPlain.putItems (hwhole : whole.IsPlain) {items : List Data}
    (hitems : ∀ v ∈ items, v.IsPlain) : ∀ v ∈ Data.putItems mark whole items, v.IsPlain := by
  rw [putItems_eq_map]
  exact List.forall_mem_map.2 fun v hv => hwhole.put (hitems v hv)

/-- What plain data consist of is plain. -/
theorem IsPlain.items (hplain : v.IsPlain) {items : List Data} (hitems : v.items? = some items) :
    ∀ item ∈ items, item.IsPlain := by
  induction hplain generalizing items with
  | text s =>
    obtain rfl := Option.some.inj hitems
    exact List.forall_mem_map.2 fun c _ => .text _
  | bytes bs =>
    obtain rfl := Option.some.inj hitems
    exact List.forall_mem_map.2 fun b _ => .int _
  | list h | tuple h | set h =>
    obtain rfl := Option.some.inj hitems
    exact h
  | mapping hkeys =>
    obtain rfl := Option.some.inj hitems
    exact List.forall_mem_map.2 hkeys
  | loop hbody hcollection ih =>
    obtain ⟨inside, hinside, rfl⟩ := Option.map_eq_some_iff.1 hitems
    exact (IsPlain.loop hbody hcollection).putItems (ih hinside)
  | null | bool | int | float | date | timestamp | again => exact nomatch hitems

theorem IsPlain.entries (hplain : v.IsPlain) {entries : List (Data × Data)}
    (hentries : v.entries? = some entries) : ∀ e ∈ entries, e.1.IsPlain ∧ e.2.IsPlain := by
  induction hplain generalizing entries with
  | mapping hkeys hvalues =>
    obtain rfl := Option.some.inj hentries
    exact fun e he => ⟨hkeys e he, hvalues e he⟩
  | @loop mark body hbody hcollection ih =>
    obtain ⟨inside, hinside, rfl⟩ := Option.map_eq_some_iff.1 hentries
    have hwhole : (Data.loop mark body).IsPlain := .loop hbody hcollection
    rw [putEntries_eq_map]
    exact List.forall_mem_map.2 fun e he =>
      ⟨hwhole.put (ih hinside e he).1, hwhole.put (ih hinside e he).2⟩
  | _ => exact nomatch hentries

end Data

/-! ## Programs that may fail -/

section

variable {ε α β : Type}

/-- A program that succeeds goes on with what its first part gives. -/
theorem exists_of_bind_eq_ok {x : Except ε α} {f : α → Except ε β} {b : β}
    (h : (x >>= f) = .ok b) : ∃ a, x = .ok a ∧ f a = .ok b := by
  cases x with
  | error e => exact nomatch h
  | ok a => exact ⟨a, rfl, h⟩

theorem exists_of_map_eq_ok {x : Except ε α} {f : α → β} {b : β} (h : f <$> x = .ok b) :
    ∃ a, x = .ok a ∧ f a = b := by
  cases x with
  | error e => exact nomatch h
  | ok a => exact ⟨a, rfl, Except.ok.inj h⟩

end

namespace Yaml

/-! ## What a text spells -/

theorem plain_of_readTimestamp {text : String} {v : Data} (h : readTimestamp text = .ok v) :
    v.IsPlain := by
  unfold readTimestamp at h
  split at h
  · obtain ⟨t, -, rfl⟩ := exists_of_map_eq_ok h
    exact .timestamp t
  · obtain ⟨d, -, rfl⟩ := exists_of_map_eq_ok h
    exact .date d

theorem plain_of_scalar {tag text : String} {v : Data} (h : scalar tag text = .ok v) :
    v.IsPlain := by
  unfold scalar at h
  split at h
  · obtain rfl := Except.ok.inj h
    exact .null
  split at h
  · obtain ⟨b, -, rfl⟩ := exists_of_map_eq_ok h
    exact .bool b
  split at h
  · obtain ⟨n, -, rfl⟩ := exists_of_map_eq_ok h
    exact .int n
  split at h
  · obtain ⟨x, -, rfl⟩ := exists_of_map_eq_ok h
    exact .float x
  split at h
  · obtain rfl := Except.ok.inj h
    exact .text text
  split at h
  · exact plain_of_readTimestamp h
  split at h
  · obtain ⟨bs, -, rfl⟩ := exists_of_map_eq_ok h
    exact .bytes bs
  · exact nomatch h

theorem mem_putEntry {key value : Data} : ∀ {entries : List (Data × Data)} {e : Data × Data},
    e ∈ putEntry key value entries →
      (e.1 = key ∨ ∃ e' ∈ entries, e.1 = e'.1) ∧ (e.2 = value ∨ ∃ e' ∈ entries, e.2 = e'.2)
  | [], e, h => by
    obtain rfl := List.mem_singleton.1 h
    exact ⟨.inl rfl, .inl rfl⟩
  | (k, v) :: rest, e, h => by
    rw [putEntry] at h
    split at h
    · rcases List.mem_cons.1 h with rfl | hrest
      · exact ⟨.inr ⟨_, List.mem_cons_self, rfl⟩, .inl rfl⟩
      · have hmem := List.mem_cons_of_mem (k, v) hrest
        exact ⟨.inr ⟨e, hmem, rfl⟩, .inr ⟨e, hmem, rfl⟩⟩
    · rcases List.mem_cons.1 h with rfl | hrest
      · exact ⟨.inr ⟨_, List.mem_cons_self, rfl⟩, .inr ⟨_, List.mem_cons_self, rfl⟩⟩
      · obtain ⟨hkey, hvalue⟩ := mem_putEntry hrest
        refine ⟨hkey.imp_right ?_, hvalue.imp_right ?_⟩
        · exact fun ⟨e', he', heq⟩ => ⟨e', List.mem_cons_of_mem _ he', heq⟩
        · exact fun ⟨e', he', heq⟩ => ⟨e', List.mem_cons_of_mem _ he', heq⟩

theorem plain_putEntry {key value : Data} {entries : List (Data × Data)} (hkey : key.IsPlain)
    (hvalue : value.IsPlain) (hentries : (Data.mapping entries).IsPlain) :
    (Data.mapping (putEntry key value entries)).IsPlain := by
  have hbefore := hentries.entries rfl
  refine .mapping (fun e he => ?_) fun e he => ?_
  · rcases (mem_putEntry he).1 with heq | ⟨e', he', heq⟩
    · exact heq ▸ hkey
    · exact heq ▸ (hbefore e' he').1
  · rcases (mem_putEntry he).2 with heq | ⟨e', he', heq⟩
    · exact heq ▸ hvalue
    · exact heq ▸ (hbefore e' he').2

theorem plain_looped {mark : Nat} {v : Data} (h : v.IsPlain) : (looped mark v).IsPlain := by
  unfold looped
  split
  · next hcollection => exact .loop h hcollection
  · exact h

theorem plain_pair {key value : Data} (hkey : key.IsPlain) (hvalue : value.IsPlain) :
    ∀ v ∈ [key, value], v.IsPlain :=
  List.forall_mem_cons.2 ⟨hkey, List.forall_mem_singleton.2 hvalue⟩

mutual

theorem plain_of_construct : ∀ {fuel : Nat} {node : YamlNode} {v : Data},
    construct fuel node = .ok v → v.IsPlain
  | 0, _, _, h => nomatch h
  | _ + 1, .scalar tag text, _, h => plain_of_scalar h
  | fuel + 1, .sequence tag items, v, h => by
    rw [construct] at h
    split at h
    · obtain ⟨values, hvalues, rfl⟩ := exists_of_map_eq_ok h
      exact .list (plain_of_constructAll hvalues)
    · split at h
      · obtain ⟨pairs, hpairs, rfl⟩ := exists_of_map_eq_ok h
        exact .list (plain_of_constructPairs hpairs)
      · exact nomatch h
  | fuel + 1, .mapping tag entries, v, h => by
    have hempty : (Data.mapping []).IsPlain := .mapping (by simp) (by simp)
    rw [construct] at h
    split at h
    · obtain ⟨flat, -, h⟩ := exists_of_bind_eq_ok h
      obtain ⟨done, hdone, rfl⟩ := exists_of_map_eq_ok h
      exact plain_of_constructEntries hempty hdone
    · split at h
      · obtain ⟨flat, -, h⟩ := exists_of_bind_eq_ok h
        obtain ⟨members, hmembers, h⟩ := exists_of_bind_eq_ok h
        obtain rfl := Except.ok.inj h
        have hplain := (plain_of_constructEntries hempty hmembers).entries rfl
        exact .set (List.forall_mem_map.2 fun e he => (hplain e he).1)
      · split at h
        · exact plain_of_scalar h
        · exact nomatch h
  | fuel + 1, .loop mark node, v, h => by
    obtain ⟨body, hbody, rfl⟩ := exists_of_map_eq_ok h
    exact plain_looped (plain_of_construct hbody)
  | _ + 1, .again mark, v, h => by
    obtain rfl := Except.ok.inj h
    exact .again mark

theorem plain_of_constructAll : ∀ {fuel : Nat} {nodes : List YamlNode} {vs : List Data},
    constructAll fuel nodes = .ok vs → ∀ v ∈ vs, v.IsPlain
  | 0, _, _, h => nomatch h
  | _ + 1, [], vs, h => by
    obtain rfl := Except.ok.inj h
    exact fun v hv => absurd hv List.not_mem_nil
  | fuel + 1, node :: nodes, vs, h => by
    rw [constructAll] at h
    obtain ⟨first, hfirst, h⟩ := exists_of_bind_eq_ok h
    obtain ⟨rest, hrest, h⟩ := exists_of_bind_eq_ok h
    obtain rfl : first :: rest = vs := Except.ok.inj h
    exact List.forall_mem_cons.2 ⟨plain_of_construct hfirst, plain_of_constructAll hrest⟩

theorem plain_of_constructPairs : ∀ {fuel : Nat} {nodes : List YamlNode} {vs : List Data},
    constructPairs fuel nodes = .ok vs → ∀ v ∈ vs, v.IsPlain
  | 0, _, _, h => nomatch h
  | _ + 1, [], vs, h => by
    obtain rfl := Except.ok.inj h
    exact fun v hv => absurd hv List.not_mem_nil
  | fuel + 1, node :: nodes, vs, h => by
    unfold constructPairs at h
    split at h
    · cases ‹fuel + 1 = 0›
    · cases ‹node :: nodes = []›
    · obtain ⟨key, hkey, h⟩ := exists_of_bind_eq_ok h
      obtain ⟨value, hvalue, h⟩ := exists_of_bind_eq_ok h
      obtain ⟨rest, hrest, h⟩ := exists_of_bind_eq_ok h
      obtain rfl := Except.ok.inj h
      have hpair := plain_pair (plain_of_construct hkey) (plain_of_construct hvalue)
      exact List.forall_mem_cons.2 ⟨.tuple hpair, plain_of_constructPairs hrest⟩
    · -- the pair of a mapping that holds itself has that mapping in it
      rename_i mark _ k w ns _ _
      obtain ⟨key, hkey, h⟩ := exists_of_bind_eq_ok h
      obtain ⟨value, hvalue, h⟩ := exists_of_bind_eq_ok h
      obtain ⟨rest, hrest, h⟩ := exists_of_bind_eq_ok h
      obtain rfl := Except.ok.inj h
      have hkey := plain_of_construct hkey
      have hvalue := plain_of_construct hvalue
      have hwhole : (Data.loop mark (.mapping [(key, value)])).IsPlain :=
        .loop (.mapping (List.forall_mem_singleton.2 hkey) (List.forall_mem_singleton.2 hvalue)) rfl
      exact List.forall_mem_cons.2
        ⟨.tuple (hwhole.putItems (plain_pair hkey hvalue)), plain_of_constructPairs hrest⟩
    · exact nomatch h

theorem plain_of_constructEntries : ∀ {fuel : Nat} {nodes : List (YamlNode × YamlNode)}
    {before entries : List (Data × Data)}, (Data.mapping before).IsPlain →
      constructEntries fuel nodes before = .ok entries → (Data.mapping entries).IsPlain
  | 0, _, _, _, _, h => nomatch h
  | _ + 1, [], before, entries, hbefore, h => by
    obtain rfl : before = entries := Except.ok.inj h
    exact hbefore
  | fuel + 1, (k, v) :: nodes, before, entries, hbefore, h => by
    rw [constructEntries] at h
    obtain ⟨key, hkey, h⟩ := exists_of_bind_eq_ok h
    split at h
    · obtain ⟨value, hvalue, h⟩ := exists_of_bind_eq_ok h
      have hput := plain_putEntry (plain_of_construct hkey) (plain_of_construct hvalue) hbefore
      exact plain_of_constructEntries hput h
    · exact nomatch h

end

/-- **Whatever the reader here reads is plain.** -/
theorem plain_of_load {text : List Char} {v : Data} (h : load text = .ok v) : v.IsPlain := by
  obtain ⟨root, -, h⟩ := exists_of_bind_eq_ok h
  cases root with
  | none =>
    obtain rfl := Except.ok.inj h
    exact .null
  | some root => exact plain_of_construct h

theorem loadBytes_eq_ok_iff {bytes : List UInt8} {v : Data} :
    loadBytes bytes = .ok v ↔ ∃ text, decodeInTurn bytes = .ok text ∧ load text = .ok v := by
  unfold loadBytes
  constructor
  · intro h
    split at h
    · exact nomatch h
    · next text htext =>
      split at h
      · exact nomatch h
      · next w hload =>
        obtain rfl := Except.ok.inj h
        exact ⟨text, htext, hload⟩
  · rintro ⟨text, htext, hload⟩
    rw [htext]
    dsimp only
    rw [hload]

instance lawful_ownLibrary : LawfulYaml where
  plain h := by
    obtain ⟨text, -, hload⟩ := loadBytes_eq_ok_iff.1 h
    exact plain_of_load hload

end Yaml

/-! ## Comparing plain data -/

namespace Data

mutual

/-- Whether two values without numbers that have a point are the same. -/
def same : Data → Data → Bool
  | .null, .null => true
  | .bool a, .bool b => a == b
  | .int m, .int n => m == n
  | .text s, .text t => s == t
  | .date d, .date e => d == e
  | .list vs, .list ws => sameItems vs ws
  | .mapping es, .mapping fs => sameEntries es fs
  | _, _ => false

def sameItems : List Data → List Data → Bool
  | [], [] => true
  | v :: vs, w :: ws => same v w && sameItems vs ws
  | _, _ => false

def sameEntries : List (Data × Data) → List (Data × Data) → Bool
  | [], [] => true
  | (k, v) :: es, (l, w) :: fs => same k l && same v w && sameEntries es fs
  | _, _ => false

end

mutual

theorem eq_of_same {v w : Data} (h : same v w = true) : v = w := by
  cases v with
  | null | bool | int | text | date => cases w <;> simp_all [same]
  | list vs => cases w with
    | list ws =>
      rw [same] at h
      rw [eq_of_sameItems h]
    | _ => simp [same] at h
  | mapping es => cases w with
    | mapping fs =>
      rw [same] at h
      rw [eq_of_sameEntries h]
    | _ => simp [same] at h
  | _ => simp [same] at h

theorem eq_of_sameItems : ∀ {vs ws : List Data}, sameItems vs ws = true → vs = ws
  | [], [], _ => rfl
  | v :: vs, w :: ws, h => by
    rw [sameItems, Bool.and_eq_true] at h
    rw [eq_of_same h.1, eq_of_sameItems h.2]

theorem eq_of_sameEntries : ∀ {es fs : List (Data × Data)}, sameEntries es fs = true → es = fs
  | [], [], _ => rfl
  | (k, v) :: es, (l, w) :: fs, h => by
    rw [sameEntries, Bool.and_eq_true, Bool.and_eq_true] at h
    rw [eq_of_same h.1.1, eq_of_same h.1.2, eq_of_sameEntries h.2]

end

end Data

theorem Yaml.load_eq_of_same {text : List Char} {v : Data}
    (h : (load text).toOption.map (Data.same v) = some true) : load text = .ok v := by
  cases hload : load text with
  | error e =>
    rw [hload] at h
    cases h
  | ok w =>
    rw [hload] at h
    rw [Data.eq_of_same (Option.some.inj h)]

end QueryDepth
