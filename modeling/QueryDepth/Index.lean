/-!
# Indexes in order of insertion

An index is a list of keys with values in which no key is repeated. A new key goes to the end; a
known key keeps its place and takes the new value.
-/

namespace QueryDepth.Index

variable {κ α : Type} [DecidableEq κ]

/-- Puts a value under a key. -/
def put (key : κ) (value : α) : List (κ × α) → List (κ × α)
  | [] => [(key, value)]
  | (k, v) :: rest => if k = key then (k, value) :: rest else (k, v) :: put key value rest

/-- The index of a sequence of entries, in which later ones win. -/
def ofEntries (entries : List (κ × α)) : List (κ × α) :=
  entries.foldl (fun acc e => put e.1 e.2 acc) []

/-- The value under a key. -/
def find? (key : κ) : List (κ × α) → Option α
  | [] => none
  | (k, v) :: rest => if k = key then some v else find? key rest

theorem find?_put_self (key : κ) (value : α) (l : List (κ × α)) :
    find? key (put key value l) = some value := by
  induction l with
  | nil => simp [put, find?]
  | cons e l ih =>
    by_cases h : e.1 = key
    · simp [put, find?, h]
    · simp [put, find?, h, ih]

theorem find?_put_of_ne {key other : κ} (h : other ≠ key) (value : α) (l : List (κ × α)) :
    find? other (put key value l) = find? other l := by
  induction l with
  | nil => simp [put, find?, Ne.symm h]
  | cons e l ih =>
    by_cases hk : e.1 = key
    · simp [put, find?, hk, Ne.symm h]
    · simp [put, find?, hk, ih]

/-- Putting a value changes no key and adds the new one at the end. -/
theorem keys_put (key : κ) (value : α) (l : List (κ × α)) :
    (put key value l).map Prod.fst =
      if key ∈ l.map Prod.fst then l.map Prod.fst else l.map Prod.fst ++ [key] := by
  induction l with
  | nil => simp [put]
  | cons e l ih =>
    by_cases hk : e.1 = key
    · simp [put, hk]
    · have hk' : ¬ key = e.1 := fun h => hk h.symm
      simp only [put, hk, if_false, List.map_cons, ih, List.mem_cons, hk', false_or]
      split <;> simp

end QueryDepth.Index
