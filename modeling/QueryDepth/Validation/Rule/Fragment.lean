import QueryDepth.Validation.Rule.Basic

/-!
# Rules on fragments

A fragment that is spread exists, one that exists is spread, none spreads itself, and each can apply
where it is spread. Of several fragments of one name a spread means the last.

Spreads are listed set by set: first those that stand directly in a selection set, then those in the
sets inside it, of these the last set first.
-/

namespace QueryDepth

/-! ## Spreads -/

def directSpreads (selections : List Selection) : List Spread :=
  selections.filterMap fun
    | .spread s => some s
    | _ => none

mutual

/-- The spreads in the selection set of a selection. -/
def Selection.innerSpreads : Selection → List Spread
  | .spread _ => []
  | .field _ selections | .inlineFragment _ selections =>
    directSpreads selections ++ nestedSpreads selections

/-- The spreads in the selection sets of some selections, those of the last first. -/
def nestedSpreads : List Selection → List Spread
  | [] => []
  | selection :: rest => nestedSpreads rest ++ selection.innerSpreads

end

def spreadsIn (selections : List Selection) : List Spread :=
  directSpreads selections ++ nestedSpreads selections

namespace Document

/-- Takes in the fragments of some spreads that are not yet known by name. -/
def collectFragments (doc : Document) :
    List Spread → List String → List Fragment → List String × List Fragment
  | [], names, found => (names, found)
  | s :: rest, names, found =>
    let name := s.name.value
    if names.contains name then collectFragments doc rest names found
    else collectFragments doc rest (names ++ [name]) (found ++ (doc.fragment? name).toList)

/-- The fragments that are reached from some sets of selections, those behind the last first. -/
def reachFrom (doc : Document) : Nat → List (List Selection) → List String → List Fragment
  | 0, _, _ => []
  | _, [], _ => []
  | fuel + 1, selections :: others, names =>
    let (names, found) := collectFragments doc (spreadsIn selections) names []
    found ++ reachFrom doc fuel ((found.map (·.selections)).reverse ++ others) names

/-- The fragments that an operation spreads, directly or through others. Each set that is looked
into belongs to another fragment. -/
def reachedFragments (doc : Document) (op : Operation) : List Fragment :=
  reachFrom doc (doc.fragments.length + 1) [op.selections] []

/-! ## Cycles -/

/-- The fragments that were looked into, and the violations that were found. -/
structure CycleSearch where
  visited : List String
  found : List Violation

def cycleViolation (name : String) (cycle : List Spread) : Violation :=
  let via := cycle.dropLast.map fun s => quote s.name.value
  let way := if via.isEmpty then "" else " via " ++ ", ".intercalate via
  ⟨"Cannot spread fragment '" ++ name ++ "' within itself" ++ way ++ ".", cycle.map (·.pos)⟩

/-- Looks into a fragment that was reached by a path of spreads. `entered` holds the fragments on
the path, each with the length of the path before it. -/
def searchCycles (doc : Document) : Nat → Fragment → List Spread → List (String × Nat) →
    CycleSearch → CycleSearch
  | 0, _, _, _, search => search
  | fuel + 1, f, path, entered, search =>
    if search.visited.contains f.name.value then search
    else
      let entered := (f.name.value, path.length) :: entered
      (spreadsIn f.selections).foldl (fun search s =>
        let name := s.name.value
        match entered.lookup name with
        | some start =>
          { search with found := search.found ++ [cycleViolation name ((path ++ [s]).drop start)] }
        | none =>
          match doc.fragment? name with
          | some next => searchCycles doc fuel next (path ++ [s]) entered search
          | none => search)
        { search with visited := f.name.value :: search.visited }

/-- The cycles that are found from each fragment on, by the offset of its definition. -/
def cycles (doc : Document) : List (Nat × List Violation) :=
  (doc.fragments.foldl (fun (visited, table) f =>
    let search := searchCycles doc (doc.fragments.length + 1) f [] [] ⟨visited, []⟩
    (search.visited, table ++ [(f.pos, search.found)])) (([] : List String), [])).2

end Document

namespace Rule

def knownFragmentNames : Rule := fun ctx visit =>
  match visit with
  | .spread _ s =>
    if (ctx.document.fragment? s.name.value).isSome then []
    else [⟨"Unknown fragment '" ++ s.name.value ++ "'.", [s.name.pos]⟩]
  | _ => []

def noUnusedFragments : Rule := fun ctx visit =>
  match visit with
  | .documentEnd =>
    let used := ctx.document.operations.flatMap fun op =>
      (ctx.document.reachedFragments op).map (·.name.value)
    (ctx.document.fragments.filter fun f => !used.contains f.name.value).map fun f =>
      ⟨"Fragment '" ++ f.name.value ++ "' is never used.", [f.pos]⟩
  | _ => []

def cannotApply (fragment : String) (parent type : NamedType) (pos : Nat) : Violation :=
  ⟨fragment ++ " cannot be spread here as objects of type '" ++ parent.name
    ++ "' can never be of type '" ++ type.name ++ "'.", [pos]⟩

def possibleFragmentSpreads : Rule := fun ctx visit =>
  let check (fragment : String) (parent type : Option NamedType) (pos : Nat) : List Violation :=
    match parent, type with
    | some parent, some type =>
      if type.body.isComposite && !ctx.schema.overlap type parent then
        [cannotApply fragment parent type pos]
      else []
    | _, _ => []
  match visit with
  | .inlineFragment parent type head => check "Fragment" parent type head.pos
  | .spread parent s =>
    let type := (ctx.document.fragment? s.name.value).bind fun f =>
      ctx.schema.type? f.condition.value
    check ("Fragment '" ++ s.name.value ++ "'") parent type s.pos
  | _ => []

def noFragmentCycles : Rule := fun ctx visit =>
  match visit with
  | .definition (.fragment f) => (ctx.document.cycles.lookup f.pos).getD []
  | _ => []

end Rule

end QueryDepth
