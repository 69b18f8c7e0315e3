import QueryDepth.Text.Suggestion
import QueryDepth.Validation.Rule.Basic

/-!
# Rules on fields

A field is one of the type that it is selected on. It has selections of its own if and only if its
type has fields.
-/

namespace QueryDepth.Rule

def scalarLeafs : Rule := fun ctx visit =>
  match visit with
  | .field _ (some definition) head selections =>
    match ctx.schema.base? definition.type with
    | some base =>
      let name := head.name.value
      let type := definition.type.text
      if base.body.isLeaf then
        if selections.isEmpty then []
        else
          [⟨"Field '" ++ name ++ "' must not have a selection since type '" ++ type
            ++ "' has no subfields.", [head.brace]⟩]
      else if selections.isEmpty then
        [⟨"Field '" ++ name ++ "' of type '" ++ type
          ++ "' must have a selection of subfields. Did you mean '" ++ name
          ++ " \x7b ... \x7d'?", [head.pos]⟩]
      else []
    | none => []
  | _ => []

/-- The objects that a type stands for and that have a field of a name, each followed by those of
its interfaces that have it too. -/
def typesWithField (s : Schema) (parent : NamedType) (name : String) : List NamedType :=
  (s.possibleObjects parent).flatMap fun object =>
    if (object.field? name).isNone then []
    else
      object :: (object.body.interfaces.filterMap s.type?).filter fun i => (i.field? name).isSome

/-- Whether one type is suggested before another: the one that occurs more often, then the one that
the other belongs to, then the one with the lesser name. -/
def suggestedBefore (s : Schema) (found : List NamedType) (a b : NamedType) : Bool :=
  let uses (t : NamedType) := (found.filter (·.name = t.name)).length
  if uses a ≠ uses b then uses b < uses a
  else if a.body.isInterface && s.isMember a b.name then true
  else if b.body.isInterface && s.isMember b a.name then false
  else (Text.naturalCompare a.name b.name).isLE

/-- The types on which a field that an abstract type lacks can be selected. -/
def suggestedTypes (s : Schema) (parent : NamedType) (name : String) : List String :=
  if parent.body.isAbstract then
    let found := typesWithField s parent name
    let names := (found.map (·.name)).eraseDups
    let types := names.filterMap fun n => found.find? (·.name = n)
    (types.mergeSort (suggestedBefore s found)).map (·.name)
  else []

def fieldsOnCorrectType : Rule := fun ctx visit =>
  match visit with
  | .field (some parent) none head _ =>
    let name := head.name.value
    let types := suggestedTypes ctx.schema parent name
    let hint :=
      if types.isEmpty then
        Text.didYouMean (Text.suggestions name (parent.body.fields.map (·.name))) ""
      else Text.didYouMean types "to use an inline fragment on"
    [⟨"Cannot query field '" ++ name ++ "' on type '" ++ parent.name ++ "'." ++ hint, [head.pos]⟩]
  | _ => []

end QueryDepth.Rule
