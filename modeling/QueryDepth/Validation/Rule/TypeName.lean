import QueryDepth.Text.Suggestion
import QueryDepth.Validation.Rule.Basic

/-!
# Rules on the types that a document names

A type that is named exists, selections are made only on types that have fields, and variables have
types of inputs.
-/

namespace QueryDepth.Rule

/-- The names of the schema's types and of those that the document defines. -/
def typeNames (ctx : RuleContext) : List String :=
  (ctx.schema.types.map (·.name) ++ ctx.document.typeDefinitions.map (·.name.value)).eraseDups

/-- Type definitions may name the standard types without having them. -/
def knownTypeNames : Rule := fun ctx visit =>
  match visit with
  | .namedType inTypeSystem name =>
    let known := typeNames ctx
    if known.contains name.value ∨ (inTypeSystem ∧ Schema.isStandardName name.value) then []
    else
      let candidates :=
        if inTypeSystem then Schema.standardTypes.map (·.name) ++ known else known
      let hint := Text.didYouMean (Text.suggestions name.value candidates) ""
      [⟨"Unknown type '" ++ name.value ++ "'." ++ hint, [name.pos]⟩]
  | _ => []

/-- Whether a name is the name of a type that has no fields to select. -/
def isNonComposite (ctx : RuleContext) (name : Name) : Bool :=
  match ctx.schema.type? name.value with
  | some t => !t.body.isComposite
  | none => false

def fragmentsOnCompositeTypes : Rule := fun ctx visit =>
  match visit with
  | .inlineFragment _ _ head =>
    match head.condition with
    | some condition =>
      if isNonComposite ctx condition then
        [⟨"Fragment cannot condition on non composite type '" ++ condition.value ++ "'.",
          [condition.pos]⟩]
      else []
    | none => []
  | .definition (.fragment f) =>
    if isNonComposite ctx f.condition then
      [⟨"Fragment '" ++ f.name.value ++ "' cannot condition on non composite type '"
        ++ f.condition.value ++ "'.", [f.condition.pos]⟩]
    else []
  | _ => []

def variablesAreInputTypes : Rule := fun ctx visit =>
  match visit with
  | .variableDefinition v =>
    match ctx.schema.typeOf? v.type with
    | some t =>
      if ctx.schema.isInputType t then []
      else
        [⟨"Variable '$" ++ v.name.value ++ "' cannot be non-input type '" ++ v.type.text ++ "'.",
          [v.type.pos]⟩]
    | none => []
  | _ => []

end QueryDepth.Rule
