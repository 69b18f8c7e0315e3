import QueryDepth.Validation.Rule.Basic

/-!
# Rules on directives

A directive is known and stands where it may stand. One that is not repeatable stands once on each
node; all definitions and extensions of a type are one node for this, and so are those of the
schema.
-/

namespace QueryDepth.Rule

def knownDirectives : Rule := fun ctx visit =>
  match visit with
  | .directive place d =>
    let name := d.name.value
    match ctx.directive? name with
    | none => [⟨"Unknown directive '@" ++ name ++ "'.", [d.pos]⟩]
    | some definition =>
      if definition.locations.isEmpty then [⟨"Unknown directive '@" ++ name ++ "'.", [d.pos]⟩]
      else if definition.locations.contains place then []
      else [⟨"Directive '@" ++ name ++ "' may not be used on " ++ place ++ ".", [d.pos]⟩]
  | _ => []

/-- The directives on definitions and extensions of the schema. -/
def schemaDirectives (ds : List Definition) : List Directive :=
  ds.flatMap fun
    | .schema _ d => d.directives
    | _ => []

/-- The directives on definitions and extensions of a type. -/
def typeDirectives (name : String) (ds : List Definition) : List Directive :=
  ds.flatMap fun
    | .type _ d => if d.name.value = name then d.directives else []
    | _ => []

/-- The directives on a visited node, behind those that were on it before. -/
def directivesOn (ctx : RuleContext) : Visit → List Directive × List Directive
  | .definition d =>
    let earlier := ctx.document.definitions.takeWhile (·.pos < d.pos)
    match d with
    | .operation op => ([], op.directives)
    | .fragment f => ([], f.directives)
    | .schema _ d => (schemaDirectives earlier, d.directives)
    | .type _ d => (typeDirectives d.name.value earlier, d.directives)
    | .directive _ => ([], [])
  | .variableDefinition v => ([], v.directives)
  | .member directives => ([], directives)
  | .field _ _ head _ => ([], head.directives)
  | .spread _ s => ([], s.directives)
  | .inlineFragment _ _ head => ([], head.directives)
  | _ => ([], [])

def uniqueDirectivesPerLocation : Rule := fun ctx visit =>
  let (earlier, directives) := directivesOn ctx visit
  (withEarlier earlier directives).flatMap fun (before, d) =>
    let isUnique := match ctx.directive? d.name.value with
      | some definition => !definition.repeatable
      | none => false
    match before.find? (·.name.value = d.name.value) with
    | some first =>
      if isUnique then
        [⟨"The directive '@" ++ d.name.value ++ "' can only be used once at this location.",
          [first.pos, d.pos]⟩]
      else []
    | none => []

end QueryDepth.Rule
