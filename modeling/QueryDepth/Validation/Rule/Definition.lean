import QueryDepth.Validation.Rule.Basic

/-!
# Rules on the definitions of a document

Only operations and fragments can be executed. Operations have names of their own, and so have
fragments; an operation without a name is the only one.
-/

namespace QueryDepth

def Definition.isExecutable : Definition → Bool
  | .operation _ | .fragment _ => true
  | _ => false

/-- How a definition is called in messages. -/
def Definition.shownName (d : Definition) : String :=
  match d.name? with
  | some n => quote n.value
  | none => "schema"

namespace Rule

def executableDefinitions : Rule := fun ctx visit =>
  match visit with
  | .document =>
    ctx.document.definitions.filterMap fun d =>
      if d.isExecutable then none
      else some ⟨"The " ++ d.shownName ++ " definition is not executable.", [d.pos]⟩
  | _ => []

def uniqueOperationNames : Rule := fun ctx visit =>
  match visit with
  | .definition (.operation op) =>
    match op.name with
    | some name =>
      let names := ctx.document.operations.filterMap (·.name)
      againViolation (fun n => "There can be only one operation named '" ++ n ++ "'.")
        (names.takeWhile (·.pos < name.pos)) name
    | none => []
  | _ => []

def loneAnonymousOperation : Rule := fun ctx visit =>
  match visit with
  | .definition (.operation op) =>
    if op.name.isNone ∧ 1 < ctx.document.operations.length then
      [⟨"This anonymous operation must be the only defined operation.", [op.pos]⟩]
    else []
  | _ => []

def uniqueFragmentNames : Rule := fun ctx visit =>
  match visit with
  | .definition (.fragment f) =>
    let names := ctx.document.fragments.map (·.name)
    againViolation (fun n => "There can be only one fragment named '" ++ n ++ "'.")
      (names.takeWhile (·.pos < f.name.pos)) f.name
  | _ => []

end Rule

end QueryDepth
