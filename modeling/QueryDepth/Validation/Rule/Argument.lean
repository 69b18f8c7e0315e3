import QueryDepth.Text.Suggestion
import QueryDepth.Validation.Rule.Basic

/-!
# Rules on arguments

The arguments of a field or a directive are known, none is given twice, and none that is required is
left out. The rules on directives alone hold for type definitions too.
-/

namespace QueryDepth.Rule

/-- The words for names of arguments that may have been meant. -/
def argumentHint (name : String) (known : List InputField) : String :=
  Text.didYouMean (Text.suggestions name (known.map (·.name))) ""

def knownArgumentNamesOnDirectives : Rule := fun ctx visit =>
  match visit with
  | .directive _ d =>
    match ctx.directive? d.name.value with
    | some definition =>
      (d.arguments.filter fun a => !definition.arguments.any (·.name = a.name.value)).map fun a =>
        ⟨"Unknown argument '" ++ a.name.value ++ "' on directive '@" ++ d.name.value ++ "'."
          ++ argumentHint a.name.value definition.arguments, [a.pos]⟩
    | none => []
  | _ => []

def knownArgumentNames : Rule := fun ctx visit =>
  match visit with
  | .argument (some (parent, definition)) a =>
    if definition.arguments.any (·.name = a.name.value) then []
    else
      [⟨"Unknown argument '" ++ a.name.value ++ "' on field '" ++ parent.name ++ "."
        ++ definition.name ++ "'." ++ argumentHint a.name.value definition.arguments, [a.pos]⟩]
  | visit => knownArgumentNamesOnDirectives ctx visit

def repeatedArguments (arguments : List Argument) : List Violation :=
  repetitionViolations (fun n => "There can be only one argument named '" ++ n ++ "'.")
    (arguments.map (·.name))

def uniqueArgumentNames : Rule := fun _ visit =>
  match visit with
  | .field _ _ head _ => repeatedArguments head.arguments
  | .directive _ d => repeatedArguments d.arguments
  | _ => []

/-- The required arguments that are not given. -/
def missingArguments (known : List InputField) (given : List Argument) : List InputField :=
  known.filter fun f => f.isRequired && !given.any (·.name.value = f.name)

/-- Says that a field or a directive lacks an argument. -/
def missingMessage (owner : String) (f : InputField) : String :=
  owner ++ " argument '" ++ f.name ++ "' of type '" ++ f.type.text
    ++ "' is required, but it was not provided."

def providedRequiredArgumentsOnDirectives : Rule := fun ctx visit =>
  match visit with
  | .directiveEnd d =>
    match ctx.directive? d.name.value with
    | some definition =>
      (missingArguments definition.arguments d.arguments).map fun f =>
        ⟨missingMessage ("Directive '@" ++ d.name.value ++ "'") f, [d.pos]⟩
    | none => []
  | _ => []

def providedRequiredArguments : Rule := fun ctx visit =>
  match visit with
  | .fieldEnd (some definition) head =>
    (missingArguments definition.arguments head.arguments).map fun f =>
      ⟨missingMessage ("Field '" ++ head.name.value ++ "'") f, [head.pos]⟩
  | visit => providedRequiredArgumentsOnDirectives ctx visit

end QueryDepth.Rule
