import QueryDepth.Validation.Rule.Argument
import QueryDepth.Validation.Rule.Definition
import QueryDepth.Validation.Rule.Directive
import QueryDepth.Validation.Rule.Field
import QueryDepth.Validation.Rule.Overlap
import QueryDepth.Validation.Rule.Subscription
import QueryDepth.Validation.Rule.TypeName
import QueryDepth.Validation.Rule.Value
import QueryDepth.Validation.Rule.Variable
import QueryDepth.Validation.Run

/-!
# The standard rules

All rules report at each visit in a fixed order. A validation can be broken off only by the rule on
subscriptions, so the rules are listed before that rule and from it on.
-/

namespace QueryDepth

/-- The rules that report before the one on subscriptions. -/
def earlyRules : List Rule :=
  [Rule.executableDefinitions, Rule.uniqueOperationNames, Rule.loneAnonymousOperation]

/-- The rule on subscriptions and those that report after it. -/
def lateRules : List Rule :=
  [Rule.singleFieldSubscriptions, Rule.knownTypeNames, Rule.fragmentsOnCompositeTypes,
   Rule.variablesAreInputTypes, Rule.scalarLeafs, Rule.fieldsOnCorrectType,
   Rule.uniqueFragmentNames, Rule.knownFragmentNames, Rule.noUnusedFragments,
   Rule.possibleFragmentSpreads, Rule.noFragmentCycles, Rule.uniqueVariableNames,
   Rule.noUndefinedVariables, Rule.noUnusedVariables, Rule.knownDirectives,
   Rule.uniqueDirectivesPerLocation, Rule.knownArgumentNames, Rule.uniqueArgumentNames,
   Rule.valuesOfCorrectType, Rule.providedRequiredArguments, Rule.variablesInAllowedPosition,
   Rule.overlappingFieldsCanBeMerged, Rule.uniqueInputFieldNames]

def standardRules : List Rule := earlyRules ++ lateRules

/-- What some rules report at a visit. -/
def reportAt (rules : List Rule) (ctx : RuleContext) (visit : Visit) : List Violation :=
  rules.flatMap fun rule => rule ctx visit

namespace StandardFindings

/-- What the standard rules report at visits, up to the one that breaks the validation off. -/
def atVisits (ctx : RuleContext) : List Visit → List Violation × Option Violation
  | [] => ([], none)
  | visit :: rest =>
    match Rule.brokenOff? ctx visit with
    | some v => (reportAt earlyRules ctx visit, some v)
    | none =>
      let (found, brokenOff) := atVisits ctx rest
      (reportAt standardRules ctx visit ++ found, brokenOff)

/-- What the standard rules find in a document. -/
def of (s : Schema) (doc : Document) : StandardFindings :=
  let ctx := RuleContext.of s doc
  let (rest, brokenOff) := atVisits ctx (doc.innerVisits s)
  ⟨reportAt standardRules ctx .document, rest, brokenOff⟩

end StandardFindings

end QueryDepth
