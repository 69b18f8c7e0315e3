import QueryDepth.Pattern.Search

/-!
# Ignore policies

A policy is a list of rules, each of which matches some field names: a regular expression that is
searched in the name, or a predicate. Asking a policy tries the rules in order up to the first that
matches, and every question put to a predicate is recorded. A field is ignored if its name is one
of introspection or the policy matches it.
-/

namespace QueryDepth

/-- A question put to a predicate. -/
structure Call where
  predicate : String
  field : String
deriving DecidableEq, Repr

/-- A predicate on field names, which may fail with a message. -/
structure Predicate where
  /-- How its calls are recorded. -/
  label : String
  test : String → Except String Bool

inductive IgnoreRule where
  | pattern (p : Pattern)
  | predicate (p : Predicate)

structure Policy where
  rules : List IgnoreRule

/-- An answer, or the message of the predicate that failed, and the calls made for it. -/
structure Asked where
  answer : Except String Bool
  calls : List Call

namespace IgnoreRule

def ask (name : String) : IgnoreRule → Asked
  | .pattern p => ⟨.ok (p.search name), []⟩
  | .predicate p => ⟨p.test name, [⟨p.label, name⟩]⟩

end IgnoreRule

/-- Asks rules in order up to the first that matches or fails. -/
def askRules (name : String) : List IgnoreRule → Asked
  | [] => ⟨.ok false, []⟩
  | rule :: rules =>
    let first := rule.ask name
    match first.answer with
    | .ok false =>
      let rest := askRules name rules
      ⟨rest.answer, first.calls ++ rest.calls⟩
    | _ => first

/-- Names that begin with two underscores belong to introspection. -/
def isIntrospectionName (name : String) : Bool := ['_', '_'].isPrefixOf name.toList

namespace Policy

def empty : Policy := ⟨[]⟩

def ask (policy : Policy) (name : String) : Asked := askRules name policy.rules

/-- Whether a field of this name is ignored. Introspection fields are, and nobody is asked. -/
def ignores (policy : Policy) (name : String) : Asked :=
  if isIntrospectionName name then ⟨.ok true, []⟩ else policy.ask name

end Policy

end QueryDepth
