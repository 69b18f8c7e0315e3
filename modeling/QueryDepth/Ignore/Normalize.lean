import QueryDepth.Data.Literal
import QueryDepth.Pattern.Reader

/-!
# From option values to policies

The ignore option may be nothing, a single option or a sequence of options, where an option is a
regular expression as text, a compiled pattern or a predicate. `Policy.ofData` accepts exactly
these; the first offending element is the one that an error names.
-/

namespace QueryDepth

inductive IgnoreError where
  /-- Neither text nor a pattern nor a predicate, nor a sequence of these. -/
  | invalidOption (value : Data)
  /-- A text that is no regular expression. -/
  | badPattern (source : String) (error : PatternError)

namespace IgnoreError

def message : IgnoreError → String
  | .invalidOption value => "Invalid ignore option: " ++ value.literal
  | .badPattern source error => error.message source.toList

end IgnoreError

namespace IgnoreRule

/-- The rule of a single option. -/
def ofData : Data → Except IgnoreError IgnoreRule
  | .text source =>
    match Pattern.compile source with
    | .ok p => .ok (.pattern p)
    | .error e => .error (.badPattern source e)
  | .pattern p => .ok (.pattern p)
  | .predicate p => .ok (.predicate p)
  | value => .error (.invalidOption value)

/-- The rules of several options, or the error of the first that is none. -/
def ofList : List Data → Except IgnoreError (List IgnoreRule)
  | [] => .ok []
  | v :: vs => do
    let rule ← ofData v
    let rules ← ofList vs
    return rule :: rules

end IgnoreRule

/-- The policy of an ignore option. -/
def Policy.ofData : Data → Except IgnoreError Policy
  | .null => .ok .empty
  | .policy p => .ok p
  | .text source =>
    if source.isEmpty then .ok .empty
    else do return ⟨[← IgnoreRule.ofData (.text source)]⟩
  | .pattern p => .ok ⟨[.pattern p]⟩
  | .predicate p => .ok ⟨[.predicate p]⟩
  | value =>
    if value.isMapping then .error (.invalidOption value)
    else
      match value.items? with
      | some options => do return ⟨← IgnoreRule.ofList options⟩
      | none => .error (.invalidOption value)

end QueryDepth
