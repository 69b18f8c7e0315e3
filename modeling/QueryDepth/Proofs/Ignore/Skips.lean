import QueryDepth.Ignore.Policy

/-!
# Which names a policy skips

`Policy.skips` says without any calls whether a field of some name is left out of the count:
introspection fields are, and so are the fields that one of the rules applies to, whichever.
A policy is *pure* when asking it never fails.

**Theorem (`answer_ignores`).** A pure policy answers exactly `skips`.
-/

namespace QueryDepth

/-- The rule matches fields of this name. A predicate that fails matches nothing. -/
def IgnoreRule.appliesTo (name : String) : IgnoreRule → Bool
  | .pattern p => p.search name
  | .predicate p =>
    match p.test name with
    | .ok b => b
    | .error _ => false

namespace Policy

/-- Fields of this name are ignored: they belong to introspection, or some rule applies. -/
def skips (policy : Policy) (name : String) : Bool :=
  isIntrospectionName name || policy.rules.any (·.appliesTo name)

/-- Asking the policy never fails. -/
def Pure (policy : Policy) : Prop := ∀ name, ∃ b, (policy.ignores name).answer = .ok b

end Policy

theorem IgnoreRule.appliesTo_of_answer {rule : IgnoreRule} {name : String} {b : Bool}
    (h : (rule.ask name).answer = .ok b) : rule.appliesTo name = b := by
  cases rule with
  | pattern p => exact Except.ok.inj h
  | predicate p =>
    change p.test name = .ok b at h
    simp only [appliesTo, h]

/-- Rules that answer at all give the disjunction of what they say, although the rules after the
first match are not asked. -/
theorem any_appliesTo_of_answer {name : String} {b : Bool} :
    ∀ {rules : List IgnoreRule}, (askRules name rules).answer = .ok b →
      rules.any (·.appliesTo name) = b
  | [], h => Except.ok.inj h
  | rule :: rules, h => by
    rw [List.any_cons]
    cases hrule : (rule.ask name).answer with
    | error e => simp [askRules, hrule] at h
    | ok first =>
      have happlies := IgnoreRule.appliesTo_of_answer hrule
      cases first with
      | true =>
        have hb : true = b := by simpa [askRules, hrule] using h
        rw [happlies, Bool.true_or, hb]
      | false =>
        have hrest : (askRules name rules).answer = .ok b := by simpa [askRules, hrule] using h
        rw [happlies, Bool.false_or, any_appliesTo_of_answer hrest]

/-- Asking the rule never fails. -/
def IgnoreRule.Pure (rule : IgnoreRule) : Prop := ∀ name, ∃ b, (rule.ask name).answer = .ok b

theorem exists_answer_askRules {name : String} : ∀ {rules : List IgnoreRule},
    (∀ rule ∈ rules, rule.Pure) → ∃ b, (askRules name rules).answer = .ok b
  | [], _ => ⟨false, rfl⟩
  | rule :: rules, h => by
    obtain ⟨b, hb⟩ := h rule List.mem_cons_self name
    cases b with
    | true => exact ⟨true, by simp [askRules, hb]⟩
    | false =>
      obtain ⟨b', hrest⟩ := exists_answer_askRules fun r hr => h r (List.mem_cons_of_mem _ hr)
      exact ⟨b', by simpa [askRules, hb] using hrest⟩

namespace Policy

/-- A policy that answers at all answers `skips`. -/
theorem skips_of_answer {policy : Policy} {name : String} {b : Bool}
    (h : (policy.ignores name).answer = .ok b) : policy.skips name = b := by
  unfold skips
  unfold ignores at h
  cases hname : isIntrospectionName name with
  | true =>
    rw [hname, if_pos rfl] at h
    rw [Bool.true_or, ← Except.ok.inj h]
  | false =>
    rw [hname, if_neg Bool.false_ne_true] at h
    rw [Bool.false_or, any_appliesTo_of_answer h]

/-- **A pure policy answers `skips`.** -/
theorem answer_ignores {policy : Policy} (h : policy.Pure) (name : String) :
    (policy.ignores name).answer = .ok (policy.skips name) := by
  obtain ⟨b, hb⟩ := h name
  rw [hb, skips_of_answer hb]

/-- A policy is pure if its rules are. -/
theorem pure_of_rules {policy : Policy} (h : ∀ rule ∈ policy.rules, rule.Pure) : policy.Pure := by
  intro name
  unfold ignores
  split
  · exact ⟨true, rfl⟩
  · exact exists_answer_askRules h

theorem pure_empty : Pure empty := pure_of_rules fun _ h => absurd h List.not_mem_nil

end Policy

end QueryDepth
