import QueryDepth.Ignore.Normalize
import QueryDepth.Proofs.Ignore.Skips

/-!
# Which names ignore options skip

A policy that is read from a list of options has a rule for each. Which names it skips depends on
which options there are, and not on their order or on how often one is given
(`skips_of_options_subset`). A single option other than the empty text is read like the list of it
(`ofData_list_single`).
-/

namespace QueryDepth

namespace Policy

/-- The policy matches fields of this name. -/
def Matches (policy : Policy) (name : String) : Prop := (policy.ask name).answer = .ok true

/-- Every name that the one policy matches is matched by the other. -/
def Within (policy wider : Policy) : Prop := ∀ name, policy.Matches name → wider.Matches name

variable {policy wider : Policy} {name : String}

theorem skips_iff_matches (hpure : policy.Pure) (hname : isIntrospectionName name = false) :
    policy.skips name = true ↔ policy.Matches name := by
  have hanswer := answer_ignores hpure name
  rw [ignores, hname, if_neg Bool.false_ne_true] at hanswer
  rw [Matches, hanswer]
  exact ⟨congrArg Except.ok, Except.ok.inj⟩

/-- A policy that matches more names skips more. -/
theorem Within.skips (hwithin : policy.Within wider) (hpure : policy.Pure) (hwider : wider.Pure)
    (hskips : policy.skips name = true) : wider.skips name = true := by
  cases hname : isIntrospectionName name with
  | true => rw [Policy.skips, hname, Bool.true_or]
  | false =>
    rw [skips_iff_matches hwider hname]
    exact hwithin name ((skips_iff_matches hpure hname).1 hskips)

end Policy

/-- The rules of some options are those of each of them. -/
theorem IgnoreRule.mem_ofList {rule : IgnoreRule} : ∀ {options : List Data}
    {rules : List IgnoreRule}, ofList options = .ok rules →
      (rule ∈ rules ↔ ∃ option ∈ options, ofData option = .ok rule)
  | [], rules, h => by
    obtain rfl := Except.ok.inj h
    simp
  | option :: options, rules, h => by
    rw [ofList] at h
    cases hfirst : ofData option with
    | error e =>
      rw [hfirst] at h
      exact nomatch h
    | ok first =>
      cases hrest : ofList options with
      | error e =>
        rw [hfirst, hrest] at h
        exact nomatch h
      | ok rest =>
        rw [hfirst, hrest] at h
        obtain rfl : first :: rest = rules := Except.ok.inj h
        simp [mem_ofList hrest, hfirst, eq_comm]

namespace Policy

theorem ofData_list_eq (options : List Data) :
    ofData (.list options) = do return ⟨← IgnoreRule.ofList options⟩ := rfl

theorem ofData_list {options : List Data} {policy : Policy}
    (h : ofData (.list options) = .ok policy) : IgnoreRule.ofList options = .ok policy.rules := by
  rw [ofData_list_eq] at h
  cases hrules : IgnoreRule.ofList options with
  | error e =>
    rw [hrules] at h
    exact nomatch h
  | ok rules =>
    rw [hrules] at h
    exact congrArg (Except.ok ∘ Policy.rules) (Except.ok.inj h)

/-- **More options skip more names.** -/
theorem skips_of_options_subset {options more : List Data} {policy wider : Policy}
    (hpolicy : ofData (.list options) = .ok policy) (hwider : ofData (.list more) = .ok wider)
    (hsubset : options ⊆ more) {name : String} (hskips : policy.skips name = true) :
    wider.skips name = true := by
  rcases Bool.or_eq_true_iff.1 hskips with hname | hany
  · rw [skips, hname, Bool.true_or]
  · obtain ⟨rule, hrule, happlies⟩ := List.any_eq_true.1 hany
    obtain ⟨option, hoption, hread⟩ := (IgnoreRule.mem_ofList (ofData_list hpolicy)).1 hrule
    have hmore : rule ∈ wider.rules :=
      (IgnoreRule.mem_ofList (ofData_list hwider)).2 ⟨option, hsubset hoption, hread⟩
    rw [skips, List.any_eq_true.2 ⟨rule, hmore, happlies⟩, Bool.or_true]

end Policy

/-! ## Single options -/

/-- A single ignore option: a text that is a regular expression, a compiled one, or a predicate that
never fails. -/
inductive Data.IsOption : Data → Prop
  | text {s : String} {p : Pattern} (hp : Pattern.compile s = .ok p) : IsOption (.text s)
  | pattern (p : Pattern) : IsOption (.pattern p)
  | predicate {p : Predicate} (hp : ∀ field, ∃ b, p.test field = .ok b) : IsOption (.predicate p)

theorem isEmpty_of_ne {s : String} (h : Data.text s ≠ .text "") : s.isEmpty = false := by
  rw [Bool.eq_false_iff]
  exact fun hempty => h (congrArg Data.text (String.isEmpty_iff.1 hempty))

/-- A text that is not empty is the same option as the list of it. -/
theorem Policy.ofData_list_text {s : String} (h : s.isEmpty = false) :
    ofData (.list [.text s]) = ofData (.text s) := by
  rw [ofData_list_eq, ofData, h, if_neg Bool.false_ne_true, IgnoreRule.ofList, IgnoreRule.ofList]
  cases IgnoreRule.ofData (.text s) <;> rfl

/-- The rule of a single option. -/
theorem IgnoreRule.exists_of_isOption {x : Data} (hx : x.IsOption) :
    ∃ rule, ofData x = .ok rule ∧ rule.Pure := by
  cases hx with
  | text hp =>
    rw [ofData, hp]
    exact ⟨_, rfl, fun name => ⟨_, rfl⟩⟩
  | pattern p => exact ⟨_, rfl, fun name => ⟨_, rfl⟩⟩
  | predicate hp => exact ⟨_, rfl, hp⟩

/-- A single option other than the empty text is the same as the list of it. -/
theorem Policy.ofData_list_single {x : Data} (hx : x.IsOption) (hne : x ≠ .text "") :
    ofData (.list [x]) = ofData x := by
  cases hx with
  | text hp => exact ofData_list_text (isEmpty_of_ne hne)
  | pattern p => rfl
  | predicate hp => rfl

/-- The list of a single option makes a pure policy. -/
theorem Policy.exists_of_isOption {x : Data} (hx : x.IsOption) :
    ∃ policy, ofData (.list [x]) = .ok policy ∧ policy.Pure := by
  obtain ⟨rule, hrule, hpure⟩ := IgnoreRule.exists_of_isOption hx
  refine ⟨⟨[rule]⟩, ?_, pure_of_rules fun r hr => List.mem_singleton.1 hr ▸ hpure⟩
  rw [ofData_list_eq, IgnoreRule.ofList, hrule]
  rfl

end QueryDepth
