import Mathlib.Data.List.Forall2
import QueryDepth.Proofs.Ignore.Options

/-!
# The shapes of ignore options

An ignore option gives single options: none, itself, or the items of a sequence. A single option is
a text that is a regular expression, a compiled pattern or a predicate, and stands for one rule.
Whatever else stands among the single options *offends*.

**Theorem (`Policy.ofData_shapes`).** A value is read as a policy if it gives single options that
all stand for rules, and the policy has these rules in this order. Else the error is that of the
first option that offends, or names the whole value if it gives no options at all. A policy that was
read answers with the disjunction of its rules, and nothing but a predicate fails.

Reading goes along the list, so both directions are inductions on it
(`IgnoreRule.ofList_eq_ok_iff`, `IgnoreRule.ofList_eq_error_iff`); which list it is depends on the
constructor of the value alone.
-/

namespace QueryDepth

/-! ## Single options -/

/-- The rule that a single option stands for. -/
inductive Data.StandsFor : Data → IgnoreRule → Prop
  | text {s : String} {p : Pattern} (hp : Pattern.compile s = .ok p) :
      StandsFor (.text s) (.pattern p)
  | pattern (p : Pattern) : StandsFor (.pattern p) (.pattern p)
  | predicate (p : Predicate) : StandsFor (.predicate p) (.predicate p)

/-- The value is a text, a compiled pattern or a predicate. -/
inductive Data.IsSingle : Data → Prop
  | text (s : String) : IsSingle (.text s)
  | pattern (p : Pattern) : IsSingle (.pattern p)
  | predicate (p : Predicate) : IsSingle (.predicate p)

/-- The value is no option, and this error says so: a text that is no regular expression, or a value
of another kind. -/
inductive Data.Offends : Data → IgnoreError → Prop
  | text {s : String} {e : PatternError} (he : Pattern.compile s = .error e) :
      Offends (.text s) (.badPattern s e)
  | other {value : Data} (h : ¬ value.IsSingle) : Offends value (.invalidOption value)

namespace IgnoreRule

theorem ofData_eq_ok_iff {value : Data} {rule : IgnoreRule} :
    ofData value = .ok rule ↔ value.StandsFor rule := by
  constructor
  · intro h
    cases value with
    | text s =>
      rw [ofData] at h
      cases hs : Pattern.compile s with
      | ok p =>
        rw [hs] at h
        cases h
        exact .text hs
      | error e =>
        rw [hs] at h
        cases h
    | pattern p =>
      cases h
      exact .pattern p
    | predicate p =>
      cases h
      exact .predicate p
    | _ => cases h
  · rintro (hp | p | p)
    · rw [ofData, hp]
    · rfl
    · rfl

theorem ofData_eq_error_iff {value : Data} {e : IgnoreError} :
    ofData value = .error e ↔ value.Offends e := by
  constructor
  · intro h
    cases value with
    | text s =>
      rw [ofData] at h
      cases hs : Pattern.compile s with
      | ok p =>
        rw [hs] at h
        cases h
      | error fault =>
        rw [hs] at h
        cases h
        exact .text hs
    | pattern p => cases h
    | predicate p => cases h
    | _ =>
      cases h
      refine .other fun hsingle => ?_
      cases hsingle
  · rintro (he | hother)
    · rw [ofData, he]
    · cases value with
      | text s => exact absurd (.text s) hother
      | pattern p => exact absurd (.pattern p) hother
      | predicate p => exact absurd (.predicate p) hother
      | _ => rfl

end IgnoreRule

theorem Data.StandsFor.not_offends {option : Data} {rule : IgnoreRule} (h : option.StandsFor rule)
    (e : IgnoreError) : ¬ option.Offends e := by
  rw [← IgnoreRule.ofData_eq_error_iff, IgnoreRule.ofData_eq_ok_iff.2 h]
  exact nofun

namespace IgnoreRule

/-! ## Lists of options -/

theorem ofList_nil : ofList [] = .ok [] := rfl

theorem ofList_cons (option : Data) (options : List Data) : ofList (option :: options) = do
    let rule ← ofData option
    let rules ← ofList options
    return rule :: rules := rfl

/-- Options are read if each stands for a rule, and these are the rules. -/
theorem ofList_eq_ok_iff {options : List Data} {rules : List IgnoreRule} :
    ofList options = .ok rules ↔ List.Forall₂ Data.StandsFor options rules := by
  induction options generalizing rules with
  | nil =>
    rw [ofList_nil, List.forall₂_nil_left_iff]
    exact ⟨fun h => (Except.ok.inj h).symm, fun h => congrArg Except.ok h.symm⟩
  | cons option options ih =>
    rw [List.forall₂_cons_left_iff, ofList_cons]
    cases hfirst : ofData option with
    | error e =>
      refine ⟨nofun, ?_⟩
      rintro ⟨rule, more, hrule, -, -⟩
      exact absurd (ofData_eq_error_iff.1 hfirst) (hrule.not_offends e)
    | ok first =>
      have hstands : option.StandsFor first := ofData_eq_ok_iff.1 hfirst
      have honly {rule : IgnoreRule} (hrule : option.StandsFor rule) : rule = first :=
        Except.ok.inj ((ofData_eq_ok_iff.2 hrule).symm.trans hfirst)
      cases hrest : ofList options with
      | error e =>
        refine ⟨nofun, ?_⟩
        rintro ⟨rule, more, -, hmore, -⟩
        rw [← ih, hrest] at hmore
        exact nomatch hmore
      | ok rest =>
        constructor
        · intro h
          obtain rfl : first :: rest = rules := Except.ok.inj h
          exact ⟨first, rest, hstands, ih.1 hrest, rfl⟩
        · rintro ⟨rule, more, hrule, hmore, rfl⟩
          obtain rfl := honly hrule
          rw [← ih, hrest] at hmore
          obtain rfl := Except.ok.inj hmore
          rfl

/-- An option that stands for a rule is none that offends, so the first that does is behind it. -/
theorem exists_offends_cons_iff {option : Data} {first : IgnoreRule} (h : option.StandsFor first)
    {options : List Data} {e : IgnoreError} :
    (∃ before value after, option :: options = before ++ value :: after ∧
      (∀ option ∈ before, ∃ rule, option.StandsFor rule) ∧ value.Offends e) ↔
    ∃ before value after, options = before ++ value :: after ∧
      (∀ option ∈ before, ∃ rule, option.StandsFor rule) ∧ value.Offends e := by
  constructor
  · rintro ⟨before, value, after, hsplit, hbefore, hvalue⟩
    rcases List.cons_eq_append_iff.1 hsplit with ⟨rfl, hcons⟩ | ⟨more, rfl, hmore⟩
    · obtain ⟨rfl, -⟩ := List.cons.inj hcons
      exact absurd hvalue (h.not_offends e)
    · exact ⟨more, value, after, hmore, fun o ho => hbefore o (List.mem_cons_of_mem _ ho), hvalue⟩
  · rintro ⟨before, value, after, rfl, hbefore, hvalue⟩
    exact ⟨option :: before, value, after, rfl, List.forall_mem_cons.2 ⟨⟨first, h⟩, hbefore⟩,
      hvalue⟩

theorem ofList_cons_eq_error_iff {option : Data} {first : IgnoreRule}
    (h : ofData option = .ok first) {options : List Data} {e : IgnoreError} :
    ofList (option :: options) = .error e ↔ ofList options = .error e := by
  rw [ofList_cons, h]
  cases ofList options with
  | error e' =>
    exact ⟨fun h => congrArg _ (Except.error.inj h), fun h => congrArg _ (Except.error.inj h)⟩
  | ok rules => exact ⟨nofun, nofun⟩

/-- The error is that of the first option that offends. -/
theorem ofList_eq_error_iff {options : List Data} {e : IgnoreError} :
    ofList options = .error e ↔ ∃ before value after, options = before ++ value :: after ∧
      (∀ option ∈ before, ∃ rule, option.StandsFor rule) ∧ value.Offends e := by
  induction options with
  | nil =>
    refine ⟨nofun, ?_⟩
    rintro ⟨before, value, after, hsplit, -⟩
    exact absurd hsplit.symm (List.append_ne_nil_of_right_ne_nil _ (List.cons_ne_nil _ _))
  | cons option options ih =>
    cases hfirst : ofData option with
    | ok first =>
      rw [ofList_cons_eq_error_iff hfirst, exists_offends_cons_iff (ofData_eq_ok_iff.1 hfirst), ih]
    | error e' =>
      rw [ofList_cons, hfirst]
      constructor
      · intro h
        obtain rfl : e' = e := Except.error.inj h
        exact ⟨[], option, options, rfl, nofun, ofData_eq_error_iff.1 hfirst⟩
      · rintro ⟨before, value, after, hsplit, hbefore, hvalue⟩
        rcases List.cons_eq_append_iff.1 hsplit with ⟨rfl, hcons⟩ | ⟨more, rfl, -⟩
        · obtain ⟨rfl, -⟩ := List.cons.inj hcons
          rw [← ofData_eq_error_iff, hfirst] at hvalue
          exact congrArg Except.error (Except.error.inj hvalue)
        · obtain ⟨rule, hrule⟩ := hbefore option List.mem_cons_self
          exact absurd (ofData_eq_error_iff.1 hfirst) (hrule.not_offends e')

end IgnoreRule

/-! ## Shapes -/

/-- The value is a sequence of these items: neither a text nor a mapping. -/
inductive Data.IsSequence : Data → List Data → Prop
  | mk {value : Data} {items : List Data} (hitems : value.items? = some items)
      (htext : ∀ s, value ≠ .text s) (hmapping : value.isMapping = false) :
      IsSequence value items

/-- The single options that a value of a known shape gives. -/
inductive Data.Gives : Data → List Data → Prop
  | null : Gives .null []
  | emptyText : Gives (.text "") []
  | single {value : Data} (h : value.IsSingle) (hne : value ≠ .text "") : Gives value [value]
  | sequence {value : Data} {items : List Data} (h : value.IsSequence items) : Gives value items

/-- The value is a mapping, or has none of the shapes and cannot be iterated over. -/
inductive Data.IsShapeless : Data → Prop
  | mapping {value : Data} (h : value.isMapping = true) : IsShapeless value
  | scalar {value : Data} (hitems : value.items? = none) (hnull : value ≠ .null)
      (hpolicy : ∀ policy, value ≠ .policy policy) (hsingle : ¬ value.IsSingle) :
      IsShapeless value

theorem Data.IsSequence.offends {value : Data} {items : List Data} (h : value.IsSequence items) :
    value.Offends (.invalidOption value) := by
  obtain ⟨hitems, htext, -⟩ := h
  refine .other fun hsingle => ?_
  cases hsingle with
  | text s => exact htext s rfl
  | pattern p => exact nomatch hitems
  | predicate p => exact nomatch hitems

namespace Policy

/-- A value that is no option by itself is listed, unless it is a mapping. -/
theorem ofData_of_not_isSingle {value : Data} (hnull : value ≠ .null)
    (hpolicy : ∀ policy, value ≠ .policy policy) (hsingle : ¬ value.IsSingle) :
    ofData value = if value.isMapping then .error (.invalidOption value) else
      match value.items? with
      | some options => do return ⟨← IgnoreRule.ofList options⟩
      | none => .error (.invalidOption value) := by
  cases value with
  | null => exact absurd rfl hnull
  | policy p => exact absurd rfl (hpolicy p)
  | text s => exact absurd (.text s) hsingle
  | pattern p => exact absurd (.pattern p) hsingle
  | predicate p => exact absurd (.predicate p) hsingle
  | _ => rfl

theorem ofData_of_isSequence {value : Data} {items : List Data} (h : value.IsSequence items) :
    ofData value = do return ⟨← IgnoreRule.ofList items⟩ := by
  obtain ⟨hitems, htext, hmapping⟩ := h
  have hsingle : ¬ value.IsSingle := by
    rintro (s | p | p)
    · exact htext s rfl
    · exact nomatch hitems
    · exact nomatch hitems
  rw [ofData_of_not_isSingle (by rintro rfl; exact nomatch hitems)
    (by rintro p rfl; exact nomatch hitems) hsingle, hmapping, hitems,
    if_neg Bool.false_ne_true]

theorem ofData_of_isSingle {value : Data} (h : value.IsSingle) (hne : value ≠ .text "") :
    ofData value = do return ⟨← IgnoreRule.ofList [value]⟩ := by
  cases h with
  | text s => rw [← ofData_list_text (isEmpty_of_ne hne), ofData_list_eq]
  | pattern p => rfl
  | predicate p => rfl

/-- A value that gives options is read like the list of them. -/
theorem ofData_of_gives {value : Data} {options : List Data} (h : value.Gives options) :
    ofData value = do return ⟨← IgnoreRule.ofList options⟩ := by
  cases h with
  | null => rfl
  | emptyText => rfl
  | single h hne => exact ofData_of_isSingle h hne
  | sequence h => exact ofData_of_isSequence h

theorem ofData_of_isShapeless {value : Data} (h : value.IsShapeless) :
    ofData value = .error (.invalidOption value) := by
  cases h with
  | mapping hmapping =>
    cases value with
    | mapping entries => rfl
    | loop mark body => exact if_pos hmapping
    | _ => exact nomatch hmapping
  | scalar hitems hnull hpolicy hsingle =>
    rw [ofData_of_not_isSingle hnull hpolicy hsingle, hitems, ite_self]

/-- What is neither nothing nor a policy nor an option by itself is a sequence or has no shape. -/
theorem shape_cases_of_not_isSingle {value : Data} (hnull : value ≠ .null)
    (hpolicy : ∀ policy, value ≠ .policy policy) (hsingle : ¬ value.IsSingle) :
    (∃ options, value.Gives options) ∨ value.IsShapeless := by
  cases hmapping : value.isMapping with
  | true => exact .inr (.mapping hmapping)
  | false =>
    cases hitems : value.items? with
    | none => exact .inr (.scalar hitems hnull hpolicy hsingle)
    | some items =>
      have htext : ∀ s, value ≠ .text s := by
        rintro s rfl
        exact hsingle (.text s)
      exact .inl ⟨items, .sequence (.mk hitems htext hmapping)⟩

/-- Every value is a policy, or gives options, or has no shape at all. -/
theorem shape_cases (value : Data) : (∃ policy, value = .policy policy) ∨
    (∃ options, value.Gives options) ∨ value.IsShapeless := by
  cases value with
  | policy p => exact .inl ⟨p, rfl⟩
  | null => exact .inr (.inl ⟨_, .null⟩)
  | text s =>
    by_cases hs : s = ""
    · exact .inr (.inl ⟨[], hs ▸ .emptyText⟩)
    · exact .inr (.inl ⟨_, .single (.text s) fun h => hs (Data.text.inj h)⟩)
  | pattern p => exact .inr (.inl ⟨_, .single (.pattern p) nofun⟩)
  | predicate p => exact .inr (.inl ⟨_, .single (.predicate p) nofun⟩)
  | _ => exact .inr (shape_cases_of_not_isSingle nofun nofun nofun)

theorem ofData_eq_ok_of_gives {value : Data} {options : List Data} (h : value.Gives options)
    {policy : Policy} :
    ofData value = .ok policy ↔ List.Forall₂ Data.StandsFor options policy.rules := by
  rw [ofData_of_gives h, ← IgnoreRule.ofList_eq_ok_iff]
  cases IgnoreRule.ofList options with
  | error e => exact ⟨nofun, nofun⟩
  | ok rules =>
    exact ⟨fun h => congrArg (Except.ok ∘ Policy.rules) (Except.ok.inj h),
      fun h => congrArg (Except.ok ∘ Policy.mk) (Except.ok.inj h)⟩

theorem ofData_eq_error_of_gives {value : Data} {options : List Data} (h : value.Gives options)
    {e : IgnoreError} : ofData value = .error e ↔ IgnoreRule.ofList options = .error e := by
  rw [ofData_of_gives h]
  cases IgnoreRule.ofList options with
  | error e' =>
    exact ⟨fun h => congrArg _ (Except.error.inj h), fun h => congrArg _ (Except.error.inj h)⟩
  | ok rules => exact ⟨nofun, nofun⟩

/-- A value is read as a policy if it is one, or if all its options stand for rules. -/
theorem ofData_eq_ok_iff {value : Data} {policy : Policy} :
    ofData value = .ok policy ↔ value = .policy policy ∨
      ∃ options, value.Gives options ∧ List.Forall₂ Data.StandsFor options policy.rules := by
  constructor
  · intro h
    rcases shape_cases value with ⟨p, rfl⟩ | ⟨options, hgives⟩ | hshapeless
    · cases h
      exact .inl rfl
    · exact .inr ⟨options, hgives, (ofData_eq_ok_of_gives hgives).1 h⟩
    · rw [ofData_of_isShapeless hshapeless] at h
      exact nomatch h
  · rintro (rfl | ⟨options, hgives, hrules⟩)
    · rfl
    · exact (ofData_eq_ok_of_gives hgives).2 hrules

/-- Else the value has no shape, or one of the options that it gives is the first that offends. -/
theorem ofData_eq_error_iff {value : Data} {e : IgnoreError} :
    ofData value = .error e ↔ value.IsShapeless ∧ e = .invalidOption value ∨
      ∃ before option after, value.Gives (before ++ option :: after) ∧
        (∀ o ∈ before, ∃ rule, o.StandsFor rule) ∧ option.Offends e := by
  constructor
  · intro h
    rcases shape_cases value with ⟨p, rfl⟩ | ⟨options, hgives⟩ | hshapeless
    · exact nomatch h
    · rw [ofData_eq_error_of_gives hgives, IgnoreRule.ofList_eq_error_iff] at h
      obtain ⟨before, option, after, rfl, hbefore, hoffends⟩ := h
      exact .inr ⟨before, option, after, hgives, hbefore, hoffends⟩
    · rw [ofData_of_isShapeless hshapeless] at h
      exact .inl ⟨hshapeless, (Except.error.inj h).symm⟩
  · rintro (⟨hshapeless, rfl⟩ | ⟨before, option, after, hgives, hbefore, hoffends⟩)
    · exact ofData_of_isShapeless hshapeless
    · rw [ofData_eq_error_of_gives hgives, IgnoreRule.ofList_eq_error_iff]
      exact ⟨before, option, after, rfl, hbefore, hoffends⟩

end Policy

/-! ## Answers -/

section

variable {name : String} {rule : IgnoreRule} {rules : List IgnoreRule}

theorem answer_askRules_cons_of_false (h : (rule.ask name).answer = .ok false) :
    (askRules name (rule :: rules)).answer = (askRules name rules).answer := by
  rw [askRules]
  simp only [h]

theorem answer_askRules_cons_of_ne (h : (rule.ask name).answer ≠ .ok false) :
    (askRules name (rule :: rules)).answer = (rule.ask name).answer := by
  rw [askRules]
  dsimp only
  split
  · next hfalse => exact absurd hfalse h
  · rfl

/-- **Rules answer like the first of them that does not say no**, and say no if all of them do. -/
theorem answer_askRules (name : String) : ∀ rules : List IgnoreRule,
    ((∀ rule ∈ rules, (rule.ask name).answer = .ok false) ∧
      (askRules name rules).answer = .ok false) ∨
    ∃ before rule after, rules = before ++ rule :: after ∧
      (∀ r ∈ before, (r.ask name).answer = .ok false) ∧ (rule.ask name).answer ≠ .ok false ∧
      (askRules name rules).answer = (rule.ask name).answer
  | [] => .inl ⟨nofun, rfl⟩
  | rule :: rules => by
    by_cases hrule : (rule.ask name).answer = .ok false
    · rw [answer_askRules_cons_of_false hrule]
      rcases answer_askRules name rules with ⟨hall, hanswer⟩ | ⟨before, r, after, rfl, hbefore, hr⟩
      · exact .inl ⟨List.forall_mem_cons.2 ⟨hrule, hall⟩, hanswer⟩
      · exact .inr ⟨rule :: before, r, after, rfl, List.forall_mem_cons.2 ⟨hrule, hbefore⟩, hr⟩
    · exact .inr ⟨[], rule, rules, rfl, nofun, hrule, answer_askRules_cons_of_ne hrule⟩

/-- Rules that all answer give the disjunction of their answers. -/
theorem answer_askRules_any {answers : List Bool}
    (h : List.Forall₂ (fun rule answer => (rule.ask name).answer = .ok answer) rules answers) :
    (askRules name rules).answer = .ok (answers.any id) := by
  induction h with
  | nil => rfl
  | @cons rule answer rules answers hrule _ ih =>
    cases answer with
    | false => rw [answer_askRules_cons_of_false hrule, ih, List.any_cons, id, Bool.false_or]
    | true =>
      have hne : (rule.ask name).answer ≠ .ok false := by
        rw [hrule]
        exact nofun
      rw [answer_askRules_cons_of_ne hne, hrule, List.any_cons, id, Bool.true_or]

/-- Only a predicate fails. -/
theorem exists_predicate_of_error {message : String}
    (h : (askRules name rules).answer = .error message) :
    ∃ p, .predicate p ∈ rules ∧ p.test name = .error message := by
  rcases answer_askRules name rules with ⟨-, hanswer⟩ | ⟨before, rule, after, rfl, -, -, hanswer⟩
  · rw [hanswer] at h
    exact nomatch h
  · rw [hanswer] at h
    cases rule with
    | pattern p => exact nomatch h
    | predicate p => exact ⟨p, List.mem_append_right _ List.mem_cons_self, h⟩

end

namespace Policy

/-- **Exactly the values of the known shapes are read as policies.** A policy stands for itself.
Other values are read if all the options that they give stand for rules, and the policy has these
rules in this order. The error is that of the first option that offends, or names the whole value if
it has no shape. Sequences and policies offend among options, and so do the bytes of a byte string.
A policy that was read answers a name like the first of its rules that does not say no, so with the
disjunction of the rules' answers; if it fails, then it was a predicate. -/
theorem ofData_shapes (value : Data) :
    (∀ policy, ofData value = .ok policy ↔ value = .policy policy ∨
      ∃ options, value.Gives options ∧ List.Forall₂ Data.StandsFor options policy.rules) ∧
    (∀ e, ofData value = .error e ↔ value.IsShapeless ∧ e = .invalidOption value ∨
      ∃ before option after, value.Gives (before ++ option :: after) ∧
        (∀ o ∈ before, ∃ rule, o.StandsFor rule) ∧ option.Offends e) ∧
    ((∃ items, value.IsSequence items) ∨ (∃ policy, value = .policy policy) →
      value.Offends (.invalidOption value)) ∧
    (∀ bytes, value = .bytes bytes → ∃ options, value.Gives options ∧
      ∀ option ∈ options, option.Offends (.invalidOption option)) ∧
    ∀ policy, ofData value = .ok policy → ∀ name,
      (((∀ rule ∈ policy.rules, (rule.ask name).answer = .ok false) ∧
          (policy.ask name).answer = .ok false) ∨
        ∃ before rule after, policy.rules = before ++ rule :: after ∧
          (∀ r ∈ before, (r.ask name).answer = .ok false) ∧
          (rule.ask name).answer ≠ .ok false ∧
          (policy.ask name).answer = (rule.ask name).answer) ∧
      (∀ answers, List.Forall₂ (fun rule answer => (rule.ask name).answer = .ok answer)
        policy.rules answers → (policy.ask name).answer = .ok (answers.any id)) ∧
      ∀ message, (policy.ask name).answer = .error message →
        ∃ p, .predicate p ∈ policy.rules ∧ p.test name = .error message := by
  refine ⟨fun policy => ofData_eq_ok_iff, fun e => ofData_eq_error_iff, ?_, ?_,
    fun policy _ name => ⟨answer_askRules name policy.rules, fun answers => answer_askRules_any,
      fun message => exists_predicate_of_error⟩⟩
  · rintro (⟨items, hitems⟩ | ⟨policy, rfl⟩)
    · exact hitems.offends
    · exact .other nofun
  · rintro bytes rfl
    refine ⟨bytes.map fun b => .int b.toNat, .sequence (.mk rfl nofun rfl), ?_⟩
    intro option hoption
    obtain ⟨b, -, rfl⟩ := List.mem_map.1 hoption
    exact .other nofun

end Policy

/-- A predicate that fails on `b` and says no to everything else. -/
def Predicate.touchy : Predicate :=
  ⟨"touchy", fun name => if name = "b" then .error "no b" else .ok false⟩

theorem Data.standsFor_a : ∃ p, (Data.text "a").StandsFor (.pattern p) ∧
    p.search "cat" = true ∧ p.search "b" = false := by
  have hcompiles : ((Pattern.compile "a").toOption.map fun p => (p.search "cat", p.search "b")) =
      some (true, false) := by decide +kernel
  cases hp : Pattern.compile "a" with
  | error e =>
    rw [hp] at hcompiles
    exact nomatch hcompiles
  | ok p =>
    rw [hp] at hcompiles
    obtain ⟨hcat, hb⟩ := Prod.mk.inj (Option.some.inj hcompiles)
    exact ⟨p, .text hp, hcat, hb⟩

/-- A tuple of a text and a predicate is read as two rules, whose answers count together. A text, an
empty list and a text that is no regular expression are not read, for the list. Neither is a string
of a byte, for the byte. -/
theorem Policy.ofData_shapes_mixed :
    (∃ policy, ofData (.tuple [.text "a", .predicate .touchy]) = .ok policy ∧
      (policy.ask "cat").answer = .ok true ∧ ∃ p, (policy.ask "b").answer = .error "no b" ∧
        .predicate p ∈ policy.rules ∧ p.test "b" = .error "no b") ∧
    ofData (.stream [.text "a", .list [], .text "("]) = .error (.invalidOption (.list [])) ∧
    ∃ options, (Data.bytes [97]).Gives options ∧
      ∀ option ∈ options, option.Offends (.invalidOption option) := by
  obtain ⟨p, hp, hcat, hb⟩ := Data.standsFor_a
  obtain ⟨hok, -, -, -, hanswers⟩ := ofData_shapes (.tuple [.text "a", .predicate .touchy])
  have hread := (hok ⟨[.pattern p, .predicate .touchy]⟩).2
    (.inr ⟨_, .sequence (.mk rfl nofun rfl), .cons hp (.cons (.predicate _) .nil)⟩)
  obtain ⟨-, hany, -⟩ := hanswers _ hread "cat"
  obtain ⟨-, -, hfails⟩ := hanswers _ hread "b"
  have hfailed : (ask ⟨[.pattern p, .predicate .touchy]⟩ "b").answer = .error "no b" := by
    have hfirst : ((IgnoreRule.pattern p).ask "b").answer = .ok false := congrArg _ hb
    rw [ask, answer_askRules_cons_of_false hfirst]
    rfl
  obtain ⟨touchy, hmem, htest⟩ := hfails _ hfailed
  obtain ⟨-, herror, -, -, -⟩ := ofData_shapes (.stream [.text "a", .list [], .text "("])
  obtain ⟨-, -, hoffends, -, -⟩ := ofData_shapes (.list [])
  obtain ⟨-, -, -, hbytes, -⟩ := ofData_shapes (.bytes [97])
  refine ⟨⟨_, hread, hany [true, false] (.cons (congrArg _ hcat) (.cons rfl .nil)), touchy, hfailed,
    hmem, htest⟩, (herror _).2 (.inr ⟨[.text "a"], .list [], [.text "("],
      .sequence (.mk rfl nofun rfl), fun o ho => ?_, hoffends (.inl ⟨[], .mk rfl nofun rfl⟩)⟩),
    hbytes _ rfl⟩
  rw [List.mem_singleton.1 ho]
  exact ⟨_, hp⟩

end QueryDepth
