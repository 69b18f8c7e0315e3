import QueryDepth.Proofs.Config.Plain
import QueryDepth.Proofs.Validation.Widening

/-!
# What a configuration makes of an ignore option

The value that a configuration document gives under `ignore` is changed twice before it is read as
a policy. What counts as nothing becomes the empty list and a text becomes the list of itself
(`heldFor`); a check then lists what there is. On most values this is what reading the value itself
comes to. The others are *misread*: false and zero, which become no options, and mappings, which
become the list of their keys, although none of them is an ignore option.

**Theorem (`readAs_heldFor`).** A check reads a plain value as the option `asConfigured`.
-/

namespace QueryDepth

/-! ## Plain options -/

theorem IgnoreRule.pure_of_plain {v : Data} (hplain : v.IsPlain) {rule : IgnoreRule}
    (h : ofData v = .ok rule) : rule.Pure := by
  cases hplain with
  | text s =>
    rw [ofData] at h
    split at h
    · obtain rfl := Except.ok.inj h
      exact fun name => ⟨_, rfl⟩
    · cases h
  | _ => cases h

/-- Plain data make pure policies. -/
theorem Policy.pure_of_plain {items : List Data} (hplain : ∀ v ∈ items, v.IsPlain)
    {policy : Policy} (h : ofData (.list items) = .ok policy) : policy.Pure := by
  refine pure_of_rules fun rule hrule => ?_
  obtain ⟨option, hoption, hread⟩ := (IgnoreRule.mem_ofList (ofData_list h)).1 hrule
  exact IgnoreRule.pure_of_plain (hplain option hoption) hread

namespace Data

/-! ## Misread values -/

/-- False, zero and mappings are no ignore options, but a configuration makes something of them. -/
def isMisread (v : Data) : Bool :=
  v.isMapping ||
    match v with
    | .bool _ | .int _ | .float _ => !v.isTruthy
    | _ => false

/-- The option that a configuration takes the value for. -/
def asConfigured (v : Data) : Data := if v.isMisread then .list (v.items?.getD []) else v

theorem asConfigured_of_not_isMisread {v : Data} (h : v.isMisread = false) :
    v.asConfigured = v := by
  rw [asConfigured, h, if_neg Bool.false_ne_true]

theorem asConfigured_of_isMisread {v : Data} (h : v.isMisread = true) :
    v.asConfigured = .list (v.items?.getD []) := by
  rw [asConfigured, if_pos h]

/-- No value that is misread is an option. -/
theorem ofData_of_isMisread {v : Data} (h : v.isMisread = true) :
    Policy.ofData v = .error (.invalidOption v) := by
  cases v with
  | mapping | bool | int | float => rfl
  | loop mark body => exact if_pos ((Bool.or_false _).symm.trans h)
  | _ => exact nomatch h

/-- A mapping that counts as nothing has no entries. -/
theorem entries?_of_not_isTruthy {v : Data} {entries : List (Data × Data)}
    (htruthy : v.isTruthy = false) (h : v.entries? = some entries) : entries = [] := by
  induction v using Data.entries?.induct generalizing entries with
  | case1 es =>
    obtain rfl := Option.some.inj h
    have hempty : (!es.isEmpty) = false := htruthy
    simpa using hempty
  | case2 mark body ih =>
    obtain ⟨inside, hinside, rfl⟩ := Option.map_eq_some_iff.1 h
    rw [ih htruthy hinside]
    rfl
  | case3 v hmapping hloop =>
    cases v with
    | mapping es => exact absurd rfl (hmapping es)
    | loop mark body => exact absurd rfl (hloop mark body)
    | _ => exact nomatch h

end Data

namespace Config

/-! ## What is given and what is held -/

/-- What a configuration document gives as ignore option, null if it gives none. -/
def given (document : Data) : Data :=
  match document.entries? with
  | some entries => (valueOf? "ignore" entries).getD .null
  | none => .null

/-- The ignore options of the configuration that is given this value. -/
def heldFor (v : Data) : Data := listed (if v.isTruthy then v else .list [])

theorem exists_mem_of_valueOf? {key : String} {entries : List (Data × Data)} {v : Data}
    (h : valueOf? key entries = some v) : ∃ k, (k, v) ∈ entries := by
  fun_induction valueOf? key entries with
  | case1 => exact nomatch h
  | case2 w rest =>
    obtain rfl := Option.some.inj h
    exact ⟨_, List.mem_cons_self⟩
  | case3 k w rest hk ih =>
    obtain ⟨k', hmem⟩ := ih h
    exact ⟨k', List.mem_cons_of_mem _ hmem⟩
  | case4 entry rest hentry ih =>
    obtain ⟨k', hmem⟩ := ih h
    exact ⟨k', List.mem_cons_of_mem _ hmem⟩

theorem ignore_of_ofFields {homes : Homes} {limit ignore url file : Data} {config : Config}
    (h : ofFields homes limit ignore url file = .ok config) : config.ignore = listed ignore := by
  unfold ofFields at h
  dsimp only at h
  split at h
  all_goals
    obtain ⟨path, -, h⟩ := exists_of_bind_eq_ok h
    split at h
    · obtain rfl := Except.ok.inj h
      rfl
    · exact nomatch h

theorem given_of_entries {document : Data} {entries : List (Data × Data)}
    (h : document.entries? = some entries) :
    given document = (valueOf? "ignore" entries).getD .null := by
  rw [given, h]

theorem ofDocument_of_entries (homes : Homes) {document : Data} {entries : List (Data × Data)}
    (h : document.entries? = some entries) :
    ofDocument homes document =
      ofFields homes ((valueOf? "max_depth" entries).getD (.int defaultLimit))
        (if (given document).isTruthy then given document else .list [])
        ((valueOf? "default_url" entries).getD .null)
        ((valueOf? "schema_file" entries).getD .null) := by
  rw [given_of_entries h]
  unfold ofDocument
  cases htruthy : document.isTruthy with
  | true =>
    dsimp only
    rw [h, if_neg (by decide)]
  | false =>
    obtain rfl := Data.entries?_of_not_isTruthy htruthy h
    rfl

/-- A configuration holds what its document gives. -/
theorem ignore_of_ofDocument {homes : Homes} {document : Data} {config : Config}
    (h : ofDocument homes document = .ok config) : config.ignore = heldFor (given document) := by
  cases hentries : document.entries? with
  | some entries =>
    rw [ofDocument_of_entries homes hentries] at h
    exact ignore_of_ofFields h
  | none =>
    unfold ofDocument at h
    rw [given, hentries]
    rw [hentries] at h
    dsimp only at h
    split at h
    · exact ignore_of_ofFields h
    · exact nomatch h

/-- A document that gives an ignore option and nothing else is a configuration. -/
theorem ofDocument_of_given {homes : Homes} {document : Data} {entries : List (Data × Data)}
    {v : Data} (hentries : document.entries? = some entries)
    (hv : valueOf? "ignore" entries = some v)
    (hothers : ∀ key ∈ ["max_depth", "default_url", "schema_file"], valueOf? key entries = none) :
    ofDocument homes document = .ok ⟨defaultLimit, heldFor v, .null, .null⟩ := by
  simp only [List.forall_mem_cons] at hothers
  obtain ⟨hlimit, hurl, hfile, -⟩ := hothers
  rw [ofDocument_of_entries homes hentries, given_of_entries hentries, hlimit, hurl, hfile, hv]
  rfl

theorem heldFor_of_isTruthy {v : Data} (h : v.isTruthy = true) : heldFor v = listed v := by
  rw [heldFor, if_pos h]

theorem heldFor_of_not_isTruthy {v : Data} (h : v.isTruthy = false) : heldFor v = .list [] := by
  rw [heldFor, h, if_neg Bool.false_ne_true]
  rfl

theorem isPlain_given {document : Data} (hplain : document.IsPlain) : (given document).IsPlain := by
  cases hentries : document.entries? with
  | none =>
    rw [given, hentries]
    exact .null
  | some entries =>
    rw [given_of_entries hentries]
    cases hv : valueOf? "ignore" entries with
    | none => exact .null
    | some v =>
      obtain ⟨k, hmem⟩ := exists_mem_of_valueOf? hv
      exact (hplain.entries hentries (k, v) hmem).2

theorem isPlain_listed {v : Data} (hplain : v.IsPlain) : (listed v).IsPlain := by
  unfold listed
  split
  · exact .list fun v hv => List.mem_singleton.1 hv ▸ hplain
  · exact hplain

theorem isPlain_heldFor {v : Data} (hplain : v.IsPlain) : (heldFor v).IsPlain := by
  unfold heldFor
  split
  · exact isPlain_listed hplain
  · exact isPlain_listed (.list fun v hv => absurd hv List.not_mem_nil)

/-- Listing what is held and reading the list makes the policy of the option, or there is none. -/
def ReadAs (held option : Data) : Prop :=
  match held.items? with
  | some items => Policy.ofData (.list items) = Policy.ofData option
  | none => ∃ e, Policy.ofData option = .error e

/-- What can neither be listed nor read is misread exactly if it counts as nothing. -/
theorem readAs_unlisted {v : Data} (hitems : (listed v).items? = none)
    (hinvalid : Policy.ofData v = .error (.invalidOption v)) (hmisread : v.isMisread = !v.isTruthy)
    (hnone : v.items? = none) : ReadAs (heldFor v) v.asConfigured := by
  cases htruthy : v.isTruthy with
  | true =>
    rw [htruthy] at hmisread
    rw [ReadAs, heldFor_of_isTruthy htruthy, Data.asConfigured_of_not_isMisread hmisread, hitems]
    exact ⟨_, hinvalid⟩
  | false =>
    rw [htruthy] at hmisread
    rw [ReadAs, heldFor_of_not_isTruthy htruthy, Data.asConfigured_of_isMisread hmisread, hnone]
    rfl

/-- **A check reads a plain value as the option `asConfigured`.** -/
theorem readAs_heldFor {v : Data} (hplain : v.IsPlain) (hnull : v ≠ .null) :
    ReadAs (heldFor v) v.asConfigured := by
  cases hplain with
  | null => exact absurd rfl hnull
  | bool | int | float | date | timestamp | again => exact readAs_unlisted rfl rfl rfl rfl
  | text s =>
    rw [ReadAs, Data.asConfigured_of_not_isMisread rfl]
    cases hs : s.isEmpty with
    | true =>
      rw [heldFor_of_not_isTruthy (by rw [Data.isTruthy, hs]; rfl), Policy.ofData, if_pos hs]
      rfl
    | false =>
      rw [heldFor_of_isTruthy (by rw [Data.isTruthy, hs]; rfl)]
      exact Policy.ofData_list_text hs
  | bytes bs => cases bs <;> rfl
  | @list items | @tuple items | @set items => cases items <;> rfl
  | @mapping entries => cases entries <;> rfl
  | @loop mark body hbody hcollection =>
    cases body with
    | list items | tuple items | set items => cases items <;> rfl
    | mapping entries => cases entries <;> rfl
    | _ => cases hcollection

end Config

/-! ## Rules -/

/-- The rule of plain options is pure, and its receiver accepts all depths. -/
theorem CheckRequest.pure_of_ruleOver {request : CheckRequest} {config : Config} {rule : DepthRule}
    (hplain : config.ignore.IsPlain) (hignore : request.ignore = [])
    (h : request.ruleOver config = .ok rule) :
    rule.policy.Pure ∧ rule.receiver = some acceptAll := by
  obtain ⟨items, hitems, hrule⟩ := ruleOver_eq_ok_iff.1 h
  obtain ⟨n, policy, -, hpolicy, rfl⟩ := DepthRule.ofData_eq_ok_iff.1 hrule
  rw [hignore, List.append_nil] at hpolicy
  exact ⟨Policy.pure_of_plain (hplain.items hitems) hpolicy, rfl⟩

/-- A request without ignore options of its own has the rule of the option that is read. -/
theorem CheckRequest.ruleOver_eq_ok_iff_of_readAs {request : CheckRequest} {config : Config}
    {option : Data} {rule : DepthRule} (hread : Config.ReadAs config.ignore option)
    (hignore : request.ignore = []) : request.ruleOver config = .ok rule ↔
      DepthRule.ofData (request.limitOver config) option (some acceptAll) = .ok rule := by
  unfold Config.ReadAs at hread
  rw [ruleOver_eq_ok_iff, hignore, DepthRule.ofData_eq_ok_iff]
  cases hitems : config.ignore.items? with
  | none =>
    rw [hitems] at hread
    obtain ⟨e, he⟩ := hread
    simp [he]
  | some items =>
    rw [hitems] at hread
    simp only [List.append_nil, Option.some.injEq, exists_eq_left', DepthRule.ofData_eq_ok_iff]
    rw [hread]

end QueryDepth
