import QueryDepth.Proofs.Depth.Recording

/-!
# Which predicates are asked

A predicate may be costly, or fail, so it matters which questions a walk puts to it. They can be
told in advance from the fragment-expanded tree, which is not pruned: its fields in order, each with
the fields and fragments that it is in (`FieldPlace`).

**Theorem (`run_calls`).** The calls of a walk are, for the fields of the expansion in order that
have at most `limit` levels above them and no ignored field above them, what is asked about each:
the rules of the policy down to the first that applies. So nothing is asked about introspection,
below an ignored field, beyond the limit, or in a fragment that is entered again.

The proof is an induction over the expansion. Where the walk turns back, because the limit is
exceeded or the field is ignored, all fields below have the same reason above them
(`suffix_of_mem_fields`), so the listing has none to ask about either.
-/

namespace QueryDepth

/-! ## Which rules are asked about a field -/

/-- The call that the rule makes for a field, if it has a predicate. -/
def IgnoreRule.call? (name : String) : IgnoreRule → Option Call
  | .pattern _ => none
  | .predicate p => some ⟨p.label, name⟩

theorem IgnoreRule.filterMap_cons_call? (rule : IgnoreRule) (rules : List IgnoreRule)
    (name : String) : (rule :: rules).filterMap (·.call? name) =
      (rule.ask name).calls ++ rules.filterMap (·.call? name) := by
  cases rule <;> rfl

/-- Rules that answer at all are asked down to the first that applies. -/
theorem calls_askRules {name : String} {b : Bool} : ∀ {rules : List IgnoreRule},
    (askRules name rules).answer = .ok b → (askRules name rules).calls =
      (rules.take (rules.findIdx (·.appliesTo name) + 1)).filterMap (·.call? name)
  | [], _ => rfl
  | rule :: rules, h => by
    rw [List.take_succ_cons, List.findIdx_cons, IgnoreRule.filterMap_cons_call?]
    cases hrule : (rule.ask name).answer with
    | error e => simp [askRules, hrule] at h
    | ok first =>
      have happlies := IgnoreRule.appliesTo_of_answer hrule
      cases first with
      | true => simp [askRules, hrule, happlies]
      | false =>
        have hrest : (askRules name rules).answer = .ok b := by simpa [askRules, hrule] using h
        simp [askRules, hrule, happlies, calls_askRules hrest]

namespace Policy

/-- The rules down to the first that applies to fields of this name, or all if none does. -/
def rulesAsked (policy : Policy) (name : String) : List IgnoreRule :=
  policy.rules.take (policy.rules.findIdx (·.appliesTo name) + 1)

/-- The calls made for a field. About one of introspection nobody is asked. -/
def questions (policy : Policy) (name : String) : List Call :=
  if isIntrospectionName name then [] else (policy.rulesAsked name).filterMap (·.call? name)

/-- **A pure policy asks down to the first rule that applies.** -/
theorem calls_ignores {policy : Policy} (hpure : policy.Pure) (name : String) :
    (policy.ignores name).calls = policy.questions name := by
  obtain ⟨b, hb⟩ := hpure name
  unfold questions
  unfold ignores at hb ⊢
  by_cases hname : isIntrospectionName name = true
  · rw [if_pos hname, if_pos hname]
  · rw [if_neg hname] at hb
    rw [if_neg hname, if_neg hname]
    exact calls_askRules hb

variable {policy : Policy} {name : String} {call : Call}

/-- A call is about a field that is not one of introspection. -/
theorem of_mem_questions (h : call ∈ policy.questions name) :
    isIntrospectionName name = false ∧ call.field = name := by
  unfold questions at h
  by_cases hname : isIntrospectionName name = true
  · simp [hname] at h
  · rw [if_neg hname] at h
    obtain ⟨rule, -, hcall⟩ := List.mem_filterMap.1 h
    refine ⟨Bool.eq_false_iff.2 hname, ?_⟩
    cases rule with
    | pattern p => simp [IgnoreRule.call?] at hcall
    | predicate p =>
      obtain rfl := Option.some.inj hcall
      rfl

/-- No rule is asked twice about a field. -/
theorem questions_sublist (policy : Policy) (name : String) :
    (policy.questions name).Sublist (policy.rules.filterMap (·.call? name)) := by
  unfold questions
  split
  · exact List.nil_sublist _
  · exact (List.take_sublist _ policy.rules).filterMap _

end Policy

/-! ## The fields of an expansion -/

/-- A field of an expansion, with the names of the fields that it is in and of the fragments that it
is in, the innermost first. -/
structure FieldPlace where
  above : List String
  entered : List String
  name : String
deriving DecidableEq, Repr

namespace FieldPlace

variable (limit : Int) (policy : Policy) (place : FieldPlace)

/-- The number of fields above it that are not ignored. -/
def level : Nat := place.above.countP (!policy.skips ·)

/-- No field above it is ignored. -/
def IsOpen : Prop := ∀ name ∈ place.above, policy.skips name = false

/-- The field is within the limit and not below an ignored field. -/
def IsVisited : Prop := place.level policy ≤ limit ∧ place.IsOpen policy

instance : Decidable (place.IsOpen policy) :=
  inferInstanceAs (Decidable (∀ name ∈ place.above, policy.skips name = false))

instance : Decidable (place.IsVisited limit policy) :=
  inferInstanceAs (Decidable (_ ∧ _))

end FieldPlace

namespace Expansion

mutual

/-- The fields of an expansion in order, each before those in it. -/
def fields (above entered : List String) : Expansion → List FieldPlace
  | .leaf _ name => [⟨above, entered, name⟩]
  | .field _ name children =>
    ⟨above, entered, name⟩ :: fieldsAll (name :: above) entered children
  | .group _ children => fieldsAll above entered children
  | .followed _ name fragment => fields above (name :: entered) fragment
  | .missing _ _ | .reentry _ _ | .other _ _ => []

def fieldsAll (above entered : List String) : List Expansion → List FieldPlace
  | [] => []
  | e :: es => fields above entered e ++ fieldsAll above entered es

end

variable {above entered : List String} {place : FieldPlace}

theorem mem_fieldsAll {es : List Expansion} :
    place ∈ fieldsAll above entered es ↔ ∃ e ∈ es, place ∈ e.fields above entered := by
  induction es with
  | nil => simp [fieldsAll]
  | cons e es ih => simp [fieldsAll, ih]

mutual

/-- What is above an expansion is above its fields. -/
theorem suffix_of_mem_fields : ∀ (e : Expansion) (above entered : List String),
    place ∈ e.fields above entered → above <:+ place.above
  | .leaf _ name, above, entered, h => by
    obtain rfl := List.mem_singleton.1 h
    exact List.suffix_rfl
  | .field _ name children, above, entered, h => by
    rcases List.mem_cons.1 h with rfl | h
    · exact List.suffix_rfl
    · exact (List.suffix_cons name above).trans
        (suffix_of_mem_fieldsAll children (name :: above) entered h)
  | .group _ children, above, entered, h => suffix_of_mem_fieldsAll children above entered h
  | .followed _ name fragment, above, entered, h =>
    suffix_of_mem_fields fragment above (name :: entered) h
  | .missing _ _, _, _, h | .reentry _ _, _, _, h | .other _ _, _, _, h =>
    absurd h List.not_mem_nil

theorem suffix_of_mem_fieldsAll : ∀ (es : List Expansion) (above entered : List String),
    place ∈ fieldsAll above entered es → above <:+ place.above
  | [], _, _, h => absurd h List.not_mem_nil
  | e :: es, above, entered, h => by
    rcases List.mem_append.1 h with h | h
    · exact suffix_of_mem_fields e above entered h
    · exact suffix_of_mem_fieldsAll es above entered h

end

/-! ## The calls of a walk -/

section

variable {ctx : WalkContext}

/-- Beyond the limit no field is visited. -/
theorem filter_fields_of_gt (e : Expansion) {above : List String} (entered : List String)
    (hlevel : (above.countP (!ctx.policy.skips ·) : Int) > ctx.limit) :
    (e.fields above entered).filter (·.IsVisited ctx.limit ctx.policy) = [] := by
  refine List.filter_eq_nil_iff.2 fun place hplace hvisited => ?_
  have hsuffix := suffix_of_mem_fields e above entered hplace
  have hcount : above.countP (!ctx.policy.skips ·) ≤ place.level ctx.policy :=
    hsuffix.sublist.countP_le
  have hle := (of_decide_eq_true hvisited).1
  omega

/-- Below an ignored field no field is visited. -/
theorem filter_fieldsAll_of_skips (es : List Expansion) (above entered : List String)
    {name : String} (hskip : ctx.policy.skips name = true) :
    (fieldsAll (name :: above) entered es).filter (·.IsVisited ctx.limit ctx.policy) = [] := by
  refine List.filter_eq_nil_iff.2 fun place hplace hvisited => ?_
  have hsuffix := suffix_of_mem_fieldsAll es (name :: above) entered hplace
  have hopen := (of_decide_eq_true hvisited).2 name (hsuffix.subset List.mem_cons_self)
  rw [hskip] at hopen
  exact Bool.noConfusion hopen

/-- Within the limit and below no ignored field, the first field of a listing is visited. -/
theorem filter_cons_of_open {above : List String} (entered : List String) (name : String)
    (hopen : ∀ n ∈ above, ctx.policy.skips n = false)
    (hlevel : ¬ (above.countP (!ctx.policy.skips ·) : Int) > ctx.limit) (rest : List FieldPlace) :
    ((⟨above, entered, name⟩ :: rest : List FieldPlace).filter
        (·.IsVisited ctx.limit ctx.policy)).flatMap (ctx.policy.questions ·.name) =
      ctx.policy.questions name ++ (rest.filter (·.IsVisited ctx.limit ctx.policy)).flatMap
        (ctx.policy.questions ·.name) := by
  have hvisited : FieldPlace.IsVisited ctx.limit ctx.policy ⟨above, entered, name⟩ :=
    ⟨Int.not_lt.1 hlevel, hopen⟩
  rw [List.filter_cons, if_pos (decide_eq_true hvisited), List.flatMap_cons]

mutual

/-- **The calls for an expansion are the questions about the fields that are visited.** -/
theorem callsAt_eq_questions (hpure : ctx.policy.Pure) : ∀ (e : Expansion)
    (above entered : List String), (∀ n ∈ above, ctx.policy.skips n = false) →
    e.callsAt ctx (above.countP (!ctx.policy.skips ·) : Nat) =
      ((e.fields above entered).filter (·.IsVisited ctx.limit ctx.policy)).flatMap
        (ctx.policy.questions ·.name)
  | e, above, entered, hopen => by
    by_cases hlevel : (above.countP (!ctx.policy.skips ·) : Int) > ctx.limit
    · rw [callsAt_of_gt hlevel, filter_fields_of_gt e entered hlevel, List.flatMap_nil]
    cases e with
    | leaf pos name =>
      rw [callsAt_leaf _ _ hlevel, fields, filter_cons_of_open entered name hopen hlevel,
        Policy.calls_ignores hpure]
      simp
    | field pos name children =>
      rw [callsAt_field _ _ _ hlevel, fields, filter_cons_of_open entered name hopen hlevel,
        Policy.calls_ignores hpure]
      congr 1
      by_cases hskip : ctx.policy.skips name = true
      · rw [if_pos hskip, filter_fieldsAll_of_skips children above entered hskip, List.flatMap_nil]
      · have hchildren := callsAll_eq_questions hpure children (name :: above) entered
          (List.forall_mem_cons.2 ⟨Bool.eq_false_iff.2 hskip, hopen⟩)
        simpa [hskip] using hchildren
    | group pos children =>
      rw [callsAt_group _ _ hlevel, fields]
      exact callsAll_eq_questions hpure children above entered hopen
    | followed pos name fragment =>
      rw [callsAt_followed _ _ hlevel, fields]
      exact callsAt_eq_questions hpure fragment above (name :: entered) hopen
    | missing pos name => rw [callsAt_missing _ _ hlevel, fields]; rfl
    | reentry pos name => rw [callsAt_reentry _ _ hlevel, fields]; rfl
    | other pos kind => simp [callsAt, visits, WalkContext.callsOf, fields, hlevel]

theorem callsAll_eq_questions (hpure : ctx.policy.Pure) : ∀ (es : List Expansion)
    (above entered : List String), (∀ n ∈ above, ctx.policy.skips n = false) →
    callsAll ctx es (above.countP (!ctx.policy.skips ·) : Nat) =
      ((fieldsAll above entered es).filter (·.IsVisited ctx.limit ctx.policy)).flatMap
        (ctx.policy.questions ·.name)
  | [], _, _, _ => rfl
  | e :: es, above, entered, hopen => by
    rw [callsAll_cons, fieldsAll, List.filter_append, List.flatMap_append,
      callsAt_eq_questions hpure e above entered hopen,
      callsAll_eq_questions hpure es above entered hopen]

end

end

end Expansion

/-- No field is in a fragment twice. -/
theorem Node.nodup_entered {fragments : List (String × Node)} {place : FieldPlace}
    (active : List String) (node : Node) : ∀ above : List String, active.Nodup →
      place ∈ (node.expand fragments active).fields above active → place.entered.Nodup := by
  induction active, node using Node.expand_induct fragments with
  | leaf active pos name =>
    intro above hnodup hplace
    rw [expand_leaf] at hplace
    obtain rfl := List.mem_singleton.1 hplace
    exact hnodup
  | field active pos name children ih =>
    intro above hnodup hplace
    rw [expand_field, Expansion.fields] at hplace
    rcases List.mem_cons.1 hplace with rfl | hplace
    · exact hnodup
    · obtain ⟨e, he, hplace⟩ := Expansion.mem_fieldsAll.1 hplace
      obtain ⟨child, hchild, rfl⟩ := mem_expandAll.1 he
      exact ih child hchild (name :: above) hnodup hplace
  | group active pos children ih =>
    intro above hnodup hplace
    rw [expand_group, Expansion.fields] at hplace
    obtain ⟨e, he, hplace⟩ := Expansion.mem_fieldsAll.1 hplace
    obtain ⟨child, hchild, rfl⟩ := mem_expandAll.1 he
    exact ih child hchild above hnodup hplace
  | missing active pos name hlookup =>
    intro above _ hplace
    rw [expand_missing pos hlookup] at hplace
    exact absurd hplace List.not_mem_nil
  | reentry active pos name fragment hlookup hname =>
    intro above _ hplace
    rw [expand_reentry pos hlookup hname] at hplace
    exact absurd hplace List.not_mem_nil
  | followed active pos name fragment hlookup hname ih =>
    intro above hnodup hplace
    rw [expand_followed pos hlookup hname, Expansion.fields] at hplace
    exact ih above (List.nodup_cons.2 ⟨hname, hnodup⟩) hplace
  | other active pos kind =>
    intro above _ hplace
    rw [expand_other] at hplace
    exact absurd hplace List.not_mem_nil

/-- The fields of a node with its spreads followed, in order. -/
def Node.fields (fragments : List (String × Node)) (node : Node) : List FieldPlace :=
  (node.expand fragments []).fields [] []

/-! ## Walking a node -/

namespace Walk

/-- **Which calls a walk makes.** They are the questions about the fields, in order, that are within
the limit and not below an ignored field. So each call is about such a field, which is not one of
introspection nor in a fragment that is entered again, and a visit asks no rule twice. -/
theorem run_calls {fragments : List (String × Node)}
    (hfragments : ∀ f ∈ fragments, f.2.Every Node.IsWalkable) {node : Node}
    (hnode : node.Every Node.IsWalkable) (operation : String) (limit : Int) {policy : Policy}
    (hpure : policy.Pure) :
    ∃ depth s, run ⟨fragments, limit, operation, policy, none⟩ node 0 [] = (.ok depth, s) ∧
      s.calls.toList = ((node.fields fragments).filter (·.IsVisited limit policy)).flatMap
        (policy.questions ·.name) ∧
      ∀ call ∈ s.calls, isIntrospectionName call.field = false ∧
        ∃ place ∈ node.fields fragments, place.name = call.field ∧
          place.IsVisited limit policy ∧ place.entered.Nodup ∧
          call ∈ policy.questions place.name ∧
          (policy.questions place.name).Sublist (policy.rules.filterMap (·.call? place.name)) := by
  let ctx : WalkContext := ⟨fragments, limit, operation, policy, none⟩
  have hrun : run ctx node 0 [] = _ := run_walkable rfl hpure hfragments hnode 0 []
  have hcalls : (node.expand fragments []).callsAt ctx 0 = _ :=
    Expansion.callsAt_eq_questions hpure (node.expand fragments []) [] [] (List.forall_mem_nil _)
  refine ⟨_, _, hrun, ?_, ?_⟩
  · rw [calls_start_record, hcalls]
    rfl
  · rw [calls_start_record, hcalls]
    intro call hcall
    obtain ⟨place, hplace, hcall⟩ := List.mem_flatMap.1 (List.mem_toArray.1 hcall)
    obtain ⟨hmem, hvisited⟩ := List.mem_filter.1 hplace
    obtain ⟨hname, hfield⟩ := Policy.of_mem_questions hcall
    have hnodup := Node.nodup_entered [] node [] List.nodup_nil hmem
    exact ⟨hfield ▸ hname, place, hmem, hfield.symm, of_decide_eq_true hvisited, hnodup, hcall,
      policy.questions_sublist place.name⟩

end Walk

/-- Beside each other: a field at the limit, the fragment of `Document.spiral` within the limit and
beyond it, and a field of introspection. -/
def Operation.inquiry : Operation :=
  .bare "Q" [.bareField "a" [.bareField "d" [.bareSpread "F"], .bareSpread "F"],
    .bareField "__typename" []]

def Document.inquiry : Document :=
  ⟨[.operation .inquiry,
    .fragment (.bare "F" "T" [.bareSpread "F", .bareField "b" [.bareField "c" []]])]⟩

/-- A pattern between two predicates. -/
def Policy.inquiry : Policy :=
  ⟨[.predicate ⟨"first", fun field => .ok (field == "x")⟩,
    .pattern ⟨"b", {}, .char .exact 'b'⟩,
    .predicate ⟨"second", fun _ => .ok false⟩]⟩

theorem Policy.pure_inquiry : Policy.inquiry.Pure := by
  refine pure_of_rules fun rule hrule => ?_
  simp only [inquiry, List.mem_cons, List.not_mem_nil, or_false] at hrule
  rcases hrule with rfl | rfl | rfl
  · exact fun field => ⟨field == "x", rfl⟩
  · exact fun field => ⟨_, rfl⟩
  · exact fun _ => ⟨false, rfl⟩

theorem Operation.fields_inquiry : inquiry.node.fields Document.inquiry.fragmentNodes =
    [⟨[], [], "a"⟩, ⟨["a"], [], "d"⟩, ⟨["d", "a"], ["F"], "b"⟩, ⟨["b", "d", "a"], ["F"], "c"⟩,
      ⟨["a"], ["F"], "b"⟩, ⟨["b", "a"], ["F"], "c"⟩, ⟨[], [], "__typename"⟩] := by
  have hfragments : Document.inquiry.fragmentNodes = [("F", .group (some 0)
    [.spread (some 0) "F", .field (some 0) "b" (some [.field (some 0) "c" none])])] := rfl
  simp [Node.fields, hfragments, inquiry, bare, node, Selection.bareField, Selection.bareSpread,
    Selection.node, Selection.nodes, Node.expand_spread, Expansion.fields, Expansion.fieldsAll]

/-- The pattern stands before the second predicate, which is not asked about what it matches. -/
theorem Walk.run_calls_inquiry :
    (∀ f ∈ Document.inquiry.fragmentNodes, f.2.Every Node.IsWalkable) ∧
    Operation.inquiry.node.Every Node.IsWalkable ∧ Policy.inquiry.Pure ∧
    ∃ s, run ⟨Document.inquiry.fragmentNodes, 1, "Q", .inquiry, none⟩ Operation.inquiry.node 0 [] =
        (.ok 1, s) ∧
      s.calls.toList = [⟨"first", "a"⟩, ⟨"second", "a"⟩, ⟨"first", "d"⟩, ⟨"second", "d"⟩,
        ⟨"first", "b"⟩] := by
  have hfragments : ∀ f ∈ Document.inquiry.fragmentNodes, f.2.Every Node.IsWalkable :=
    fun f hf => (Document.inquiry.every_fragmentNodes f hf).imp fun _ => And.left
  have hnode : Operation.inquiry.node.Every Node.IsWalkable :=
    (Document.every_node .inquiry).imp fun _ => And.left
  obtain ⟨depth, s, hrun, hcalls, -⟩ := run_calls hfragments hnode "Q" 1 Policy.pure_inquiry
  obtain rfl : depth = 1 := Except.ok.inj (congrArg Prod.fst hrun.symm)
  rw [Operation.fields_inquiry] at hcalls
  exact ⟨hfragments, hnode, Policy.pure_inquiry, s, hrun, hcalls.trans (by decide +kernel)⟩

end QueryDepth
