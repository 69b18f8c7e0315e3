import QueryDepth.Proofs.CommandLine.Configured

/-!
# Ways to give a single ignore option

A single ignore option can be given to the depth rule as it is or as the only element of a list. To
a check it can be given by a configuration file, in both forms, or by the request.

**Theorem (`single_option_alike`).** All ways come to the same policy, so a check gives the same
report, whichever library reads the file as plain data, unless the option is the empty text. By
itself this means no option at all, but as an element of a list it is a regular expression that
matches every name (`not_single_option_alike`).
-/

namespace QueryDepth

/-- A check is given just this option: by its configuration, as it is or in a list, or by the
request. -/
inductive CheckRequest.Gives (request : CheckRequest) (document x : Data) : Prop
  | bare (hrequest : request.ignore = []) (hgiven : Config.given document = x)
  | listed (hrequest : request.ignore = []) (hgiven : Config.given document = .list [x])
  | requested (hrequest : request.ignore = [x]) (hgiven : Config.given document = .null)

/-- Plain options are texts, and a configuration holds them in a list. -/
theorem Config.heldFor_of_isOption {x : Data} (hx : x.IsOption) (hplain : x.IsPlain)
    (hne : x ≠ .text "") : heldFor x = .list [x] := by
  cases hx with
  | @text s p hp =>
    have htruthy : (Data.text s).isTruthy = true := by
      rw [Data.isTruthy, isEmpty_of_ne hne, Bool.not_false]
    rw [heldFor_of_isTruthy htruthy]
    rfl
  | pattern p => cases hplain
  | predicate hp => cases hplain

/-- The configuration and the request have just this option together. -/
theorem CheckRequest.Gives.exists_items {request : CheckRequest} {document x : Data}
    (h : request.Gives document x) (hx : x.IsOption) (hne : x ≠ .text "")
    (hplain : document.IsPlain) :
    ∃ items, (Config.heldFor (Config.given document)).items? = some items ∧
      items ++ request.ignore = [x] := by
  cases h with
  | bare hrequest hgiven =>
    have hx' : x.IsPlain := hgiven ▸ Config.isPlain_given hplain
    rw [hgiven, Config.heldFor_of_isOption hx hx' hne, hrequest]
    exact ⟨[x], rfl, rfl⟩
  | listed hrequest hgiven =>
    rw [hgiven, hrequest]
    exact ⟨[x], rfl, rfl⟩
  | requested hrequest hgiven =>
    rw [hgiven, hrequest]
    exact ⟨[], rfl, rfl⟩

namespace CommandLine

/-- **A single option and the list of it mean the same.** They make the same policy, and so does a
text of which a configuration is made. A depth rule may have either of them. A check that is given
just this option, in whichever way, comes to what its document gives under that policy. -/
theorem single_option_alike [YamlLibrary] [LawfulYaml] {x : Data} (hx : x.IsOption)
    (hne : x ≠ .text "") :
    ∃ policy : Policy, policy.Pure ∧
      Policy.ofData x = .ok policy ∧ Policy.ofData (.list [x]) = .ok policy ∧
      (∀ homes limit url file config, (∃ s, x = .text s) →
        Config.ofFields homes limit x url file = .ok config →
        Policy.ofData config.ignore = .ok policy) ∧
      (∀ limit n receiver, limitOf? limit = some n →
        DepthRule.ofData limit x receiver = .ok ⟨n, policy, receiver⟩ ∧
        DepthRule.ofData limit (.list [x]) receiver = .ok ⟨n, policy, receiver⟩) ∧
      ∀ (s t : Sandbox) (queryFile text : String) (request : CheckRequest) (document : Data)
        (config : Config) (schema : Option Schema) (doc : Document) (n : Int),
        s.Configures request.configFile document →
        Config.ofDocument s.homes document = .ok config → request.Gives document x →
        ((request.sourceOver config).load : SandboxTask (Option Schema)) s = (.ok schema, t) →
        (File.text queryFile : SandboxTask String) t = (.ok text, t) →
        Document.parse text = .ok doc → limitOf? (request.limitOver config) = some n →
        (checkOn queryFile request s).1 =
          (checkDocument schema doc ⟨n, policy, some acceptAll⟩).bind fun run =>
            run.report text n := by
  obtain ⟨policy, hlist, hpure⟩ := Policy.exists_of_isOption hx
  have hsingle : Policy.ofData x = .ok policy := Policy.ofData_list_single hx hne ▸ hlist
  refine ⟨policy, hpure, hsingle, hlist, ?_, fun limit n receiver hlimit => ⟨?_, ?_⟩, ?_⟩
  · rintro homes limit url file config ⟨s, rfl⟩ hconfig
    rw [Config.ignore_of_ofFields hconfig]
    exact hlist
  · exact DepthRule.ofData_eq_ok_iff.2 ⟨n, policy, hlimit, hsingle, rfl⟩
  · exact DepthRule.ofData_eq_ok_iff.2 ⟨n, policy, hlimit, hlist, rfl⟩
  · intro s t queryFile text request document config schema doc n hfile hconfig hgives hschema
      hquery hdoc hlimit
    obtain ⟨items, hitems, happend⟩ := hgives.exists_items hx hne hfile.isPlain
    rw [← Config.ignore_of_ofDocument hconfig] at hitems
    have hrule : request.ruleOver config = .ok ⟨n, policy, some acceptAll⟩ := by
      rw [CheckRequest.ruleOver_eq_ok_iff]
      refine ⟨items, hitems, DepthRule.ofData_eq_ok_iff.2 ⟨n, policy, hlimit, ?_, rfl⟩⟩
      rw [happend, hlist]
    rw [checkOn_eq (hfile.load hconfig) hschema hquery hdoc, hrule]
    rfl

theorem isOption_of_compiles {s : String} (h : (Pattern.compile s).toOption.isSome = true) :
    (Data.text s).IsOption := by
  cases hp : Pattern.compile s with
  | error e =>
    rw [hp] at h
    exact nomatch h
  | ok p => exact .text hp

theorem configures_text (query : String) :
    (configuredMachine "ignore: b" query).Configures (limitedRequest 1 "c.yaml").configFile
      (.mapping [(.text "ignore", .text "b")]) := by
  have htext : Yaml.decodeInTurn "ignore: b".toUTF8.toList = .ok "ignore: b".toList := by
    decide +kernel
  exact configures_configuredMachine htext (Yaml.load_eq_of_same (by decide +kernel))

/-- The pattern `b` as it is, in a list, in both forms in a configuration file, and in a request
without one. -/
theorem single_option_alike_text :
    (Data.text "b").IsOption ∧ Data.text "b" ≠ .text "" ∧
    ∃ policy, Policy.ofData (.text "b") = .ok policy ∧
      Policy.ofData (.list [.text "b"]) = .ok policy ∧
      (checkOn "q.graphql" (limitedRequest 1 "c.yaml")
        (configuredMachine "ignore: b" "{a{b{c}}}")).1 = .ok ⟨1, [("", 1)], []⟩ ∧
      (checkOn "q.graphql" (limitedRequest 1 "c.yaml")
        (configuredMachine "ignore: [b]" "{a{b{c}}}")).1 = .ok ⟨1, [("", 1)], []⟩ ∧
      (checkOn "q.graphql" ⟨.int 1, [.text "b"], .null, none, .null, some "d.yaml"⟩
        (configuredMachine "" "{a{b{c}}}")).1 = .ok ⟨1, [("", 1)], []⟩ ∧
      (DepthRule.runAlone ⟨1, policy, some acceptAll⟩ tower).report "{a{b{c}}}" 1 =
        .ok ⟨1, [("", 1)], []⟩ := by
  have hoption : (Data.text "b").IsOption := isOption_of_compiles (by decide +kernel)
  have hne : Data.text "b" ≠ .text "" := by
    intro h
    exact absurd (Data.text.inj h) (by decide)
  obtain ⟨policy, -, hsingle, hlist, -, -, hcheck⟩ := single_option_alike hoption hne
  have htext := hcheck _ _ _ _ _ _ _ none _ 1 (configures_text "{a{b{c}}}") rfl
    (.bare rfl rfl) rfl (text_tower _) parse_tower rfl
  have hlisted := hcheck _ _ _ _ _ _ _ none _ 1 (configures_list "{a{b{c}}}") rfl
    (.listed rfl rfl) rfl (text_tower _) parse_tower rfl
  have hrequested := hcheck (configuredMachine "" "{a{b{c}}}") _ _ _
    ⟨.int 1, [.text "b"], .null, none, .null, some "d.yaml"⟩ _ _ none _ 1
    (.absent rfl rfl) rfl (.requested rfl rfl) rfl (text_tower _) parse_tower rfl
  have hok : (checkOn "q.graphql" (limitedRequest 1 "c.yaml")
      (configuredMachine "ignore: b" "{a{b{c}}}")).1 = .ok ⟨1, [("", 1)], []⟩ :=
    eq_ok_of_toOption (by decide +kernel)
  rw [hok] at htext
  exact ⟨hoption, hne, policy, hsingle, hlist, hok, hlisted.trans htext.symm,
    hrequested.trans htext.symm, htext.symm⟩

/-- **The empty text is no option by itself, and matches every name in a list.** -/
theorem not_single_option_alike : ¬ ∀ (x : Data) (bare listed : Policy), x.IsOption →
    Policy.ofData x = .ok bare → Policy.ofData (.list [x]) = .ok listed →
      ∀ name, bare.Matches name ↔ listed.Matches name := by
  intro h
  have hoption : (Data.text "").IsOption := isOption_of_compiles (by decide +kernel)
  have hbare : Policy.ofData (.text "") = .ok .empty := rfl
  obtain ⟨listed, hlisted, -⟩ := Policy.exists_of_isOption hoption
  have hmatches : listed.Matches "a" := by
    have hanswer : ((Policy.ofData (.list [.text ""])).toOption.map fun policy =>
        (policy.ask "a").answer.toOption) = some (some true) := by decide +kernel
    rw [hlisted] at hanswer
    exact eq_ok_of_toOption (Option.some.inj hanswer)
  exact nomatch (h _ _ _ hoption hbare hlisted "a").2 hmatches

end CommandLine

end QueryDepth
