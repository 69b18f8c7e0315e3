import QueryDepth.Proofs.CommandLine.ExitCode
import QueryDepth.Proofs.Config.IgnoreOption

/-!
# Checks with a configuration file

A check needs its configuration, a schema if there is one, and the document of the query file. Once
it has read them it depends on nothing but the depth rule of the request over the configuration
(`checkOn_eq`).

**Theorem (`check_configured`).** Let a configuration file give an ignore option and nothing else,
as read by any library that makes plain data of it. A check without a schema succeeds exactly if
there is a depth rule with the option `asConfigured`, and then it reports what this rule gives
alone. For most values this is the value itself. A value that is misread is refused as an option of
the depth rule, but not by the check: of a mapping the keys become patterns
(`not_check_configured`).
-/

namespace QueryDepth

variable {s t : Sandbox}

theorem logAll_eq (records : List LogRecord) (s : Sandbox) : ∃ t,
    (logAll records : SandboxTask Unit) s = (.ok (), t) := by
  induction records generalizing s with
  | nil => exact ⟨s, rfl⟩
  | cons record records ih => exact ih (s.logging record)

/-- Without a schema, a pure depth rule gives a report. -/
theorem CommandLine.report_runAlone {rule : DepthRule} (hpure : rule.policy.Pure)
    (hreceiver : rule.receiver = some acceptAll) (doc : Document) (text : String) :
    (rule.runAlone doc).report text rule.limit = .ok ⟨rule.limit, (rule.runAlone doc).depths,
      (rule.runAlone doc).violations.map (Violation.finding text.toList)⟩ := by
  have hfailure : (rule.runAlone doc).failure = none := by
    rcases Nat.lt_or_ge maxViolations (rule.faults doc).length with hfull | hfits
    · obtain ⟨calls, log, hrun⟩ := DepthRule.runAlone_full hpure doc hfull
      rw [hrun]
    · have haccepts := DepthRule.accepts_of_acceptAll hreceiver (rule.depths doc)
      rw [DepthRule.runAlone_fits hpure doc hfits haccepts]
  rw [ValidationRun.report, hfailure]

section

variable [YamlLibrary]

/-! ## Reading a configuration -/

/-- The configuration document that a check finds on a machine: null if the file is not there. -/
inductive Sandbox.Configures (s : Sandbox) (file : Option String) : Data → Prop
  | absent {path : String} (hpath : (Config.pathOr file : SandboxTask String) s = (.ok path, s))
      (hthere : (File.isThere path : SandboxTask Bool) s = (.ok false, s)) : Configures s file .null
  | present {path : String} {bytes : List UInt8} {document : Data}
      (hpath : (Config.pathOr file : SandboxTask String) s = (.ok path, s))
      (hthere : (File.isThere path : SandboxTask Bool) s = (.ok true, s))
      (hbytes : (File.bytes path : SandboxTask (List UInt8)) s = (.ok bytes, s))
      (hdocument : YamlLibrary.load path bytes = .ok document) : Configures s file document

namespace Sandbox.Configures

variable {file : Option String} {document : Data}

theorem isPlain [LawfulYaml] (h : s.Configures file document) : document.IsPlain := by
  cases h with
  | absent => exact .null
  | present _ _ _ hdocument => exact LawfulYaml.plain hdocument

theorem load (h : s.Configures file document) {config : Config}
    (hconfig : Config.ofDocument s.homes document = .ok config) :
    (Config.load file : SandboxTask Config) s = (.ok config, s) := by
  unfold Config.load
  cases h with
  | absent hpath hthere =>
    obtain rfl : Config.default = config := Except.ok.inj hconfig
    rw [Task.bind_ok hpath, Task.bind_ok hthere]
    rfl
  | present hpath hthere hbytes hdocument =>
    rw [Task.bind_ok hpath, Task.bind_ok hthere, if_pos rfl, Task.bind_ok hbytes,
      Task.bind_ok (Task.ofExcept_eq hdocument)]
    exact Task.ofExcept_eq hconfig

end Sandbox.Configures

namespace CommandLine

/-! ## A check that can read everything -/

/-- **What a check depends on.** If the configuration, the schema and the document can be read, the
rest is the depth rule of the request over the configuration. -/
theorem checkOn_eq {queryFile text : String} {request : CheckRequest} {config : Config}
    {schema : Option Schema} {doc : Document}
    (hconfig : (Config.load request.configFile : SandboxTask Config) s = (.ok config, s))
    (hschema : ((request.sourceOver config).load : SandboxTask (Option Schema)) s =
      (.ok schema, t))
    (hquery : (File.text queryFile : SandboxTask String) t = (.ok text, t))
    (hdoc : Document.parse text = .ok doc) :
    (checkOn queryFile request s).1 = (request.ruleOver config).bind fun rule =>
      (checkDocument schema doc rule).bind fun run => run.report text rule.limit := by
  unfold checkOn check CheckRequest.ruleOver
  rw [Task.bind_ok hconfig]
  cases request.ignoreOver config with
  | error e => rfl
  | ok ignore =>
    rw [Task.bind_ok (Task.ofExcept_eq rfl), Task.bind_ok hschema, Task.bind_ok hquery,
      Task.bind_ok (Task.ofExcept_eq hdoc), Task.fst_ofExcept_bind]
    refine congrArg (Except.bind _) (funext fun rule => ?_)
    rw [Task.fst_ofExcept_bind]
    refine congrArg (Except.bind _) (funext fun run => ?_)
    obtain ⟨u, hlog⟩ := logAll_eq run.log t
    rw [Task.bind_ok hlog]
    cases run.report text rule.limit <;> rfl

/-- **The ignore option of a configuration file.** A check reads the option as `asConfigured`. It
comes to an end exactly if a depth rule can have this option, and then it reports the depths and the
errors of the rule. This is the option that the file gives, unless it is misread, and then no depth
rule can have it as it is. -/
theorem check_configured [LawfulYaml] {queryFile text : String} {request : CheckRequest}
    {document : Data} {entries : List (Data × Data)} {v : Data} {doc : Document}
    (hfile : s.Configures request.configFile document)
    (hentries : document.entries? = some entries)
    (hv : Config.valueOf? "ignore" entries = some v) (hnull : v ≠ .null)
    (hothers : ∀ key ∈ ["max_depth", "default_url", "schema_file"],
      Config.valueOf? key entries = none)
    (hignore : request.ignore = []) (hschema : request.schemaFile.isTruthy = false)
    (hurl : request.url.isTruthy = false)
    (hquery : (File.text queryFile : SandboxTask String) s = (.ok text, s))
    (hdoc : Document.parse text = .ok doc) :
    (v.isMisread = false → v.asConfigured = v) ∧
    (v.isMisread = true → v.asConfigured = .list (v.items?.getD []) ∧
      Policy.ofData v = .error (.invalidOption v)) ∧
    ((∃ report, (checkOn queryFile request s).1 = .ok report) ↔ ∃ rule,
      DepthRule.ofData (request.limitOver .default) v.asConfigured (some acceptAll) = .ok rule) ∧
    ∀ rule,
      DepthRule.ofData (request.limitOver .default) v.asConfigured (some acceptAll) = .ok rule →
      (checkOn queryFile request s).1 = .ok ⟨rule.limit, (rule.runAlone doc).depths,
        (rule.runAlone doc).violations.map (Violation.finding text.toList)⟩ := by
  let config : Config := ⟨Config.defaultLimit, Config.heldFor v, .null, .null⟩
  have hconfig := hfile.load (Config.ofDocument_of_given hentries hv hothers)
  have hgiven : Config.given document = v := by
    rw [Config.given_of_entries hentries, hv, Option.getD_some]
  have hplain : v.IsPlain := hgiven ▸ Config.isPlain_given hfile.isPlain
  have hread : Config.ReadAs config.ignore v.asConfigured := Config.readAs_heldFor hplain hnull
  have hnone : ((request.sourceOver config).load : SandboxTask (Option Schema)) s =
      (.ok none, s) := by
    rw [CheckRequest.sourceOver, hschema, hurl]
    rfl
  have hcheck := checkOn_eq hconfig hnone hquery hdoc
  have hrule : ∀ rule, request.ruleOver config = .ok rule ↔
      DepthRule.ofData (request.limitOver .default) v.asConfigured (some acceptAll) = .ok rule :=
    fun rule => CheckRequest.ruleOver_eq_ok_iff_of_readAs hread hignore
  have hreport : ∀ rule, request.ruleOver config = .ok rule →
      (checkOn queryFile request s).1 = .ok ⟨rule.limit, (rule.runAlone doc).depths,
        (rule.runAlone doc).violations.map (Violation.finding text.toList)⟩ := by
    intro rule hover
    obtain ⟨hpure, hreceiver⟩ :=
      CheckRequest.pure_of_ruleOver (Config.isPlain_heldFor hplain) hignore hover
    rw [hcheck, hover]
    exact report_runAlone hpure hreceiver doc text
  refine ⟨Data.asConfigured_of_not_isMisread,
    fun h => ⟨Data.asConfigured_of_isMisread h, Data.ofData_of_isMisread h⟩, ?_,
    fun rule h => hreport rule ((hrule rule).2 h)⟩
  constructor
  · rintro ⟨report, hok⟩
    cases hover : request.ruleOver config with
    | error e =>
      rw [hcheck, hover] at hok
      cases hok
    | ok rule => exact ⟨rule, (hrule rule).1 hover⟩
  · rintro ⟨rule, h⟩
    exact ⟨_, hreport rule ((hrule rule).2 h)⟩

end CommandLine

end

namespace CommandLine

/-- A request with a limit and the path of a configuration file. -/
def limitedRequest (limit : Int) (file : String) : CheckRequest :=
  ⟨.int limit, [], .null, none, .null, some file⟩

/-- A machine with a configuration file and a query file. -/
def configuredMachine (config query : String) : Sandbox :=
  machine [("c.yaml", config), ("q.graphql", query)]

theorem configures_configuredMachine {config query : String} {text : List Char} {document : Data}
    (htext : Yaml.decodeInTurn config.toUTF8.toList = .ok text)
    (hdocument : Yaml.load text = .ok document) :
    (configuredMachine config query).Configures (some "c.yaml") document :=
  .present rfl rfl rfl (Yaml.loadBytes_eq_ok_iff.2 ⟨_, htext, hdocument⟩)

theorem text_configuredMachine {config query : String} {text : List Char}
    (htext : Text.Utf8.decode query.toUTF8.toList = .ok text) :
    (File.text "q.graphql" : SandboxTask String) (configuredMachine config query) =
      (.ok (String.ofList (Text.universalLines text)), configuredMachine config query) := by
  have hpath : (Path.ofString "q.graphql").text = "q.graphql" := rfl
  have hbytes : (File.bytes "q.graphql" : SandboxTask (List UInt8))
      (configuredMachine config query) =
        (.ok query.toUTF8.toList, configuredMachine config query) := rfl
  unfold File.text File.textAt
  rw [hpath, Task.bind_ok hbytes, Task.bind_ok (Task.ofExcept_eq htext)]
  rfl

/-- Three fields below one another. -/
def tower : Document :=
  ⟨[.operation ⟨0, .query, none, [], [], 0, [.field ⟨1, none, ⟨1, "a"⟩, [], [], 2⟩
    [.field ⟨3, none, ⟨3, "b"⟩, [], [], 4⟩ [.field ⟨5, none, ⟨5, "c"⟩, [], [], 0⟩ []]]]⟩]⟩

theorem parse_tower : Document.parse "{a{b{c}}}" = .ok tower := rfl

theorem text_tower (config : String) :
    (File.text "q.graphql" : SandboxTask String) (configuredMachine config "{a{b{c}}}") =
      (.ok "{a{b{c}}}", configuredMachine config "{a{b{c}}}") := by
  have htext : Text.Utf8.decode "{a{b{c}}}".toUTF8.toList = .ok "{a{b{c}}}".toList := by
    decide +kernel
  exact text_configuredMachine htext

theorem eq_ok_of_toOption {ε α : Type} {result : Except ε α} {a : α}
    (h : result.toOption = some a) : result = .ok a := by
  cases result with
  | error e => exact nomatch h
  | ok b => exact congrArg Except.ok (Option.some.inj h)

theorem configures_list (query : String) :
    (configuredMachine "ignore: [b]" query).Configures (limitedRequest 1 "c.yaml").configFile
      (.mapping [(.text "ignore", .list [.text "b"])]) := by
  have htext : Yaml.decodeInTurn "ignore: [b]".toUTF8.toList = .ok "ignore: [b]".toList := by
    decide +kernel
  exact configures_configuredMachine htext (Yaml.load_eq_of_same (by decide +kernel))

theorem configures_mapping (query : String) :
    (configuredMachine "ignore: {b: true}" query).Configures (limitedRequest 1 "c.yaml").configFile
      (.mapping [(.text "ignore", .mapping [(.text "b", .bool true)])]) := by
  have htext : Yaml.decodeInTurn "ignore: {b: true}".toUTF8.toList =
      .ok "ignore: {b: true}".toList := by decide +kernel
  exact configures_configuredMachine htext (Yaml.load_eq_of_same (by decide +kernel))

/-- The field `b` does not count, so that the query is within the limit. -/
theorem check_configured_list :
    (configuredMachine "ignore: [b]" "{a{b{c}}}").Configures (some "c.yaml")
      (.mapping [(.text "ignore", .list [.text "b"])]) ∧
    (File.text "q.graphql" : SandboxTask String) (configuredMachine "ignore: [b]" "{a{b{c}}}") =
      (.ok "{a{b{c}}}", configuredMachine "ignore: [b]" "{a{b{c}}}") ∧
    Document.parse "{a{b{c}}}" = .ok tower ∧
    ∃ rule, DepthRule.ofData (.int 1) (.list [.text "b"]) (some acceptAll) = .ok rule ∧
      (checkOn "q.graphql" (limitedRequest 1 "c.yaml")
        (configuredMachine "ignore: [b]" "{a{b{c}}}")).1 = .ok ⟨1, [("", 1)], []⟩ ∧
      (rule.runAlone tower).depths = [("", 1)] ∧ (rule.runAlone tower).violations = [] := by
  have hfile := configures_list "{a{b{c}}}"
  have hquery := text_tower "ignore: [b]"
  obtain ⟨-, -, hiff, hall⟩ := check_configured hfile rfl rfl Data.noConfusion (by decide) rfl rfl
    rfl hquery parse_tower
  have hok : (checkOn "q.graphql" (limitedRequest 1 "c.yaml")
      (configuredMachine "ignore: [b]" "{a{b{c}}}")).1 = .ok ⟨1, [("", 1)], []⟩ :=
    eq_ok_of_toOption (by decide +kernel)
  obtain ⟨rule, hrule⟩ := hiff.1 ⟨_, hok⟩
  have hsame := Except.ok.inj (hok.symm.trans (hall rule hrule))
  have hdepths := congrArg Report.depths hsame
  have hfindings := congrArg Report.findings hsame
  exact ⟨hfile, hquery, parse_tower, rule, hrule, hok, hdepths.symm,
    List.map_eq_nil_iff.1 hfindings.symm⟩

/-- **A mapping is silently turned into patterns.** -/
theorem not_check_configured : ¬ ∀ {s : Sandbox} {queryFile text : String} {request : CheckRequest}
    {document : Data} {entries : List (Data × Data)} {v : Data} {doc : Document},
    s.Configures request.configFile document → document.entries? = some entries →
    Config.valueOf? "ignore" entries = some v → v ≠ .null →
    (∀ key ∈ ["max_depth", "default_url", "schema_file"], Config.valueOf? key entries = none) →
    request.ignore = [] → request.schemaFile.isTruthy = false → request.url.isTruthy = false →
    (File.text queryFile : SandboxTask String) s = (.ok text, s) →
    Document.parse text = .ok doc →
    ((∃ report, (checkOn queryFile request s).1 = .ok report) ↔
      ∃ rule, DepthRule.ofData (request.limitOver .default) v (some acceptAll) = .ok rule) := by
  intro h
  have hiff := h (configures_mapping "{a{b{c}}}") rfl rfl Data.noConfusion (by decide) rfl rfl rfl
    (text_tower "ignore: {b: true}") parse_tower
  have hok : (checkOn "q.graphql" (limitedRequest 1 "c.yaml")
      (configuredMachine "ignore: {b: true}" "{a{b{c}}}")).1 = .ok ⟨1, [("", 1)], []⟩ :=
    eq_ok_of_toOption (by decide +kernel)
  obtain ⟨rule, hrule⟩ := hiff.1 ⟨_, hok⟩
  exact nomatch hrule

end CommandLine

end QueryDepth
