import QueryDepth.Check
import QueryDepth.Text.Integer

/-!
# What the words of a command line mean

The first word names a command. Options follow, each with its value in the same word or as the next
one; words that are no options are arguments. A lone `--` ends the options. Of an option that is
given several times the last value counts, but every `--ignore` adds one.
-/

namespace QueryDepth.CommandLine

inductive Command where
  | check (queryFile : String) (request : CheckRequest) (format : String) (debug verbose : Bool)
  | initConfig (path : Option String)

/-- The options that a command takes. -/
structure OptionNames where
  /-- Options with a value. -/
  valued : List String
  /-- Options without one. -/
  plain : List String

def checkNames : OptionNames where
  valued := ["--max-depth", "--ignore", "--schema", "--url", "--token", "--config", "--output"]
  plain := ["--verbose", "--no-verbose", "--debug", "--no-debug"]

def initConfigNames : OptionNames where
  valued := ["--path"]
  plain := []

/-- Options with their values, in order, and arguments. -/
structure ParsedWords where
  options : List (String × String)
  arguments : List String
deriving DecidableEq, Repr

/-- Whether a word is an option or should be one. -/
def looksLikeOption (word : String) : Bool := word.toList.head? = some '-' && word != "-"

/-- The part of an option in front of an equals sign, and what follows it. -/
def splitValue (word : String) : String × Option String :=
  let cs := word.toList
  let name := cs.takeWhile (· ≠ '=')
  match cs.drop name.length with
  | [] => (word, none)
  | _ :: value => (String.ofList name, some (String.ofList value))

/-- Sorts words into options and arguments, if all options are known and have their values. -/
def sortWords (names : OptionNames) : List String → Option ParsedWords
  | [] => some ⟨[], []⟩
  | word :: rest =>
    if word = "--" then some ⟨[], rest⟩
    else if looksLikeOption word then
      let (name, value) := splitValue word
      let option (value : String) (parsed : ParsedWords) : ParsedWords :=
        { parsed with options := (name, value) :: parsed.options }
      if names.valued.contains name then
        match value, rest with
        | some value, rest => (sortWords names rest).map (option value)
        | none, value :: rest => (sortWords names rest).map (option value)
        | none, [] => none
      else if names.plain.contains name ∧ value.isNone then
        (sortWords names rest).map (option "")
      else none
    else
      (sortWords names rest).map fun parsed =>
        { parsed with arguments := word :: parsed.arguments }

namespace ParsedWords

/-- The last value of an option. -/
def value? (parsed : ParsedWords) (name : String) : Option String :=
  parsed.options.reverse.lookup name

def values (parsed : ParsedWords) (name : String) : List String :=
  (parsed.options.filter (·.1 = name)).map Prod.snd

/-- Whether a switch is on, by the last word about it. -/
def isOn (parsed : ParsedWords) (on off : String) : Bool :=
  match parsed.options.reverse.find? fun o => o.1 = on ∨ o.1 = off with
  | some o => o.1 = on
  | none => false

end ParsedWords

/-- A text as a value, null if there is none. -/
def textOrNull (s : Option String) : Data :=
  match s with
  | some s => .text s
  | none => .null

def readCheck (words : List String) : Option Command := do
  let parsed ← sortWords checkNames words
  let limit : Data ← match parsed.value? "--max-depth" with
    | some s => (Text.readInteger? s.toList).map Data.int
    | none => some Data.null
  match parsed.arguments with
  | [queryFile] =>
    let request : CheckRequest := {
      limit
      ignore := (parsed.values "--ignore").map Data.text
      url := textOrNull (parsed.value? "--url")
      token := parsed.value? "--token"
      schemaFile := textOrNull (parsed.value? "--schema")
      configFile := parsed.value? "--config" }
    return .check queryFile request ((parsed.value? "--output").getD "console")
      (parsed.isOn "--debug" "--no-debug") (parsed.isOn "--verbose" "--no-verbose")
  | _ => none

def readInitConfig (words : List String) : Option Command := do
  let parsed ← sortWords initConfigNames words
  match parsed.arguments with
  | [] => return .initConfig (parsed.value? "--path")
  | _ => none

def readCommand : List String → Option Command
  | [] => none
  | name :: words =>
    if name = "check" then readCheck words
    else if name = "init-config" then readInitConfig words
    else none

/-- The command that the words of a command line mean, if they mean one. -/
def readWords : List String → Option Command
  | "--" :: words => readCommand words
  | words => readCommand words

/-- Whether debug records are to be shown. -/
def isVerbose (words : List String) : Bool :=
  match readWords words with
  | some (.check _ _ _ _ verbose) => verbose
  | _ => false

end QueryDepth.CommandLine
