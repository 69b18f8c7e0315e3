import QueryDepth.Data.Basic
import QueryDepth.Text.Quoted

/-!
# Values as they are shown in messages

`Data.literal` shows a value as a literal, text in quotes; `Data.shown` shows a text as it is and
everything else as a literal. A collection that holds itself shows as three dots inside itself.
-/

namespace QueryDepth.Data

/-- Floats from `1e-4` up to `1e16` are positional. -/
def floatLayout : Decimal.Layout := ⟨-4, 16, 2, "inf", "nan"⟩

def floatText (x : Float) : String := floatLayout.text x

def boolText (b : Bool) : String := if b then "True" else "False"

/-- The names of flags in the order in which they are shown. -/
def flagNames (f : Flags) : List String :=
  (if f.ignoreCase then ["re.IGNORECASE"] else []) ++ (if f.multiline then ["re.MULTILINE"] else [])
    ++ (if f.dotAll then ["re.DOTALL"] else []) ++ (if f.verbose then ["re.VERBOSE"] else [])
    ++ (if f.ascii then ["re.ASCII"] else [])

/-- A compiled pattern; a long source is cut. -/
def patternText (p : Pattern) : String :=
  let source := String.ofList ((Text.quotedChars p.source.toList).take 200)
  let flags := flagNames p.flags
  "re.compile(" ++ source ++ (if flags.isEmpty then "" else ", " ++ "|".intercalate flags) ++ ")"

def ruleText : IgnoreRule → String
  | .pattern p => "IgnoreRule(kind='pattern', pattern=" ++ patternText p ++ ", predicate=None)"
  | .predicate p =>
    "IgnoreRule(kind='predicate', pattern=None, predicate=<function " ++ p.label ++ ">)"

/-- Items in parentheses; a single one is followed by a comma. -/
def tupleText : List String → String
  | [] => "()"
  | [s] => "(" ++ s ++ ",)"
  | ss => "(" ++ ", ".intercalate ss ++ ")"

def policyText (p : Policy) : String :=
  "IgnorePolicy(rules=" ++ tupleText (p.rules.map ruleText) ++ ")"

/-- A moment; seconds are left out if nothing but zeros follows the minutes. -/
def timestampText (t : Timestamp) : String :=
  let seconds :=
    if t.microsecond ≠ 0 then [t.second, t.microsecond]
    else if t.second ≠ 0 then [t.second]
    else []
  let numbers := [t.date.year, t.date.month, t.date.day, t.hour, t.minute] ++ seconds
  let zone := match t.ahead with
    | none => ""
    | some 0 => ", tzinfo=datetime.timezone.utc"
    | some (.ofNat m) =>
      ", tzinfo=datetime.timezone(datetime.timedelta(seconds=" ++ Decimal.natText (60 * m) ++ "))"
    | some (.negSucc m) =>
      ", tzinfo=datetime.timezone(datetime.timedelta(days=-1, seconds="
        ++ Decimal.natText (86400 - 60 * (m + 1)) ++ "))"
  "datetime.datetime(" ++ ", ".intercalate (numbers.map Decimal.natText) ++ zone ++ ")"

/-- How a collection is shown inside itself. -/
def elided : Data → String
  | .mapping _ => "\x7b...\x7d"
  | .tuple _ => "(...)"
  | .set _ => "set(...)"
  | _ => "[...]"

mutual

/-- A value inside of collections with these marks, which are shown in these ways. -/
def literalIn (shown : List (Nat × String)) : Data → String
  | .null => "None"
  | .bool b => boolText b
  | .int n => Decimal.intText n
  | .float x => floatText x
  | .text s => Text.quoted s
  | .bytes bs => Text.quotedBytes bs
  | .list items => "[" ++ ", ".intercalate (literalsIn shown items) ++ "]"
  | .tuple items => tupleText (literalsIn shown items)
  | .set [] => "set()"
  | .set items => "\x7b" ++ ", ".intercalate (literalsIn shown items) ++ "\x7d"
  | .stream _ => "<list_iterator object>"
  | .mapping entries => "\x7b" ++ ", ".intercalate (entryLiteralsIn shown entries) ++ "\x7d"
  | .date d =>
    "datetime.date(" ++ Decimal.natText d.year ++ ", " ++ Decimal.natText d.month ++ ", "
      ++ Decimal.natText d.day ++ ")"
  | .timestamp t => timestampText t
  | .loop mark body =>
    match shown.lookup mark with
    | some dots => dots
    | none => literalIn ((mark, elided body) :: shown) body
  | .again mark => (shown.lookup mark).getD "..."
  | .pattern p => patternText p
  | .predicate p => "<function " ++ p.label ++ ">"
  | .policy p => policyText p

def literalsIn (shown : List (Nat × String)) : List Data → List String
  | [] => []
  | v :: vs => literalIn shown v :: literalsIn shown vs

def entryLiteralsIn (shown : List (Nat × String)) : List (Data × Data) → List String
  | [] => []
  | (k, v) :: es => (literalIn shown k ++ ": " ++ literalIn shown v) :: entryLiteralsIn shown es

end

def literal (v : Data) : String := literalIn [] v

/-- A text as it is, everything else as a literal. -/
def shown : Data → String
  | .text s => s
  | v => v.literal

end QueryDepth.Data
