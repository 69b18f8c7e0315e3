import QueryDepth.Yaml.Token

/-!
# Nodes of a configuration file

`YamlNode.read` builds the one document of a text from its tokens. Every node has a tag: the one
written at it, or for a plain scalar the one that its text has the form of. An alias stands for the
node that its anchor was put on. Inside of that node it makes the node a `loop`, and so is every
collection on the way to it.
-/

namespace QueryDepth

/-- What is wrong with a text that is no configuration. Where numbers and truth values are wrong, it
is said which; of other errors only the kind is kept. -/
inductive YamlError where
  /-- A character that may not occur. -/
  | character
  /-- The text is not made of tokens. -/
  | token
  /-- The tokens make no node here. -/
  | structure_
  /-- An alias without an anchor, an anchor used twice or a second document. -/
  | composition
  /-- A node that is no value, such as a day that no month has. -/
  | construction
  | badInt (base : Nat) (text : String)
  | badFloat (text : String)
  | badBool (text : String)
deriving DecidableEq, Repr

inductive YamlNode where
  | scalar (tag text : String)
  | sequence (tag : String) (items : List YamlNode)
  | mapping (tag : String) (entries : List (YamlNode × YamlNode))
  /-- A collection with an alias of itself or of a collection around it. -/
  | loop (mark : Nat) (node : YamlNode)
  /-- An alias of the collection around it that has this mark. -/
  | again (mark : Nat)
deriving Repr

instance : Inhabited YamlNode := ⟨.scalar "" ""⟩

namespace YamlNode

mutual

/-- Whether there are aliases of collections around the node, but for those with these marks. -/
def isOpen (closed : List Nat) : YamlNode → Bool
  | .scalar _ _ => false
  | .sequence _ items => anyOpen closed items
  | .mapping _ entries => anyEntryOpen closed entries
  | .loop mark node => isOpen (mark :: closed) node
  | .again mark => !closed.contains mark

def anyOpen (closed : List Nat) : List YamlNode → Bool
  | [] => false
  | n :: ns => isOpen closed n || anyOpen closed ns

def anyEntryOpen (closed : List Nat) : List (YamlNode × YamlNode) → Bool
  | [] => false
  | (k, v) :: es => isOpen closed k || isOpen closed v || anyEntryOpen closed es

end

mutual

/-- A node with another one in place of the aliases with this mark. -/
def put (mark : Nat) (whole : YamlNode) : YamlNode → YamlNode
  | .scalar tag text => .scalar tag text
  | .sequence tag items => .sequence tag (putItems mark whole items)
  | .mapping tag entries => .mapping tag (putEntries mark whole entries)
  | .loop m node => if m = mark then .loop m node else .loop m (put mark whole node)
  | .again m => if m = mark then whole else .again m

def putItems (mark : Nat) (whole : YamlNode) : List YamlNode → List YamlNode
  | [] => []
  | n :: ns => put mark whole n :: putItems mark whole ns

def putEntries (mark : Nat) (whole : YamlNode) :
    List (YamlNode × YamlNode) → List (YamlNode × YamlNode)
  | [] => []
  | (k, v) :: es => (put mark whole k, put mark whole v) :: putEntries mark whole es

end

end YamlNode

/-! ## Tags by form -/

namespace YamlTag

def standard (name : String) : String := "tag:yaml.org,2002:" ++ name

def null : String := standard "null"
def bool : String := standard "bool"
def int : String := standard "int"
def float : String := standard "float"
def text : String := standard "str"
def sequence : String := standard "seq"
def mapping : String := standard "map"
def timestamp : String := standard "timestamp"
def binary : String := standard "binary"
def set : String := standard "set"
/-- A sequence of single entries. -/
def pairs : String := standard "pairs"
def orderedMap : String := standard "omap"
/-- A key under which other mappings are merged. -/
def merge : String := standard "merge"
/-- A key for the value of a mapping itself. -/
def value : String := standard "value"

def isDigit (c : Char) : Bool := '0' ≤ c && c ≤ '9'
def isDigitOrBar (c : Char) : Bool := isDigit c || c = '_'

def dropSign : List Char → List Char
  | '+' :: cs => cs
  | '-' :: cs => cs
  | cs => cs

/-- One or more groups of a colon and a number below sixty; the answer is what follows. -/
def sixties : Nat → List Char → Option (List Char)
  | 0, _ => none
  | fuel + 1, ':' :: a :: b :: rest =>
    if '0' ≤ a && a ≤ '5' && isDigit b then some ((sixties fuel rest).getD rest)
    else if isDigit a then some ((sixties fuel (b :: rest)).getD (b :: rest))
    else none
  | _ + 1, [':', a] => if isDigit a then some [] else none
  | _ + 1, _ => none

def boolWords : List String :=
  ["yes", "Yes", "YES", "no", "No", "NO", "true", "True", "TRUE", "false", "False", "FALSE",
   "on", "On", "ON", "off", "Off", "OFF"]

/-- Nothing, or an exponent, which always has a sign. -/
def isExponent : List Char → Bool
  | [] => true
  | e :: s :: ds =>
    (e = 'e' || e = 'E') && (s = '+' || s = '-') && !ds.isEmpty && ds.all isDigit
  | _ => false

def isFloat (cs : List Char) : Bool :=
  let body := dropSign cs
  let decimal := match body with
    | d :: rest =>
      isDigit d && match rest.dropWhile isDigitOrBar with
        | '.' :: more => isExponent (more.dropWhile isDigitOrBar)
        | _ => false
    | [] => false
  let fraction := match cs with
    | '.' :: d :: rest => isDigit d && isExponent (rest.dropWhile isDigitOrBar)
    | _ => false
  let sexagesimal := match body with
    | d :: rest =>
      isDigit d && match sixties cs.length (rest.dropWhile isDigitOrBar) with
        | some ('.' :: more) => more.all isDigitOrBar
        | _ => false
    | [] => false
  let infinite := [".inf", ".Inf", ".INF"].contains (String.ofList body)
  let notNumber := [".nan", ".NaN", ".NAN"].contains (String.ofList cs)
  decimal || fraction || sexagesimal || infinite || notNumber

def isInt (cs : List Char) : Bool :=
  match dropSign cs with
  | '0' :: 'b' :: ds => !ds.isEmpty && ds.all fun c => c = '0' || c = '1' || c = '_'
  | '0' :: 'x' :: ds => !ds.isEmpty && ds.all fun c => (Decimal.hexValue? c).isSome || c = '_'
  | ['0'] => true
  | '0' :: ds => ds.all fun c => ('0' ≤ c && c ≤ '7') || c = '_'
  | d :: ds =>
    isDigit d && match ds.dropWhile isDigitOrBar with
      | [] => true
      | rest => sixties cs.length rest = some []
  | [] => false

def isNull (s : String) : Bool := ["~", "null", "Null", "NULL", ""].contains s

/-- `year-month-day`. -/
def isDate : List Char → Bool
  | [a, b, c, d, '-', e, f, '-', g, h] => [a, b, c, d, e, f, g, h].all isDigit
  | _ => false

/-- The numbers of a date with a time, as they are written. -/
structure Moment where
  year : Nat
  month : Nat
  day : Nat
  hour : Nat
  minute : Nat
  second : Nat
  /-- The digits behind the point. -/
  fraction : List Char
  /-- How many minutes the clock is ahead of universal time, if that is said. -/
  ahead : Option Int

/-- A number of so many digits, and what follows. -/
def digits? (n : Nat) (cs : List Char) : Option (Nat × List Char) :=
  if cs.length < n || !(cs.take n).all isDigit then none
  else some (Decimal.natOfDigits (cs.take n), cs.drop n)

/-- A number of one or two digits, and what follows. -/
def oneOrTwoDigits? (cs : List Char) : Option (Nat × List Char) :=
  (digits? 2 cs).orElse fun _ => digits? 1 cs

/-- What follows a character. -/
def after? (c : Char) : List Char → Option (List Char)
  | [] => none
  | d :: cs => if d = c then some cs else none

def isTabOrSpace (c : Char) : Bool := c = '\t' || c = ' '

/-- What follows the sign between a date and a time. -/
def afterDate? : List Char → Option (List Char)
  | [] => none
  | c :: cs =>
    if c = 'T' || c = 't' then some cs
    else if isTabOrSpace c then some (cs.dropWhile isTabOrSpace)
    else none

/-- Nothing, or `Z`, or hours and perhaps minutes with a sign. -/
def zone? : List Char → Option (Option Int)
  | [] => some none
  | cs =>
    match cs.dropWhile isTabOrSpace with
    | ['Z'] => some (some 0)
    | sign :: rest => do
      let (hours, rest) ← oneOrTwoDigits? rest
      let minutes ← if rest.isEmpty then some 0 else do
        let (minutes, rest) ← digits? 2 (← after? ':' rest)
        if rest.isEmpty then some minutes else none
      let ahead : Int := 60 * hours + minutes
      if sign = '+' then some (some ahead)
      else if sign = '-' then some (some (-ahead))
      else none
    | [] => none

/-- A date with a time. -/
def moment? (cs : List Char) : Option Moment := do
  let (year, cs) ← digits? 4 cs
  let (month, cs) ← oneOrTwoDigits? (← after? '-' cs)
  let (day, cs) ← oneOrTwoDigits? (← after? '-' cs)
  let (hour, cs) ← oneOrTwoDigits? (← afterDate? cs)
  let (minute, cs) ← digits? 2 (← after? ':' cs)
  let (second, cs) ← digits? 2 (← after? ':' cs)
  let (fraction, cs) := match cs with
    | '.' :: more => (more.takeWhile isDigit, more.dropWhile isDigit)
    | _ => ([], cs)
  return ⟨year, month, day, hour, minute, second, fraction, ← zone? cs⟩

/-- The tag of a plain scalar. -/
def ofPlain (s : String) : String :=
  let cs := s.toList
  if boolWords.contains s then bool
  else if isFloat cs then float
  else if isInt cs then int
  else if s = "<<" then merge
  else if isNull s then null
  else if isDate cs || (moment? cs).isSome then timestamp
  else if s = "=" then value
  else text

end YamlTag

/-! ## Reading -/

structure YamlReadState where
  tokens : List YamlToken
  /-- The nodes with an anchor; one that is still being read stands for itself. -/
  anchors : List (String × YamlNode)
  /-- The mark of the next collection. -/
  mark : Nat
  /-- What tag handles stand for. -/
  handles : List (String × String)

abbrev YamlReader := StateT YamlReadState (Except YamlError)

namespace YamlReader

/-- The next token. A text with a good end has a last token that is never taken, so it is a lexical
error to run out of them. -/
def peek : YamlReader YamlToken := do
  match (← get).tokens with
  | [] => throw .token
  | t :: _ => return t

def advance : YamlReader Unit := modify fun s => { s with tokens := s.tokens.tail }

def nextIs (t : YamlToken) : YamlReader Bool := do return (← peek) = t

def nextIsAny (ts : List YamlToken) : YamlReader Bool := do return ts.contains (← peek)

def empty : YamlNode := .scalar YamlTag.null ""

/-- The anchor and the tag in front of a node, in either order. -/
structure Properties where
  anchor : Option String
  tag : Option (Option String × String)

def properties : YamlReader Properties := do
  match ← peek with
  | .anchor a =>
    advance
    match ← peek with
    | .tag h s =>
      advance
      return ⟨some a, some (h, s)⟩
    | _ => return ⟨some a, none⟩
  | .tag h s =>
    advance
    match ← peek with
    | .anchor a =>
      advance
      return ⟨some a, some (h, s)⟩
    | _ => return ⟨none, some (h, s)⟩
  | _ => return ⟨none, none⟩

/-- The full tag; `!` alone is the same as none. -/
def fullTag (p : Properties) : YamlReader (Option String) := do
  match p.tag with
  | none => return none
  | some (none, suffix) => return some suffix
  | some (some handle, suffix) =>
    match (← get).handles.lookup handle with
    | some full => return some (full ++ suffix)
    | none => throw .structure_

/-- Puts an anchor on a node, and on no other one. -/
def anchor (name : Option String) (node : YamlNode) : YamlReader Unit := do
  match name with
  | none => return ()
  | some a =>
    let s ← get
    if (s.anchors.lookup a).isSome then throw .composition
    set { s with anchors := (a, node) :: s.anchors }

/-- Reads a collection. If there are aliases of it or of collections around it, it is a loop, and
from now on the aliases of it stand for all of it. -/
def collection (name : Option String) (content : YamlReader YamlNode) : YamlReader YamlNode := do
  let mark := (← get).mark
  modify fun s => { s with mark := mark + 1 }
  anchor name (.again mark)
  let node ← content
  let node := if node.isOpen [] then .loop mark node else node
  modify fun s => { s with anchors := s.anchors.map fun (a, n) => (a, YamlNode.put mark node n) }
  return node

def tagOr (tag : Option String) (default : String) : String :=
  match tag with
  | none => default
  | some t => if t = "!" then default else t

mutual

/-- A node. Block collections and sequences that are not indented are read only where they may
stand. -/
def node (block indentless : Bool) : Nat → YamlReader YamlNode
  | 0 => throw .structure_
  | fuel + 1 => do
    match ← peek with
    | .alias_ a =>
      advance
      match (← get).anchors.lookup a with
      | some n => return n
      | none => throw .composition
    | _ =>
      let p ← properties
      let tag ← fullTag p
      let t ← peek
      if indentless && t = .blockEntry then
        collection p.anchor do
          return .sequence (tagOr tag YamlTag.sequence) (← indentlessItems fuel)
      else match t with
        | .scalar text plain =>
          advance
          let byForm := (plain && tag.isNone) || tag = some "!"
          let default := if byForm then YamlTag.ofPlain text else YamlTag.text
          let node := .scalar (tagOr tag default) text
          anchor p.anchor node
          return node
        | .flowSequenceStart =>
          advance
          collection p.anchor do
            return .sequence (tagOr tag YamlTag.sequence) (← flowItems true fuel)
        | .flowMappingStart =>
          advance
          collection p.anchor do
            return .mapping (tagOr tag YamlTag.mapping) (← flowEntries true fuel)
        | .blockSequenceStart =>
          if !block then throw .structure_
          advance
          collection p.anchor do
            return .sequence (tagOr tag YamlTag.sequence) (← blockItems fuel)
        | .blockMappingStart =>
          if !block then throw .structure_
          advance
          collection p.anchor do
            return .mapping (tagOr tag YamlTag.mapping) (← blockEntries fuel)
        | _ =>
          if p.anchor.isSome || tag.isSome then
            let default := if tag.isNone || tag = some "!" then YamlTag.null else YamlTag.text
            let node := .scalar (tagOr tag default) ""
            anchor p.anchor node
            return node
          else throw .structure_

/-- Items up to the end of a block sequence. -/
def blockItems : Nat → YamlReader (List YamlNode)
  | 0 => throw .structure_
  | fuel + 1 => do
    match ← peek with
    | .blockEntry =>
      advance
      let item ← if ← nextIsAny [.blockEntry, .blockEnd] then pure empty else node true false fuel
      return item :: (← blockItems fuel)
    | .blockEnd =>
      advance
      return []
    | _ => throw .structure_

/-- Items of a sequence that has the indentation of the mapping around it. -/
def indentlessItems : Nat → YamlReader (List YamlNode)
  | 0 => throw .structure_
  | fuel + 1 => do
    if ← nextIs .blockEntry then
      advance
      let item ← if ← nextIsAny [.blockEntry, .key, .value, .blockEnd] then pure empty
        else node true false fuel
      return item :: (← indentlessItems fuel)
    else return []

/-- Entries up to the end of a block mapping. -/
def blockEntries : Nat → YamlReader (List (YamlNode × YamlNode))
  | 0 => throw .structure_
  | fuel + 1 => do
    let part : YamlReader YamlNode := do
      if ← nextIsAny [.key, .value, .blockEnd] then return empty else node true true fuel
    match ← peek with
    | .key =>
      advance
      let k ← part
      let v ← blockValue fuel
      return (k, v) :: (← blockEntries fuel)
    | .value =>
      let v ← blockValue fuel
      return (empty, v) :: (← blockEntries fuel)
    | .blockEnd =>
      advance
      return []
    | _ => throw .structure_

def blockValue : Nat → YamlReader YamlNode
  | 0 => throw .structure_
  | fuel + 1 => do
    if ← nextIs .value then
      advance
      if ← nextIsAny [.key, .value, .blockEnd] then return empty else node true true fuel
    else return empty

/-- Items up to the end of a flow sequence; an item may be a single pair. -/
def flowItems (first : Bool) : Nat → YamlReader (List YamlNode)
  | 0 => throw .structure_
  | fuel + 1 => do
    if ← nextIs .flowSequenceEnd then
      advance
      return []
    if !first then
      if ← nextIs .flowEntry then advance else throw .structure_
    if ← nextIs .key then
      advance
      let pair ← collection none do
        let k ← if ← nextIsAny [.value, .flowEntry, .flowSequenceEnd] then pure empty
          else node false false fuel
        return .mapping YamlTag.mapping [(k, ← flowValue .flowSequenceEnd fuel)]
      return pair :: (← flowItems false fuel)
    else if ← nextIs .flowSequenceEnd then
      advance
      return []
    else
      let item ← node false false fuel
      return item :: (← flowItems false fuel)

/-- Entries up to the end of a flow mapping; a node without a colon is a key without a value. -/
def flowEntries (first : Bool) : Nat → YamlReader (List (YamlNode × YamlNode))
  | 0 => throw .structure_
  | fuel + 1 => do
    if ← nextIs .flowMappingEnd then
      advance
      return []
    if !first then
      if ← nextIs .flowEntry then advance else throw .structure_
    if ← nextIs .key then
      advance
      let k ← if ← nextIsAny [.value, .flowEntry, .flowMappingEnd] then pure empty
        else node false false fuel
      let v ← flowValue .flowMappingEnd fuel
      return (k, v) :: (← flowEntries false fuel)
    else if ← nextIs .flowMappingEnd then
      advance
      return []
    else
      let k ← node false false fuel
      return (k, empty) :: (← flowEntries false fuel)

def flowValue (close : YamlToken) : Nat → YamlReader YamlNode
  | 0 => throw .structure_
  | fuel + 1 => do
    if ← nextIs .value then
      advance
      if ← nextIsAny [.flowEntry, close] then return empty else node false false fuel
    else return empty

end

/-- Directives in front of a document. The version must be 1, and nothing may be said twice. -/
def directives : Nat → Bool → YamlReader Unit
  | 0, _ => return ()
  | fuel + 1, versioned => do
    match ← peek with
    | .directive "YAML" value =>
      advance
      if versioned then throw .structure_
      match value with
      | some (major, _) => if Decimal.natOfDigits major.toList != 1 then throw .structure_
      | none => throw .structure_
      directives fuel true
    | .directive "TAG" (some (handle, full)) =>
      advance
      let s ← get
      if (s.handles.lookup handle).isSome && handle != "!" && handle != "!!" then throw .structure_
      set { s with handles := (handle, full) :: s.handles }
      directives fuel versioned
    | .directive _ _ =>
      advance
      directives fuel versioned
    | _ => return ()

def skipDocumentEnds : Nat → YamlReader Unit
  | 0 => return ()
  | fuel + 1 => do
    if ← nextIs .documentEnd then
      advance
      skipDocumentEnds fuel

def isDirective : YamlToken → Bool
  | .directive _ _ => true
  | _ => false

/-- The node of the only document, if there is one. -/
def document (fuel : Nat) : YamlReader (Option YamlNode) := do
  let t ← peek
  let root ← do
    if t = .streamEnd then pure none
    else if isDirective t || t = .documentStart then
      directives fuel false
      if ← nextIs .documentStart then advance else throw .structure_
      let u ← peek
      if isDirective u || [.documentStart, .documentEnd, .streamEnd].contains u then
        pure (some empty)
      else pure (some (← node true false fuel))
    else pure (some (← node true false fuel))
  skipDocumentEnds fuel
  if ← nextIs .streamEnd then return root
  else
    modify fun s => { s with handles := [("!", "!"), ("!!", YamlTag.standard "")] }
    directives fuel false
    if ← nextIs .documentStart then throw .composition else throw .structure_

end YamlReader

/-- Whether a character may occur in a configuration. -/
def isYamlChar (c : Char) : Bool :=
  let n := c.toNat
  n = 0x9 || n = 0xA || n = 0xD || (0x20 ≤ n && n ≤ 0x7E) || n = 0x85
    || (0xA0 ≤ n && n ≤ 0xD7FF) || (0xE000 ≤ n && n ≤ 0xFFFD) || 0x10000 ≤ n

/-- The root node of a text, none if the text holds no document. -/
def YamlNode.read (text : List Char) : Except YamlError (Option YamlNode) :=
  if text.all isYamlChar then
    let tokens := (YamlToken.scan text).1
    let start : YamlReadState := ⟨tokens, [], 0, [("!", "!"), ("!!", YamlTag.standard "")]⟩
    (YamlReader.document (2 * tokens.length + 2)).run' start
  else .error .character

end QueryDepth
