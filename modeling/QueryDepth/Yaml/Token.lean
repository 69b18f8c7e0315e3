import QueryDepth.Text.Decimal

/-!
# Tokens of a configuration file

`YamlToken.scan` splits a YAML text into tokens: scalars, anchors, aliases and tags, the indicators
of flow collections, and the beginnings and ends of block collections, which indentation shows. A
scalar turns out to be a key only at the colon behind it, so the scanner remembers where a key may
begin and puts the key token there later.

A text that stops being made of tokens gives the tokens before that place, up to the earliest one
that might still have turned out to be a key.
-/

namespace QueryDepth

inductive YamlToken where
  | directive (name : String) (value : Option (String × String))
  | documentStart
  | documentEnd
  | streamEnd
  | blockSequenceStart
  | blockMappingStart
  | blockEnd
  | flowSequenceStart
  | flowSequenceEnd
  | flowMappingStart
  | flowMappingEnd
  | blockEntry
  | flowEntry
  | key
  | value
  | alias_ (name : String)
  | anchor (name : String)
  | tag (handle : Option String) (suffix : String)
  | scalar (text : String) (plain : Bool)
deriving DecidableEq, Repr

/-- A place where a key may begin. -/
structure PossibleKey where
  /-- The number of the token that would be the key. -/
  token : Nat
  required : Bool
  index : Nat
  line : Nat
  column : Nat
deriving Repr

structure YamlScan where
  rest : List Char
  index : Nat
  line : Nat
  column : Nat
  tokens : List YamlToken
  /-- How many flow collections are open. -/
  flow : Nat
  indent : Int
  indents : List Int
  allowKey : Bool
  /-- The possible keys by flow level. -/
  keys : List (Nat × PossibleKey)
deriving Repr

/-- Scanning keeps its state when it fails. -/
abbrev YamlScanner := ExceptT Unit (StateM YamlScan)

namespace YamlScanner

/-! ## Characters -/

/-- The end of the text reads as a NUL, which no text holds. -/
def endMark : Char := '\x00'

def isBreak (c : Char) : Bool :=
  c = '\r' || c = '\n' || c = '\u0085' || c = '\u2028' || c = '\u2029'

def isBreakOrEnd (c : Char) : Bool := isBreak c || c = endMark

def isTabOrSpace (c : Char) : Bool := c = '\t' || c = ' '

def isSpaceOrEnd (c : Char) : Bool := c = ' ' || isBreakOrEnd c

def isBlankOrEnd (c : Char) : Bool := c = '\t' || isSpaceOrEnd c

def isNameChar (c : Char) : Bool :=
  ('0' ≤ c && c ≤ '9') || ('A' ≤ c && c ≤ 'Z') || ('a' ≤ c && c ≤ 'z') || c = '-' || c = '_'

def isUriChar (c : Char) : Bool :=
  isNameChar c || (";/?:@&=+$,.!~*'()[]%".toList).contains c

def fail {α : Type} : YamlScanner α := throw ()

def peekAt (n : Nat) : YamlScanner Char := do return ((← get).rest[n]?).getD endMark

def peek : YamlScanner Char := peekAt 0

/-- Moves over one character. -/
def forward : YamlScanner Unit :=
  modify fun s =>
    match s.rest with
    | [] => s
    | c :: rest =>
      let s := { s with rest, index := s.index + 1 }
      let endsLine := c = '\n' || c = '\u0085' || c = '\u2028' || c = '\u2029'
        || (c = '\r' && rest.head? != some '\n')
      if endsLine then { s with line := s.line + 1, column := 0 }
      else if c = '\uFEFF' then s
      else { s with column := s.column + 1 }

def forwardBy : Nat → YamlScanner Unit
  | 0 => return ()
  | n + 1 => do
    forward
    forwardBy n

/-- Takes the characters of a class. -/
def takeWhile (p : Char → Bool) : YamlScanner (List Char) := do
  let cs := (← get).rest.takeWhile p
  forwardBy cs.length
  return cs

def skipSpaces : YamlScanner Unit := do
  let _ ← takeWhile (· = ' ')

/-- Takes a line break; most kinds read as a line feed. -/
def lineBreak : YamlScanner (List Char) := do
  let c ← peek
  if c = '\r' then
    forward
    if (← peek) = '\n' then forward
    return ['\n']
  else if c = '\n' || c = '\u0085' then
    forward
    return ['\n']
  else if c = '\u2028' || c = '\u2029' then
    forward
    return [c]
  else return []

/-- Whether a line of three such characters separates documents here. -/
def separatorOf (c : Char) : YamlScanner Bool := do
  return (← peek) = c && (← peekAt 1) = c && (← peekAt 2) = c && isBlankOrEnd (← peekAt 3)

def atSeparator : YamlScanner Bool := do return (← separatorOf '-') || (← separatorOf '.')

/-! ## Indentation and keys -/

def push (t : YamlToken) : YamlScanner Unit := modify fun s => { s with tokens := s.tokens ++ [t] }

/-- Closes the block collections that are indented more than a column. -/
def unwindIndents (column : Int) : Nat → YamlScanner Unit
  | 0 => return ()
  | fuel + 1 => do
    let s ← get
    if s.indent > column then
      set { s with
        indent := s.indents.head?.getD (-1), indents := s.indents.tail,
        tokens := s.tokens ++ [YamlToken.blockEnd] }
      unwindIndents column fuel

def unwind (column : Int) : YamlScanner Unit := do
  let s ← get
  if s.flow = 0 then unwindIndents column (s.indents.length + 1)

/-- Opens a block collection at a column if that is indented more; says whether it did. -/
def addIndent (column : Int) : YamlScanner Bool := do
  let s ← get
  if s.indent < column then
    set { s with indents := s.indent :: s.indents, indent := column }
    return true
  else return false

/-- A key ends on its line and within 1024 characters; one that must be a key may not go stale. -/
def dropStaleKeys : YamlScanner Unit := do
  let s ← get
  let stale (k : PossibleKey) : Bool := k.line != s.line || s.index - k.index > 1024
  if s.keys.any fun (_, k) => stale k && k.required then fail
  else set { s with keys := s.keys.filter fun (_, k) => !stale k }

/-- Forgets the possible key of this flow level. -/
def removeKey : YamlScanner Unit := do
  let s ← get
  match s.keys.lookup s.flow with
  | none => return ()
  | some k =>
    if k.required then fail
    else set { s with keys := s.keys.filter fun (level, _) => level != s.flow }

/-- Remembers that a key may begin here. -/
def saveKey : YamlScanner Unit := do
  let s ← get
  if s.allowKey then
    removeKey
    let required := s.flow = 0 && s.indent = (s.column : Int)
    modify fun s =>
      { s with keys := (s.flow, ⟨s.tokens.length, required, s.index, s.line, s.column⟩) :: s.keys }

def allowKeys (allow : Bool) : YamlScanner Unit := modify fun s => { s with allowKey := allow }

def insertToken (n : Nat) (t : YamlToken) : YamlScanner Unit :=
  modify fun s => { s with tokens := s.tokens.take n ++ t :: s.tokens.drop n }

/-! ## Blanks and comments -/

def skipComment : YamlScanner Unit := do
  if (← peek) = '#' then
    let _ ← takeWhile fun c => !isBreak c

/-- Goes to the next token. Outside flow collections a new line may begin with a key. -/
def toNextToken : Nat → YamlScanner Unit
  | 0 => return ()
  | fuel + 1 => do
    skipSpaces
    skipComment
    let b ← lineBreak
    if b.isEmpty then return ()
    else
      if (← get).flow = 0 then allowKeys true
      toNextToken fuel

/-- Blanks and a comment up to the end of the line. -/
def restOfLine : YamlScanner Unit := do
  skipSpaces
  skipComment
  if isBreakOrEnd (← peek) then
    let _ ← lineBreak
  else fail

/-! ## Directives, anchors and tags -/

def number : YamlScanner (List Char) := do
  let ds ← takeWhile fun c => '0' ≤ c && c ≤ '9'
  if ds.isEmpty then fail else return ds

def versionValue : YamlScanner (String × String) := do
  skipSpaces
  let major ← number
  if (← peek) != '.' then fail
  forward
  let minor ← number
  if !isSpaceOrEnd (← peek) then fail
  return (String.ofList major, String.ofList minor)

/-- `!`, or a name between two exclamation marks. -/
def tagHandle : YamlScanner (List Char) := do
  if (← peek) != '!' then fail
  forward
  if (← peek) = ' ' then return ['!']
  else
    let name ← takeWhile isNameChar
    if (← peek) = '!' then
      forward
      return '!' :: name ++ ['!']
    else fail

/-- Bytes written as `%XX`, as the characters that they encode. -/
def uriEscapes : Nat → YamlScanner (List UInt8)
  | 0 => return []
  | fuel + 1 => do
    if (← peek) = '%' then
      match Decimal.hexValue? (← peekAt 1), Decimal.hexValue? (← peekAt 2) with
      | some a, some b =>
        forwardBy 3
        return UInt8.ofNat (16 * a + b) :: (← uriEscapes fuel)
      | _, _ => fail
    else return []

def tagUriParts : Nat → YamlScanner (List Char)
  | 0 => return []
  | fuel + 1 => do
    let c ← peek
    if c = '%' then
      let bytes ← uriEscapes (← get).rest.length
      match String.fromUTF8? (ByteArray.mk bytes.toArray) with
      | some s => return s.toList ++ (← tagUriParts fuel)
      | none => fail
    else if isUriChar c then
      forward
      return c :: (← tagUriParts fuel)
    else return []

def tagUri : YamlScanner (List Char) := do
  let cs ← tagUriParts (← get).rest.length
  if cs.isEmpty then fail else return cs

def tagValue : YamlScanner (String × String) := do
  skipSpaces
  let handle ← tagHandle
  if (← peek) != ' ' then fail
  skipSpaces
  let tagPrefix ← tagUri
  if !isSpaceOrEnd (← peek) then fail
  return (String.ofList handle, String.ofList tagPrefix)

def directive : YamlScanner YamlToken := do
  forward
  let name ← takeWhile isNameChar
  if name.isEmpty || !isSpaceOrEnd (← peek) then fail
  let value ← do
    if name = "YAML".toList then some <$> versionValue
    else if name = "TAG".toList then some <$> tagValue
    else
      let _ ← takeWhile fun c => !isBreak c
      pure none
  restOfLine
  return .directive (String.ofList name) value

/-- The name after `*` or `&`. -/
def anchorName : YamlScanner String := do
  forward
  let name ← takeWhile isNameChar
  let c ← peek
  if name.isEmpty || !(isBlankOrEnd c || ("?:,]\x7d%@`".toList).contains c) then fail
  return String.ofList name

def tag : YamlScanner YamlToken := do
  let c ← peekAt 1
  let t ← do
    if c = '<' then
      forwardBy 2
      let suffix ← tagUri
      if (← peek) != '>' then fail
      forward
      pure (YamlToken.tag none (String.ofList suffix))
    else if isBlankOrEnd c then
      forward
      pure (YamlToken.tag none "!")
    else
      let word := (← get).rest.tail.takeWhile fun c => !isSpaceOrEnd c
      let handle ← do
        if word.contains '!' then tagHandle
        else
          forward
          pure ['!']
      pure (YamlToken.tag (some (String.ofList handle)) (String.ofList (← tagUri)))
  if isSpaceOrEnd (← peek) then return t else fail

/-! ## Block scalars -/

structure BlockHeader where
  /-- Whether the line breaks at the end are kept; `none` keeps one. -/
  keep : Option Bool
  increment : Option Nat

def increment : YamlScanner (Option Nat) := do
  match Decimal.digitValue? (← peek) with
  | none => return none
  | some 0 => fail
  | some n =>
    forward
    return some n

def chomping : YamlScanner (Option Bool) := do
  let c ← peek
  if c = '+' || c = '-' then
    forward
    return some (c = '+')
  else return none

def blockHeader : YamlScanner BlockHeader := do
  let before ← chomping
  let n ← increment
  let keep ← if before.isNone && n.isSome then chomping else pure before
  if isSpaceOrEnd (← peek) then return ⟨keep, n⟩ else fail

/-- The blank lines in front of a block scalar, and the greatest indentation among them. -/
def leadingBreaks : Nat → Nat → YamlScanner (List (List Char) × Nat)
  | 0, deepest => return ([], deepest)
  | fuel + 1, deepest => do
    let c ← peek
    if c = ' ' then
      forward
      leadingBreaks fuel (max deepest (← get).column)
    else if isBreak c then
      let b ← lineBreak
      let (bs, deepest) ← leadingBreaks fuel deepest
      return (b :: bs, deepest)
    else return ([], deepest)

/-- Spaces up to a column. -/
def indentTo (column : Nat) : YamlScanner Unit := do
  let s ← get
  forwardBy (min (column - s.column) (s.rest.takeWhile (· = ' ')).length)

/-- Blank lines between the lines of a block scalar. -/
def blockBreaks (column : Nat) : Nat → YamlScanner (List (List Char))
  | 0 => return []
  | fuel + 1 => do
    indentTo column
    if isBreak (← peek) then
      let b ← lineBreak
      return b :: (← blockBreaks column fuel)
    else return []

/-- The lines of a block scalar from here on; the answer is the text, the last line break and the
blank lines behind it. -/
def blockLines (folded : Bool) (column : Nat) :
    Nat → List (List Char) → List Char → YamlScanner (List Char × List Char × List (List Char))
  | 0, breaks, last => return ([], last, breaks)
  | fuel + 1, breaks, last => do
    let s ← get
    if s.column = column && !s.rest.isEmpty then
      let leadingNonSpace := !isTabOrSpace (← peek)
      let line ← takeWhile fun c => !isBreak c
      let b ← lineBreak
      let next ← blockBreaks column s.rest.length
      let t ← get
      if t.column = column && !t.rest.isEmpty then
        let joined := folded && b = ['\n'] && leadingNonSpace && !isTabOrSpace (← peek)
        let glue := if joined then (if next.isEmpty then [' '] else []) else b
        let (more, last, breaks') ← blockLines folded column fuel next b
        return (breaks.flatten ++ line ++ glue ++ more, last, breaks')
      else return (breaks.flatten ++ line, b, next)
    else return ([], last, breaks)

def blockScalar (folded : Bool) : YamlScanner YamlToken := do
  forward
  let header ← blockHeader
  restOfLine
  let s ← get
  let fuel := s.rest.length + 1
  let least := max 1 (s.indent + 1).toNat
  let (breaks, column) ← match header.increment with
    | none => do
      let (breaks, deepest) ← leadingBreaks fuel 0
      pure (breaks, max least deepest)
    | some n => do
      let column := least + n - 1
      pure (← blockBreaks column fuel, column)
  let (text, last, trailing) ← blockLines folded column fuel breaks []
  let tail := match header.keep with
    | some false => []
    | none => last
    | some true => last ++ trailing.flatten
  return .scalar (String.ofList (text ++ tail)) false

/-! ## Quoted scalars -/

def escaped? : Char → Option Char
  | '0' => some '\x00'
  | 'a' => some '\x07'
  | 'b' => some '\x08'
  | 't' => some '\t'
  | '\t' => some '\t'
  | 'n' => some '\n'
  | 'v' => some '\x0b'
  | 'f' => some '\x0c'
  | 'r' => some '\r'
  | 'e' => some '\x1b'
  | ' ' => some ' '
  | '"' => some '"'
  | '\\' => some '\\'
  | '/' => some '/'
  | 'N' => some '\u0085'
  | '_' => some '\u00A0'
  | 'L' => some '\u2028'
  | 'P' => some '\u2029'
  | _ => none

def escapeWidth? : Char → Option Nat
  | 'x' => some 2
  | 'u' => some 4
  | 'U' => some 8
  | _ => none

/-- Blank lines inside a quoted scalar. -/
def quotedBreaks : Nat → YamlScanner (List Char)
  | 0 => return []
  | fuel + 1 => do
    if ← atSeparator then fail
    let _ ← takeWhile isTabOrSpace
    if isBreak (← peek) then
      let b ← lineBreak
      return b ++ (← quotedBreaks fuel)
    else return []

/-- What an escape stands for, its backslash taken. There must be a character of the number that is
written, so a surrogate cannot be escaped. -/
def quotedEscape (fuel : Nat) : YamlScanner (List Char) := do
  let c ← peek
  match escaped? c, escapeWidth? c with
  | some e, _ =>
    forward
    return [e]
  | none, some width =>
    forward
    let digits := (← get).rest.take width
    let code := digits.foldl (fun n c => 16 * n + (Decimal.hexValue? c).getD 0) 0
    let spelled := digits.length = width && digits.all fun c => (Decimal.hexValue? c).isSome
    if spelled && code.isValidChar then
      forwardBy width
      return [Char.ofNat code]
    else fail
  | none, none =>
    if isBreak c then
      let _ ← lineBreak
      quotedBreaks fuel
    else fail

/-- Everything up to the closing quote, which is taken. -/
def quotedText (double : Bool) : Nat → YamlScanner (List Char)
  | 0 => fail
  | fuel + 1 => do
    let c ← peek
    if c = endMark then fail
    else if !double && c = '\'' then
      forward
      if (← peek) = '\'' then
        forward
        return '\'' :: (← quotedText double fuel)
      else return []
    else if double && c = '"' then
      forward
      return []
    else if double && c = '\\' then
      forward
      let e ← quotedEscape fuel
      return e ++ (← quotedText double fuel)
    else if isTabOrSpace c || isBreak c then
      let blanks ← takeWhile isTabOrSpace
      let d ← peek
      if d = endMark then fail
      else if isBreak d then
        let b ← lineBreak
        let more ← quotedBreaks fuel
        let folded := if b != ['\n'] then b ++ more else if more.isEmpty then [' '] else more
        return folded ++ (← quotedText double fuel)
      else return blanks ++ (← quotedText double fuel)
    else
      forward
      return c :: (← quotedText double fuel)

def quotedScalar (double : Bool) : YamlScanner YamlToken := do
  forward
  let cs ← quotedText double ((← get).rest.length + 1)
  return .scalar (String.ofList cs) false

/-! ## Plain scalars -/

/-- Blank lines inside a plain scalar; none at a line that separates documents. -/
def plainBreaks : Nat → YamlScanner (Option (List Char))
  | 0 => return some []
  | fuel + 1 => do
    let c ← peek
    if c = ' ' then
      forward
      plainBreaks fuel
    else if isBreak c then
      let b ← lineBreak
      if ← atSeparator then return none
      else return (← plainBreaks fuel).map (b ++ ·)
    else return some []

/-- Blanks inside a plain scalar, folded. -/
def plainSpaces : YamlScanner (List Char) := do
  let blanks ← takeWhile (· = ' ')
  if isBreak (← peek) then
    let b ← lineBreak
    allowKeys true
    if ← atSeparator then return []
    match ← plainBreaks ((← get).rest.length + 1) with
    | none => return []
    | some more =>
      return if b != ['\n'] then b ++ more else if more.isEmpty then [' '] else more
  else return blanks

/-- How many of the characters belong to a plain scalar without blanks. -/
def plainLength (inFlow : Bool) : List Char → Nat
  | [] => 0
  | c :: rest =>
    let next := (rest.head?).getD endMark
    let endsAtColon := c = ':'
      && (isBlankOrEnd next || (inFlow && (",[]\x7b\x7d".toList).contains next))
    if isBlankOrEnd c || endsAtColon || (inFlow && (",?[]\x7b\x7d".toList).contains c) then 0
    else plainLength inFlow rest + 1

def plainText (indent : Int) : Nat → List Char → YamlScanner (List Char)
  | 0, _ => return []
  | fuel + 1, spaces => do
    if (← peek) = '#' then return []
    let s ← get
    let length := plainLength (s.flow != 0) s.rest
    if length = 0 then return []
    allowKeys false
    let chunk := s.rest.take length
    forwardBy length
    let next ← plainSpaces
    let t ← get
    if next.isEmpty || t.rest.head? = some '#' || (t.flow = 0 && (t.column : Int) < indent) then
      return spaces ++ chunk
    else return spaces ++ chunk ++ (← plainText indent fuel next)

def plainScalar : YamlScanner YamlToken := do
  let s ← get
  let cs ← plainText (s.indent + 1) (s.rest.length + 1) []
  return .scalar (String.ofList cs) true

/-- Whether a plain scalar may begin with the next characters. -/
def startsPlain : YamlScanner Bool := do
  let c ← peek
  let next ← peekAt 1
  let inFlow := (← get).flow != 0
  let indicator := isBlankOrEnd c || ("-?:,[]\x7b\x7d#&*!|>'\"%@`".toList).contains c
  return !indicator
    || (!isBlankOrEnd next && (c = '-' || (!inFlow && (c = '?' || c = ':'))))

/-! ## Fetching tokens -/

def flowStart (t : YamlToken) : YamlScanner Unit := do
  saveKey
  modify fun s => { s with flow := s.flow + 1, allowKey := true }
  forward
  push t

def flowEnd (t : YamlToken) : YamlScanner Unit := do
  removeKey
  modify fun s => { s with flow := s.flow - 1, allowKey := false }
  forward
  push t

def separator (t : YamlToken) : YamlScanner Unit := do
  unwind (-1)
  removeKey
  allowKeys false
  forwardBy 3
  push t

def blockEntry : YamlScanner Unit := do
  let s ← get
  if s.flow = 0 then
    if !s.allowKey then fail
    if ← addIndent s.column then push .blockSequenceStart
  allowKeys true
  removeKey
  forward
  push .blockEntry

def explicitKey : YamlScanner Unit := do
  let s ← get
  if s.flow = 0 then
    if !s.allowKey then fail
    if ← addIndent s.column then push .blockMappingStart
  allowKeys (s.flow = 0)
  removeKey
  forward
  push .key

def mappingValue : YamlScanner Unit := do
  let s ← get
  match s.keys.lookup s.flow with
  | some k =>
    modify fun s => { s with keys := s.keys.filter fun (level, _) => level != s.flow }
    insertToken k.token .key
    if s.flow = 0 then
      if ← addIndent k.column then insertToken k.token .blockMappingStart
    allowKeys false
  | none =>
    if s.flow = 0 then
      if !s.allowKey then fail
      if ← addIndent s.column then push .blockMappingStart
    allowKeys (s.flow = 0)
    removeKey
  forward
  push .value

/-- A token that may be a key. -/
def keyed (t : YamlScanner YamlToken) : YamlScanner Unit := do
  saveKey
  allowKeys false
  push (← t)

def block (folded : Bool) : YamlScanner Unit := do
  allowKeys true
  removeKey
  push (← blockScalar folded)

/-- Fetches the next token; says whether the text is at its end. -/
def fetch : YamlScanner Bool := do
  toNextToken ((← get).rest.length + 1)
  dropStaleKeys
  unwind (← get).column
  let s ← get
  let c ← peek
  let next ← peekAt 1
  let inFlow := s.flow != 0
  if s.rest.isEmpty then
    unwind (-1)
    removeKey
    modify fun s => { s with allowKey := false, keys := [] }
    push .streamEnd
    return true
  else if c = '%' && s.column = 0 then
    unwind (-1)
    removeKey
    allowKeys false
    push (← directive)
  else if s.column = 0 && (← separatorOf '-') then separator .documentStart
  else if s.column = 0 && (← separatorOf '.') then separator .documentEnd
  else if c = '[' then flowStart .flowSequenceStart
  else if c = '{' then flowStart .flowMappingStart
  else if c = ']' then flowEnd .flowSequenceEnd
  else if c = '}' then flowEnd .flowMappingEnd
  else if c = ',' then
    allowKeys true
    removeKey
    forward
    push .flowEntry
  else if c = '-' && isBlankOrEnd next then blockEntry
  else if c = '?' && (inFlow || isBlankOrEnd next) then explicitKey
  else if c = ':' && (inFlow || isBlankOrEnd next) then mappingValue
  else if c = '*' then keyed (YamlToken.alias_ <$> anchorName)
  else if c = '&' then keyed (YamlToken.anchor <$> anchorName)
  else if c = '!' then keyed tag
  else if c = '|' && !inFlow then block false
  else if c = '>' && !inFlow then block true
  else if c = '\'' then keyed (quotedScalar false)
  else if c = '"' then keyed (quotedScalar true)
  else if ← startsPlain then keyed plainScalar
  else fail
  return false

/-- Fetches tokens up to the end. -/
def fetchAll : Nat → YamlScanner Unit
  | 0 => return ()
  | fuel + 1 => do
    if ← fetch then return () else fetchAll fuel

end YamlScanner

/-- The tokens of a text, and whether the text is made of tokens up to its end. A byte order mark at
the beginning is skipped. -/
def YamlToken.scan (text : List Char) : List YamlToken × Bool :=
  let body := match text with
    | '\uFEFF' :: rest => rest
    | cs => cs
  let start : YamlScan := ⟨body, 0, 0, 0, [], 0, -1, [], true, []⟩
  match (YamlScanner.fetchAll (body.length + 2)).run.run start with
  | (.ok (), s) => (s.tokens, true)
  | (.error (), s) =>
    match (s.keys.map fun (_, k) => k.token).min? with
    | some n => (s.tokens.take n, false)
    | none => (s.tokens, false)

end QueryDepth
