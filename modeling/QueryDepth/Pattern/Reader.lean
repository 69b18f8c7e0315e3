import QueryDepth.Pattern.Basic
import QueryDepth.Pattern.PatternError

/-!
# Reading regular expressions

`Pattern.compile` reads a regular expression over its units: single characters, and a backslash
together with the character after it. A backslash at the very end is an error as soon as the reader
comes to it. Groups nest under an explicit bound; every level takes a unit, so their number is
enough.

Two things are left out. Characters cannot be written by their names: `\N{...}` is refused here like
any other bad escape. And the flags `a` and `u` are not compared between groups of flags for the
whole pattern: `(?a)(?u)`, which should be refused, is read like `(?a)`.
-/

namespace QueryDepth

/-- A character, or a backslash with the character after it. -/
structure PatternUnit where
  pos : Nat
  escaped : Bool
  char : Char
deriving DecidableEq, Repr

def PatternUnit.text (u : PatternUnit) : List Char := if u.escaped then ['\\', u.char] else [u.char]

/-- The units of a pattern from offset `pos` on. A backslash at the end stays a unit of its own. -/
def PatternUnit.split : List Char → Nat → List PatternUnit
  | [], _ => []
  | '\\' :: c :: rest, pos => ⟨pos, true, c⟩ :: split rest (pos + 2)
  | c :: rest, pos => ⟨pos, false, c⟩ :: split rest (pos + 1)

/-- What the reader knows besides the units that are left. -/
structure PatternState where
  units : List PatternUnit
  /-- The length of the pattern. -/
  stop : Nat
  /-- The flags of the whole pattern. -/
  flags : Flags
  /-- The index of the next group. -/
  nextGroup : Nat
  names : List (String × Nat)
  /-- The closed groups. -/
  closed : List (Nat × Extent)
  /-- Inside a look-behind, the number of the first group that was opened there. -/
  behindFrom : Option Nat
  /-- Groups whose existence is asked for, and where. -/
  asked : List (Nat × Nat)
  variableBehind : Bool
deriving Repr

abbrev PatternReader := StateT PatternState (Except PatternError)

namespace PatternReader

/-! ## Units -/

def isPlain (c : Char) (u : PatternUnit) : Bool := !u.escaped && u.char = c

/-- Fails on a backslash that ends the pattern. -/
def settle : List PatternUnit → Except PatternError (List PatternUnit)
  | [⟨pos, false, '\\'⟩] => .error ⟨.danglingBackslash, some pos⟩
  | us => .ok us

def next? : PatternReader (Option PatternUnit) := do return (← get).units.head?

/-- The offset of the next unit. -/
def tell : PatternReader Nat := do
  let s ← get
  return match s.units with
    | u :: _ => u.pos
    | [] => s.stop

def failAt {α : Type} (pos : Nat) (fault : PatternFault) : PatternReader α :=
  throw ⟨fault, some pos⟩

/-- Fails so many characters before the next unit. -/
def failBack {α : Type} (back : Nat) (fault : PatternFault) : PatternReader α := do
  failAt ((← tell) - back) fault

/-- Takes the next unit, if there is one. -/
def take : PatternReader (Option PatternUnit) := do
  let s ← get
  match s.units with
  | [] => return none
  | u :: rest =>
    set { s with units := ← settle rest }
    return some u

/-- Takes the next unit if it is the given character. -/
def accept (c : Char) : PatternReader Bool := do
  match ← next? with
  | some u =>
    if isPlain c u then
      let _ ← take
      return true
    else return false
  | none => return false

/-- Takes at most `n` plain characters of a class. -/
def takeWhile (p : Char → Bool) : Nat → PatternReader (List Char)
  | 0 => return []
  | n + 1 => do
    match ← next? with
    | some u =>
      if !u.escaped && p u.char then
        let _ ← take
        return u.char :: (← takeWhile p n)
      else return []
    | none => return []

def isHex (c : Char) : Bool := (Decimal.hexValue? c).isSome
def isOctal (c : Char) : Bool := '0' ≤ c && c ≤ '7'
def isDigit (c : Char) : Bool := '0' ≤ c && c ≤ '9'

def valueIn (base : Nat) (cs : List Char) : Nat :=
  cs.foldl (fun n c => base * n + (Decimal.hexValue? c).getD 0) 0

/-! ## Escapes -/

/-- Escapes for one character. Inside a set `\b` is among them. -/
def simpleEscape? (inSet : Bool) : Char → Option Char
  | 'a' => some '\x07'
  | 'f' => some '\x0c'
  | 'n' => some '\n'
  | 'r' => some '\r'
  | 't' => some '\t'
  | 'v' => some '\x0b'
  | '\\' => some '\\'
  | 'b' => if inSet then some '\x08' else none
  | _ => none

def kindEscape? (ascii : Bool) : Char → Option SetItem
  | 'd' => some (.kind .digit false ascii)
  | 'D' => some (.kind .digit true ascii)
  | 's' => some (.kind .blank false ascii)
  | 'S' => some (.kind .blank true ascii)
  | 'w' => some (.kind .word false ascii)
  | 'W' => some (.kind .word true ascii)
  | _ => none

def anchorEscape? (ascii : Bool) : Char → Option Anchor
  | 'A' => some .textStart
  | 'Z' => some .textEnd
  | 'b' => some (.boundary ascii)
  | 'B' => some (.inside ascii)
  | _ => none

/-- A character by `width` hexadecimal digits after `\c`. -/
def hexEscape (c : Char) (width : Nat) : PatternReader Char := do
  let digits ← takeWhile isHex width
  if digits.length = width then
    let n := valueIn 16 digits
    if n < 0x110000 then return Char.ofNat n
    else failBack (width + 2) (.badEscape (String.ofList ('\\' :: c :: digits)))
  else failBack (digits.length + 2) (.incompleteEscape (String.ofList ('\\' :: c :: digits)))

def octalChar (digits : List Char) : PatternReader Char := do
  let n := valueIn 8 digits
  if n ≤ 0o377 then return Char.ofNat n
  else failBack (digits.length + 1) (.octalTooLarge (String.ofList ('\\' :: digits)))

/-- Letters have a meaning after a backslash or none at all; other characters stand for
themselves. -/
def otherEscape (c : Char) : PatternReader Char := do
  if Text.Ascii.isLetter c || isDigit c then failBack 2 (.badEscape (String.ofList ['\\', c]))
  else return c

/-- An escape inside a set, after it was taken. -/
def setEscape (ascii : Bool) (c : Char) : PatternReader SetItem := do
  match simpleEscape? true c with
  | some ch => return .char ch
  | none =>
    match kindEscape? ascii c with
    | some item => return item
    | none =>
      match c with
      | 'x' => return .char (← hexEscape c 2)
      | 'u' => return .char (← hexEscape c 4)
      | 'U' => return .char (← hexEscape c 8)
      | _ =>
        if isOctal c then return .char (← octalChar (c :: (← takeWhile isOctal 2)))
        else return .char (← otherEscape c)

/-- Inside a look-behind only groups that were closed before it may be referred to. -/
def checkLookBehind (index : Nat) : PatternReader Unit := do
  let s ← get
  match s.behindFrom with
  | none => return ()
  | some limit =>
    if (s.closed.lookup index).isNone then failBack 0 .openGroup
    if limit ≤ index then failBack 0 .groupInLookBehind

/-- A reference to a group that must be closed. -/
def checkReference (index back : Nat) : PatternReader Unit := do
  if ((← get).closed.lookup index).isNone then failBack back .openGroup
  checkLookBehind index

/-- Digits after a backslash: three octal digits are a character, others refer to a group. -/
def numberEscape (mode : CaseMode) (c : Char) : PatternReader Regex := do
  let second ← takeWhile isDigit 1
  let octalPair := isOctal c && second.all isOctal && !second.isEmpty
  let third ← if octalPair then takeWhile isOctal 1 else pure []
  if !third.isEmpty then return .char mode (← octalChar (c :: second ++ third))
  else
    let index := valueIn 10 (c :: second)
    let length := second.length + 2
    if index < (← get).nextGroup then
      checkReference index length
      return .backref mode index
    else failBack (length - 1) (.invalidGroup index)

/-- An escape outside a set, after it was taken. -/
def escape (flags : Flags) (c : Char) : PatternReader Regex := do
  let mode := flags.caseMode
  match anchorEscape? flags.ascii c with
  | some a => return .anchor a
  | none =>
    match kindEscape? flags.ascii c with
    | some item => return .set mode false [item]
    | none =>
      match simpleEscape? false c with
      | some ch => return .char mode ch
      | none =>
        match c with
        | 'x' => return .char mode (← hexEscape c 2)
        | 'u' => return .char mode (← hexEscape c 4)
        | 'U' => return .char mode (← hexEscape c 8)
        | '0' => return .char mode (← octalChar ('0' :: (← takeWhile isOctal 2)))
        | _ =>
          if isDigit c then numberEscape mode c
          else return .char mode (← otherEscape c)

/-! ## Sets -/

def itemOf (ascii : Bool) (u : PatternUnit) : PatternReader SetItem :=
  if u.escaped then setEscape ascii u.char else return .char u.char

/-- The items of a set up to the closing bracket; `here` is the offset of the opening one. A
bracket in front of all items is an item. -/
def setItems (ascii : Bool) (here : Nat) : Nat → List SetItem → PatternReader (List SetItem)
  | 0, _ => failAt here .unterminatedSet
  | fuel + 1, done => do
    match ← take with
    | none => failAt here .unterminatedSet
    | some u =>
      if isPlain ']' u && !done.isEmpty then return done.reverse
      else
        let first ← itemOf ascii u
        if ← accept '-' then
          match ← take with
          | none => failAt here .unterminatedSet
          | some v =>
            if isPlain ']' v then return (.char '-' :: first :: done).reverse
            else
              let second ← itemOf ascii v
              let refuse : PatternReader (List SetItem) :=
                failBack (u.text.length + 1 + v.text.length)
                  (.badRange (String.ofList u.text) (String.ofList v.text))
              match first, second with
              | .char a, .char b =>
                if b < a then refuse else setItems ascii here fuel (.range a b :: done)
              | _, _ => refuse
        else setItems ascii here fuel (first :: done)

/-! ## Names and flags -/

/-- The text up to a terminator, which is taken. -/
def nameUntil (terminator : Char) : Nat → List Char → PatternReader (List Char)
  | 0, done => return done
  | fuel + 1, done => do
    match ← take with
    | none =>
      if done.isEmpty then failBack 0 .missingGroupName
      else failBack done.length (.unterminatedName terminator)
    | some u =>
      if isPlain terminator u then
        if done.isEmpty then failBack 1 .missingGroupName else return done
      else nameUntil terminator fuel (done ++ u.text)

def isIdentifier (cs : List Char) : Bool :=
  match cs with
  | [] => false
  | c :: _ => !Text.isDecimal c && cs.all Text.isWord

/-- A group name that ends with a terminator, which is taken. -/
def groupName (terminator : Char) (fuel : Nat) : PatternReader String := do
  let cs ← nameUntil terminator fuel []
  if isIdentifier cs then return String.ofList cs
  else failBack (cs.length + 1) (.badGroupName (String.ofList cs))

/-- The flag of a letter. The letter `u` asks for what is the case anyway. -/
def flag? : Char → Option Flags
  | 'i' => some { ignoreCase := true }
  | 'm' => some { multiline := true }
  | 's' => some { dotAll := true }
  | 'x' => some { verbose := true }
  | 'a' => some { ascii := true }
  | 'u' => some {}
  | _ => none

/-- Fails on what is no flag: a letter is an unknown one. -/
def refuseFlag {α : Type} (u : PatternUnit) (other : PatternFault) : PatternReader α :=
  let isLetter := !u.escaped && Text.isWord u.char && !Text.isDecimal u.char && u.char ≠ '_'
  failBack u.text.length (if isLetter then .unknownFlag else other)

/-- Flags to turn off, up to a colon. The first one was not taken yet. -/
def flagsOff : Nat → Flags → Bool → PatternReader Flags
  | 0, off, _ => return off
  | fuel + 1, off, first => do
    let missing : PatternFault := if first then .missingFlag else .missingColon
    match ← take with
    | none => failBack 0 missing
    | some u =>
      if isPlain ':' u && !first then return off
      else if u.escaped then refuseFlag u missing
      else if u.char = 'a' || u.char = 'u' || u.char = 'L' then
        failBack 0 (.inlineFlags "cannot turn off flags 'a', 'u' and 'L'")
      else match flag? u.char with
        | some f => flagsOff fuel (off.union f) false
        | none => refuseFlag u missing

/-- Flags to turn on, beginning with the one in `u`: the flags, whether the letter `u` was among
them, and the character that ended them. -/
def flagsOn : Nat → Flags → PatternUnit → Bool → PatternReader (Flags × Bool × Char)
  | 0, on, u, unicode => return (on, unicode, u.char)
  | fuel + 1, on, u, unicode => do
    if u.char = 'L' then failBack 0 (.inlineFlags "cannot use 'L' flag with a str pattern")
    match flag? u.char with
    | none => refuseFlag u .missingFlagEnd
    | some f =>
      let on := on.union f
      let unicode := unicode || u.char = 'u'
      if unicode && on.ascii then
        failBack 0 (.inlineFlags "flags 'a', 'u' and 'L' are incompatible")
      match ← take with
      | none => failBack 0 .missingFlagEnd
      | some v =>
        if isPlain ')' v || isPlain '-' v || isPlain ':' v then
          return (on, unicode, v.char)
        else if v.escaped || ((flag? v.char).isNone && v.char ≠ 'L') then
          refuseFlag v .missingFlagEnd
        else flagsOn fuel on v unicode

/-- What flags in a group say. -/
inductive InlineFlags where
  /-- For the whole pattern. -/
  | whole (on : Flags)
  /-- For the group. -/
  | inside (on off : Flags)

/-- Flags after `(?`, beginning with the unit `u`. -/
def inlineFlags (fuel : Nat) (u : PatternUnit) : PatternReader InlineFlags := do
  let (on, unicode, stop) ← if u.char = '-' then pure ({}, false, '-') else flagsOn fuel {} u false
  -- asking for Unicode classes undoes the restriction to ASCII
  let narrow : Flags := { ascii := unicode }
  if stop = ')' then return .whole on
  else if stop = '-' then
    let off ← flagsOff fuel narrow true
    if (on.ignoreCase && off.ignoreCase) || (on.multiline && off.multiline)
        || (on.dotAll && off.dotAll) || (on.verbose && off.verbose) then
      failBack 1 (.inlineFlags "flag turned on and off")
    else return .inside on off
  else return .inside on narrow

/-! ## Quantifiers -/

/-- The bounds of a quantifier are smaller. -/
def repeatLimit : Nat := 0xFFFFFFFF

/-- The bounds after an opening brace, if it begins a quantifier; otherwise nothing is taken and
the brace stands for itself. -/
def braces : PatternReader (Option (Nat × Option Nat)) := do
  let saved ← get
  let here ← tell
  match ← next? with
  | some u =>
    if isPlain '}' u then return none
  | none => pure ()
  let fuel := saved.units.length
  let lo ← takeWhile isDigit fuel
  let comma ← accept ','
  let hi ← if comma then takeWhile isDigit fuel else pure lo
  if ← accept '}' then
    let least := if lo.isEmpty then 0 else valueIn 10 lo
    if repeatLimit ≤ least then throw ⟨.repeatTooLarge, none⟩
    if hi.isEmpty then return some (least, none)
    else
      let most := valueIn 10 hi
      if repeatLimit ≤ most then throw ⟨.repeatTooLarge, none⟩
      if most < least then failAt here .repeatOrder
      return some (least, some most)
  else
    set saved
    return none

def isAnchor : Regex → Bool
  | .anchor _ => true
  | _ => false

def isTimes : Regex → Bool
  | .times _ _ _ _ => true
  | _ => false

/-- Puts a quantifier on the last item; `pos` is where the quantifier begins. -/
def quantify (pos least : Nat) (most : Option Nat) (items : List Regex) :
    PatternReader (List Regex) := do
  match items with
  | [] => failAt pos .nothingToRepeat
  | item :: rest =>
    if isAnchor item then failAt pos .nothingToRepeat
    else if isTimes item then failAt pos .multipleRepeat
    else
      let greed ← do
        if ← accept '?' then pure Greed.lazy
        else if ← accept '+' then pure Greed.possessive
        else pure Greed.greedy
      return .times least most greed item :: rest

/-! ## Groups and alternatives -/

def isPatternBlank (c : Char) : Bool := Text.Ascii.isBlank c

/-- Skips a comment that goes to the end of the line. -/
def skipLine : Nat → PatternReader Unit
  | 0 => return ()
  | fuel + 1 => do
    match ← take with
    | none => return ()
    | some u => if isPlain '\n' u then return () else skipLine fuel

/-- Skips a comment in parentheses that begin at `start`. -/
def skipComment (start : Nat) : Nat → PatternReader Unit
  | 0 => failAt start .unterminatedComment
  | fuel + 1 => do
    match ← take with
    | none => failAt start .unterminatedComment
    | some u => if isPlain ')' u then return () else skipComment start fuel

def openGroup (name : Option String) : PatternReader Nat := do
  let s ← get
  match name with
  | none =>
    set { s with nextGroup := s.nextGroup + 1 }
  | some n =>
    match s.names.lookup n with
    | some old => failBack (n.length + 1) (.redefinition n s.nextGroup old)
    | none => set { s with nextGroup := s.nextGroup + 1, names := (n, s.nextGroup) :: s.names }
  return s.nextGroup

def closeGroup (index : Nat) (body : Regex) : PatternReader Unit :=
  modify fun s => { s with closed := (index, body.extent s.closed) :: s.closed }

/-- The closing parenthesis of what began at `start`. -/
def closeParen (start : Nat) : PatternReader Unit := do
  if ← accept ')' then return () else failAt start .missingParen

/-- What the part of a group after its opening parenthesis says about it. -/
inductive GroupKind where
  | capture (name : Option String)
  | plain
  | atomic
  | flagged (on off : Flags)
  | ahead (negated : Bool)
  | behind (negated : Bool)
  | conditional (index : Nat)
  /-- Nothing to match: a comment. -/
  | nothing
  | whole (on : Flags)
  | reference (index : Nat)

/-- The number or name in the parentheses of a conditional. -/
def conditionGroup (fuel : Nat) : PatternReader Nat := do
  let cs ← nameUntil ')' fuel []
  let back := cs.length + 1
  if isIdentifier cs then
    match (← get).names.lookup (String.ofList cs) with
    | some index => return index
    | none => failBack back (.unknownGroupName (String.ofList cs))
  else if cs.all isDigit then
    let index := valueIn 10 cs
    if index = 0 then failBack back .badGroupNumber
    else
      let pos := (← tell) - back
      modify fun s =>
        if (s.asked.lookup index).isSome then s else { s with asked := s.asked ++ [(index, pos)] }
      return index
  else failBack back (.badGroupName (String.ofList cs))

/-- Reads what follows `(`, up to where the body of the group begins. -/
def groupKind (start fuel : Nat) : PatternReader GroupKind := do
  if !(← accept '?') then return .capture none
  match ← take with
  | none => failBack 0 .unexpectedEnd
  | some u =>
    let unknown : PatternReader GroupKind :=
      failBack (u.text.length + 1) (.unknownExtension (String.ofList u.text))
    if u.escaped then unknown
    else match u.char with
      | 'P' =>
        if ← accept '<' then return .capture (some (← groupName '>' fuel))
        else if ← accept '=' then
          let name ← groupName ')' fuel
          match (← get).names.lookup name with
          | none => failBack (name.length + 1) (.unknownGroupName name)
          | some index =>
            checkReference index (name.length + 1)
            return .reference index
        else match ← take with
          | none => failBack 0 .unexpectedEnd
          | some v =>
            failBack (v.text.length + 2) (.unknownExtension (String.ofList ('P' :: v.text)))
      | ':' => return .plain
      | '#' =>
        skipComment start fuel
        return .nothing
      | '=' => return .ahead false
      | '!' => return .ahead true
      | '<' =>
        match ← take with
        | none => failBack 0 .unexpectedEnd
        | some v =>
          if isPlain '=' v then return .behind false
          else if isPlain '!' v then return .behind true
          else failBack (v.text.length + 2) (.unknownExtension (String.ofList ('<' :: v.text)))
      | '(' => return .conditional (← conditionGroup fuel)
      | '>' => return .atomic
      | c =>
        if c = '-' || c = 'L' || (flag? c).isSome then
          match ← inlineFlags fuel u with
          | .whole on => return .whole on
          | .inside on off => return .flagged on off
        else unknown

/-- The flags inside a group. -/
def innerFlags (flags : Flags) : GroupKind → Flags
  | .flagged on off => (flags.union on).without off
  | _ => flags

mutual

/-- Alternatives up to a closing parenthesis or the end. At the top level the flags may change
while the first alternative is read. -/
def alternatives : Nat → Bool → Bool → Flags → PatternReader (List Regex)
  | 0, _, _, _ => return []
  | fuel + 1, top, first, flags => do
    let outer := (← get).flags
    let flags := if top then outer else flags
    let items ← branch fuel top (top && first) flags []
    let this := Regex.catAll items.reverse
    if ← accept '|' then return this :: (← alternatives fuel top false flags)
    else return [this]

/-- The items of one alternative, the last one first. -/
def branch : Nat → Bool → Bool → Flags → List Regex → PatternReader (List Regex)
  | 0, _, _, _, items => return items
  | fuel + 1, top, first, flags, items => do
    match ← next? with
    | none => return items
    | some u =>
      if isPlain '|' u || isPlain ')' u then return items
      let _ ← take
      let again (r : Regex) := branch fuel top first flags (r :: items)
      if u.escaped then
        again (← escape flags u.char)
      else if flags.verbose && isPatternBlank u.char then branch fuel top first flags items
      else if flags.verbose && u.char = '#' then
        skipLine fuel
        branch fuel top first flags items
      else match u.char with
        | '[' =>
          let negated ← accept '^'
          again (.set flags.caseMode negated (← setItems flags.ascii u.pos fuel []))
        | '?' => branch fuel top first flags (← quantify u.pos 0 (some 1) items)
        | '*' => branch fuel top first flags (← quantify u.pos 0 none items)
        | '+' => branch fuel top first flags (← quantify u.pos 1 none items)
        | '{' =>
          match ← braces with
          | none => again (.char flags.caseMode '{')
          | some (least, most) => branch fuel top first flags (← quantify u.pos least most items)
        | '.' => again (.any flags.dotAll)
        | '^' => again (.anchor (if flags.multiline then .lineStart else .textStart))
        | '$' => again (.anchor (if flags.multiline then .lineEnd else .lastLineEnd))
        | '(' =>
          let kind ← groupKind u.pos fuel
          match kind with
          | .nothing => branch fuel top first flags items
          | .whole on =>
            if !first || !items.isEmpty then
              failAt u.pos .flagsNotAtStart
            else
              modify fun s => { s with flags := s.flags.union on }
              let flags := (← get).flags
              branch fuel top first flags items
          | .reference index => again (.backref flags.caseMode index)
          | kind => again (← group fuel u.pos flags kind)
        | c => again (.char flags.caseMode c)

/-- The body of a group and its closing parenthesis. -/
def group : Nat → Nat → Flags → GroupKind → PatternReader Regex
  | 0, _, _, _ => return .empty
  | fuel + 1, start, flags, kind => do
    let body : PatternReader Regex := do
      return .altAll (← alternatives fuel false false (innerFlags flags kind))
    match kind with
    | .capture name =>
      let index ← openGroup name
      let r ← body
      closeParen start
      closeGroup index r
      return .group (some index) r
    | .ahead negated =>
      let r ← body
      closeParen start
      return .ahead negated r
    | .behind negated =>
      let outer := (← get).behindFrom
      modify fun s => { s with behindFrom := some (outer.getD s.nextGroup) }
      let r ← body
      modify fun s => { s with behindFrom := outer }
      closeParen start
      let extent := r.extent (← get).closed
      if extent.most ≠ some extent.least then modify fun s => { s with variableBehind := true }
      return .behind negated extent.least r
    | .conditional index =>
      checkLookBehind index
      let yes ← branch fuel false false flags []
      let no ← if ← accept '|' then branch fuel false false flags [] else pure []
      match ← next? with
      | some u => if isPlain '|' u then failBack 0 .tooManyBranches
      | none => pure ()
      closeParen start
      return .conditional index (.catAll yes.reverse) (.catAll no.reverse)
    | .atomic =>
      let r ← body
      closeParen start
      return .atomic r
    | _ =>
      let r ← body
      closeParen start
      return .group none r

end

/-- Reads a whole pattern. -/
def whole (fuel : Nat) : PatternReader Regex := do
  let s ← get
  set { s with units := ← settle s.units }
  let rs ← alternatives fuel true true s.flags
  if (← next?).isSome then failBack 0 .unbalancedParen
  let s ← get
  match s.asked.find? fun a => s.nextGroup ≤ a.1 with
  | some (index, pos) => failAt pos (.invalidGroup index)
  | none => pure ()
  if s.variableBehind then throw ⟨.variableLookBehind, none⟩
  return .altAll rs

end PatternReader

/-- Compiles a regular expression under some flags. -/
def Pattern.compileWith (flags : Flags) (source : String) : Except PatternError Pattern :=
  let chars := source.toList
  let units := PatternUnit.split chars 0
  -- every unit costs at most three levels
  let start : PatternState := ⟨units, chars.length, flags, 1, [], [], none, [], false⟩
  match (PatternReader.whole (3 * units.length + 3)).run start with
  | .ok (regex, s) => .ok ⟨source, s.flags, regex⟩
  | .error e => .error e

/-- Compiles a regular expression. -/
def Pattern.compile (source : String) : Except PatternError Pattern := Pattern.compileWith {} source

end QueryDepth
