import QueryDepth.Data.Basic
import QueryDepth.Yaml.Node

/-!
# Values of a configuration file

`Yaml.load` reads a text as plain data. Of repeated keys the last one wins. The entries of a merged
mapping stand in front of the others, so that these win. A mapping that holds itself cannot be
merged into another one here.
-/

namespace QueryDepth.Yaml

/-! ## Scalars -/

def withoutBars (s : String) : List Char := s.toList.filter (· ≠ '_')

/-- A sign, true for minus, and what follows. -/
def splitSign : List Char → Bool × List Char
  | '-' :: cs => (true, cs)
  | '+' :: cs => (false, cs)
  | cs => (false, cs)

def digitsIn (base : Nat) (cs : List Char) : Option Nat :=
  if cs.isEmpty then none
  else cs.foldlM (fun n c => do
    let d ← Decimal.hexValue? c
    if d < base then some (base * n + d) else none) 0

/-- The pieces between colons. -/
def splitColons : List Char → List (List Char)
  | [] => [[]]
  | c :: cs =>
    if c = ':' then [] :: splitColons cs
    else match splitColons cs with
      | [] => [[c]]
      | piece :: more => (c :: piece) :: more

def readInt (s : String) : Except YamlError Int :=
  let (negative, cs) := splitSign (withoutBars s)
  let signed (n : Nat) : Int := if negative then -(n : Int) else n
  let inBase (base : Nat) (ds : List Char) : Except YamlError Int :=
    match digitsIn base ds with
    | some n => .ok (signed n)
    | none => .error (.badInt base (String.ofList ds))
  match cs with
  | ['0'] => .ok 0
  | '0' :: 'b' :: ds => inBase 2 ds
  | '0' :: 'x' :: ds => inBase 16 ds
  | '0' :: _ => inBase 8 cs
  | _ =>
    if cs.contains ':' then do
      let parts ← (splitColons cs).mapM fun p =>
        match digitsIn 10 p with
        | some n => .ok n
        | none => .error (.badInt 10 (String.ofList p))
      return signed (parts.foldl (fun n d => 60 * n + d) 0)
    else inBase 10 cs

/-- A number with an optional point and an optional exponent. -/
def readDecimal (cs : List Char) : Option Float := do
  let whole := cs.takeWhile YamlTag.isDigit
  let rest := cs.dropWhile YamlTag.isDigit
  let (fraction, rest) := match rest with
    | '.' :: more => (more.takeWhile YamlTag.isDigit, more.dropWhile YamlTag.isDigit)
    | _ => ([], rest)
  if whole.isEmpty && fraction.isEmpty then none
  else
    let mantissa := Decimal.natOfDigits (whole ++ fraction)
    match rest with
    | [] => some (Decimal.floatOf false mantissa (-(fraction.length : Int)))
    | e :: more =>
      if e = 'e' || e = 'E' then
        let (negative, ds) := splitSign more
        if ds.isEmpty || !ds.all YamlTag.isDigit then none
        else
          let n : Int := Decimal.natOfDigits ds
          let n := (if negative then -n else n) - (fraction.length : Int)
          some (Decimal.floatOf false mantissa n)
      else none

def readFloat (s : String) : Except YamlError Float :=
  let (negative, cs) := splitSign ((withoutBars s).map Char.toLower)
  let signed (x : Float) : Float := if negative then -x else x
  let number (ds : List Char) : Except YamlError Float :=
    match readDecimal ds with
    | some x => .ok x
    | none => .error (.badFloat (String.ofList ds))
  if cs = ".inf".toList then .ok (signed (1.0 / 0.0))
  else if cs = ".nan".toList then .ok (0.0 / 0.0)
  else if cs.contains ':' then do
    let parts ← (splitColons cs).mapM number
    return signed (parts.foldl (fun x d => 60.0 * x + d) 0.0)
  else signed <$> number cs

def readBool (s : String) : Except YamlError Bool :=
  let word := String.ofList (s.toList.map Char.toLower)
  if ["yes", "true", "on"].contains word then .ok true
  else if ["no", "false", "off"].contains word then .ok false
  else .error (.badBool word)

def isLeapYear (year : Nat) : Bool := year % 4 = 0 && (year % 100 != 0 || year % 400 = 0)

def daysIn (year month : Nat) : Nat :=
  if month = 2 then (if isLeapYear year then 29 else 28)
  else if [4, 6, 9, 11].contains month then 30
  else 31

def dateOf (year month day : Nat) : Except YamlError Date :=
  if 1 ≤ year ∧ 1 ≤ month ∧ month ≤ 12 ∧ 1 ≤ day ∧ day ≤ daysIn year month then
    .ok ⟨year, month, day⟩
  else .error .construction

/-- Millionths from the digits behind a point; further digits do not count. -/
def microseconds (fraction : List Char) : Nat :=
  Decimal.natOfDigits ((fraction ++ List.replicate 6 '0').take 6)

def timestampOf (m : YamlTag.Moment) : Except YamlError Timestamp := do
  let date ← dateOf m.year m.month m.day
  if m.hour < 24 ∧ m.minute < 60 ∧ m.second < 60 ∧ (m.ahead.getD 0).natAbs < 24 * 60 then
    return ⟨date, m.hour, m.minute, m.second, microseconds m.fraction, m.ahead⟩
  else .error .construction

/-- A date, whose month and day may have one digit. -/
def readDate (cs : List Char) : Except YamlError Date := do
  let numbers : Option (Nat × Nat × Nat) := do
    let (year, cs) ← YamlTag.digits? 4 cs
    let (month, cs) ← YamlTag.oneOrTwoDigits? (← YamlTag.after? '-' cs)
    let (day, cs) ← YamlTag.oneOrTwoDigits? (← YamlTag.after? '-' cs)
    if cs.isEmpty then some (year, month, day) else none
  match numbers with
  | some (year, month, day) => dateOf year month day
  | none => .error .construction

/-- A date, with or without a time. -/
def readTimestamp (s : String) : Except YamlError Data :=
  match YamlTag.moment? s.toList with
  | some m => Data.timestamp <$> timestampOf m
  | none => Data.date <$> readDate s.toList

/-! ### Bytes -/

/-- The digits of base 64 in order. -/
def base64Digits : List Char :=
  "ABCDEFGHIJKLMNOPQRSTUVWXYZabcdefghijklmnopqrstuvwxyz0123456789+/".toList

/-- The bytes that digits of base 64 stand for. `place` is the place of the next digit in its group
of four, `left` what the digits of the group have left over, and `pads` how many padding signs stand
before the next digit. Other characters do not count; a group of four that is padded is the end. -/
def bytesOf (place left pads : Nat) : List Char → Except YamlError (List UInt8)
  | [] => if place = 0 then .ok [] else .error .construction
  | c :: cs =>
    if c = '=' then
      if 2 ≤ place && 4 ≤ place + pads + 1 then .ok []
      else bytesOf place left (if 2 ≤ place then pads + 1 else pads) cs
    else
      match base64Digits.idxOf? c with
      | none => bytesOf place left pads cs
      | some d =>
        match place with
        | 0 => bytesOf 1 d 0 cs
        | 1 => (UInt8.ofNat (4 * left + d / 16) :: ·) <$> bytesOf 2 (d % 16) 0 cs
        | 2 => (UInt8.ofNat (16 * left + d / 4) :: ·) <$> bytesOf 3 (d % 4) 0 cs
        | _ => (UInt8.ofNat (64 * left + d) :: ·) <$> bytesOf 0 0 0 cs

def readBytes (s : String) : Except YamlError (List UInt8) :=
  if s.toList.all fun c => c.toNat < 128 then bytesOf 0 0 0 s.toList else .error .construction

def scalar (tag text : String) : Except YamlError Data :=
  if tag = YamlTag.null then .ok .null
  else if tag = YamlTag.bool then Data.bool <$> readBool text
  else if tag = YamlTag.int then Data.int <$> readInt text
  else if tag = YamlTag.float then Data.float <$> readFloat text
  else if tag = YamlTag.text then .ok (.text text)
  else if tag = YamlTag.timestamp then readTimestamp text
  else if tag = YamlTag.binary then Data.bytes <$> readBytes text
  else .error .construction

/-! ## Mappings -/

/-- Numbers that are equal are the same key, whatever their type. -/
def keyNumber? : Data → Option Float
  | .bool b => some (if b then 1.0 else 0.0)
  | .int n => some (Float.ofInt n)
  | .float x => some x
  | _ => none

/-- The days from the first of March of the year zero. -/
def dayNumber (d : Date) : Nat :=
  let year := if d.month ≤ 2 then d.year - 1 else d.year
  let month := (d.month + 9) % 12
  365 * year + year / 4 - year / 100 + year / 400 + (153 * month + 2) / 5 + d.day

/-- The microseconds up to a moment, by universal time if that is known. -/
def instant (t : Timestamp) : Int :=
  let minutes : Int := 60 * (24 * dayNumber t.date + t.hour) + t.minute - t.ahead.getD 0
  1000000 * (60 * minutes + t.second) + t.microsecond

def sameKey (a b : Data) : Bool :=
  match a, b with
  | .null, .null => true
  | .text s, .text t => s = t
  | .bytes bs, .bytes cs => bs = cs
  | .int m, .int n => m = n
  | .date d, .date e => d = e
  | .timestamp t, .timestamp u => instant t = instant u && t.ahead.isSome == u.ahead.isSome
  | _, _ => match keyNumber? a, keyNumber? b with
    | some x, some y => x == y
    | _, _ => false

/-- Only scalars can be keys. -/
def isKey : Data → Bool
  | .list _ | .set _ | .mapping _ | .loop _ _ | .again _ => false
  | _ => true

def putEntry (key value : Data) : List (Data × Data) → List (Data × Data)
  | [] => [(key, value)]
  | (k, v) :: rest =>
    if sameKey k key then (k, value) :: rest else (k, v) :: putEntry key value rest

/-- The entries of what stands under a merge key: of a mapping, or of a sequence of mappings, the
last one first. -/
def merged (flatten : YamlNode → Except YamlError (List (YamlNode × YamlNode))) :
    YamlNode → Except YamlError (List (YamlNode × YamlNode))
  | .mapping tag entries => flatten (.mapping tag entries)
  | .sequence _ items => do
    let parts ← items.mapM fun item => match item with
      | .mapping tag entries => flatten (.mapping tag entries)
      | _ => .error .construction
    return parts.reverse.flatten
  | _ => .error .construction

def isMerge : YamlNode → Bool
  | .scalar tag _ => tag = YamlTag.merge
  | _ => false

/-- A key that is written as the sign for the value of the mapping is a text. -/
def plainKey : YamlNode → YamlNode
  | .scalar tag text => .scalar (if tag = YamlTag.value then YamlTag.text else tag) text
  | n => n

/-- The entries of a mapping after merging. -/
def flatten : Nat → YamlNode → Except YamlError (List (YamlNode × YamlNode))
  | 0, _ => .error .construction
  | fuel + 1, .mapping _ entries => do
    let parts ← (entries.filter fun e => isMerge e.1).mapM fun e => merged (flatten fuel) e.2
    let own := (entries.filter fun e => !isMerge e.1).map fun e => (plainKey e.1, e.2)
    return parts.flatten ++ own
  | _ + 1, _ => .error .construction

mutual

/-- The text of a node that should be a scalar. A mapping gives what stands behind the sign for its
value. -/
def scalarText? : YamlNode → Option String
  | .scalar _ text => some text
  | .mapping _ entries => valueText? entries
  | .loop _ node => scalarText? node
  | _ => none

def valueText? : List (YamlNode × YamlNode) → Option String
  | [] => none
  | (.scalar tag _, v) :: rest => if tag = YamlTag.value then scalarText? v else valueText? rest
  | _ :: rest => valueText? rest

end

/-- A collection that holds itself; what is no collection after all does not. -/
def looped (mark : Nat) (v : Data) : Data := if v.isCollection then .loop mark v else v

mutual

def construct : Nat → YamlNode → Except YamlError Data
  | 0, _ => .error .construction
  | _ + 1, .scalar tag text => scalar tag text
  | fuel + 1, .sequence tag items =>
    if tag = YamlTag.sequence then Data.list <$> constructAll fuel items
    else if tag = YamlTag.pairs || tag = YamlTag.orderedMap then
      Data.list <$> constructPairs fuel items
    else .error .construction
  | fuel + 1, .mapping tag entries => do
    if tag = YamlTag.mapping then
      Data.mapping <$> constructEntries fuel (← flatten fuel (.mapping tag entries)) []
    else if tag = YamlTag.set then
      let members ← constructEntries fuel (← flatten fuel (.mapping tag entries)) []
      return .set (members.map Prod.fst)
    else
      match valueText? entries with
      | some text => scalar tag text
      | none => .error .construction
  | fuel + 1, .loop mark node => looped mark <$> construct fuel node
  | _ + 1, .again mark => .ok (.again mark)

def constructAll : Nat → List YamlNode → Except YamlError (List Data)
  | 0, _ => .error .construction
  | _ + 1, [] => .ok []
  | fuel + 1, n :: ns => do
    let v ← construct fuel n
    return v :: (← constructAll fuel ns)

/-- Pairs from mappings with a single entry. In a pair an alias of its mapping stands for that. -/
def constructPairs : Nat → List YamlNode → Except YamlError (List Data)
  | 0, _ => .error .construction
  | _ + 1, [] => .ok []
  | fuel + 1, .mapping _ [(k, v)] :: ns => do
    let key ← construct fuel k
    let value ← construct fuel v
    return .tuple [key, value] :: (← constructPairs fuel ns)
  | fuel + 1, .loop mark (.mapping _ [(k, v)]) :: ns => do
    let key ← construct fuel k
    let value ← construct fuel v
    let whole := Data.loop mark (.mapping [(key, value)])
    return .tuple (Data.putItems mark whole [key, value]) :: (← constructPairs fuel ns)
  | _ + 1, _ :: _ => .error .construction

def constructEntries : Nat → List (YamlNode × YamlNode) → List (Data × Data) →
    Except YamlError (List (Data × Data))
  | 0, _, _ => .error .construction
  | _ + 1, [], done => .ok done
  | fuel + 1, (k, v) :: rest, done => do
    let key ← construct fuel k
    if isKey key then
      let value ← construct fuel v
      constructEntries fuel rest (putEntry key value done)
    else .error .construction

end

mutual

/-- The number of nodes, aliases counted as often as they occur. -/
def size : YamlNode → Nat
  | .scalar _ _ => 1
  | .sequence _ items => sizes items + 1
  | .mapping _ entries => entrySizes entries + 1
  | .loop _ node => size node + 1
  | .again _ => 1

def sizes : List YamlNode → Nat
  | [] => 1
  | n :: ns => size n + sizes ns + 1

def entrySizes : List (YamlNode × YamlNode) → Nat
  | [] => 1
  | (k, v) :: es => size k + size v + entrySizes es + 1

end

/-- The value that a text spells, null for a text without a document. -/
def load (text : List Char) : Except YamlError Data := do
  match ← YamlNode.read text with
  | none => return .null
  | some root => construct (2 * size root + 2) root

end QueryDepth.Yaml
