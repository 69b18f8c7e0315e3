import QueryDepth.Text.Decimal

/-!
# Tokens of a document

`Token.scan` splits a text into tokens with their offsets. Blanks, commas, line ends, byte order
marks and comments stand between tokens and are dropped. The last token is `Token.eof`, or
`Token.invalid` where the text stops being made of tokens; so a reader meets a lexical error only
when it gets to it.
-/

namespace QueryDepth

inductive Punctuator where
  | bang | dollar | amp | parenL | parenR | spread | colon | equals | at_ | bracketL | bracketR
  | braceL | pipe | braceR
deriving DecidableEq, Repr

def Punctuator.text : Punctuator → String
  | .bang => "!"
  | .dollar => "$"
  | .amp => "&"
  | .parenL => "("
  | .parenR => ")"
  | .spread => "..."
  | .colon => ":"
  | .equals => "="
  | .at_ => "@"
  | .bracketL => "["
  | .bracketR => "]"
  | .braceL => "\x7b"
  | .pipe => "|"
  | .braceR => "\x7d"

/-- Why the characters at a place are no token. -/
inductive LexicalFault where
  | unexpectedCharacter (c : Char)
  | singleQuote
  | digitAfterZero (c : Char)
  | expectedDigit (found : Option Char)
  | unterminatedString
  | escape (text : String)
  | unicodeEscape (text : String)
deriving DecidableEq, Repr

inductive Token where
  | punct (p : Punctuator)
  | name (text : String)
  | int (digits : String)
  | float (digits : String)
  | string (text : String)
  | blockString (text : String)
  | eof
  | invalid (fault : LexicalFault)
deriving DecidableEq, Repr

/-- A token and the offset of its first character. -/
structure Lexeme where
  pos : Nat
  token : Token
deriving DecidableEq, Repr

namespace Token

/-! ## Character classes -/

def isDigit (c : Char) : Bool := '0' ≤ c && c ≤ '9'

def isNameStart (c : Char) : Bool :=
  ('a' ≤ c && c ≤ 'z') || ('A' ≤ c && c ≤ 'Z') || c = '_'

def isNameChar (c : Char) : Bool := isNameStart c || isDigit c

def isLineEnd (c : Char) : Bool := c = '\n' || c = '\r'

/-- What may stand between tokens, comments apart. -/
def isIgnoredChar (c : Char) : Bool :=
  c = ' ' || c = '\t' || c = ',' || c = '\uFEFF' || isLineEnd c

def punctuator? : Char → Option Punctuator
  | '!' => some .bang
  | '$' => some .dollar
  | '&' => some .amp
  | '(' => some .parenL
  | ')' => some .parenR
  | ':' => some .colon
  | '=' => some .equals
  | '@' => some .at_
  | '[' => some .bracketL
  | ']' => some .bracketR
  | '{' => some .braceL
  | '|' => some .pipe
  | '}' => some .braceR
  | _ => none

/-! ## Numbers -/

/-- What was read, or a fault so many characters further on. Lengths count from the token's first
character. -/
abbrev Scan := Except (LexicalFault × Nat)

/-- At least one digit. -/
def scanDigits (cs : List Char) (done : Nat) : Scan Nat :=
  match cs with
  | c :: _ =>
    if isDigit c then .ok (done + (cs.takeWhile isDigit).length)
    else .error (.expectedDigit (some c), done)
  | [] => .error (.expectedDigit none, done)

/-- The end of the integer part that begins after `done` characters. -/
def scanInteger (cs : List Char) (done : Nat) : Scan Nat :=
  match cs with
  | '0' :: c :: _ => if isDigit c then .error (.digitAfterZero c, done + 1) else .ok (done + 1)
  | ['0'] => .ok (done + 1)
  | _ => scanDigits cs done

def scanFraction (cs : List Char) (done : Nat) : Scan Nat :=
  match cs with
  | '.' :: rest => scanDigits rest (done + 1)
  | _ => .ok done

def scanExponent (cs : List Char) (done : Nat) : Scan Nat :=
  match cs with
  | c :: rest =>
    if c = 'e' ∨ c = 'E' then
      match rest with
      | s :: more =>
        if s = '+' ∨ s = '-' then scanDigits more (done + 2) else scanDigits rest (done + 1)
      | [] => scanDigits rest (done + 1)
    else .ok done
  | [] => .ok done

/-- A number. No letter, underscore or point may follow it. -/
def scanNumber (cs : List Char) : Scan (Token × Nat) := do
  let start := match cs with
    | '-' :: _ => 1
    | _ => 0
  let whole ← scanInteger (cs.drop start) start
  let fraction ← scanFraction (cs.drop whole) whole
  let stop ← scanExponent (cs.drop fraction) fraction
  let text := String.ofList (cs.take stop)
  let token := if stop = whole then Token.int text else Token.float text
  match cs.drop stop with
  | c :: _ =>
    if c = '.' || isNameStart c then .error (.expectedDigit (some c), stop) else .ok (token, stop)
  | [] => .ok (token, stop)

/-! ## Strings -/

def escaped? : Char → Option Char
  | '"' => some '"'
  | '\\' => some '\\'
  | '/' => some '/'
  | 'b' => some '\x08'
  | 'f' => some '\x0c'
  | 'n' => some '\n'
  | 'r' => some '\r'
  | 't' => some '\t'
  | _ => none

def isScalarValue (n : Nat) : Bool := n < 0xD800 || (0xE000 ≤ n && n < 0x110000)

/-- The digits of an escape in braces: the code point and the characters taken, or how many
characters were read until it failed. -/
def scanBraced : Nat → List Char → Nat → Nat → Except Nat (Nat × Nat)
  | 0, _, _, size => .error size
  | _ + 1, [], _, size => .error size
  | fuel + 1, c :: rest, point, size =>
    if c = '}' then
      if 5 ≤ size + 1 && isScalarValue point then .ok (point, size + 1) else .error (size + 1)
    else match Decimal.hexValue? c with
      | some d => scanBraced fuel rest (16 * point + d) (size + 1)
      | none => .error (size + 1)

def hex4? (cs : List Char) : Option Nat :=
  match cs with
  | a :: b :: c :: d :: _ => do
    let a ← Decimal.hexValue? a
    let b ← Decimal.hexValue? b
    let c ← Decimal.hexValue? c
    let d ← Decimal.hexValue? d
    return ((a * 16 + b) * 16 + c) * 16 + d
  | _ => none

/-- An escape of four digits, or of two times four that make a surrogate pair. -/
def scanFixed (cs : List Char) : Option (Nat × Nat) := do
  let high ← hex4? (cs.drop 2)
  if isScalarValue high then return (high, 6)
  if 0xD800 ≤ high && high < 0xDC00 && (cs.drop 6).take 2 = ['\\', 'u'] then
    let low ← hex4? (cs.drop 8)
    if 0xDC00 ≤ low && low < 0xE000 then
      return (0x10000 + (high - 0xD800) * 0x400 + (low - 0xDC00), 12)
  none

/-- The escape that begins with the backslash at the head of `cs`. -/
def scanEscape (cs : List Char) : Except LexicalFault (Char × Nat) :=
  match cs with
  | _ :: 'u' :: '{' :: rest =>
    match scanBraced (min 12 cs.length - 3) rest 0 3 with
    | .ok (point, size) => .ok (Char.ofNat point, size)
    | .error size => .error (.unicodeEscape (String.ofList (cs.take size)))
  | _ :: 'u' :: _ =>
    match scanFixed cs with
    | some (point, size) => .ok (Char.ofNat point, size)
    | none => .error (.unicodeEscape (String.ofList (cs.take 6)))
  | _ :: c :: _ =>
    match escaped? c with
    | some c => .ok (c, 2)
    | none => .error (.escape (String.ofList (cs.take 2)))
  | _ => .error (.escape (String.ofList (cs.take 2)))

/-- The rest of a string; `done` counts the characters read, `text` holds them backwards. -/
def scanString : Nat → List Char → Nat → List Char → Scan (Token × Nat)
  | 0, _, done, _ => .error (.unterminatedString, done)
  | _ + 1, [], done, _ => .error (.unterminatedString, done)
  | fuel + 1, c :: rest, done, text =>
    if c = '"' then .ok (.string (String.ofList text.reverse), done + 1)
    else if c = '\\' then
      match scanEscape (c :: rest) with
      | .ok (ch, size) => scanString fuel ((c :: rest).drop size) (done + size) (ch :: text)
      | .error fault => .error (fault, done)
    else if isLineEnd c then .error (.unterminatedString, done)
    else scanString fuel rest (done + 1) (c :: text)

/-! ## Block strings -/

def isIndent (c : Char) : Bool := c = ' ' || c = '\t'

def indentOf (line : List Char) : Nat := (line.takeWhile isIndent).length

def isBlankLine (line : List Char) : Bool := line.all isIndent

/-- The smallest indentation of the lines that hold more than blanks. -/
def commonIndent (lines : List (List Char)) : Option Nat :=
  ((lines.filter fun l => !isBlankLine l).map indentOf).min?

/-- Takes the common indentation off all lines but the first and drops blank lines at both ends. -/
def dedent (lines : List (List Char)) : List (List Char) :=
  let shifted := match lines with
    | [] => []
    | first :: more =>
      match commonIndent more with
      | some n => first :: more.map (List.drop n)
      | none => lines
  let isBlankPair (l : List Char × List Char) : Bool := isBlankLine l.1
  -- a line is dropped for being blank before its indentation is taken off
  let pairs := ((lines.zip shifted).dropWhile isBlankPair).reverse.dropWhile isBlankPair
  pairs.reverse.map Prod.snd

def joinLines : List (List Char) → List Char
  | [] => []
  | [l] => l
  | l :: ls => l ++ '\n' :: joinLines ls

/-- The rest of a block string; `line` holds the present line backwards and `lines` the ones before
it, the last one first. -/
def scanBlock : Nat → List Char → Nat → List Char → List (List Char) → Scan (Token × Nat)
  | 0, _, done, _, _ => .error (.unterminatedString, done)
  | _ + 1, [], done, _, _ => .error (.unterminatedString, done)
  | _ + 1, '"' :: '"' :: '"' :: _, done, line, lines =>
    let text := joinLines (dedent (line.reverse :: lines).reverse)
    .ok (.blockString (String.ofList text), done + 3)
  | fuel + 1, '\\' :: '"' :: '"' :: '"' :: rest, done, line, lines =>
    scanBlock fuel rest (done + 4) ('"' :: '"' :: '"' :: line) lines
  | fuel + 1, '\r' :: '\n' :: rest, done, line, lines =>
    scanBlock fuel rest (done + 2) [] (line.reverse :: lines)
  | fuel + 1, c :: rest, done, line, lines =>
    if isLineEnd c then scanBlock fuel rest (done + 1) [] (line.reverse :: lines)
    else scanBlock fuel rest (done + 1) (c :: line) lines

/-! ## The scanner -/

/-- The token at the head of a text that begins with none of what is ignored. -/
def scanOne (cs : List Char) : Scan (Token × Nat) :=
  match cs with
  | [] => .ok (.eof, 0)
  | '"' :: '"' :: '"' :: rest => scanBlock (rest.length + 1) rest 3 [] []
  | '"' :: rest => scanString (rest.length + 1) rest 1 []
  | '.' :: '.' :: '.' :: _ => .ok (.punct .spread, 3)
  | c :: _ =>
    match punctuator? c with
    | some p => .ok (.punct p, 1)
    | none =>
      if isDigit c || c = '-' then scanNumber cs
      else if isNameStart c then
        let text := cs.takeWhile isNameChar
        .ok (.name (String.ofList text), text.length)
      else if c = '\'' then .error (.singleQuote, 0)
      else .error (.unexpectedCharacter c, 0)

/-- The tokens of the text that begins at offset `pos`. -/
def scanFrom : Nat → List Char → Nat → List Lexeme
  | 0, _, pos => [⟨pos, .eof⟩]
  | _ + 1, [], pos => [⟨pos, .eof⟩]
  | fuel + 1, c :: rest, pos =>
    if isIgnoredChar c then scanFrom fuel rest (pos + 1)
    else if c = '#' then
      let comment := (rest.takeWhile fun c => !isLineEnd c).length
      scanFrom fuel (rest.drop comment) (pos + 1 + comment)
    else match scanOne (c :: rest) with
      | .error (fault, n) => [⟨pos + n, .invalid fault⟩]
      | .ok (token, n) => ⟨pos, token⟩ :: scanFrom fuel (rest.drop (n - 1)) (pos + n)

/-- The tokens of a text. -/
def scan (text : List Char) : List Lexeme := scanFrom (text.length + 1) text 0

end Token

end QueryDepth
