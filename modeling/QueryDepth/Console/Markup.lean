import QueryDepth.Console.Library
import QueryDepth.Console.Style
import QueryDepth.Text.Quoted

/-!
# Markup

A printed text may hold tags in brackets that begin with a small letter, `#`, `/` or `@`. They
switch styles on and off and do not show. A closing tag closes the last open tag of its style, or
simply the last one if it names no style; there must be one. An odd number of backslashes in front
of a tag makes it plain text; of the others every second one shows. A tag that begins with `@` may
have parameters behind an equals sign; they are evaluated when the tag is closed. In plain text the
name of an emoji between colons stands for it.

Only what shows is kept: styles have no effect on a plain text.
-/

namespace QueryDepth.Console

inductive MarkupError where
  /-- The tag, in brackets, and its offset. -/
  | noSuchTag (tag : String) (pos : Nat)
  | nothingToClose (pos : Nat)
  /-- The parameters of a tag, the literal in them, and what is wrong with it. -/
  | badParameters (parameters literal : String) (error : LiteralError)
deriving DecidableEq, Repr

def MarkupError.message : MarkupError → String
  | .noSuchTag tag pos =>
    "closing tag '" ++ tag ++ "' at position " ++ Decimal.natText pos
      ++ " doesn't match any open tag"
  | .nothingToClose pos =>
    "closing tag '[/]' at position " ++ Decimal.natText pos ++ " has nothing to close"
  | .badParameters parameters literal (.malformed words) =>
    "error parsing " ++ Text.quoted literal ++ " in " ++ Text.quoted parameters ++ "; " ++ words
  | .badParameters parameters _ (.unreadable words) =>
    "error parsing " ++ Text.quoted parameters ++ "; " ++ words

/-! ## Parts -/

inductive MarkupPart where
  | text (text : List Char)
  /-- What stands between the brackets, and the offset of the tag. -/
  | tag (pos : Nat) (body : List Char)
deriving DecidableEq, Repr

def startsTag (c : Char) : Bool := ('a' ≤ c && c ≤ 'z') || c = '#' || c = '/' || c = '@'

/-- What stands in brackets at the beginning of a text, if that is a tag, and the rest. -/
def takeTag? : List Char → Option (List Char × List Char)
  | '[' :: c :: cs =>
    let inner := cs.takeWhile fun d => d ≠ '[' ∧ d ≠ ']'
    match cs.drop inner.length with
    | ']' :: rest => if startsTag c then some (c :: inner, rest) else none
    | _ => none
  | _ => none

/-- The parts of a text with this offset, where some text was read before. `fuel` bounds the number
of steps; each takes a character. -/
def markupParts : Nat → Nat → List Char → List Char → List MarkupPart
  | 0, _, before, rest => [.text (before ++ rest)]
  | _, _, before, [] => [.text before]
  | fuel + 1, pos, before, c :: rest =>
    let slashes := ((c :: rest).takeWhile (· = '\\')).length
    match takeTag? ((c :: rest).drop slashes) with
    | none => markupParts fuel (pos + 1) (before ++ [c]) rest
    | some (body, after) =>
      let shown := MarkupPart.text (List.replicate (slashes / 2) '\\')
      let next := pos + slashes + body.length + 2
      if slashes % 2 = 1 then
        .text before :: shown :: .text ('[' :: body ++ [']']) :: markupParts fuel next [] after
      else .text before :: shown :: .tag (pos + slashes) body :: markupParts fuel next [] after

/-! ## Emoji -/

/-- A name without the variant at its end, and the character that asks for this variant. -/
def splitVariant (name : List Char) : List Char × List Char :=
  if "-emoji".toList.isSuffixOf name then (name.take (name.length - 6), ['\uFE0F'])
  else if "-text".toList.isSuffixOf name then (name.take (name.length - 5), ['\uFE0E'])
  else (name, [])

section

variable [MarkupLibrary]

/-- What a name between colons shows: an emoji, or itself if it is the name of none. -/
def codeText (name : List Char) : List Char :=
  let (base, variant) := splitVariant name
  match base with
  | [] => ':' :: name ++ [':']
  | _ =>
    match MarkupLibrary.emoji? (Text.lower (String.ofList base)) with
    | some emoji => emoji.toList ++ variant
    | none => ':' :: name ++ [':']

/-- A text with emoji in place of their names. So many characters are passed over at first, because
they belong to a name that was read before. -/
def replaceCodes : Nat → List Char → List Char
  | _, [] => []
  | skipped + 1, _ :: cs => replaceCodes skipped cs
  | 0, c :: cs =>
    let name := cs.takeWhile fun d => d ≠ ':' ∧ Text.isBlank d = false
    if c = ':' ∧ cs[name.length]? = some ':' then
      codeText name ++ replaceCodes (name.length + 1) cs
    else c :: replaceCodes 0 cs

end

/-! ## Tags -/

/-- A tag that is open: how its style is listed, and its parameters. -/
structure OpenTag where
  name : String
  parameters : List Char
deriving DecidableEq, Repr

/-- What the body of an opening tag opens. -/
def OpenTag.ofBody (body : List Char) : OpenTag :=
  let name := body.takeWhile (· ≠ '=')
  ⟨normalName (String.ofList name), body.drop (name.length + 1)⟩

/-- The literal in some parameters: the arguments in parentheses behind a name, or all of them. A
name without arguments has none. -/
def literalOf (parameters : List Char) : List Char :=
  let written := trimBlanks parameters
  let arguments := written.dropWhile fun c => Text.isWord c || c = '.'
  if arguments.isEmpty then ['(', ')']
  else if arguments.head? = some '(' ∧ arguments.getLast? = some ')' ∧ '\n' ∉ arguments then
    arguments
  else written

/-- What is wrong with closing a tag: its parameters cannot be evaluated. -/
def OpenTag.closingError? [MarkupLibrary] (tag : OpenTag) : Option MarkupError :=
  if tag.name.toList.head? = some '@' ∧ tag.parameters ≠ [] then
    let literal := String.ofList (literalOf tag.parameters)
    (MarkupLibrary.literalError? literal).map
      (.badParameters (String.ofList tag.parameters) literal)
  else none

/-- The last open tag of a name, and the others. -/
def popTag? (name : String) : List OpenTag → Option (OpenTag × List OpenTag)
  | [] => none
  | tag :: rest =>
    if tag.name = name then some (tag, rest)
    else (popTag? name rest).map fun (popped, more) => (popped, tag :: more)

/-- The tag that a closing tag closes, and the others. No style means the last one. -/
def closedBy (opened : List OpenTag) (pos : Nat) (body style : List Char) :
    Except MarkupError (OpenTag × List OpenTag) :=
  if style.isEmpty then
    match opened with
    | tag :: rest => .ok (tag, rest)
    | [] => .error (.nothingToClose pos)
  else
    match popTag? (normalName (String.ofList style)) opened with
    | some popped => .ok popped
    | none => .error (.noSuchTag (String.ofList ('[' :: body ++ [']'])) pos)

/-- Opens or closes a tag. The tags that are open are listed last first. -/
def applyTag [MarkupLibrary] (opened : List OpenTag) (pos : Nat) (body : List Char) :
    Except MarkupError (List OpenTag) :=
  match body.takeWhile (· ≠ '=') with
  | '/' :: style =>
    match closedBy opened pos body (trimBlanks style) with
    | .ok (tag, rest) =>
      match tag.closingError? with
      | some e => .error e
      | none => .ok rest
    | .error e => .error e
  | _ => .ok (.ofBody body :: opened)

/-! ## What shows -/

/-- Control characters that are never printed. -/
def isSilent (c : Char) : Bool :=
  c = '\x07' || c = '\x08' || c = '\x0b' || c = '\x0c' || c = '\r'

/-- A bracket behind a backslash is a bracket. -/
def unescapeBrackets : List Char → List Char
  | '\\' :: '[' :: rest => '[' :: unescapeBrackets rest
  | c :: rest => c :: unescapeBrackets rest
  | [] => []

section

variable [MarkupLibrary]

/-- What shows of a text between tags. -/
def shownText (t : List Char) : List Char :=
  (replaceCodes 0 (unescapeBrackets t)).filter fun c => !isSilent c

/-- What shows of some parts. -/
def showParts : List OpenTag → List MarkupPart → Except MarkupError (List Char)
  | _, [] => .ok []
  | opened, .text t :: rest => do return shownText t ++ (← showParts opened rest)
  | opened, .tag pos body :: rest => do showParts (← applyTag opened pos body) rest

/-- What shows of a text with markup. -/
def render (markup : List Char) : Except MarkupError (List Char) :=
  showParts [] (markupParts markup.length 0 [] markup)

end

end QueryDepth.Console
