import QueryDepth.Document.Token
import QueryDepth.Text.Location

/-!
# Syntax errors

Why a text is no document, the offset where this shows, and the wording.
-/

namespace QueryDepth

inductive SyntaxFault where
  | lexical (fault : LexicalFault)
  /-- A punctuator was needed. -/
  | expectedPunct (p : Punctuator) (found : Token)
  | expectedName (found : Token)
  | expectedKeyword (word : String) (found : Token)
  | expectedEnd (found : Token)
  | unexpected (found : Token)
  | variableInConstant (name : String)
  | misplacedDescription
  | reservedEnumValue (found : Token)
deriving DecidableEq, Repr

structure SyntaxError where
  fault : SyntaxFault
  pos : Nat
deriving DecidableEq, Repr

/-- A code point with at least four digits: `U+00E9`. -/
def codePointText (c : Char) : String :=
  let digits := (Nat.toDigits 16 c.toNat).map Char.toUpper
  "U+" ++ String.ofList (Decimal.padLeft 4 '0' digits)

/-- A character as a message shows it: printable ASCII in quotes, all else by its code point. -/
def shownChar : Option Char → String
  | none => "<EOF>"
  | some c =>
    if c = '"' then "'\"'"
    else if ' ' ≤ c ∧ c ≤ '~' then "'" ++ String.singleton c ++ "'"
    else codePointText c

namespace Token

/-- The value that a token carries, if it is not empty. -/
def value? : Token → Option String
  | .name s | .int s | .float s | .string s | .blockString s => if s.isEmpty then none else some s
  | _ => none

def kindText : Token → String
  | .punct p => "'" ++ p.text ++ "'"
  | .name _ => "Name"
  | .int _ => "Int"
  | .float _ => "Float"
  | .string _ => "String"
  | .blockString _ => "BlockString"
  | .eof => "<EOF>"
  | .invalid _ => "<EOF>"

/-- A token as a message shows it. -/
def describe (t : Token) : String :=
  match t.value? with
  | some v => t.kindText ++ " '" ++ v ++ "'"
  | none => t.kindText

end Token

def LexicalFault.message : LexicalFault → String
  | .unexpectedCharacter c => "Unexpected character: " ++ shownChar (some c) ++ "."
  | .singleQuote =>
    "Unexpected single quote character ('), did you mean to use a double quote (\")?"
  | .digitAfterZero c =>
    "Invalid number, unexpected digit after 0: " ++ shownChar (some c) ++ "."
  | .expectedDigit c => "Invalid number, expected digit but got: " ++ shownChar c ++ "."
  | .unterminatedString => "Unterminated string."
  | .escape text => "Invalid character escape sequence: '" ++ text ++ "'."
  | .unicodeEscape text => "Invalid Unicode escape sequence: '" ++ text ++ "'."

namespace SyntaxFault

def describe : SyntaxFault → String
  | .lexical fault => fault.message
  | .expectedPunct p found => "Expected '" ++ p.text ++ "', found " ++ found.describe ++ "."
  | .expectedName found => "Expected Name, found " ++ found.describe ++ "."
  | .expectedKeyword word found => "Expected '" ++ word ++ "', found " ++ found.describe ++ "."
  | .expectedEnd found => "Expected <EOF>, found " ++ found.describe ++ "."
  | .unexpected found => "Unexpected " ++ found.describe ++ "."
  | .variableInConstant name => "Unexpected variable '$" ++ name ++ "' in constant value."
  | .misplacedDescription =>
    "Unexpected description, descriptions are supported only on type definitions."
  | .reservedEnumValue found =>
    found.describe ++ " is reserved and cannot be used for an enum value."

end SyntaxFault

def SyntaxError.message (e : SyntaxError) : String := "Syntax Error: " ++ e.fault.describe

/-- Where the error shows in the text that was read. -/
def SyntaxError.location (e : SyntaxError) (text : List Char) : Location :=
  Location.ofOffset text e.pos

end QueryDepth
