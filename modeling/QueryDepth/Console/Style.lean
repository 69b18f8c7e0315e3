import QueryDepth.Text.Decimal
import QueryDepth.Text.Lower
import QueryDepth.Text.WordChars

/-!
# Names of styles

A style is named by words: attributes, which may be negated or written by a letter, a colour, a
colour of the background, a link. `Style.normalName` writes the same style always in the same way; a
name that is no style is only brought into lower case.
-/

namespace QueryDepth.Console

/-- The colours that have names. -/
def colorNames : List String :=
  ["black", "red", "green", "yellow", "blue", "magenta", "cyan", "white", "bright_black",
   "bright_red", "bright_green", "bright_yellow", "bright_blue", "bright_magenta", "bright_cyan",
   "bright_white", "grey0", "gray0", "navy_blue", "dark_blue", "blue3", "blue1", "dark_green",
   "deep_sky_blue4", "dodger_blue3", "dodger_blue2", "green4", "spring_green4", "turquoise4",
   "deep_sky_blue3", "dodger_blue1", "green3", "spring_green3", "dark_cyan", "light_sea_green",
   "deep_sky_blue2", "deep_sky_blue1", "spring_green2", "cyan3", "dark_turquoise", "turquoise2",
   "green1", "spring_green1", "medium_spring_green", "cyan2", "cyan1", "dark_red", "deep_pink4",
   "purple4", "purple3", "blue_violet", "orange4", "grey37", "gray37", "medium_purple4",
   "slate_blue3", "royal_blue1", "chartreuse4", "dark_sea_green4", "pale_turquoise4", "steel_blue",
   "steel_blue3", "cornflower_blue", "chartreuse3", "cadet_blue", "sky_blue3", "steel_blue1",
   "pale_green3", "sea_green3", "aquamarine3", "medium_turquoise", "chartreuse2", "sea_green2",
   "sea_green1", "aquamarine1", "dark_slate_gray2", "dark_magenta", "dark_violet", "purple",
   "light_pink4", "plum4", "medium_purple3", "slate_blue1", "yellow4", "wheat4", "grey53",
   "gray53", "light_slate_grey", "light_slate_gray", "medium_purple", "light_slate_blue",
   "dark_olive_green3", "dark_sea_green", "light_sky_blue3", "sky_blue2", "dark_sea_green3",
   "dark_slate_gray3", "sky_blue1", "chartreuse1", "light_green", "pale_green1",
   "dark_slate_gray1", "red3", "medium_violet_red", "magenta3", "dark_orange3", "indian_red",
   "hot_pink3", "medium_orchid3", "medium_orchid", "medium_purple2", "dark_goldenrod",
   "light_salmon3", "rosy_brown", "grey63", "gray63", "medium_purple1", "gold3", "dark_khaki",
   "navajo_white3", "grey69", "gray69", "light_steel_blue3", "light_steel_blue", "yellow3",
   "dark_sea_green2", "light_cyan3", "light_sky_blue1", "green_yellow", "dark_olive_green2",
   "dark_sea_green1", "pale_turquoise1", "deep_pink3", "magenta2", "hot_pink2", "orchid",
   "medium_orchid1", "orange3", "light_pink3", "pink3", "plum3", "violet", "light_goldenrod3",
   "tan", "misty_rose3", "thistle3", "plum2", "khaki3", "light_goldenrod2", "light_yellow3",
   "grey84", "gray84", "light_steel_blue1", "yellow2", "dark_olive_green1", "honeydew2",
   "light_cyan1", "red1", "deep_pink2", "deep_pink1", "magenta1", "orange_red1", "indian_red1",
   "hot_pink", "dark_orange", "salmon1", "light_coral", "pale_violet_red1", "orchid2", "orchid1",
   "orange1", "sandy_brown", "light_salmon1", "light_pink1", "pink1", "plum1", "gold1",
   "navajo_white1", "misty_rose1", "thistle1", "yellow1", "light_goldenrod1", "khaki1", "wheat1",
   "cornsilk1", "grey100", "gray100", "grey3", "gray3", "grey7", "gray7", "grey11", "gray11",
   "grey15", "gray15", "grey19", "gray19", "grey23", "gray23", "grey27", "gray27", "grey30",
   "gray30", "grey35", "gray35", "grey39", "gray39", "grey42", "gray42", "grey46", "gray46",
   "grey50", "gray50", "grey54", "gray54", "grey58", "gray58", "grey62", "gray62", "grey66",
   "gray66", "grey70", "gray70", "grey74", "gray74", "grey78", "gray78", "grey82", "gray82",
   "grey85", "gray85", "grey89", "gray89", "grey93", "gray93"]

/-- Attributes in the order in which they are written. -/
def attributeNames : List String :=
  ["bold", "dim", "italic", "underline", "blink", "blink2", "reverse", "conceal", "strike",
   "underline2", "frame", "encircle", "overline"]

/-- Letters that stand for attributes. -/
def attributeLetters : List (String × String) :=
  [("b", "bold"), ("d", "dim"), ("i", "italic"), ("u", "underline"), ("r", "reverse"),
   ("c", "conceal"), ("s", "strike"), ("uu", "underline2"), ("o", "overline")]

/-- The attribute that a word means. -/
def attribute? (word : String) : Option String :=
  if attributeNames.contains word then some word else attributeLetters.lookup word

def isHexDigit (c : Char) : Bool := ('0' ≤ c && c ≤ '9') || ('a' ≤ c && c ≤ 'f')

/-- A number of at most three digits that is less than 256. -/
def isByte (cs : List Char) : Bool :=
  !cs.isEmpty && cs.all (fun c => '0' ≤ c && c ≤ '9') && Decimal.natOfDigits cs ≤ 255

/-- What stands between a word with a parenthesis and the closing parenthesis. -/
def insideParens? (word : String) (cs : List Char) : Option (List Char) :=
  let opening := word.toList ++ ['(']
  if opening.isPrefixOf cs && cs.getLast? = some ')' then some (cs.drop opening.length).dropLast
  else none

/-- The pieces between commas. -/
def splitCommas : List Char → List (List Char)
  | [] => [[]]
  | ',' :: rest => [] :: splitCommas rest
  | c :: rest =>
    match splitCommas rest with
    | [] => [[c]]
    | piece :: pieces => (c :: piece) :: pieces

/-- Whether a word in lower case is a colour: a name, `#` with six digits, a number or three. -/
def isColor (word : String) : Bool :=
  let cs := word.toList
  word == "default" || colorNames.contains word
    || (match cs with
      | '#' :: digits => digits.length == 6 && digits.all isHexDigit
      | _ => false)
    || (insideParens? "color" cs).any (fun digits => digits.length ≤ 3 && isByte digits)
    || (insideParens? "rgb" cs).any fun inner =>
      let parts := splitCommas inner
      parts.length == 3 && parts.all isByte

structure Style where
  /-- Attributes that are set or taken back. -/
  attributes : List (String × Bool)
  color : Option String
  background : Option String
  link : Option String

namespace Style

def plain : Style := ⟨[], none, none, none⟩

def setAttribute (style : Style) (name : String) (value : Bool) : Style :=
  { style with attributes := (name, value) :: style.attributes }

/-- Reads the words of a style. -/
def ofWords? (style : Style) : List String → Option Style
  | [] => some style
  | written :: rest =>
    let word := Text.lower written
    if word = "on" then
      match rest with
      | color :: rest =>
        if isColor (Text.lower color) then
          ofWords? { style with background := some (Text.lower color) } rest
        else none
      | [] => none
    else if word = "not" then
      match rest with
      | name :: rest =>
        match attribute? name with
        | some name => ofWords? (style.setAttribute name false) rest
        | none => none
      | [] => none
    else if word = "link" then
      match rest with
      | target :: rest => ofWords? { style with link := some target } rest
      | [] => none
    else
      match attribute? word with
      | some name => ofWords? (style.setAttribute name true) rest
      | none =>
        if isColor word then ofWords? { style with color := some word } rest else none

def words (style : Style) : List String :=
  (attributeNames.flatMap fun name =>
    match style.attributes.lookup name with
    | some true => [name]
    | some false => ["not", name]
    | none => [])
    ++ style.color.toList
    ++ (match style.background with
      | some color => ["on", color]
      | none => [])
    ++ (match style.link with
      | some target => ["link", target]
      | none => [])

def text (style : Style) : String :=
  match style.words with
  | [] => "none"
  | words => " ".intercalate words

end Style

/-- The words of a text, between blanks. -/
def blankWords : List Char → List (List Char)
  | [] => []
  | c :: rest =>
    if Text.isBlank c then blankWords rest
    else
      match rest with
      | [] => [[c]]
      | d :: _ =>
        if Text.isBlank d then [c] :: blankWords rest
        else
          match blankWords rest with
          | [] => [[c]]
          | word :: more => (c :: word) :: more

/-- A text without blanks at its ends. -/
def trimBlanks (cs : List Char) : List Char :=
  ((cs.dropWhile Text.isBlank).reverse.dropWhile Text.isBlank).reverse

/-- The style that a name means, always written in the same way. -/
def normalName (name : String) : String :=
  match Style.plain.ofWords? ((blankWords name.toList).map String.ofList) with
  | some style => style.text
  | none => Text.lower (String.ofList (trimBlanks name.toList))

end QueryDepth.Console
