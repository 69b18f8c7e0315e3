import QueryDepth.Pattern.Basic

/-!
# Searching for a pattern

`Regex.run` tries the ways in which a regular expression matches at a place, in order, and hands
each to a continuation until one is accepted. Repetition is bounded by the characters that are
left: beyond the least count an iteration that takes nothing is not repeated.
-/

namespace QueryDepth

/-! ## Characters -/

def CharKind.test (ascii : Bool) (c : Char) : CharKind → Bool
  | .digit => if ascii then Text.Ascii.isDigit c else Text.isDecimal c
  | .blank => if ascii then Text.Ascii.isBlank c else Text.isBlank c
  | .word => if ascii then Text.Ascii.isWord c else Text.isWord c

namespace CaseMode

/-- Whether the text's character `c` counts as the pattern's character `x`. -/
def same (mode : CaseMode) (x c : Char) : Bool :=
  match mode with
  | .exact => x = c
  | .ascii => Text.Ascii.toLower x = Text.Ascii.toLower c
  | .full => (Text.lowerClass (Text.lowerCode x.toNat)).contains (Text.lowerCode c.toNat)

def lower (mode : CaseMode) (c : Char) : Char :=
  match mode with
  | .exact => c
  | .ascii => Text.Ascii.toLower c
  | .full => Text.toLower c

/-- The code points that count as `c`. -/
def variants (mode : CaseMode) (c : Char) : List Nat :=
  match mode with
  | .exact => [c.toNat]
  | .ascii =>
    let l := Text.Ascii.toLower c
    if 'a' ≤ l ∧ l ≤ 'z' then [l.toNat, l.toNat - 32] else [c.toNat]
  | .full => Text.caseClass c.toNat

end CaseMode

def SetItem.test (mode : CaseMode) (c : Char) : SetItem → Bool
  | .char x => mode.same x c
  | .range a b => (mode.variants c).any fun n => a.toNat ≤ n && n ≤ b.toNat
  | .kind k negated ascii => k.test ascii (mode.lower c) != negated

/-! ## Places -/

/-- A place in a text: the characters before it, the last one first, and those after it. -/
structure Place where
  before : List Char
  after : List Char
deriving DecidableEq, Repr

namespace Place

def start (text : List Char) : Place := ⟨[], text⟩

/-- Goes back over `n` characters. -/
def back : Nat → Place → Option Place
  | 0, p => some p
  | _ + 1, ⟨[], _⟩ => none
  | n + 1, ⟨c :: before, after⟩ => back n ⟨before, c :: after⟩

/-- Goes on over `n` characters. -/
def forward : Nat → Place → Place
  | 0, p => p
  | _ + 1, ⟨before, []⟩ => ⟨before, []⟩
  | n + 1, ⟨before, c :: after⟩ => forward n ⟨c :: before, after⟩

def isWordAt (ascii : Bool) : List Char → Bool
  | c :: _ => CharKind.word.test ascii c
  | [] => false

end Place

/-- A boundary is where a word begins or ends. The empty text has neither a boundary nor an
inside. -/
def Anchor.holds (p : Place) : Anchor → Bool
  | .textStart => p.before.isEmpty
  | .lineStart => match p.before with
    | [] => true
    | c :: _ => c = '\n'
  | .lastLineEnd => p.after.isEmpty || p.after = ['\n']
  | .lineEnd => match p.after with
    | [] => true
    | c :: _ => c = '\n'
  | .textEnd => p.after.isEmpty
  | .boundary ascii =>
    !(p.before.isEmpty && p.after.isEmpty)
      && Place.isWordAt ascii p.before != Place.isWordAt ascii p.after
  | .inside ascii =>
    !(p.before.isEmpty && p.after.isEmpty)
      && Place.isWordAt ascii p.before == Place.isWordAt ascii p.after

/-! ## Matching -/

/-- What the groups took, the latest first. -/
abbrev Captures := List (Nat × List Char)

abbrev Hit := Place × Captures

abbrev Cont := Place → Captures → Option Hit

/-- The rest of a text after a literal that is matched up to case. -/
def stripLiteral (mode : CaseMode) : List Char → Place → Option Place
  | [], p => some p
  | x :: xs, ⟨before, c :: after⟩ =>
    if mode.lower x = mode.lower c then stripLiteral mode xs ⟨c :: before, after⟩ else none
  | _ :: _, ⟨_, []⟩ => none

def belowMost (most : Option Nat) (count : Nat) : Bool :=
  match most with
  | none => true
  | some m => count < m

/-- Repeats `step`, as often as possible or as rarely as possible first. `last` is how many
characters were left when the latest optional iteration began. -/
def repeatStep (step : Place → Captures → Cont → Option Hit) (least : Nat) (most : Option Nat)
    (rarely : Bool) (k : Cont) : Nat → Nat → Option Nat → Place → Captures → Option Hit
  | 0, _, _, p, caps => k p caps
  | fuel + 1, count, last, p, caps =>
    if count < least then
      step p caps (repeatStep step least most rarely k fuel (count + 1) last)
    else
      let more (_ : Unit) : Option Hit :=
        if belowMost most count && last != some p.after.length then
          step p caps (repeatStep step least most rarely k fuel (count + 1) (some p.after.length))
        else none
      if rarely then (k p caps).orElse more
      else (more ()).orElse fun _ => k p caps

/-- Repeats `step` as often as possible and keeps the first way of each iteration. -/
def repeatFirm (step : Place → Captures → Cont → Option Hit) (least : Nat) (most : Option Nat) :
    Nat → Nat → Option Nat → Place → Captures → Option Hit
  | 0, _, _, p, caps => some (p, caps)
  | fuel + 1, count, last, p, caps =>
    if count < least then
      match step p caps fun p caps => some (p, caps) with
      | some (p, caps) => repeatFirm step least most fuel (count + 1) last p caps
      | none => none
    else if belowMost most count && last != some p.after.length then
      match step p caps fun p caps => some (p, caps) with
      | some (q, caps) => repeatFirm step least most fuel (count + 1) (some p.after.length) q caps
      | none => some (p, caps)
    else some (p, caps)

namespace Regex

/-- The first way in which the expression matches at a place and the continuation accepts. -/
def run : Regex → Place → Captures → Cont → Option Hit
  | .empty, p, caps, k => k p caps
  | .never, _, _, _ => none
  | .char mode x, p, caps, k =>
    match p.after with
    | c :: after => if mode.same x c then k ⟨c :: p.before, after⟩ caps else none
    | [] => none
  | .any lineFeed, p, caps, k =>
    match p.after with
    | c :: after => if lineFeed || c != '\n' then k ⟨c :: p.before, after⟩ caps else none
    | [] => none
  | .set mode negated items, p, caps, k =>
    match p.after with
    | c :: after =>
      if items.any (·.test mode c) != negated then k ⟨c :: p.before, after⟩ caps else none
    | [] => none
  | .anchor a, p, caps, k => if a.holds p then k p caps else none
  | .cat a b, p, caps, k => a.run p caps fun p caps => b.run p caps k
  | .alt a b, p, caps, k => (a.run p caps k).orElse fun _ => b.run p caps k
  | .group none body, p, caps, k => body.run p caps k
  | .group (some i) body, p, caps, k =>
    body.run p caps fun q caps => k q ((i, p.after.take (p.after.length - q.after.length)) :: caps)
  | .backref mode i, p, caps, k =>
    match caps.lookup i with
    | none => none
    | some text =>
      match stripLiteral mode text p with
      | some q => k q caps
      | none => none
  | .times least most greed body, p, caps, k =>
    let fuel := least + p.after.length + 2
    match greed with
    | .greedy => repeatStep body.run least most false k fuel 0 none p caps
    | .lazy => repeatStep body.run least most true k fuel 0 none p caps
    | .possessive =>
      match repeatFirm body.run least most fuel 0 none p caps with
      | some (q, caps) => k q caps
      | none => none
  | .ahead negated body, p, caps, k =>
    match body.run p caps fun p caps => some (p, caps) with
    | some (_, inner) => if negated then none else k p inner
    | none => if negated then k p caps else none
  | .behind negated width body, p, caps, k =>
    match p.back width with
    | none => if negated then k p caps else none
    | some q =>
      match body.run q caps fun p caps => some (p, caps) with
      | some (_, inner) => if negated then none else k p inner
      | none => if negated then k p caps else none
  | .atomic body, p, caps, k =>
    match body.run p caps fun p caps => some (p, caps) with
    | some (q, caps) => k q caps
    | none => none
  | .conditional i yes no, p, caps, k =>
    if (caps.lookup i).isSome then yes.run p caps k else no.run p caps k

/-- Whether the expression matches at a place. -/
def matchesAt (r : Regex) (p : Place) : Bool := (r.run p [] fun p caps => some (p, caps)).isSome

/-- Whether the expression matches somewhere from the place on. -/
def searchFrom (r : Regex) : List Char → List Char → Bool
  | before, [] => r.matchesAt ⟨before, []⟩
  | before, c :: after => r.matchesAt ⟨before, c :: after⟩ || searchFrom r (c :: before) after

end Regex

/-- Whether the pattern matches somewhere in a text. -/
def Pattern.search (p : Pattern) (text : String) : Bool := p.regex.searchFrom [] text.toList

end QueryDepth
