import QueryDepth.Proofs.Document.Reading
import QueryDepth.Proofs.Document.Spelling

/-!
# Where selections stand

Every selection of a document that was read from a text, however deep it is nested, was read by
itself from the tokens that begin at its offset.

**Theorem (`Document.spelledIn`).** A selection is what the reader of selections makes of the tokens
from its offset on, and at this offset the text spells its first token: the alias or the name of a
field, and three points before a spread or an inline fragment.

`Ensures` is a triple about all ends of the tokens of a text: what the reader makes of such an end
has the property. It passes through sequencing and branching like `Suffixed`. The run of a reader of
selections is itself the evidence for the selection that it answers, so only those below it need the
induction.
-/

namespace QueryDepth

namespace Selection

/-- The selections right below a selection. -/
def children : Selection → List Selection
  | .field _ selections | .inlineFragment _ selections => selections
  | .spread _ => []

/-- The selection is the other one or stands somewhere below it. -/
inductive Within (inner : Selection) : Selection → Prop
  | self : Within inner inner
  | deeper {outer s : Selection} : s ∈ outer.children → Within inner s → Within inner outer

/-- The token that a selection begins with. -/
def opening : Selection → Token
  | .field f _ => .name f.responseName
  | .spread _ | .inlineFragment _ _ => .punct .spread

/-- The selection is what is read from its offset on, where its first token is spelled. -/
structure SpelledIn (text : List Char) (sel : Selection) : Prop where
  read : ∃ fuel tokens rest, ⟨sel.pos, sel.opening⟩ :: tokens <:+ Token.scan text ∧
    (Parser.selection fuel).run (⟨sel.pos, sel.opening⟩ :: tokens) = .ok (sel, rest)
  spelled : sel.opening.spelling <+: text.drop sel.pos

end Selection

def Definition.selections : Definition → List Selection
  | .operation op => op.selections
  | .fragment f => f.selections
  | _ => []

/-- The selection stands somewhere in an operation or a fragment. -/
def Document.HasSelection (doc : Document) (sel : Selection) : Prop :=
  ∃ d ∈ doc.definitions, ∃ s ∈ d.selections, sel.Within s

namespace Parser

variable {α β : Type} {tokens : List Lexeme}

/-! ## What readers ensure -/

/-- What the reader makes of an end of the tokens has the property, and it leaves an end of them. -/
def Ensures (tokens : List Lexeme) (good : α → Prop) (p : Parser α) : Prop :=
  ∀ ⦃ts a rest⦄, ts <:+ tokens → p.run ts = .ok (a, rest) → good a ∧ rest <:+ tokens

namespace Ensures

variable {good : α → Prop}

theorem pure {a : α} (h : good a) : Ensures tokens good (Pure.pure a) := by
  intro ts b rest hts hrun
  cases hrun
  exact ⟨h, hts⟩

theorem fail (pos : Nat) (fault : SyntaxFault) : Ensures tokens good (fail pos fault) :=
  fun _ _ _ _ h => absurd h nofun

theorem ite {c : Prop} [Decidable c] {p q : Parser α} (hp : Ensures tokens good p)
    (hq : Ensures tokens good q) : Ensures tokens good (if c then p else q) := by
  split
  · exact hp
  · exact hq

theorem bind {found : β → Prop} {p : Parser β} {f : β → Parser α} (hp : Ensures tokens found p)
    (hf : ∀ b, found b → Ensures tokens good (f b)) : Ensures tokens good (p >>= f) := by
  intro ts a rest hts h
  obtain ⟨b, mid, hfirst, hsecond⟩ := run_bind_eq_ok h
  obtain ⟨hfound, hmid⟩ := hp hts hfirst
  exact hf b hfound hmid hsecond

theorem skip {p : Parser β} {f : β → Parser α} (hp : Suffixed p)
    (hf : ∀ b, Ensures tokens good (f b)) : Ensures tokens good (p >>= f) :=
  have htrivial : Ensures tokens (fun _ => True) p := fun _ _ _ hts h =>
    ⟨trivial, (hp h).trans hts⟩
  .bind htrivial fun b _ => hf b

theorem until_ {item : Parser α} (hitem : Ensures tokens good item) (close : Punctuator)
    (fuel : Nat) : Ensures tokens (fun as => ∀ a ∈ as, good a) (until_ item close fuel) := by
  induction fuel with
  | zero => exact .skip .current fun _ => .fail _ _
  | succ fuel ih =>
    exact .skip (.accept close) fun _ => .ite (.pure fun _ h => absurd h List.not_mem_nil)
      (.bind hitem fun _ hfirst => .bind ih fun _ hmore =>
        .pure (List.forall_mem_cons.2 ⟨hfirst, hmore⟩))

theorem many {item : Parser α} (hitem : Ensures tokens good item) (opening close : Punctuator)
    (fuel : Nat) : Ensures tokens (fun r => ∀ a ∈ r.2, good a) (many opening item close fuel) :=
  .skip (.expect opening) fun _ => .bind hitem fun _ hfirst =>
    .bind (hitem.until_ close fuel) fun _ hmore =>
      .pure (List.forall_mem_cons.2 ⟨hfirst, hmore⟩)

end Ensures

/-! ## What a selection begins with -/

theorem run_accept_eq_ok {p : Punctuator} {ts rest : List Lexeme} {b : Bool}
    (h : (accept p).run ts = .ok (b, rest)) :
    if b then ts = ⟨(ts.headD ⟨0, .eof⟩).pos, .punct p⟩ :: rest else rest = ts := by
  obtain ⟨l, ts, hcurrent, htake⟩ := run_bind_eq_ok h
  obtain ⟨rfl, rfl⟩ := run_current_eq_ok hcurrent
  split at htake
  · next htoken =>
    obtain ⟨_, _, hadvance, hpure⟩ := run_bind_eq_ok htake
    cases hpure
    rw [run_advance_eq_ok hadvance, if_pos rfl]
    cases ts with
    | nil => exact absurd htoken nofun
    | cons l ts =>
      rw [← htoken]
      rfl
  · cases htake
    rfl

theorem run_fieldName_eq_ok {ts rest : List Lexeme} {aliasName : Option Name} {n : Name}
    (h : fieldName.run ts = .ok ((aliasName, n), rest)) :
    ∃ tail, ts = ⟨(aliasName.getD n).pos, .name (aliasName.getD n).value⟩ :: tail := by
  obtain ⟨first, mid, hfirst, hmore⟩ := run_bind_eq_ok h
  obtain ⟨b, mid', hcolon, hlast⟩ := run_bind_eq_ok hmore
  refine ⟨mid, ?_⟩
  rw [run_name_eq_ok hfirst]
  cases b with
  | true =>
    obtain ⟨second, _, _, hpure⟩ := run_bind_eq_ok hlast
    cases hpure
    rfl
  | false =>
    cases hlast
    rfl

/-- A selection has the offset of its first token. -/
theorem run_selection_eq_ok {fuel : Nat} {ts rest : List Lexeme} {sel : Selection}
    (h : (selection fuel).run ts = .ok (sel, rest)) :
    ∃ tail, ts = ⟨sel.pos, sel.opening⟩ :: tail := by
  cases fuel with
  | zero =>
    obtain ⟨_, _, _, hfail⟩ := run_bind_eq_ok h
    exact absurd hfail nofun
  | succ fuel =>
    obtain ⟨l, ts, hcurrent, hrun⟩ := run_bind_eq_ok h
    obtain ⟨rfl, rfl⟩ := run_current_eq_ok hcurrent
    obtain ⟨b, mid, hspread, hrun⟩ := run_bind_eq_ok hrun
    have hts := run_accept_eq_ok hspread
    cases b with
    | true =>
      rw [if_pos rfl] at hts
      have hbegins : sel.pos = (ts.headD ⟨0, .eof⟩).pos ∧ sel.opening = .punct .spread := by
        have hset := (Suffixed.selection fuel).many .braceL .braceR fuel
        refine ((?_ : Ensures mid (fun sel : Selection => sel.pos = (ts.headD ⟨0, .eof⟩).pos ∧
          sel.opening = .punct .spread) _) List.suffix_rfl hrun).1
        refine .skip (.acceptKeyword "on") fun _ => .skip .peekName fun _ => .ite
          (.skip .fragmentName fun _ =>
            .skip (.directives false fuel fuel) fun _ => .pure ⟨rfl, rfl⟩)
          (.ite (.skip (.map some .name) fun _ => ?_) (.skip (.pure none) fun _ => ?_))
        all_goals
          exact .skip (.directives false fuel fuel) fun _ => .skip hset fun _ => .pure ⟨rfl, rfl⟩
      exact ⟨mid, by rw [hbegins.1, hbegins.2]; exact hts⟩
    | false =>
      rw [if_neg Bool.false_ne_true] at hts
      subst hts
      obtain ⟨⟨aliasName, n⟩, _, hname, hrun⟩ := run_bind_eq_ok hrun
      obtain ⟨tail, rfl⟩ := run_fieldName_eq_ok hname
      refine ⟨tail, ?_⟩
      obtain ⟨args, _, _, hrun⟩ := run_bind_eq_ok hrun
      obtain ⟨ds, _, _, hrun⟩ := run_bind_eq_ok hrun
      obtain ⟨b, _, _, hrun⟩ := run_bind_eq_ok hrun
      cases b with
      | true =>
        obtain ⟨set, _, _, hpure⟩ := run_bind_eq_ok hrun
        cases hpure
        rfl
      | false =>
        cases hrun
        rfl

/-! ## Selections and those below them -/

/-- The selection was read from an end of the tokens. -/
def ReadFrom (tokens : List Lexeme) (sel : Selection) : Prop :=
  ∃ fuel ts rest, ts <:+ tokens ∧ (selection fuel).run ts = .ok (sel, rest)

/-- The selection and all below it were read from ends of the tokens. -/
def TreeReadFrom (tokens : List Lexeme) (sel : Selection) : Prop :=
  ∀ inner, inner.Within sel → ReadFrom tokens inner

/-- All selections of the definition were read from ends of the tokens. -/
def BodyReadFrom (tokens : List Lexeme) (d : Definition) : Prop :=
  ∀ s ∈ d.selections, TreeReadFrom tokens s

namespace Ensures

theorem selection (fuel : Nat) : Ensures tokens (TreeReadFrom tokens) (selection fuel) := by
  induction fuel with
  | zero => exact .skip .current fun _ => .fail _ _
  | succ fuel ih =>
    have hset := ih.many .braceL .braceR fuel
    have hbelow : Ensures tokens (fun sel : Selection => ∀ s ∈ sel.children, TreeReadFrom tokens s)
        (Parser.selection (fuel + 1)) := by
      have hnone : ∀ s ∈ ([] : List Selection), TreeReadFrom tokens s := fun _ h =>
        absurd h List.not_mem_nil
      refine .skip .current fun _ => .skip (.accept .spread) fun _ => .ite ?_ ?_
      · refine .skip (.acceptKeyword "on") fun _ => .skip .peekName fun _ => .ite
          (.skip .fragmentName fun _ => .skip (.directives false fuel fuel) fun _ => .pure hnone)
          (.ite (.skip (.map some .name) fun _ => ?_) (.skip (.pure none) fun _ => ?_))
        all_goals
          exact .skip (.directives false fuel fuel) fun _ => .bind hset fun _ h => .pure h
      · exact .skip .fieldName fun _ => .skip (.arguments false fuel) fun _ =>
          .skip (.directives false fuel fuel) fun _ => .skip (.peek .braceL) fun _ =>
            .ite (.bind hset fun _ h => .pure h) (.pure hnone)
    intro ts sel rest hts hrun
    obtain ⟨hchildren, hrest⟩ := hbelow hts hrun
    refine ⟨fun inner hinner => ?_, hrest⟩
    cases hinner with
    | self => exact ⟨fuel + 1, ts, rest, hts, hrun⟩
    | deeper hs hinner => exact hchildren _ hs inner hinner

theorem selectionSet (fuel : Nat) :
    Ensures tokens (fun r => ∀ s ∈ r.2, TreeReadFrom tokens s) (selectionSet fuel) :=
  (selection fuel).many .braceL .braceR fuel

/-! ### Definitions -/

theorem operation (fuel : Nat) :
    Ensures tokens (fun op => ∀ s ∈ op.selections, TreeReadFrom tokens s) (operation fuel) := by
  refine .skip .current fun _ => .skip (.peek .braceL) fun _ =>
    .ite (.bind (selectionSet fuel) fun _ h => .pure h) (.skip .operationKind fun _ =>
      .skip .peekName fun _ => .ite (.skip (.map some .name) fun _ => ?_)
        (.skip (.pure none) fun _ => ?_))
  all_goals
    exact .skip ((Suffixed.variableDefinition fuel).optionalMany .parenL .parenR fuel) fun _ =>
      .skip (.directives false fuel fuel) fun _ => .bind (selectionSet fuel) fun _ h => .pure h

theorem fragment (fuel : Nat) :
    Ensures tokens (fun f => ∀ s ∈ f.selections, TreeReadFrom tokens s) (fragment fuel) :=
  .skip .current fun _ => .skip (.expectKeyword "fragment") fun _ => .skip .fragmentName fun _ =>
    .skip (.expectKeyword "on") fun _ => .skip .name fun _ =>
      .skip (.directives false fuel fuel) fun _ => .bind (selectionSet fuel) fun _ h => .pure h

/-- Definitions of types have no selections. -/
theorem type {d : Definition} (h : d.selections = []) :
    Ensures tokens (BodyReadFrom tokens) (Pure.pure d) :=
  .pure fun _ hs => absurd (h ▸ hs) List.not_mem_nil

theorem extension (fuel : Nat) :
    Ensures tokens (BodyReadFrom tokens) (extension fuel) := by
  have hrefuse : Ensures tokens (BodyReadFrom tokens)
      (do unexpected (← current)) := .skip .current fun _ => .fail _ _
  refine .skip .current fun _ => .skip .lookahead fun _ => ?_
  split
  · refine .ite (.skip .advance fun _ => .skip .advance fun _ => ?_)
      (.ite (.skip .advance fun _ => .skip .advance fun _ => ?_) (.fail _ _))
    · exact .skip (.directives true fuel fuel) fun _ =>
        .skip (Suffixed.rootDefinition.optionalMany .braceL .braceR fuel) fun _ =>
          .ite hrefuse (type rfl)
    · exact .skip .name fun _ => .skip (.typeRest _ fuel) fun _ => .ite (type rfl) hrefuse
  · exact .fail _ _

theorem definition (fuel : Nat) :
    Ensures tokens (BodyReadFrom tokens) (definition fuel) := by
  have hoperation : Ensures tokens (BodyReadFrom tokens) (do
      Pure.pure (Definition.operation (← Parser.operation fuel))) :=
    .bind (operation fuel) fun _ h => .pure h
  have hfragment : Ensures tokens (BodyReadFrom tokens) (do
      Pure.pure (Definition.fragment (← Parser.fragment fuel))) :=
    .bind (fragment fuel) fun _ h => .pure h
  refine .skip .current fun _ => .skip (.peek .braceL) fun _ => .ite hoperation ?_
  refine .ite (.skip .lookahead fun _ => ?_) (.skip .current fun _ => ?_)
  all_goals
    dsimp only
    split
    · exact .skip .current fun _ => .skip .description fun _ => .skip (.expectKeyword _) fun _ =>
        .skip (.directives true fuel fuel) fun _ =>
          .skip (Suffixed.rootDefinition.many .braceL .braceR fuel) fun _ => type rfl
    · exact .skip .current fun _ => .skip .description fun _ => .skip (.expectKeyword _) fun _ =>
        .skip (.expect .at_) fun _ => .skip .name fun _ =>
          .skip ((Suffixed.inputDefinition fuel).optionalMany .parenL .parenR fuel) fun _ =>
            .skip (.acceptKeyword _) fun _ => .skip (.expectKeyword _) fun _ =>
              .skip (Suffixed.directiveLocation.separated .pipe fuel) fun _ => type rfl
    · have htype (keyword : String) :
          Ensures tokens (BodyReadFrom tokens) (typeDefinition keyword fuel) :=
        .skip .current fun _ => .skip .description fun _ => .skip (.expectKeyword keyword) fun _ =>
          .skip .name fun _ => .skip (.typeRest keyword fuel) fun _ => type rfl
      exact .ite (htype _) (.ite (.fail _ _) (.ite hoperation (.ite hfragment
        (.ite (extension fuel) (.fail _ _)))))
    · exact .fail _ _

theorem definitions (bound fuel : Nat) :
    Ensures tokens (fun ds => ∀ d ∈ ds, BodyReadFrom tokens d) (definitions bound fuel) := by
  induction fuel with
  | zero => exact .skip .current fun _ => .fail _ _
  | succ fuel ih =>
    exact .bind (definition bound) fun _ hfirst => .skip .current fun _ =>
      .ite (.pure (List.forall_mem_singleton.2 hfirst))
        (.bind ih fun _ hmore => .pure (List.forall_mem_cons.2 ⟨hfirst, hmore⟩))

end Ensures

end Parser

/-! ## Documents -/

/-- **Selections stand where they were read.** -/
theorem Document.spelledIn {text : String} {doc : Document} (h : Document.parse text = .ok doc)
    {sel : Selection} (hsel : doc.HasSelection sel) : sel.SpelledIn text.toList := by
  obtain ⟨d, hd, s, hs, hwithin⟩ := hsel
  simp only [Document.parse, Document.parseChars, bind, Except.bind] at h
  split at h
  · cases h
  · rename_i hsettle
    split at h
    · cases h
    · rename_i hrun
      cases h
      rw [Parser.settle_eq_ok hsettle] at hrun
      have hread := (Parser.Ensures.definitions _ _ List.suffix_rfl hrun).1
      obtain ⟨fuel, ts, rest, hts, hsel⟩ := hread d hd s hs sel hwithin
      obtain ⟨tail, rfl⟩ := Parser.run_selection_eq_ok hsel
      exact ⟨⟨fuel, tail, rest, hts, hsel⟩,
        Token.spelling_prefix_of_mem_scan (hts.subset List.mem_cons_self)⟩

end QueryDepth
