import QueryDepth.Document.Parser
import QueryDepth.Proofs.Document.Tokens

/-!
# What a reader takes

Reading a document takes tokens from the front of the list and never goes back. So definitions stand
in the document in the order in which their tokens stand in the text.

**Readers leave an end of their tokens** (`Suffixed`). The property passes through sequencing and
branching, so it holds of every reader, with an induction on the bound where readers nest.

**Readers find the marks of their results** (`Finds`). The marks of a definition are the tokens that
tell which one it is: the name, and for a fragment the keyword before it. `Finds seen marks p` is a
triple: after the tokens `seen`, what `p` answers has its marks, in order, among `seen` and what `p`
takes. `Finds.definitions` is the run lemma, from `Finds.definition` for one definition.

**Theorems.** In a document that was read from a text, fragments have increasing offsets and
increasing offsets of names (`Document.pairwise_fragments`), and so have the names of operations
(`Document.pairwise_operationNames`). So an offset identifies a definition, which is how rules use
it. Names of operations are made of letters, digits and underscores
(`Document.isNameChar_of_mem_label`).
-/

namespace QueryDepth

namespace Parser

/-! ## Readers leave an end of their tokens -/

/-- What the reader leaves is an end of the tokens that it was given. -/
def Suffixed {α : Type} (p : Parser α) : Prop :=
  ∀ ⦃ts a rest⦄, p.run ts = .ok (a, rest) → rest <:+ ts

section

variable {α β : Type}

theorem run_bind_eq_ok {p : Parser α} {f : α → Parser β} {ts rest : List Lexeme} {b : β}
    (h : (p >>= f).run ts = .ok (b, rest)) :
    ∃ a mid, p.run ts = .ok (a, mid) ∧ (f a).run mid = .ok (b, rest) := by
  rw [StateT.run_bind] at h
  cases hp : p.run ts with
  | error e =>
    rw [hp] at h
    exact absurd h nofun
  | ok am =>
    rw [hp] at h
    exact ⟨am.1, am.2, rfl, h⟩

theorem settle_eq_ok {ts rest : List Lexeme} (h : settle ts = .ok rest) : rest = ts := by
  unfold settle at h
  split at h
  · exact absurd h nofun
  · exact (Except.ok.inj h).symm

theorem run_lift_eq_ok {e : Except SyntaxError α} {ts rest : List Lexeme} {a : α}
    (h : (liftM e : Parser α).run ts = .ok (a, rest)) : e = .ok a ∧ rest = ts := by
  cases e with
  | error err => exact absurd h nofun
  | ok b =>
    cases h
    exact ⟨rfl, rfl⟩

theorem run_get_eq_ok {ts rest seen : List Lexeme}
    (h : (get : Parser (List Lexeme)).run ts = .ok (seen, rest)) : seen = ts ∧ rest = ts := by
  cases h
  exact ⟨rfl, rfl⟩

theorem run_advance_eq_ok {ts rest : List Lexeme} {u : Unit}
    (h : advance.run ts = .ok (u, rest)) : rest = ts.tail := by
  obtain ⟨seen, _, hget, hrest⟩ := run_bind_eq_ok h
  obtain ⟨rfl, rfl⟩ := run_get_eq_ok hget
  obtain ⟨left, _, hsettle, hset⟩ := run_bind_eq_ok hrest
  obtain ⟨hsettle, rfl⟩ := run_lift_eq_ok hsettle
  cases hset
  exact settle_eq_ok hsettle

namespace Suffixed

theorem pure (a : α) : Suffixed (Pure.pure a) := by
  intro ts b rest h
  cases h
  exact List.suffix_rfl

theorem bind {p : Parser α} {f : α → Parser β} (hp : Suffixed p) (hf : ∀ a, Suffixed (f a)) :
    Suffixed (p >>= f) := by
  intro ts b rest h
  obtain ⟨a, mid, hfirst, hsecond⟩ := run_bind_eq_ok h
  exact (hf a hsecond).trans (hp hfirst)

theorem map (f : α → β) {p : Parser α} (hp : Suffixed p) : Suffixed (f <$> p) := by
  rw [map_eq_pure_bind]
  exact .bind hp fun _ => .pure _

theorem ite {c : Prop} [Decidable c] {p q : Parser α} (hp : Suffixed p) (hq : Suffixed q) :
    Suffixed (if c then p else q) := by
  split
  · exact hp
  · exact hq

theorem fail (pos : Nat) (fault : SyntaxFault) : Suffixed (fail pos fault : Parser α) :=
  fun _ _ _ h => absurd h nofun

theorem get : Suffixed (get : Parser (List Lexeme)) := fun _ _ _ h =>
  (run_get_eq_ok h).2 ▸ List.suffix_rfl

theorem lift (e : Except SyntaxError α) : Suffixed (liftM e : Parser α) := fun _ _ _ h =>
  (run_lift_eq_ok h).2 ▸ List.suffix_rfl

/-! ### Single tokens -/

theorem current : Suffixed current := .bind .get fun ts => by
  cases ts with
  | nil => exact .pure _
  | cons => exact .pure _

theorem advance : Suffixed advance := fun _ _ _ h =>
  run_advance_eq_ok h ▸ List.tail_suffix _

theorem lookahead : Suffixed lookahead :=
  .bind .get fun _ => .bind (.lift _) fun ts => by
    cases ts with
    | nil => exact .current
    | cons => exact .pure _

theorem unexpected (l : Lexeme) : Suffixed (unexpected l : Parser α) := .fail _ _

theorem peek (p : Punctuator) : Suffixed (peek p) := .bind .current fun _ => .pure _

theorem peekName : Suffixed peekName := .bind .current fun _ => by
  split <;> exact .pure _

theorem expect (p : Punctuator) : Suffixed (expect p) :=
  .bind .current fun _ => .ite (.bind .advance fun _ => .pure _) (.fail _ _)

theorem accept (p : Punctuator) : Suffixed (accept p) :=
  .bind .current fun _ => .ite (.bind .advance fun _ => .pure _) (.pure _)

theorem expectKeyword (word : String) : Suffixed (expectKeyword word) :=
  .bind .current fun _ => .ite .advance (.fail _ _)

theorem acceptKeyword (word : String) : Suffixed (acceptKeyword word) :=
  .bind .current fun _ => .ite (.bind .advance fun _ => .pure _) (.pure _)

theorem name : Suffixed name := .bind .current fun _ => by
  split
  · exact .bind .advance fun _ => .pure _
  · exact .fail _ _

/-! ### Sequences -/

theorem until_ {item : Parser α} (hitem : Suffixed item) (close : Punctuator) (fuel : Nat) :
    Suffixed (until_ item close fuel) := by
  induction fuel with
  | zero => exact .bind .current .unexpected
  | succ fuel ih =>
    exact .bind (.accept close) fun _ =>
      .ite (.pure _) (.bind hitem fun _ => .bind ih fun _ => .pure _)

theorem many {item : Parser α} (hitem : Suffixed item) (opening close : Punctuator) (fuel : Nat) :
    Suffixed (many opening item close fuel) :=
  .bind (.expect opening) fun _ => .bind hitem fun _ => .bind (hitem.until_ close fuel) fun _ =>
    .pure _

theorem optionalMany {item : Parser α} (hitem : Suffixed item) (opening close : Punctuator)
    (fuel : Nat) : Suffixed (optionalMany opening item close fuel) :=
  .bind (.peek opening) fun _ =>
    .ite (.bind (hitem.many opening close fuel) fun _ => .pure _) (.pure _)

theorem separatedTail {item : Parser α} (hitem : Suffixed item) (separator : Punctuator)
    (fuel : Nat) : Suffixed (separatedTail separator item fuel) := by
  induction fuel with
  | zero => exact .pure _
  | succ fuel ih =>
    exact .bind (.accept separator) fun _ =>
      .ite (.bind hitem fun _ => .bind ih fun _ => .pure _) (.pure _)

theorem separated {item : Parser α} (hitem : Suffixed item) (separator : Punctuator)
    (fuel : Nat) : Suffixed (separated separator item fuel) :=
  .bind (.accept separator) fun _ => .bind hitem fun _ =>
    .bind (hitem.separatedTail separator fuel) fun _ => .pure _

/-! ### Values, types and directives -/

theorem variableName : Suffixed variableName :=
  .bind (.expect .dollar) fun _ => .bind .name fun _ => .pure _

theorem refuseVariable : Suffixed (refuseVariable : Parser α) :=
  .bind .current fun _ => .bind .advance fun _ => .bind .current fun _ => by
    split
    · exact .fail _ _
    · exact .unexpected _

theorem value (constant : Bool) (fuel : Nat) : Suffixed (value constant fuel) := by
  induction fuel with
  | zero => exact .bind .current .unexpected
  | succ fuel ih =>
    have hfield : Suffixed (do
        let n ← Parser.name
        let _ ← Parser.expect .colon
        return (n, ← Parser.value constant fuel)) :=
      .bind .name fun _ => .bind (.expect .colon) fun _ => .bind ih fun _ => .pure _
    refine .bind .current fun _ => ?_
    split
    · exact .bind .advance fun _ => .bind (ih.until_ .bracketR fuel) fun _ => .pure _
    · exact .bind .advance fun _ => .bind (hfield.until_ .braceR fuel) fun _ => .pure _
    case h_8 => exact .ite .refuseVariable (.bind .variableName fun _ => .pure _)
    case h_9 => exact .unexpected _
    all_goals exact .bind .advance fun _ => .pure _

theorem typeRef (fuel : Nat) : Suffixed (typeRef fuel) := by
  induction fuel with
  | zero => exact .bind .current .unexpected
  | succ fuel ih =>
    have hend (l : Lexeme) (inner : TypeRef) : Suffixed (do
        if ← Parser.accept .bang then return .nonNull l.pos inner else return inner) :=
      .bind (.accept .bang) fun _ => .ite (.pure _) (.pure _)
    exact .bind .current fun l => .bind (.accept .bracketL) fun _ =>
      .ite (.bind ih fun _ => .bind (.expect .bracketR) fun _ => .bind (.pure _) (hend l))
        (.bind .name fun _ => .bind (.pure _) (hend l))

theorem argument (constant : Bool) (fuel : Nat) : Suffixed (argument constant fuel) :=
  .bind .name fun _ => .bind (.expect .colon) fun _ => .bind (.value constant fuel) fun _ =>
    .pure _

theorem arguments (constant : Bool) (fuel : Nat) : Suffixed (arguments constant fuel) :=
  (Suffixed.argument constant fuel).optionalMany .parenL .parenR fuel

theorem directive (constant : Bool) (fuel : Nat) : Suffixed (directive constant fuel) :=
  .bind (.expect .at_) fun _ => .bind .name fun _ => .bind (.arguments constant fuel) fun _ =>
    .pure _

theorem directives (constant : Bool) (bound fuel : Nat) :
    Suffixed (directives constant bound fuel) := by
  induction fuel with
  | zero => exact .pure _
  | succ fuel ih =>
    exact .bind (.peek .at_) fun _ =>
      .ite (.bind (.directive constant bound) fun _ => .bind ih fun _ => .pure _) (.pure _)

/-! ### Selections -/

theorem fragmentName : Suffixed fragmentName := .bind .current fun _ => .ite (.unexpected _) .name

theorem fieldName : Suffixed fieldName :=
  .bind .name fun _ => .bind (.accept .colon) fun _ =>
    .ite (.bind .name fun _ => .pure _) (.pure _)

theorem selection (fuel : Nat) : Suffixed (selection fuel) := by
  induction fuel with
  | zero => exact .bind .current .unexpected
  | succ fuel ih =>
    have hset := ih.many .braceL .braceR fuel
    have hspread (l : Lexeme) : Suffixed (do
        let n ← Parser.fragmentName
        return Selection.spread ⟨l.pos, n, ← Parser.directives false fuel fuel⟩) :=
      .bind .fragmentName fun _ => .bind (.directives false fuel fuel) fun _ => .pure _
    refine .bind .current fun l => .bind (.accept .spread) fun _ => .ite ?_ ?_
    · refine .bind (.acceptKeyword "on") fun _ => .bind .peekName fun _ => .ite (hspread l)
        (.ite (.bind (.map some .name) fun _ => ?_) (.bind (.pure none) fun _ => ?_))
      all_goals
        exact .bind (.directives false fuel fuel) fun _ => .bind hset fun _ => .pure _
    · exact .bind .fieldName fun _ => .bind (.arguments false fuel) fun _ =>
        .bind (.directives false fuel fuel) fun _ => .bind (.peek .braceL) fun _ =>
          .ite (.bind hset fun _ => .pure _) (.pure _)

theorem selectionSet (fuel : Nat) : Suffixed (selectionSet fuel) :=
  (Suffixed.selection fuel).many .braceL .braceR fuel

/-! ### Executable definitions -/

theorem operationKind : Suffixed operationKind := .bind .current fun _ => by
  split
  · refine .bind .advance fun _ => ?_
    split
    case h_4 => exact .unexpected _
    all_goals exact .pure _
  · exact .fail _ _

theorem defaultValue (fuel : Nat) : Suffixed (defaultValue fuel) :=
  .bind (.accept .equals) fun _ => .ite (.map some (.value true fuel)) (.pure _)

theorem variableDefinition (fuel : Nat) : Suffixed (variableDefinition fuel) :=
  .bind .variableName fun _ => .bind (.expect .colon) fun _ => .bind (.typeRef fuel) fun _ =>
    .bind (.defaultValue fuel) fun _ => .bind (.directives true fuel fuel) fun _ => .pure _

/-! ### Type system definitions -/

theorem description : Suffixed description := .bind .current fun _ => by
  split
  case h_3 => exact .pure _
  all_goals exact .bind .advance fun _ => .pure _

theorem inputDefinition (fuel : Nat) : Suffixed (inputDefinition fuel) :=
  .bind .current fun _ => .bind .description fun _ => .bind .name fun _ =>
    .bind (.expect .colon) fun _ => .bind (.typeRef fuel) fun _ =>
      .bind (.defaultValue fuel) fun _ => .bind (.directives true fuel fuel) fun _ => .pure _

theorem fieldDefinition (fuel : Nat) : Suffixed (fieldDefinition fuel) :=
  .bind .current fun _ => .bind .description fun _ => .bind .name fun _ =>
    .bind ((Suffixed.inputDefinition fuel).optionalMany .parenL .parenR fuel) fun _ =>
      .bind (.expect .colon) fun _ => .bind (.typeRef fuel) fun _ =>
        .bind (.directives true fuel fuel) fun _ => .pure _

theorem enumValueDefinition (fuel : Nat) : Suffixed (enumValueDefinition fuel) :=
  .bind .current fun _ => .bind .description fun _ => .bind .current fun _ =>
    .ite (.fail _ _) (.bind .name fun _ => .bind (.directives true fuel fuel) fun _ => .pure _)

theorem rootDefinition : Suffixed rootDefinition :=
  .bind .current fun _ => .bind .operationKind fun _ => .bind (.expect .colon) fun _ =>
    .bind .name fun _ => .pure _

theorem interfaces (fuel : Nat) : Suffixed (interfaces fuel) :=
  .bind (.acceptKeyword "implements") fun _ => .ite (Suffixed.name.separated .amp fuel) (.pure _)

theorem unionTypes (fuel : Nat) : Suffixed (unionTypes fuel) :=
  .bind (.accept .equals) fun _ => .ite (Suffixed.name.separated .pipe fuel) (.pure _)

theorem directiveLocation : Suffixed directiveLocation :=
  .bind .current fun _ => .bind .name fun _ => .ite (.pure _) (.unexpected _)

theorem typeRest (keyword : String) (fuel : Nat) : Suffixed (typeRest keyword fuel) := by
  have hdirectives := Suffixed.directives true fuel fuel
  have hfields := (Suffixed.fieldDefinition fuel).optionalMany .braceL .braceR fuel
  unfold Parser.typeRest
  split
  · exact .bind hdirectives fun _ => .pure _
  · exact .bind (.interfaces fuel) fun _ => .bind hdirectives fun _ => .bind hfields fun _ =>
      .pure _
  · exact .bind (.interfaces fuel) fun _ => .bind hdirectives fun _ => .bind hfields fun _ =>
      .pure _
  · exact .bind hdirectives fun _ => .bind (.unionTypes fuel) fun _ => .pure _
  · exact .bind hdirectives fun _ =>
      .bind ((Suffixed.enumValueDefinition fuel).optionalMany .braceL .braceR fuel) fun _ =>
        .pure _
  · exact .bind hdirectives fun _ =>
      .bind ((Suffixed.inputDefinition fuel).optionalMany .braceL .braceR fuel) fun _ => .pure _

end Suffixed

/-! ## Name tokens -/

theorem run_current_eq_ok {ts rest : List Lexeme} {l : Lexeme}
    (h : current.run ts = .ok (l, rest)) : rest = ts ∧ l = ts.headD ⟨0, .eof⟩ := by
  cases ts <;> cases h <;> exact ⟨rfl, rfl⟩

/-- A token that is a name is the head of the tokens, not the default for there being none. -/
theorem eq_cons_of_headD {ts : List Lexeme} {text : String}
    (h : (ts.headD ⟨0, .eof⟩).token = .name text) :
    ts = ⟨(ts.headD ⟨0, .eof⟩).pos, .name text⟩ :: ts.tail := by
  cases ts with
  | nil => exact absurd h nofun
  | cons l ts =>
    rw [← h]
    rfl

theorem run_name_eq_ok {ts rest : List Lexeme} {n : Name} (h : name.run ts = .ok (n, rest)) :
    ts = ⟨n.pos, .name n.value⟩ :: rest := by
  obtain ⟨l, _, hcurrent, htake⟩ := run_bind_eq_ok h
  obtain ⟨rfl, rfl⟩ := run_current_eq_ok hcurrent
  split at htake
  · rename_i text htoken
    obtain ⟨_, _, hadvance, hpure⟩ := run_bind_eq_ok htake
    cases hpure
    rw [run_advance_eq_ok hadvance]
    exact eq_cons_of_headD htoken
  · exact absurd htake nofun

theorem run_expectKeyword_eq_ok {word : String} {ts rest : List Lexeme} {u : Unit}
    (h : (expectKeyword word).run ts = .ok (u, rest)) :
    ts = ⟨(ts.headD ⟨0, .eof⟩).pos, .name word⟩ :: rest := by
  obtain ⟨l, _, hcurrent, htake⟩ := run_bind_eq_ok h
  obtain ⟨rfl, rfl⟩ := run_current_eq_ok hcurrent
  split at htake
  · rename_i hword
    rw [run_advance_eq_ok htake]
    exact eq_cons_of_headD (of_decide_eq_true hword)
  · exact absurd htake nofun

end

end Parser

/-- The token of a name. -/
def Name.lexeme (n : Name) : Lexeme := ⟨n.pos, .name n.value⟩

/-- The tokens that tell which fragment or operation a definition is: the name, and the keyword with
which a fragment begins. -/
def Definition.marks : Definition → List Lexeme
  | .operation op => op.name.toList.map Name.lexeme
  | .fragment f => [⟨f.pos, .name "fragment"⟩, f.name.lexeme]
  | _ => []

namespace Parser

variable {α β : Type}

/-- Reading on after the tokens `seen`, the reader finds the tokens `marks` of its result, in order,
among `seen` and what it takes. -/
def Finds (seen : List Lexeme) (marks : α → List Lexeme) (p : Parser α) : Prop :=
  ∀ ⦃ts a rest⦄, p.run ts = .ok (a, rest) → (marks a ++ rest).Sublist (seen ++ ts)

namespace Finds

variable {seen : List Lexeme} {marks : α → List Lexeme}

theorem pure {a : α} (h : marks a = seen) : Finds seen marks (Pure.pure a) := by
  intro ts b rest hrun
  cases hrun
  exact h ▸ List.Sublist.refl _

theorem fail (pos : Nat) (fault : SyntaxFault) : Finds seen marks (fail pos fault) :=
  fun _ _ _ h => absurd h nofun

theorem ite {c : Prop} [Decidable c] {p q : Parser α} (hp : Finds seen marks p)
    (hq : Finds seen marks q) : Finds seen marks (if c then p else q) := by
  split
  · exact hp
  · exact hq

theorem bind {found : β → List Lexeme} {p : Parser β} {f : β → Parser α}
    (hp : Finds seen found p) (hf : ∀ b, Finds (found b) marks (f b)) :
    Finds seen marks (p >>= f) := by
  intro ts a rest h
  obtain ⟨b, mid, hfirst, hsecond⟩ := run_bind_eq_ok h
  exact (hf b hsecond).trans (hp hfirst)

theorem skip {p : Parser β} {f : β → Parser α} (hp : Suffixed p)
    (hf : ∀ b, Finds seen marks (f b)) : Finds seen marks (p >>= f) :=
  .bind (fun _ _ _ h => (hp h).sublist.append_left seen) hf

theorem name : Finds seen (fun n => seen ++ [n.lexeme]) name := by
  intro ts n rest h
  rw [run_name_eq_ok h, List.append_assoc]
  exact List.Sublist.refl _

/-- A keyword where a construct begins that keeps its offset. -/
theorem keyword {word : String} {f : Lexeme → Parser α}
    (hf : ∀ l, Finds (seen ++ [⟨l.pos, .name word⟩]) marks (f l)) :
    Finds seen marks (current >>= fun l => expectKeyword word >>= fun _ => f l) := by
  intro ts a rest h
  obtain ⟨l, _, hcurrent, htake⟩ := run_bind_eq_ok h
  obtain ⟨rfl, rfl⟩ := run_current_eq_ok hcurrent
  obtain ⟨_, mid, hkeyword, hrun⟩ := run_bind_eq_ok htake
  have hsub := hf _ hrun
  rw [List.append_assoc, List.singleton_append, ← run_expectKeyword_eq_ok hkeyword] at hsub
  exact hsub

/-! ### Executable definitions -/

theorem fragmentName : Finds seen (fun n => seen ++ [n.lexeme]) fragmentName :=
  .skip .current fun _ => .ite (.fail _ _) .name

theorem operation (fuel : Nat) :
    Finds [] (fun op => (Definition.operation op).marks) (operation fuel) := by
  have hname : Finds [] (fun n : Option Name => n.toList.map Name.lexeme)
      (some <$> Parser.name) := by
    rw [map_eq_pure_bind]
    exact .bind .name fun _ => .pure rfl
  have hnone : Finds [] (fun n : Option Name => n.toList.map Name.lexeme) (Pure.pure none) :=
    .pure rfl
  refine .skip .current fun _ => .skip (.peek .braceL) fun _ =>
    .ite (.skip (.selectionSet fuel) fun _ => .pure rfl) (.skip .operationKind fun _ =>
      .skip .peekName fun _ => .ite (.bind hname fun _ => ?_) (.bind hnone fun _ => ?_))
  all_goals
    exact .skip ((Suffixed.variableDefinition fuel).optionalMany .parenL .parenR fuel) fun _ =>
      .skip (.directives false fuel fuel) fun _ => .skip (.selectionSet fuel) fun _ => .pure rfl

theorem fragment (fuel : Nat) :
    Finds [] (fun f => (Definition.fragment f).marks) (fragment fuel) :=
  .keyword fun _ => .bind .fragmentName fun _ => .skip (.expectKeyword "on") fun _ =>
    .skip .name fun _ => .skip (.directives false fuel fuel) fun _ =>
      .skip (.selectionSet fuel) fun _ => .pure rfl

/-! ### Definitions of types -/

theorem typeDefinition (keyword : String) (fuel : Nat) :
    Finds [] Definition.marks (typeDefinition keyword fuel) :=
  .skip .current fun _ => .skip .description fun _ => .skip (.expectKeyword keyword) fun _ =>
    .skip .name fun _ => .skip (.typeRest keyword fuel) fun _ => .pure rfl

theorem schemaDefinition (fuel : Nat) : Finds [] Definition.marks (schemaDefinition fuel) :=
  .skip .current fun _ => .skip .description fun _ => .skip (.expectKeyword "schema") fun _ =>
    .skip (.directives true fuel fuel) fun _ =>
      .skip (Suffixed.rootDefinition.many .braceL .braceR fuel) fun _ => .pure rfl

theorem directiveDefinition (fuel : Nat) :
    Finds [] Definition.marks (directiveDefinition fuel) :=
  .skip .current fun _ => .skip .description fun _ => .skip (.expectKeyword "directive") fun _ =>
    .skip (.expect .at_) fun _ => .skip .name fun _ =>
      .skip ((Suffixed.inputDefinition fuel).optionalMany .parenL .parenR fuel) fun _ =>
        .skip (.acceptKeyword "repeatable") fun _ => .skip (.expectKeyword "on") fun _ =>
          .skip (Suffixed.directiveLocation.separated .pipe fuel) fun _ => .pure rfl

theorem extension (fuel : Nat) : Finds [] Definition.marks (extension fuel) := by
  have hrefuse : Finds [] Definition.marks (do unexpected (← current)) :=
    .skip .current fun _ => .fail _ _
  refine .skip .current fun _ => .skip .lookahead fun _ => ?_
  split
  · refine .ite (.skip .advance fun _ => .skip .advance fun _ => ?_)
      (.ite (.skip .advance fun _ => .skip .advance fun _ => ?_) (.fail _ _))
    · exact .skip (.directives true fuel fuel) fun _ =>
        .skip (Suffixed.rootDefinition.optionalMany .braceL .braceR fuel) fun _ =>
          .ite hrefuse (.pure rfl)
    · exact .skip .name fun _ => .skip (.typeRest _ fuel) fun _ => .ite (.pure rfl) hrefuse
  · exact .fail _ _

/-! ### Documents -/

theorem definition (fuel : Nat) : Finds [] Definition.marks (definition fuel) := by
  have hoperation : Finds [] Definition.marks (do
      Pure.pure (Definition.operation (← Parser.operation fuel))) :=
    .bind (.operation fuel) fun _ => .pure rfl
  have hfragment : Finds [] Definition.marks (do
      Pure.pure (Definition.fragment (← Parser.fragment fuel))) :=
    .bind (.fragment fuel) fun _ => .pure rfl
  refine .skip .current fun _ => .skip (.peek .braceL) fun _ => .ite hoperation ?_
  refine .ite (.skip .lookahead fun _ => ?_) (.skip .current fun _ => ?_)
  all_goals
    dsimp only
    split
    · exact .schemaDefinition fuel
    · exact .directiveDefinition fuel
    · exact .ite (.typeDefinition _ fuel) (.ite (.fail _ _) (.ite hoperation (.ite hfragment
        (.ite (.extension fuel) (.fail _ _)))))
    · exact .fail _ _

/-- Definitions keep the order of their marks. -/
theorem definitions (bound fuel : Nat) :
    Finds [] (fun ds => ds.flatMap Definition.marks) (definitions bound fuel) := by
  induction fuel with
  | zero => exact .skip .current fun _ => .fail _ _
  | succ fuel ih =>
    have hrest (first : Definition) : Finds first.marks (fun ds => ds.flatMap Definition.marks)
        (do return first :: (← Parser.definitions bound fuel)) := by
      intro ts ds rest h
      obtain ⟨more, mid, hmore, hpure⟩ := run_bind_eq_ok h
      cases hpure
      have hsub := (ih hmore).append_left first.marks
      rwa [← List.append_assoc] at hsub
    exact .bind (.definition bound) fun first => .skip .current fun _ =>
      .ite (.pure (List.append_nil _)) (hrest first)

end Finds

end Parser

/-! ## Documents -/

namespace Document

variable {text : String} {doc : Document}

/-- The marks of the definitions of a document are among its tokens, in order. -/
theorem marks_sublist_scan (h : Document.parse text = .ok doc) :
    (doc.definitions.flatMap Definition.marks).Sublist (Token.scan text.toList) := by
  simp only [Document.parse, Document.parseChars, bind, Except.bind] at h
  split at h
  · exact absurd h nofun
  · rename_i hsettle
    split at h
    · exact absurd h nofun
    · rename_i hrun
      cases h
      rw [Parser.settle_eq_ok hsettle] at hrun
      exact (List.sublist_append_left _ _).trans (Parser.Finds.definitions _ _ hrun)

/-- Marks are names. -/
theorem isName_of_mem_marks {d : Definition} {l : Lexeme} (h : l ∈ d.marks) : l.IsName := by
  cases d with
  | operation op =>
    obtain ⟨n, -, rfl⟩ := List.mem_map.mp h
    exact ⟨_, rfl⟩
  | fragment f =>
    rcases List.mem_cons.mp h with rfl | h
    · exact ⟨_, rfl⟩
    · rw [List.mem_singleton.mp h]
      exact ⟨_, rfl⟩
  | _ => exact absurd h (List.not_mem_nil)

theorem pairwise_marks (h : Document.parse text = .ok doc) :
    (doc.definitions.flatMap Definition.marks).Pairwise (·.pos < ·.pos) := by
  refine ((Token.pairwise_scan text.toList).sublist (marks_sublist_scan h)).imp_of_mem ?_
  intro a b ha _ hlt
  obtain ⟨d, -, hmark⟩ := List.mem_flatMap.mp ha
  exact hlt (isName_of_mem_marks hmark)

/-- Fragments stand in the order of their offsets, and so do their names. -/
theorem pairwise_fragments (h : Document.parse text = .ok doc) :
    doc.fragments.Pairwise fun f g => f.pos < g.pos ∧ f.name.pos < g.name.pos := by
  have hmarks := (List.pairwise_flatMap.mp (pairwise_marks h)).2
  refine List.pairwise_filterMap.mpr (hmarks.imp ?_)
  intro d e hlt f hf g hg
  cases d <;> cases hf
  cases e <;> cases hg
  exact ⟨hlt _ List.mem_cons_self _ List.mem_cons_self,
    hlt _ (List.mem_cons_of_mem _ List.mem_cons_self) _ (List.mem_cons_of_mem _ List.mem_cons_self)⟩

/-- The names of operations stand in the order of their offsets. -/
theorem pairwise_operationNames (h : Document.parse text = .ok doc) :
    (doc.operations.filterMap (·.name)).Pairwise (·.pos < ·.pos) := by
  have hmarks := (List.pairwise_flatMap.mp (pairwise_marks h)).2
  rw [operations, List.filterMap_filterMap]
  refine List.pairwise_filterMap.mpr (hmarks.imp ?_)
  intro d e hlt m hm n hn
  obtain ⟨op, hd, hm⟩ := Option.bind_eq_some_iff.mp hm
  obtain ⟨op', he, hn⟩ := Option.bind_eq_some_iff.mp hn
  cases d <;> cases hd
  cases e <;> cases he
  exact hlt m.lexeme (List.mem_map_of_mem (Option.mem_toList.mpr hm)) n.lexeme
    (List.mem_map_of_mem (Option.mem_toList.mpr hn))

end Document

end QueryDepth
