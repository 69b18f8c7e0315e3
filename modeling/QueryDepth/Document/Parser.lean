import QueryDepth.Document.Basic
import QueryDepth.Document.SyntaxError

/-!
# Reading documents

`Document.parse` reads a text by recursive descent over its tokens. The head of the token list is
the token that is looked at; taking it makes the next one visible, and a lexical error is raised at
that moment. Nested constructs take an explicit bound on their nesting; every level takes a token,
so the number of tokens is enough.
-/

namespace QueryDepth

/-- Readers over the tokens that are left. -/
abbrev Parser := StateT (List Lexeme) (Except SyntaxError)

namespace Parser

/-! ## Single tokens -/

def current : Parser Lexeme := do
  match ← get with
  | [] => return ⟨0, .eof⟩
  | l :: _ => return l

def fail {α : Type} (pos : Nat) (fault : SyntaxFault) : Parser α := throw ⟨fault, pos⟩

/-- Fails if the head of the tokens is a lexical error. -/
def settle (ls : List Lexeme) : Except SyntaxError (List Lexeme) :=
  match ls with
  | ⟨pos, .invalid fault⟩ :: _ => .error ⟨.lexical fault, pos⟩
  | _ => .ok ls

/-- Takes the present token. -/
def advance : Parser Unit := do
  set (← settle (← get).tail)

/-- The token after the present one. -/
def lookahead : Parser Lexeme := do
  match ← settle (← get).tail with
  | [] => current
  | l :: _ => return l

def unexpected {α : Type} (l : Lexeme) : Parser α := fail l.pos (.unexpected l.token)

def peek (p : Punctuator) : Parser Bool := do
  return (← current).token = .punct p

def peekName : Parser Bool := do
  match (← current).token with
  | .name _ => return true
  | _ => return false

/-- Takes a punctuator and answers its offset. -/
def expect (p : Punctuator) : Parser Nat := do
  let l ← current
  if l.token = .punct p then
    advance
    return l.pos
  else fail l.pos (.expectedPunct p l.token)

/-- Takes a punctuator if it is there. -/
def accept (p : Punctuator) : Parser Bool := do
  if (← current).token = .punct p then
    advance
    return true
  else return false

def isKeyword (word : String) (t : Token) : Bool := t = .name word

def expectKeyword (word : String) : Parser Unit := do
  let l ← current
  if isKeyword word l.token then advance
  else fail l.pos (.expectedKeyword word l.token)

def acceptKeyword (word : String) : Parser Bool := do
  if isKeyword word (← current).token then
    advance
    return true
  else return false

def name : Parser Name := do
  let l ← current
  match l.token with
  | .name value =>
    advance
    return ⟨l.pos, value⟩
  | t => fail l.pos (.expectedName t)

/-! ## Sequences -/

/-- Items up to a closing punctuator, which is taken. -/
def until_ {α : Type} (item : Parser α) (close : Punctuator) : Nat → Parser (List α)
  | 0 => do unexpected (← current)
  | fuel + 1 => do
    if ← accept close then return []
    let first ← item
    let more ← until_ item close fuel
    return first :: more

/-- One or more items between an opening and a closing punctuator, with the offset of the opening
one. -/
def many {α : Type} (opening : Punctuator) (item : Parser α) (close : Punctuator) (fuel : Nat) :
    Parser (Nat × List α) := do
  let pos ← expect opening
  let first ← item
  let more ← until_ item close fuel
  return (pos, first :: more)

/-- As `many`, or nothing at all. -/
def optionalMany {α : Type} (opening : Punctuator) (item : Parser α) (close : Punctuator)
    (fuel : Nat) : Parser (List α) := do
  if ← peek opening then return (← many opening item close fuel).2
  else return []

/-- Items after the first, each after a separator. -/
def separatedTail {α : Type} (separator : Punctuator) (item : Parser α) : Nat → Parser (List α)
  | 0 => return []
  | fuel + 1 => do
    if ← accept separator then
      let first ← item
      let more ← separatedTail separator item fuel
      return first :: more
    else return []

/-- One or more items with separators between them; one may stand in front. -/
def separated {α : Type} (separator : Punctuator) (item : Parser α) (fuel : Nat) :
    Parser (List α) := do
  let _ ← accept separator
  let first ← item
  let more ← separatedTail separator item fuel
  return first :: more

/-! ## Values and types -/

/-- A dollar sign and a name. -/
def variableName : Parser (Nat × Name) := do
  let pos ← expect .dollar
  return (pos, ← name)

/-- A dollar sign where only constants may stand. -/
def refuseVariable {α : Type} : Parser α := do
  let dollar ← current
  advance
  match (← current).token with
  | .name n => fail dollar.pos (.variableInConstant n)
  | _ => unexpected dollar

def namedValue (pos : Nat) : String → Value
  | "true" => .boolean pos true
  | "false" => .boolean pos false
  | "null" => .null pos
  | s => .enum pos s

def value (constant : Bool) : Nat → Parser Value
  | 0 => do unexpected (← current)
  | fuel + 1 => do
    let l ← current
    match l.token with
    | .punct .bracketL =>
      advance
      return .list l.pos (← until_ (value constant fuel) .bracketR fuel)
    | .punct .braceL =>
      advance
      let field : Parser (Name × Value) := do
        let n ← name
        let _ ← expect .colon
        return (n, ← value constant fuel)
      return .object l.pos (← until_ field .braceR fuel)
    | .int s =>
      advance
      return .int l.pos s
    | .float s =>
      advance
      return .float l.pos s
    | .string s =>
      advance
      return .string l.pos s false
    | .blockString s =>
      advance
      return .string l.pos s true
    | .name s =>
      advance
      return namedValue l.pos s
    | .punct .dollar =>
      if constant then refuseVariable
      else
        let (pos, n) ← variableName
        return .variable_ pos n
    | _ => unexpected l

def typeRef : Nat → Parser TypeRef
  | 0 => do unexpected (← current)
  | fuel + 1 => do
    let l ← current
    let inner ← do
      if ← accept .bracketL then
        let inner ← typeRef fuel
        let _ ← expect .bracketR
        pure (TypeRef.list l.pos inner)
      else pure (TypeRef.named (← name))
    if ← accept .bang then return .nonNull l.pos inner
    else return inner

def argument (constant : Bool) (fuel : Nat) : Parser Argument := do
  let n ← name
  let _ ← expect .colon
  return ⟨n, ← value constant fuel⟩

def arguments (constant : Bool) (fuel : Nat) : Parser (List Argument) :=
  optionalMany .parenL (argument constant fuel) .parenR fuel

def directive (constant : Bool) (fuel : Nat) : Parser Directive := do
  let pos ← expect .at_
  let n ← name
  return ⟨pos, n, ← arguments constant fuel⟩

def directives (constant : Bool) (bound : Nat) : Nat → Parser (List Directive)
  | 0 => return []
  | fuel + 1 => do
    if ← peek .at_ then
      let first ← directive constant bound
      let more ← directives constant bound fuel
      return first :: more
    else return []

/-! ## Selections -/

/-- A fragment name is any name but `on`. -/
def fragmentName : Parser Name := do
  let l ← current
  if l.token.value? = some "on" then unexpected l
  else name

/-- A name, which is an alias if a colon and another name follow. -/
def fieldName : Parser (Option Name × Name) := do
  let first ← name
  if ← accept .colon then return (some first, ← name)
  else return (none, first)

def selection : Nat → Parser Selection
  | 0 => do unexpected (← current)
  | fuel + 1 => do
    let l ← current
    let set := many .braceL (selection fuel) .braceR fuel
    if ← accept .spread then
      let conditional ← acceptKeyword "on"
      if !conditional && (← peekName) then
        let n ← fragmentName
        return .spread ⟨l.pos, n, ← directives false fuel fuel⟩
      else
        let condition ← if conditional then some <$> name else pure none
        let ds ← directives false fuel fuel
        let (brace, selections) ← set
        return .inlineFragment ⟨l.pos, condition, ds, brace⟩ selections
    else
      let (aliasName, n) ← fieldName
      let args ← arguments false fuel
      let ds ← directives false fuel fuel
      if ← peek .braceL then
        let (brace, selections) ← set
        return .field ⟨l.pos, aliasName, n, args, ds, brace⟩ selections
      else return .field ⟨l.pos, aliasName, n, args, ds, 0⟩ []

def selectionSet (fuel : Nat) : Parser (Nat × List Selection) :=
  many .braceL (selection fuel) .braceR fuel

/-! ## Executable definitions -/

def operationKind : Parser OperationKind := do
  let l ← current
  match l.token with
  | .name word =>
    advance
    match word with
    | "query" => return .query
    | "mutation" => return .mutation
    | "subscription" => return .subscription
    | _ => unexpected l
  | t => fail l.pos (.expectedName t)

def defaultValue (fuel : Nat) : Parser (Option Value) := do
  if ← accept .equals then some <$> value true fuel
  else return none

def variableDefinition (fuel : Nat) : Parser VariableDefinition := do
  let (pos, n) ← variableName
  let _ ← expect .colon
  let type ← typeRef fuel
  let default ← defaultValue fuel
  return ⟨pos, n, type, default, ← directives true fuel fuel⟩

def operation (fuel : Nat) : Parser Operation := do
  let l ← current
  if ← peek .braceL then
    let (brace, selections) ← selectionSet fuel
    return ⟨l.pos, .query, none, [], [], brace, selections⟩
  else
    let kind ← operationKind
    let n ← if ← peekName then some <$> name else pure none
    let variableDefs ← optionalMany .parenL (variableDefinition fuel) .parenR fuel
    let ds ← directives false fuel fuel
    let (brace, selections) ← selectionSet fuel
    return ⟨l.pos, kind, n, variableDefs, ds, brace, selections⟩

def fragment (fuel : Nat) : Parser Fragment := do
  let l ← current
  expectKeyword "fragment"
  let n ← fragmentName
  expectKeyword "on"
  let condition ← name
  let ds ← directives false fuel fuel
  let (brace, selections) ← selectionSet fuel
  return ⟨l.pos, n, condition, ds, brace, selections⟩

/-! ## Type system definitions -/

def description : Parser (Option Description) := do
  let l ← current
  match l.token with
  | .string s =>
    advance
    return some ⟨l.pos, s, false⟩
  | .blockString s =>
    advance
    return some ⟨l.pos, s, true⟩
  | _ => return none

def inputDefinition (fuel : Nat) : Parser InputDefinition := do
  let l ← current
  let d ← description
  let n ← name
  let _ ← expect .colon
  let type ← typeRef fuel
  let default ← defaultValue fuel
  return ⟨l.pos, d, n, type, default, ← directives true fuel fuel⟩

def fieldDefinition (fuel : Nat) : Parser FieldDefinition := do
  let l ← current
  let d ← description
  let n ← name
  let args ← optionalMany .parenL (inputDefinition fuel) .parenR fuel
  let _ ← expect .colon
  let type ← typeRef fuel
  return ⟨l.pos, d, n, args, type, ← directives true fuel fuel⟩

def enumValueDefinition (fuel : Nat) : Parser EnumValueDefinition := do
  let l ← current
  let d ← description
  let v ← current
  if ["true", "false", "null"].contains (v.token.value?.getD "") then
    fail v.pos (.reservedEnumValue v.token)
  else
    let n ← name
    return ⟨l.pos, d, n, ← directives true fuel fuel⟩

def rootDefinition : Parser RootDefinition := do
  let l ← current
  let kind ← operationKind
  let _ ← expect .colon
  return ⟨l.pos, kind, ← name⟩

def interfaces (fuel : Nat) : Parser (List Name) := do
  if ← acceptKeyword "implements" then separated .amp name fuel
  else return []

def unionTypes (fuel : Nat) : Parser (List Name) := do
  if ← accept .equals then separated .pipe name fuel
  else return []

/-- Where a directive may stand. -/
def directiveLocations : List String :=
  ["QUERY", "MUTATION", "SUBSCRIPTION", "FIELD", "FRAGMENT_DEFINITION", "FRAGMENT_SPREAD",
   "INLINE_FRAGMENT", "VARIABLE_DEFINITION", "SCHEMA", "SCALAR", "OBJECT", "FIELD_DEFINITION",
   "ARGUMENT_DEFINITION", "INTERFACE", "UNION", "ENUM", "ENUM_VALUE", "INPUT_OBJECT",
   "INPUT_FIELD_DEFINITION"]

def directiveLocation : Parser Name := do
  let l ← current
  let n ← name
  if directiveLocations.contains n.value then return n
  else unexpected l

/-- What follows the keyword and the name of a type, with the directives on it. -/
def typeRest (keyword : String) (fuel : Nat) : Parser (List Directive × TypeBody) := do
  let fields := optionalMany .braceL (fieldDefinition fuel) .braceR fuel
  match keyword with
  | "scalar" => return (← directives true fuel fuel, .scalar)
  | "type" =>
    let is ← interfaces fuel
    let ds ← directives true fuel fuel
    return (ds, .object is (← fields))
  | "interface" =>
    let is ← interfaces fuel
    let ds ← directives true fuel fuel
    return (ds, .interface is (← fields))
  | "union" =>
    let ds ← directives true fuel fuel
    return (ds, .union (← unionTypes fuel))
  | "enum" =>
    let ds ← directives true fuel fuel
    return (ds, .enum (← optionalMany .braceL (enumValueDefinition fuel) .braceR fuel))
  | _ =>
    let ds ← directives true fuel fuel
    return (ds, .inputObject (← optionalMany .braceL (inputDefinition fuel) .braceR fuel))

/-- Whether anything is said about the type besides its name. -/
def hasContent (ds : List Directive) : TypeBody → Bool
  | .scalar => !ds.isEmpty
  | .object is fs | .interface is fs => !is.isEmpty || !ds.isEmpty || !fs.isEmpty
  | .union ts => !ds.isEmpty || !ts.isEmpty
  | .enum vs => !ds.isEmpty || !vs.isEmpty
  | .inputObject fs => !ds.isEmpty || !fs.isEmpty

def typeDefinition (keyword : String) (fuel : Nat) : Parser Definition := do
  let l ← current
  let d ← description
  expectKeyword keyword
  let n ← name
  let (ds, body) ← typeRest keyword fuel
  return .type false ⟨l.pos, d, n, ds, body⟩

def schemaDefinition (fuel : Nat) : Parser Definition := do
  let l ← current
  let d ← description
  expectKeyword "schema"
  let ds ← directives true fuel fuel
  let (_, roots) ← many .braceL rootDefinition .braceR fuel
  return .schema false ⟨l.pos, d, ds, roots⟩

def directiveDefinition (fuel : Nat) : Parser Definition := do
  let l ← current
  let d ← description
  expectKeyword "directive"
  let _ ← expect .at_
  let n ← name
  let args ← optionalMany .parenL (inputDefinition fuel) .parenR fuel
  let repeatable ← acceptKeyword "repeatable"
  expectKeyword "on"
  return .directive ⟨l.pos, d, n, args, repeatable, ← separated .pipe directiveLocation fuel⟩

/-- An extension says something about a type or the schema besides its name. -/
def extension (fuel : Nat) : Parser Definition := do
  let l ← current
  let keyword ← lookahead
  let typeKeywords := ["scalar", "type", "interface", "union", "enum", "input"]
  match keyword.token with
  | .name word =>
    if word = "schema" then
      advance
      advance
      let ds ← directives true fuel fuel
      let roots ← optionalMany .braceL rootDefinition .braceR fuel
      if ds.isEmpty && roots.isEmpty then unexpected (← current)
      else return .schema true ⟨l.pos, none, ds, roots⟩
    else if typeKeywords.contains word then
      advance
      advance
      let n ← name
      let (ds, body) ← typeRest word fuel
      if hasContent ds body then return .type true ⟨l.pos, none, n, ds, body⟩
      else unexpected (← current)
    else unexpected keyword
  | _ => unexpected keyword

/-! ## Documents -/

def definition (fuel : Nat) : Parser Definition := do
  let l ← current
  if ← peek .braceL then return .operation (← operation fuel)
  let described := match l.token with
    | .string _ | .blockString _ => true
    | _ => false
  let keyword ← if described then lookahead else current
  match keyword.token with
  | .name "schema" => schemaDefinition fuel
  | .name "directive" => directiveDefinition fuel
  | .name word =>
    if ["scalar", "type", "interface", "union", "enum", "input"].contains word then
      typeDefinition word fuel
    else if described then fail l.pos .misplacedDescription
    else if ["query", "mutation", "subscription"].contains word then
      return .operation (← operation fuel)
    else if word = "fragment" then return .fragment (← fragment fuel)
    else if word = "extend" then extension fuel
    else unexpected keyword
  | _ => unexpected keyword

/-- Definitions up to the end of the text. -/
def definitions (bound : Nat) : Nat → Parser (List Definition)
  | 0 => do unexpected (← current)
  | fuel + 1 => do
    let first ← definition bound
    if (← current).token = .eof then return [first]
    else return first :: (← definitions bound fuel)

end Parser

/-- The document that a text spells. -/
def Document.parseChars (text : List Char) : Except SyntaxError Document := do
  let tokens ← Parser.settle (Token.scan text)
  let (definitions, _) ← (Parser.definitions tokens.length tokens.length).run tokens
  return ⟨definitions⟩

def Document.parse (text : String) : Except SyntaxError Document := Document.parseChars text.toList

/-- Reads a text that is a single value. -/
def Value.parse (text : String) : Except SyntaxError Value := do
  let tokens ← Parser.settle (Token.scan text.toList)
  let (value, rest) ← (Parser.value false tokens.length).run tokens
  match rest with
  | ⟨pos, found⟩ :: _ => if found = .eof then return value else throw ⟨.expectedEnd found, pos⟩
  | [] => return value

end QueryDepth
