import QueryDepth.Depth.Node

/-!
# Outlines

The outline of a document shows every node by its kind and its named parts, so that any node can be
reached by a path of part names and positions in lists.
-/

namespace QueryDepth

/-- A node as the depth walk sees it, and its parts by name; a part is one node or a list. -/
inductive Outline where
  | mk (node : Node) (parts : List (String × (Outline ⊕ List Outline)))

namespace Outline

def node : Outline → Node
  | .mk n _ => n

/-- A node on which depth has no meaning. -/
def plain (pos : Nat) (kind : String) (parts : List (String × (Outline ⊕ List Outline))) :
    Outline :=
  .mk (.other (some pos) kind) parts

def optional (name : String) : Option Outline → List (String × (Outline ⊕ List Outline))
  | none => []
  | some o => [(name, .inl o)]

def ofName (n : Name) : Outline := plain n.pos "name" []

def ofNamedType (n : Name) : Outline := plain n.pos "named_type" [("name", .inl (ofName n))]

def ofType : TypeRef → Outline
  | .named n => ofNamedType n
  | .list pos t => plain pos "list_type" [("type", .inl (ofType t))]
  | .nonNull pos t => plain pos "non_null_type" [("type", .inl (ofType t))]

def ofVariable (pos : Nat) (n : Name) : Outline :=
  plain pos "variable" [("name", .inl (ofName n))]

mutual

def ofValue : Value → Outline
  | .variable_ pos n => ofVariable pos n
  | .int pos _ => plain pos "int_value" []
  | .float pos _ => plain pos "float_value" []
  | .string pos _ _ => plain pos "string_value" []
  | .boolean pos _ => plain pos "boolean_value" []
  | .null pos => plain pos "null_value" []
  | .enum pos _ => plain pos "enum_value" []
  | .list pos items => plain pos "list_value" [("values", .inr (ofValues items))]
  | .object pos fields => plain pos "object_value" [("fields", .inr (ofObjectFields fields))]

def ofValues : List Value → List Outline
  | [] => []
  | v :: vs => ofValue v :: ofValues vs

def ofObjectFields : List (Name × Value) → List Outline
  | [] => []
  | (n, v) :: fs =>
    plain n.pos "object_field" [("name", .inl (ofName n)), ("value", .inl (ofValue v))]
      :: ofObjectFields fs

end

def ofArgument (a : Argument) : Outline :=
  plain a.pos "argument" [("name", .inl (ofName a.name)), ("value", .inl (ofValue a.value))]

def ofDirective (d : Directive) : Outline :=
  plain d.pos "directive"
    [("name", .inl (ofName d.name)), ("arguments", .inr (d.arguments.map ofArgument))]

def directives (ds : List Directive) : String × (Outline ⊕ List Outline) :=
  ("directives", .inr (ds.map ofDirective))

def selectionSet (brace : Nat) (selections : List Outline) :
    List (String × (Outline ⊕ List Outline)) :=
  if selections.isEmpty then []
  else [("selection_set", .inl (plain brace "selection_set" [("selections", .inr selections)]))]

mutual

def ofSelection : Selection → Outline
  | .field f ss =>
    .mk (Selection.node (.field f ss))
      (optional "alias" (f.aliasName.map ofName)
        ++ [("name", .inl (ofName f.name)), ("arguments", .inr (f.arguments.map ofArgument)),
            directives f.directives]
        ++ selectionSet f.brace (ofSelections ss))
  | .spread s =>
    .mk (Selection.node (.spread s)) [("name", .inl (ofName s.name)), directives s.directives]
  | .inlineFragment f ss =>
    .mk (Selection.node (.inlineFragment f ss))
      (optional "type_condition" (f.condition.map ofNamedType) ++ [directives f.directives]
        ++ selectionSet f.brace (ofSelections ss))

def ofSelections : List Selection → List Outline
  | [] => []
  | s :: ss => ofSelection s :: ofSelections ss

end

def ofVariableDefinition (v : VariableDefinition) : Outline :=
  plain v.pos "variable_definition"
    ([("variable", .inl (ofVariable v.pos v.name)), ("type", .inl (ofType v.type))]
      ++ optional "default_value" (v.default.map ofValue) ++ [directives v.directives])

def ofOperation (op : Operation) : Outline :=
  .mk op.node
    (optional "name" (op.name.map ofName)
      ++ [("variable_definitions", .inr (op.variableDefs.map ofVariableDefinition)),
          directives op.directives]
      ++ selectionSet op.brace (ofSelections op.selections))

def ofFragment (f : Fragment) : Outline :=
  .mk f.node
    ([("name", .inl (ofName f.name)), ("type_condition", .inl (ofNamedType f.condition)),
      directives f.directives] ++ selectionSet f.brace (ofSelections f.selections))

def ofDescription (d : Option Description) : List (String × (Outline ⊕ List Outline)) :=
  optional "description" (d.map fun d => plain d.pos "string_value" [])

def ofInput (d : InputDefinition) : Outline :=
  plain d.pos "input_value_definition"
    (ofDescription d.description
      ++ [("name", .inl (ofName d.name)), ("type", .inl (ofType d.type))]
      ++ optional "default_value" (d.default.map ofValue) ++ [directives d.directives])

def ofField (d : FieldDefinition) : Outline :=
  plain d.pos "field_definition"
    (ofDescription d.description
      ++ [("name", .inl (ofName d.name)), ("arguments", .inr (d.arguments.map ofInput)),
          ("type", .inl (ofType d.type)), directives d.directives])

def ofEnumValue (d : EnumValueDefinition) : Outline :=
  plain d.pos "enum_value_definition"
    (ofDescription d.description ++ [("name", .inl (ofName d.name)), directives d.directives])

def ofRoot (d : RootDefinition) : Outline :=
  plain d.pos "operation_type_definition" [("type", .inl (ofNamedType d.type))]

def bodyParts : TypeBody → List (String × (Outline ⊕ List Outline))
  | .scalar => []
  | .object is fs | .interface is fs =>
    [("interfaces", .inr (is.map ofNamedType)), ("fields", .inr (fs.map ofField))]
  | .union ts => [("types", .inr (ts.map ofNamedType))]
  | .enum vs => [("values", .inr (vs.map ofEnumValue))]
  | .inputObject fs => [("fields", .inr (fs.map ofInput))]

end Outline

/-- The word for a kind of type. -/
def TypeBody.kind : TypeBody → String
  | .scalar => "scalar_type"
  | .object _ _ => "object_type"
  | .interface _ _ => "interface_type"
  | .union _ => "union_type"
  | .enum _ => "enum_type"
  | .inputObject _ => "input_object_type"

/-- The word for a kind of definition. -/
def Definition.kind : Definition → String
  | .operation _ => "operation_definition"
  | .fragment _ => "fragment_definition"
  | .schema isExtension _ => if isExtension then "schema_extension" else "schema_definition"
  | .type isExtension t => t.body.kind ++ if isExtension then "_extension" else "_definition"
  | .directive _ => "directive_definition"

namespace Outline

def ofDefinition (d : Definition) : Outline :=
  match d with
  | .operation op => ofOperation op
  | .fragment f => ofFragment f
  | .schema _ s =>
    plain s.pos d.kind
      (ofDescription s.description
        ++ [directives s.directives, ("operation_types", .inr (s.roots.map ofRoot))])
  | .type _ t =>
    plain t.pos d.kind
      (ofDescription t.description ++ [("name", .inl (ofName t.name)), directives t.directives]
        ++ bodyParts t.body)
  | .directive t =>
    plain t.pos d.kind
      (ofDescription t.description
        ++ [("name", .inl (ofName t.name)), ("arguments", .inr (t.arguments.map ofInput)),
            ("locations", .inr (t.locations.map ofName))])

def ofDocument (doc : Document) : Outline :=
  plain 0 "document" [("definitions", .inr (doc.definitions.map ofDefinition))]

/-- A step down: a part by name, and for a list also a position. -/
def follow : Outline → List (String × Option Nat) → Option Outline
  | o, [] => some o
  | .mk _ parts, (name, position) :: path =>
    match parts.lookup name, position with
    | some (.inl o), none => o.follow path
    | some (.inr os), some i =>
      match os[i]? with
      | some o => o.follow path
      | none => none
    | _, _ => none

end Outline

end QueryDepth
