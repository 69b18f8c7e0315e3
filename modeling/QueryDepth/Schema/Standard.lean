import QueryDepth.Schema.Basic

/-!
# What every schema has

The five standard scalars, the types through which a schema describes itself, the fields that every
root type or composite type has on top of its own, and the standard directives.
-/

namespace QueryDepth.Schema

def standardScalarNames : List String := ["String", "Int", "Float", "Boolean", "ID"]

def standardScalars : List NamedType := standardScalarNames.map fun n => ⟨n, .scalar⟩

/-- `t!` for a name. -/
def required (name : String) : SchemaType := .nonNull (.named name)

/-- `[t!]` for a name. -/
def listOf (name : String) : SchemaType := .list (required name)

def plainField (name : String) (type : SchemaType) : SchemaField := ⟨name, [], type⟩

/-- Deprecated elements are left out unless they are asked for. -/
def includeDeprecated : InputField :=
  ⟨"includeDeprecated", .named "Boolean", some (.boolean 0 false), false⟩

def filteredField (name : String) (type : SchemaType) : SchemaField :=
  ⟨name, [includeDeprecated], type⟩

/-- The names of the places where a directive may be used, as a document writes them, and in
words. -/
def directiveLocations : List (String × String) := [
  ("QUERY", "query"), ("MUTATION", "mutation"), ("SUBSCRIPTION", "subscription"),
  ("FIELD", "field"), ("FRAGMENT_DEFINITION", "fragment definition"),
  ("FRAGMENT_SPREAD", "fragment spread"), ("INLINE_FRAGMENT", "inline fragment"),
  ("VARIABLE_DEFINITION", "variable definition"), ("SCHEMA", "schema"), ("SCALAR", "scalar"),
  ("OBJECT", "object"), ("FIELD_DEFINITION", "field definition"),
  ("ARGUMENT_DEFINITION", "argument definition"), ("INTERFACE", "interface"), ("UNION", "union"),
  ("ENUM", "enum"), ("ENUM_VALUE", "enum value"), ("INPUT_OBJECT", "input object"),
  ("INPUT_FIELD_DEFINITION", "input field definition")]

/-- A directive location in words. -/
def locationWords (name : String) : String := (directiveLocations.lookup name).getD name

/-- The types of introspection, in the order in which the first refers to the others. -/
def introspectionTypes : List NamedType :=
  let description := plainField "description" (.named "String")
  let deprecation := [plainField "isDeprecated" (required "Boolean"),
    plainField "deprecationReason" (.named "String")]
  [⟨"__Schema", .object [] [
      description,
      plainField "types" (.nonNull (listOf "__Type")),
      plainField "queryType" (required "__Type"),
      plainField "mutationType" (.named "__Type"),
      plainField "subscriptionType" (.named "__Type"),
      plainField "directives" (.nonNull (listOf "__Directive"))]⟩,
   ⟨"__Type", .object [] [
      plainField "kind" (required "__TypeKind"),
      plainField "name" (.named "String"),
      description,
      plainField "specifiedByURL" (.named "String"),
      filteredField "fields" (listOf "__Field"),
      plainField "interfaces" (listOf "__Type"),
      plainField "possibleTypes" (listOf "__Type"),
      filteredField "enumValues" (listOf "__EnumValue"),
      filteredField "inputFields" (listOf "__InputValue"),
      plainField "ofType" (.named "__Type")]⟩,
   ⟨"__TypeKind", .enum ["SCALAR", "OBJECT", "INTERFACE", "UNION", "ENUM", "INPUT_OBJECT", "LIST",
      "NON_NULL"]⟩,
   ⟨"__Field", .object [] ([
      plainField "name" (required "String"),
      description,
      filteredField "args" (.nonNull (listOf "__InputValue")),
      plainField "type" (required "__Type")] ++ deprecation)⟩,
   ⟨"__InputValue", .object [] ([
      plainField "name" (required "String"),
      description,
      plainField "type" (required "__Type"),
      plainField "defaultValue" (.named "String")] ++ deprecation)⟩,
   ⟨"__EnumValue", .object [] ([plainField "name" (required "String"), description]
      ++ deprecation)⟩,
   ⟨"__Directive", .object [] [
      plainField "name" (required "String"),
      description,
      plainField "isRepeatable" (required "Boolean"),
      plainField "locations" (.nonNull (listOf "__DirectiveLocation")),
      filteredField "args" (.nonNull (listOf "__InputValue"))]⟩,
   ⟨"__DirectiveLocation", .enum (directiveLocations.map Prod.fst)⟩]

def introspectionNames : List String := introspectionTypes.map NamedType.name

/-- Standard scalars and types of introspection. -/
def standardTypes : List NamedType := standardScalars ++ introspectionTypes

def isStandardName (name : String) : Bool :=
  standardScalarNames.contains name || introspectionNames.contains name

/-- The type of this name that every schema may refer to. -/
def standardType? (name : String) : Option NamedType := standardTypes.find? (·.name = name)

def standardDirectives : List SchemaDirective :=
  let condition : InputField := ⟨"if", required "Boolean", none, false⟩
  [⟨"include", [condition], false, ["field", "fragment spread", "inline fragment"]⟩,
   ⟨"skip", [condition], false, ["field", "fragment spread", "inline fragment"]⟩,
   ⟨"deprecated",
      [⟨"reason", .named "String", some (.string 0 "No longer supported" false), false⟩], false,
      ["field definition", "argument definition", "input field definition", "enum value"]⟩,
   ⟨"specifiedBy", [⟨"url", required "String", none, false⟩], false, ["scalar"]⟩]

/-- The field that a name means on a composite type. -/
def fieldOn? (s : Schema) (parent : NamedType) (name : String) : Option SchemaField :=
  if name = "__schema" ∧ s.query = some parent.name then
    some (plainField "__schema" (required "__Schema"))
  else if name = "__type" ∧ s.query = some parent.name then
    some ⟨"__type", [⟨"name", required "String", none, false⟩], .named "__Type"⟩
  else if name = "__typename" ∧ parent.body.isComposite then
    some (plainField "__typename" (required "String"))
  else parent.field? name

end QueryDepth.Schema
