import QueryDepth.Document.SyntaxError
import QueryDepth.Json.Abridged
import QueryDepth.Json.Member
import QueryDepth.Validation.Violation

/-!
# Why there is no schema

A text is no document, definitions break rules, or the parts of a schema do not go together.
Messages about texts show excerpts, so they exist only if the excerpts do.
-/

namespace QueryDepth

/-- Why parts do not make a schema. -/
inductive BuildFault where
  | argumentType
  | inputFieldType
  | fieldType
  /-- A default value where no input can be. -/
  | unexpectedInput (type : String)
  /-- Something that is not an interface is implemented. -/
  | notInterfaces (type : String)
  /-- A union has members that are no objects. -/
  | notObjects (type : String)
  /-- The argument of a directive has no meaning. -/
  | badArgument (text : List Char) (violation : Violation)
  /-- The introspection result has no schema. -/
  | noSchema (result : Json)
  /-- A described type has no name or no kind of type. -/
  | incompleteType (type : Json)
  /-- A part of a description is missing. -/
  | lacks (part : String) (description : Json)
  | lacksFields (type : Json)
  /-- The inner type of a list or a non-null type is not told. -/
  | tooDeep
  | namelessType (type : Json)
  | unknownType (name : String)
  /-- A type is not of the kind that is needed. -/
  | wrongKind (type kind : String)
  /-- The type of a described part is not of an output or not of an input. -/
  | wrongUse (use parts type : String)
  | reservedType (name : String)
  | noName
  | nameNotText
  | emptyName
  | badName (name : String)
  | badNameStart (name : String)
  | badEnumValue (name : String)
  /-- A default value is no text. -/
  | noLiteral (value : Json)
  /-- A default value is a text that is no value. -/
  | badLiteral (text : String) (error : SyntaxError)
  | badLocations (directive : String)
  /-- Something that must be a text, such as a description, is none. -/
  | notText (what : String)
  /-- The address of a scalar's specification is no text. -/
  | badAddress (type : String) (value : Json)
  | badRepeatable (directive : String)
  | member (error : Json.MemberError)
  /-- Something is wrong with the interfaces, the fields or the members of a type. -/
  | within (type part : String) (fault : BuildFault)

namespace BuildFault

/-- Whether the fault is one of a document, or of a name. -/
def isOfDocument : BuildFault → Bool
  | .badArgument _ _ | .badLiteral _ _ | .emptyName | .badName _ | .badNameStart _
  | .badEnumValue _ => true
  | .within _ _ fault => fault.isOfDocument
  | _ => false

/-- The message, if there are the excerpts that it shows. -/
def report? : BuildFault → Option String
  | .argumentType => some "Argument type must be a GraphQL input type."
  | .inputFieldType => some "Input field type must be a GraphQL input type."
  | .fieldType => some "Field type must be an output type."
  | .unexpectedInput type => some ("Unexpected input type: " ++ type ++ ".")
  | .notInterfaces type =>
    some (type
      ++ " interfaces must be specified as a collection of GraphQLInterfaceType instances.")
  | .notObjects type =>
    some (type ++ " types must be specified as a collection of GraphQLObjectType instances.")
  | .badArgument text violation => violation.report? text
  | .noSchema result =>
    some ("Invalid or incomplete introspection result. Ensure that you are passing the 'data' "
      ++ "attribute of an introspection response and no 'errors' were returned alongside: "
      ++ result.abridged ++ ".")
  | .incompleteType type =>
    some ("Invalid or incomplete introspection result. Ensure that a full introspection query is "
      ++ "used in order to build a client schema: " ++ type.abridged ++ ".")
  | .lacks part description =>
    some ("Introspection result missing " ++ part ++ ": " ++ description.abridged ++ ".")
  | .lacksFields type =>
    some ("Introspection result missing fields: " ++ (Data.ofJson type).literal ++ ".")
  | .tooDeep => some "Decorated type deeper than introspection query."
  | .namelessType type => some ("Unknown type reference: " ++ type.abridged ++ ".")
  | .unknownType name =>
    some ("Invalid or incomplete schema, unknown type: " ++ name
      ++ ". Ensure that a full introspection query is used in order to build a client schema.")
  | .wrongKind type kind => some ("Expected " ++ type ++ " to be a GraphQL " ++ kind ++ ".")
  | .wrongUse use parts type =>
    some ("Introspection must provide " ++ use ++ " type for " ++ parts ++ ", but received: "
      ++ type ++ ".")
  | .reservedType name => some ("Redefinition of reserved type " ++ Text.quoted name)
  | .noName => some "Must provide name."
  | .nameNotText => some "Expected name to be a string."
  | .emptyName => some "Expected name to be a non-empty string."
  | .badName name =>
    some ("Names must only contain [_a-zA-Z0-9] but " ++ Text.quoted name ++ " does not.")
  | .badNameStart name =>
    some ("Names must start with [_a-zA-Z] but " ++ Text.quoted name ++ " does not.")
  | .badEnumValue name => some ("Enum values cannot be named: " ++ name ++ ".")
  | .noLiteral value =>
    some ("Must provide Source string or source object. Received: " ++ value.abridged ++ ".")
  | .badLiteral text error => error.report? text.toList
  | .badLocations directive =>
    some (directive
      ++ " locations must be specified as a collection of DirectiveLocation enum values.")
  | .notText what => some (what ++ " must be a string.")
  | .badAddress type value =>
    some (type ++ " must provide 'specified_by_url' as a string, but got: " ++ value.abridged
      ++ ".")
  | .badRepeatable directive => some (directive ++ " is_repeatable flag must be True or False.")
  | .member error => some error.message
  | .within type part fault => do
    return type ++ " " ++ part ++ " cannot be resolved. " ++ (← fault.report?)

end BuildFault

inductive SchemaError where
  /-- The text of the definitions is no document. -/
  | unreadable (text : String) (error : SyntaxError)
  /-- Rules on definitions or on schemas are broken. -/
  | invalid (messages : List String)
  | unbuildable (fault : BuildFault)

namespace SchemaError

/-- The message, if there are the excerpts that it shows. -/
def report? : SchemaError → Option String
  | .unreadable text error => error.report? text.toList
  | .invalid messages => some ("\n\n".intercalate messages)
  | .unbuildable fault => fault.report?

end SchemaError

end QueryDepth
