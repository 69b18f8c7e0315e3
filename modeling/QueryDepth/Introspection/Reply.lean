import QueryDepth.Introspection.Query
import QueryDepth.Json.Member
import QueryDepth.Json.Reader
import QueryDepth.Text.Lower

/-!
# Asking a service for its schema

The query is posted to an address; a token goes along as authorization. A reply counts only with
status 200 and a JSON body that holds no errors, and what it answers is its data.
-/

namespace QueryDepth.Introspection

structure PostRequest where
  url : Data
  headers : List (String × String)
  query : String
  /-- How many seconds to wait. -/
  timeout : Nat

structure Reply where
  status : Int
  body : String
  headers : List (String × String)
  /-- The address that replied in the end. -/
  url : String

inductive IntrospectionError where
  /-- No reply came. -/
  | unreachable (reason : String)
  | badStatus (status : Int)
  | notJson (reply : Reply) (error : Json.ReadError)
  /-- The service reported errors. -/
  | reported (errors : Json)
  | member (error : Json.MemberError)

/-- The greatest number of characters of a body that are shown. -/
def previewSize : Nat := 300

def preview (body : String) : String :=
  if previewSize < body.toList.length then
    String.ofList (body.toList.take previewSize) ++ "..."
  else body

/-- The value of a header, whose name may be in any case. -/
def Reply.header? (reply : Reply) (name : String) : Option String :=
  (reply.headers.find? fun h => Text.lower h.1 == Text.lower name).map Prod.snd

def notJsonLines (reply : Reply) (error : Json.ReadError) : List String := [
  "GraphQL introspection failed - server returned non-JSON response",
  "",
  "  URL: " ++ reply.url,
  "  Status: " ++ Decimal.intText reply.status,
  "  Content-Type: " ++ (reply.header? "Content-Type").getD "unknown",
  "",
  "  Response preview:",
  "  " ++ preview reply.body,
  "",
  "  Suggestions:",
  "  - Ensure the GraphQL endpoint is accessible",
  "  - Authentication may be required - try adding --token YOUR_TOKEN",
  "",
  "  Original JSON error: " ++ error.message]

def IntrospectionError.message : IntrospectionError → String
  | .unreachable reason => reason
  | .badStatus status => "Introspection failed with status " ++ Decimal.intText status
  | .notJson reply error => "\n".intercalate (notJsonLines reply error)
  | .reported errors => "Introspection errors: " ++ (Data.ofJson errors).shown
  | .member error => error.message

/-- The request for the schema at an address. -/
def request (url : Data) (token : Option String) : PostRequest :=
  let headers := match token with
    | some t => if t.isEmpty then [] else [("Authorization", "Bearer " ++ t)]
    | none => []
  ⟨url, headers, query, 30⟩

/-- The data of a reply. -/
def Reply.data (reply : Reply) : Except IntrospectionError Json := do
  if reply.status ≠ 200 then throw (.badStatus reply.status)
  let payload ← match Json.read reply.body with
    | .ok payload => pure payload
    | .error e => throw (.notJson reply e)
  let asked {α : Type} : Except Json.MemberError α → Except IntrospectionError α
    | .ok a => .ok a
    | .error e => .error (.member e)
  if ← asked (payload.has "errors") then throw (.reported (← asked (payload.item "errors")))
  asked (payload.item "data")

end QueryDepth.Introspection
