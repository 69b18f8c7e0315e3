import QueryDepth.Ignore.Policy
import QueryDepth.Json.Basic

/-!
# Values of options

An option may be given as any value: plain data as a configuration file or a request holds it, and
also compiled patterns, predicates, policies and sequences that can be read only once.

A collection may hold itself. It is written as a `loop` with a mark, and wherever it occurs in its
own body, `again` with this mark stands for it. What it consists of is its body with the whole put
in these places (`put`), so nobody who takes a collection apart ever sees `again`.
-/

namespace QueryDepth

structure Date where
  year : Nat
  month : Nat
  day : Nat
deriving DecidableEq, Repr

/-- A day and a time of that day. -/
structure Timestamp where
  date : Date
  hour : Nat
  minute : Nat
  second : Nat
  microsecond : Nat
  /-- How many minutes the clock is ahead of universal time, if that is known. -/
  ahead : Option Int
deriving DecidableEq, Repr

inductive Data where
  | null
  | bool (value : Bool)
  | int (value : Int)
  | float (value : Float)
  | text (value : String)
  | bytes (value : List UInt8)
  | list (items : List Data)
  | tuple (items : List Data)
  | set (items : List Data)
  /-- A sequence that can be read once. -/
  | stream (items : List Data)
  /-- Keys in the order in which they first occurred. -/
  | mapping (entries : List (Data × Data))
  | date (date : Date)
  | timestamp (time : Timestamp)
  /-- A collection that holds itself. -/
  | loop (mark : Nat) (body : Data)
  /-- The collection around it that has this mark. -/
  | again (mark : Nat)
  | pattern (pattern : Pattern)
  | predicate (predicate : Predicate)
  | policy (policy : Policy)

instance : Inhabited Data := ⟨.null⟩

namespace Data

mutual

def ofJson : Json → Data
  | .null => .null
  | .bool b => .bool b
  | .int n => .int n
  | .float x => .float x
  | .str s => .text s
  | .arr items => .list (ofJsonItems items)
  | .obj members => .mapping (ofJsonMembers members)

def ofJsonItems : List Json → List Data
  | [] => []
  | v :: vs => ofJson v :: ofJsonItems vs

def ofJsonMembers : List (String × Json) → List (Data × Data)
  | [] => []
  | (k, v) :: ms => (.text k, ofJson v) :: ofJsonMembers ms

end

/-! ## Collections that hold themselves -/

mutual

/-- A value with another one in place of `again` with this mark. -/
def put (mark : Nat) (whole : Data) : Data → Data
  | .again m => if m = mark then whole else .again m
  | .loop m body => if m = mark then .loop m body else .loop m (put mark whole body)
  | .list items => .list (putItems mark whole items)
  | .tuple items => .tuple (putItems mark whole items)
  | .set items => .set (putItems mark whole items)
  | .stream items => .stream (putItems mark whole items)
  | .mapping entries => .mapping (putEntries mark whole entries)
  | value => value

def putItems (mark : Nat) (whole : Data) : List Data → List Data
  | [] => []
  | v :: vs => put mark whole v :: putItems mark whole vs

def putEntries (mark : Nat) (whole : Data) : List (Data × Data) → List (Data × Data)
  | [] => []
  | (k, v) :: es => (put mark whole k, put mark whole v) :: putEntries mark whole es

end

/-! ## What can be asked of a value -/

/-- Whether a value counts as something: not null, false, zero or empty. -/
def isTruthy : Data → Bool
  | .null => false
  | .bool b => b
  | .int n => n != 0
  | .float x => !(x == 0.0)
  | .text s => !s.isEmpty
  | .bytes bs => !bs.isEmpty
  | .list items | .tuple items | .set items => !items.isEmpty
  | .mapping entries => !entries.isEmpty
  | .loop _ body => body.isTruthy
  | .stream _ | .date _ | .timestamp _ | .again _ | .pattern _ | .predicate _ | .policy _ => true

/-- The word for a value's type in messages. -/
def typeName : Data → String
  | .null => "NoneType"
  | .bool _ => "bool"
  | .int _ => "int"
  | .float _ => "float"
  | .text _ => "str"
  | .bytes _ => "bytes"
  | .list _ => "list"
  | .tuple _ => "tuple"
  | .set _ => "set"
  | .stream _ => "list_iterator"
  | .mapping _ => "dict"
  | .date _ => "datetime.date"
  | .timestamp _ => "datetime.datetime"
  | .loop _ body => body.typeName
  | .again _ => "object"
  | .pattern _ => "re.Pattern"
  | .predicate _ => "function"
  | .policy _ => "IgnorePolicy"

/-- What iterating over a value yields, if it can be iterated over. -/
def items? : Data → Option (List Data)
  | .text s => some (s.toList.map fun c => .text (String.singleton c))
  | .bytes bs => some (bs.map fun b => .int b.toNat)
  | .list items | .tuple items | .set items | .stream items => some items
  | .mapping entries => some (entries.map Prod.fst)
  | .loop mark body => body.items?.map (putItems mark (.loop mark body))
  | _ => none

/-- The entries of a mapping. -/
def entries? : Data → Option (List (Data × Data))
  | .mapping entries => some entries
  | .loop mark body => body.entries?.map (putEntries mark (.loop mark body))
  | _ => none

def isMapping (v : Data) : Bool := v.entries?.isSome

/-- Whether a value is made of others. -/
def isCollection : Data → Bool
  | .list _ | .tuple _ | .set _ | .mapping _ => true
  | _ => false

end Data

end QueryDepth
