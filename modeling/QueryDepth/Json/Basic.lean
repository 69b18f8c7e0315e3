import QueryDepth.Index

/-!
# JSON values

Members of an object keep the order in which their names first occurred, and a repeated name keeps
the last value. Numbers without a fraction or an exponent are integers of any size.
-/

namespace QueryDepth

inductive Json where
  | null
  | bool (value : Bool)
  | int (value : Int)
  | float (value : Float)
  | str (value : String)
  | arr (items : List Json)
  | obj (members : List (String × Json))
deriving Inhabited

namespace Json

/-- The value of a member, if this is an object that has it. -/
def get? (name : String) : Json → Option Json
  | .obj members => members.lookup name
  | _ => none

def asString? : Json → Option String
  | .str s => some s
  | _ => none

def asArray? : Json → Option (List Json)
  | .arr items => some items
  | _ => none

end Json

end QueryDepth
