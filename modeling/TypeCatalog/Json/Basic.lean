import TypeCatalog.Number.Binary64
import TypeCatalog.Table

/-! # JSON values

Objects keep the order of their members. Integers and floating-point numbers are different values,
as they are in text: a number written with a point or an exponent is a floating-point number. -/

namespace TypeCatalog

/-- A JSON value. -/
inductive Json where
  | null
  | bool (value : Bool)
  | int (value : Int)
  | float (value : Binary64)
  | string (value : String)
  | array (items : List Json)
  | object (members : List (String × Json))
  deriving Inhabited

namespace Json

/-- The members of an object; no other value has any. -/
def members : Json → List (String × Json)
  | .object members => members
  | _ => []

/-- The value of a member, of the last one when a key is repeated. -/
def member? (value : Json) (key : String) : Option Json :=
  value.members.reverse.lookup key

/-- The items of an array; no other value has any. -/
def items : Json → List Json
  | .array items => items
  | _ => []

/-- The text of a text value. -/
def string? : Json → Option String
  | .string value => some value
  | _ => none

/-- Text, or null when there is none. -/
def ofString? : Option String → Json
  | some value => .string value
  | none => .null

/-- The members of a list of pairs, of which the last with a given key counts. -/
def uniqueMembers (pairs : List (String × Json)) : List (String × Json) :=
  pairs.foldl (fun members entry => setEntry members entry.1 entry.2) []

end Json

end TypeCatalog
