import TypeCatalog.Json.Basic

/-! # Schemas

A schema says which JSON values a reader may expect. An integer is any number without a fraction, so
`1.0` is one; truth values are no numbers. -/

namespace TypeCatalog

/-- A schema of JSON values. -/
inductive Schema where
  /-- Any array. -/
  | anyArray
  /-- Any object. -/
  | anyObject
  | null
  | bool
  /-- A text of at least so many characters. -/
  | text (minLength : Nat)
  /-- One of the given texts. -/
  | oneOfTexts (texts : List String)
  /-- An integer that is not less than a bound. -/
  | integer (minimum : Int)
  | textOrNull
  /-- An array whose items all conform. -/
  | array (items : Schema)
  /-- An object that has each of the given members and no others. -/
  | object (members : List (String × Schema))
  /-- A value that conforms to exactly one of two schemas. -/
  | exactlyOne (left right : Schema)

namespace Json

def integer? : Json → Option Int
  | .int value => some value
  | .float value => value.toInt?
  | _ => none

end Json

namespace Schema

/-- Whether all items of an array conform, judged by a given test. -/
def itemsConform (test : Json → Bool) : Json → Bool
  | .array items => items.all test
  | _ => false

/-- Whether the keys of an object are among the given ones. -/
def keysAreAmong (keys : List String) : Json → Bool
  | .object members => members.all fun entry => keys.contains entry.1
  | _ => false

mutual

def conforms : Schema → Json → Bool
  | .anyArray, value => itemsConform (fun _ => true) value
  | .anyObject, .object _ => true
  | .null, .null => true
  | .bool, .bool _ => true
  | .text minLength, .string value => decide (minLength ≤ value.length)
  | .oneOfTexts texts, .string value => texts.contains value
  | .integer minimum, value => value.integer?.any fun number => decide (minimum ≤ number)
  | .textOrNull, .string _ => true
  | .textOrNull, .null => true
  | .array items, value => itemsConform (conforms items) value
  | .object members, value =>
      keysAreAmong (members.map Prod.fst) value && membersConform members value
  | .exactlyOne left right, value => conforms left value != conforms right value
  | _, _ => false

/-- Whether an object has each of the given members, with values that conform. -/
def membersConform : List (String × Schema) → Json → Bool
  | [], _ => true
  | (key, schema) :: rest, value =>
      (value.member? key).any (conforms schema) && membersConform rest value

end

end Schema

end TypeCatalog
