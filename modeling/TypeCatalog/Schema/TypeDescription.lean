import TypeCatalog.Literal.Display
import TypeCatalog.Schema.Basic

/-! # The schema of records

Records are objects with fixed members. The version of the schema goes with every output. -/

namespace TypeCatalog

namespace Json

mutual

/-- A JSON value as a literal value. -/
def toLiteral : Json → Literal
  | .null => .null
  | .bool value => .bool value
  | .int value => .int value
  | .float value => .float value
  | .string value => .string value
  | .array items => .list (toLiterals items)
  | .object members => .dict (toEntries members)

/-- JSON values as literal values. -/
def toLiterals : List Json → List Literal
  | [] => []
  | item :: rest => toLiteral item :: toLiterals rest

/-- The members of an object as the entries of a dictionary. -/
def toEntries : List (String × Json) → List (Literal × Literal)
  | [] => []
  | (key, value) :: rest => (.string key, toLiteral value) :: toEntries rest

end

/-- A value as plain text: a text is itself, any other value is displayed like a literal. -/
def plainText (value : Json) : String := value.toLiteral.plainText

end Json

namespace Schema

/-- The place of a declaration. -/
def location : Schema :=
  .exactlyOne .null
    (.object [("path", .text 0), ("line", .integer 1), ("column", .integer 0)])

def attributeRecord : Schema :=
  .object [("full_name", .text 0), ("short_name", .text 0), ("arguments", .anyArray),
    ("named_arguments", .anyObject)]

def memberRecord : Schema :=
  .object [("name", .text 1), ("declaring_type", .text 0),
    ("kind", .oneOfTexts ["field", "property"]), ("type", .textOrNull), ("optional", .bool),
    ("value_type", .textOrNull), ("inherited", .bool), ("overrides", .textOrNull),
    ("attributes", .array attributeRecord), ("inherited_attributes", .array attributeRecord)]

def typeRecord : Schema :=
  .object [("kind", .oneOfTexts ["type"]), ("fqn", .text 1), ("location", location),
    ("generic", .bool), ("ancestors", .array (.text 0)), ("serializable", .bool),
    ("attributes", .array attributeRecord), ("members", .array memberRecord)]

/-- The version of the schema of records. -/
def version : String := "1"

/-- The version that a schema document states. -/
def versionOf (document : Json) : String :=
  match document.member? "x-serialschema-version" with
  | some value => value.plainText
  | none => "unknown"

end Schema

end TypeCatalog
