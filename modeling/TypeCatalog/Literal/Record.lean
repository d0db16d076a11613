import TypeCatalog.Json.Basic
import TypeCatalog.Literal.Display

/-! # Literal values in records

A record holds JSON, so a literal value is rendered: sequences and sets become arrays, the elements
of a set in the order of their displays; dictionaries become objects, their keys as plain text;
bytes, complex numbers and the ellipsis become their displays. -/

namespace TypeCatalog.Literal

/-- Pairs in the order of their first parts. -/
def sortByDisplay (pairs : List (String × Json)) : List Json :=
  (pairs.mergeSort fun left right => decide (left.1 ≤ right.1)).map Prod.snd

mutual

/-- The JSON value by which a record shows a literal value. -/
def toJson : Literal → Json
  | .null => .null
  | .bool value => .bool value
  | .int value => .int value
  | .float value => .float value
  | .string value => .string value
  | .bytes value => .string (Text.displayBytes value)
  | .complex real imaginary => .string (displayComplex real imaginary)
  | .ellipsis => .string "Ellipsis"
  | .list items => .array (toJsonItems items)
  | .tuple items => .array (toJsonItems items)
  | .set elements => .array (sortByDisplay (toJsonElements elements))
  | .dict entries => .object (Json.uniqueMembers (toJsonEntries entries))

/-- The renderings of a list of values. -/
def toJsonItems : List Literal → List Json
  | [] => []
  | item :: rest => toJson item :: toJsonItems rest

/-- The elements of a set, each with its display. -/
def toJsonElements : List Literal → List (String × Json)
  | [] => []
  | element :: rest => (display element, toJson element) :: toJsonElements rest

/-- The entries of a dictionary, the keys as plain text. -/
def toJsonEntries : List (Literal × Literal) → List (String × Json)
  | [] => []
  | (key, value) :: rest => (plainText key, toJson value) :: toJsonEntries rest

end

end TypeCatalog.Literal
