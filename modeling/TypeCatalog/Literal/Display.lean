import TypeCatalog.Literal.Basic
import TypeCatalog.Number.Decimal
import TypeCatalog.Text.Quoted

/-! # Displays of literal values

The display of a value is the text that would be read back as the value. The elements of a set are
displayed in the order of their displays, so a display does not depend on how a set was built. -/

namespace TypeCatalog.Literal

/-- The display of a complex number: bare when its real part is positive zero, else in brackets. -/
def displayComplex (real imaginary : Binary64) : String :=
  let imaginaryText := DecimalStyle.complexPart.text imaginary
  if real = Binary64.zero then imaginaryText ++ "j"
  else
    let sign := if imaginary.negative && !imaginary.isNotANumber then "" else "+"
    "(" ++ DecimalStyle.complexPart.text real ++ sign ++ imaginaryText ++ "j)"

/-- Texts in the order of their code points. -/
def sortTexts (texts : List String) : List String :=
  texts.mergeSort fun left right => decide (left ≤ right)

mutual

def display : Literal → String
  | .null => "None"
  | .bool true => "True"
  | .bool false => "False"
  | .int value => toString value
  | .float value => DecimalStyle.plain.text value
  | .complex real imaginary => displayComplex real imaginary
  | .string value => Text.display value
  | .bytes value => Text.displayBytes value
  | .ellipsis => "Ellipsis"
  | .list items => "[" ++ ", ".intercalate (displayItems items) ++ "]"
  | .tuple [item] => "(" ++ display item ++ ",)"
  | .tuple items => "(" ++ ", ".intercalate (displayItems items) ++ ")"
  | .set [] => "set()"
  | .set elements => "\x7b" ++ ", ".intercalate (sortTexts (displayItems elements)) ++ "\x7d"
  | .dict entries => "\x7b" ++ ", ".intercalate (displayEntries entries) ++ "\x7d"

def displayItems : List Literal → List String
  | [] => []
  | item :: rest => display item :: displayItems rest

def displayEntries : List (Literal × Literal) → List String
  | [] => []
  | (key, value) :: rest => (display key ++ ": " ++ display value) :: displayEntries rest

end

/-- A value as plain text: a text is itself, any other value its display. -/
def plainText : Literal → String
  | .string value => value
  | other => other.display

/-- The elements of a set in the order of their displays. -/
def sortElements (elements : List Literal) : List Literal :=
  elements.mergeSort fun left right => decide (left.display ≤ right.display)

end TypeCatalog.Literal
