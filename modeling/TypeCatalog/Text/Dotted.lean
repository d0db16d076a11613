/-! # Dotted names

A qualified name is a list of parts joined by dots. A text is split into the parts between the
occurrences of a separator, so a text without one is its only part. -/

namespace TypeCatalog.Text

/-- Join parts by dots. -/
def dotted (parts : List String) : String := ".".intercalate parts

/-- The parts of a text between the occurrences of a separator. -/
def splitAt (separator : Char) (text : String) : List String :=
  (text.toList.splitOn separator).map String.ofList

/-- The parts of a dotted name; a text without a dot is its only part. -/
def dottedParts (name : String) : List String := splitAt '.' name

/-- The part after the last dot, the whole name when there is none. -/
def lastPart (name : String) : String :=
  String.ofList (name.toList.reverse.takeWhile (· != '.')).reverse

/-- The part before the first dot, the whole name when there is none. -/
def firstPart (name : String) : String :=
  String.ofList (name.toList.takeWhile (· != '.'))

end TypeCatalog.Text
