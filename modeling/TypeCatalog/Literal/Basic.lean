import TypeCatalog.Number.Binary64

/-! # Literal values

The values that an argument of a decorator or of annotation metadata may have. Numbers of different
kinds are equal when they denote the same number, so the truth value `true`, the integer 1 and the
floating-point number 1 are one element of a set. -/

namespace TypeCatalog

/-- A literal value. -/
inductive Literal where
  | null
  | bool (value : Bool)
  | int (value : Int)
  | float (value : Binary64)
  | complex (real imaginary : Binary64)
  | string (value : String)
  | bytes (value : List UInt8)
  | ellipsis
  | list (items : List Literal)
  | tuple (items : List Literal)
  | set (elements : List Literal)
  | dict (entries : List (Literal × Literal))
  deriving Inhabited

/-- A real number, exact or floating. -/
inductive Scalar where
  | exact (value : Int)
  | floating (value : Binary64)

namespace Scalar

/-- Whether two numbers are equal. -/
def equals : Scalar → Scalar → Bool
  | .exact left, .exact right => decide (left = right)
  | .floating left, .floating right => left.equals right
  | .exact left, .floating right => right.equalsInt left
  | .floating left, .exact right => left.equalsInt right

end Scalar

namespace Literal

/-- The real and imaginary part of a number. -/
def number? : Literal → Option (Scalar × Scalar)
  | .bool value => some (.exact (if value then 1 else 0), .exact 0)
  | .int value => some (.exact value, .exact 0)
  | .float value => some (.floating value, .exact 0)
  | .complex real imaginary => some (.floating real, .floating imaginary)
  | _ => none

/-- Whether both values are numbers and equal as numbers. -/
def sameNumber (left right : Literal) : Bool :=
  match left.number?, right.number? with
  | some first, some second => first.1.equals second.1 && first.2.equals second.2
  | _, _ => false

mutual

/-- Whether two values count as one element of a set or one key of a dictionary. -/
def same : Literal → Literal → Bool
  | .null, .null => true
  | .ellipsis, .ellipsis => true
  | .string left, .string right => left == right
  | .bytes left, .bytes right => left == right
  | .tuple left, .tuple right => sameItems left right
  | left, right => sameNumber left right

/-- Whether two lists have the same values at the same places. -/
def sameItems : List Literal → List Literal → Bool
  | [], [] => true
  | left :: lefts, right :: rights => same left right && sameItems lefts rights
  | _, _ => false

end

mutual

/-- Whether a value may be an element of a set or a key of a dictionary. -/
def isHashable : Literal → Bool
  | .list _ | .set _ | .dict _ => false
  | .tuple items => areHashable items
  | _ => true

/-- Whether every value of a list may be an element of a set. -/
def areHashable : List Literal → Bool
  | [] => true
  | item :: rest => isHashable item && areHashable rest

end

/-- Add an element to a set unless the set has an equal one. -/
def insertElement (elements : List Literal) (element : Literal) : List Literal :=
  if elements.any (same element) then elements else elements ++ [element]

/-- Store a value in a dictionary: under an equal key when there is one, at the end otherwise. -/
def insertEntry (entries : List (Literal × Literal)) (key value : Literal) :
    List (Literal × Literal) :=
  if entries.any fun entry => same entry.1 key then
    entries.map fun entry => if same entry.1 key then (entry.1, value) else entry
  else entries ++ [(key, value)]

/-- The set of the given elements; of equal elements the first is kept. -/
def setOf (elements : List Literal) : Literal := .set (elements.foldl insertElement [])

/-- The dictionary of the given entries; of equal keys the first is kept with the last value. -/
def dictOf (entries : List (Literal × Literal)) : Literal :=
  .dict (entries.foldl (fun known entry => insertEntry known entry.1 entry.2) [])

end Literal

end TypeCatalog
