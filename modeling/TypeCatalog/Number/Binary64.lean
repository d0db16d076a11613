/-! # Binary floating-point numbers of 64 bits

A number is a sign and the rank of its absolute value in the increasing list of the non-negative
numbers: zero has rank 0, the least positive number rank 1, and infinity rank `infiniteRank`. Ranks
above that are no numbers. Up to the sign bit, the rank is the bit pattern of the interchange
format, so ranks are ordered as the values are. -/

namespace TypeCatalog

namespace Binary64

def twoTo (exponent : Nat) : Nat := Nat.pow 2 exponent

def tenTo (exponent : Nat) : Nat := Nat.pow 10 exponent

end Binary64

/-- A binary floating-point number: its sign and the rank of its absolute value. -/
structure Binary64 where
  negative : Bool
  rank : Fin (Binary64.twoTo 63)
  deriving DecidableEq, Repr

namespace Binary64

/-- The rank of infinity, one above the rank of the largest finite number. -/
def infiniteRank : Nat := 2047 * twoTo 52

/-- The number with a sign and a rank; ranks above infinity are cut to it. -/
def ofRank (negative : Bool) (rank : Nat) : Binary64 where
  negative := negative
  rank := ⟨min rank infiniteRank,
    Nat.lt_of_le_of_lt (Nat.min_le_right rank infiniteRank) (by decide)⟩

def zero : Binary64 := ofRank false 0

def infinity (negative : Bool) : Binary64 := ofRank negative infiniteRank

/-- The value that is no number. -/
def notANumber : Binary64 where
  negative := false
  rank := ⟨infiniteRank + twoTo 51, by decide⟩

instance : Inhabited Binary64 := ⟨zero⟩

def isFinite (number : Binary64) : Bool := decide (number.rank.val < infiniteRank)

def isInfinite (number : Binary64) : Bool := decide (number.rank.val = infiniteRank)

def isNotANumber (number : Binary64) : Bool := decide (infiniteRank < number.rank.val)

/-- The number with the opposite sign. -/
def negate (number : Binary64) : Binary64 := { number with negative := !number.negative }

/-- The integer by which a power of two is multiplied to give the absolute value. -/
def significand (number : Binary64) : Nat :=
  if number.rank.val < twoTo 52 then number.rank.val
  else twoTo 52 + number.rank.val % twoTo 52

/-- The exponent of that power of two. -/
def exponent (number : Binary64) : Int :=
  if number.rank.val < twoTo 52 then -1074
  else Int.ofNat (number.rank.val / twoTo 52) - 1075

/-- The integer nearest to a quotient; a half goes to the even neighbour. -/
def roundHalfEven (numerator denominator : Nat) : Nat :=
  let quotient := numerator / denominator
  let remainder := numerator % denominator
  if 2 * remainder < denominator then quotient
  else if denominator < 2 * remainder then quotient + 1
  else quotient + quotient % 2

/-- The exponent of the greatest power of two that is not above a positive quotient. -/
def binaryOrder (numerator denominator : Nat) : Int :=
  let estimate : Int := Int.ofNat numerator.log2 - Int.ofNat denominator.log2
  if numerator * twoTo (-estimate).toNat < denominator * twoTo estimate.toNat then estimate - 1
  else estimate

/-- The rank of the number nearest to a quotient; a half goes to the even neighbour. -/
def rankOfQuotient (numerator denominator : Nat) : Nat :=
  if numerator = 0 then 0
  else
    let exponent := max (binaryOrder numerator denominator - 52) (-1074)
    let steps :=
      roundHalfEven (numerator * twoTo (-exponent).toNat) (denominator * twoTo exponent.toNat)
    steps + (exponent + 1074).toNat * twoTo 52

/-- The number of decimal digits of a natural number. -/
def decimalLength (n : Nat) : Nat := (Nat.toDigits 10 n).length

/-- The number nearest to `digits · 10 ^ exponent`. Exponents so large or small that the result is
infinite or zero whatever the digits are decided without forming the power. -/
def ofDecimal (negative : Bool) (digits : Nat) (exponent : Int) : Binary64 :=
  let order := exponent + Int.ofNat (decimalLength digits)
  if digits = 0 then ofRank negative 0
  else if 400 < order then infinity negative
  else if order < -400 then ofRank negative 0
  else ofRank negative
    (rankOfQuotient (digits * tenTo exponent.toNat) (tenTo (-exponent).toNat))

/-- The number nearest to an integer. -/
def ofInt (value : Int) : Binary64 := ofDecimal (decide (value < 0)) value.natAbs 0

/-- Numeric equality: the zeros are equal, and what is no number equals nothing. -/
def equals (left right : Binary64) : Bool :=
  !left.isNotANumber && !right.isNotANumber &&
    decide (left.rank = right.rank) &&
    (decide (left.negative = right.negative) || decide (left.rank.val = 0))

/-- Whether a number is exactly an integer. -/
def equalsInt (number : Binary64) (value : Int) : Bool :=
  number.isFinite &&
    decide (number.significand * twoTo number.exponent.toNat =
      value.natAbs * twoTo (-number.exponent).toNat) &&
    (decide (value = 0) || decide (number.negative = decide (value < 0)))

/-- The integer that a number is exactly, if it is one. -/
def toInt? (number : Binary64) : Option Int :=
  let divisor := twoTo (-number.exponent).toNat
  if number.isFinite && decide (number.significand % divisor = 0) then
    let magnitude := Int.ofNat (number.significand / divisor * twoTo number.exponent.toNat)
    some (if number.negative then -magnitude else magnitude)
  else none

/-- The sum of a number and a zero: only the sign of a zero sum depends on the second. -/
def addZero (number zeroTerm : Binary64) : Binary64 :=
  if number.rank.val = 0 then { number with negative := number.negative && zeroTerm.negative }
  else number

end Binary64

end TypeCatalog
