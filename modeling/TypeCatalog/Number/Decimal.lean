import TypeCatalog.Number.Binary64

/-! # Decimal texts of floating-point numbers

The decimal of a number has the fewest significant digits that read back as the number, and of the
decimals with that many digits it is the nearest. `DecimalStyle` holds what a format decides beyond
that: where positional notation ends and whether an integral value keeps a fraction. -/

namespace TypeCatalog

namespace Binary64

/-- The exponent of the greatest power of ten that is not above a positive quotient. -/
def decimalOrder (numerator denominator : Nat) : Int :=
  let estimate : Int := Int.ofNat (decimalLength numerator) - Int.ofNat (decimalLength denominator)
  if numerator * tenTo (-estimate).toNat < denominator * tenTo estimate.toNat then estimate - 1
  else estimate

/-- The quarters of a unit in the last place between a number and the halfway point below it: one
where the next lower number is only half a unit away, two elsewhere. -/
def lowerGap (number : Binary64) : Nat :=
  if number.significand = twoTo 52 ∧ -1074 < number.exponent then 1 else 2

/-- The digits of the best decimal with a given number of digits, with the exponent of its last
digit, when some decimal of that length reads back as the number. A decimal reads back when it lies
between the halfway points to the neighbouring numbers; these points themselves read back when the
significand is even. -/
def digitsOfLength? (number : Binary64) (length : Nat) : Option (Nat × Int) :=
  let unit := twoTo number.exponent.toNat
  let scale := 4 * twoTo (-number.exponent).toNat
  let value := 4 * number.significand * unit
  let lower := value - number.lowerGap * unit
  let upper := value + 2 * unit
  let last := decimalOrder value scale - Int.ofNat length + 1
  let grow := tenTo (-last).toNat
  let step := scale * tenTo last.toNat
  let floor := value * grow / step
  let readsBack := fun candidate : Nat =>
    if number.significand % 2 = 0 then
      decide (lower * grow ≤ candidate * step) && decide (candidate * step ≤ upper * grow)
    else
      decide (lower * grow < candidate * step) && decide (candidate * step < upper * grow)
  let below := value * grow - floor * step
  let above := (floor + 1) * step - value * grow
  let choices :=
    if below < above ∨ (below = above ∧ floor % 2 = 0) then [floor, floor + 1]
    else [floor + 1, floor]
  (choices.find? readsBack).map fun digits => (digits, last)

/-- The digits of the shortest decimal that reads back as a finite number other than zero, with the
exponent of the last digit. Seventeen digits always suffice. -/
def shortestDigits (number : Binary64) : Nat × Int :=
  ((List.range 17).findSome? fun index => digitsOfLength? number (index + 1)).getD (0, 0)

end Binary64

/-- What a format decides about the text of a floating-point number. -/
structure DecimalStyle where
  /-- The least position of the decimal point, counted from the first digit, that is written
  positionally. -/
  pointFrom : Int
  /-- The greatest such position. -/
  pointTo : Int
  /-- The least number of digits of a written exponent. -/
  exponentWidth : Nat
  /-- What follows an integral value in positional notation. -/
  integralSuffix : String
  infinite : String
  undefined : String

namespace DecimalStyle

/-- Floating-point numbers are written positionally from `0.0001` up to sixteen digits before the
point, with at least one digit after the point; elsewhere with an exponent of two or more digits. -/
def plain : DecimalStyle where
  pointFrom := -3
  pointTo := 16
  exponentWidth := 2
  integralSuffix := ".0"
  infinite := "inf"
  undefined := "nan"

/-- The parts of a complex number are written like other numbers, but bare when integral. -/
def complexPart : DecimalStyle := { plain with integralSuffix := "" }

def zeros (count : Nat) : List Char := List.replicate count '0'

/-- Digits without the zeros at their end. -/
def trimZeros (digits : List Char) : List Char :=
  (digits.reverse.dropWhile (· == '0')).reverse

/-- The decimal text of a non-negative exponent, padded to a width. -/
def exponentDigits (width : Nat) (exponent : Nat) : List Char :=
  let digits := Nat.toDigits 10 exponent
  zeros (width - digits.length) ++ digits

/-- The text of an absolute value given by its significant digits and the position of the decimal
point, counted from the first digit. -/
def layout (style : DecimalStyle) (digits : List Char) (point : Int) : List Char :=
  if style.pointFrom ≤ point ∧ point ≤ style.pointTo then
    if point ≤ 0 then "0.".toList ++ zeros (-point).toNat ++ digits
    else if digits.length ≤ point.toNat then
      digits ++ zeros (point.toNat - digits.length) ++ style.integralSuffix.toList
    else digits.take point.toNat ++ ['.'] ++ digits.drop point.toNat
  else
    let mantissa := match digits with
      | first :: next :: rest => first :: '.' :: next :: rest
      | single => single
    let exponent := point - 1
    mantissa ++ ['e', if exponent < 0 then '-' else '+'] ++
      exponentDigits style.exponentWidth exponent.natAbs

/-- The text of an absolute value. -/
def magnitudeText (style : DecimalStyle) (number : Binary64) : String :=
  if number.isNotANumber then style.undefined
  else if number.isInfinite then style.infinite
  else if number.rank.val = 0 then "0" ++ style.integralSuffix
  else
    let (digits, last) := number.shortestDigits
    let written := Nat.toDigits 10 digits
    String.ofList (style.layout (trimZeros written) (last + Int.ofNat written.length))

/-- The text of a number; a minus sign precedes negative numbers, negative zero included. -/
def text (style : DecimalStyle) (number : Binary64) : String :=
  if number.negative && !number.isNotANumber then "-" ++ style.magnitudeText number
  else style.magnitudeText number

end DecimalStyle

end TypeCatalog
