/-! # Digits

Values of digits in a base, and fixed-width hexadecimal texts. -/

namespace TypeCatalog.Text

/-- The value of a hexadecimal digit. -/
def hexValue? (c : Char) : Option Nat :=
  if c.isDigit then some (c.toNat - '0'.toNat)
  else if 'a' ≤ c ∧ c ≤ 'f' then some (c.toNat - 'a'.toNat + 10)
  else if 'A' ≤ c ∧ c ≤ 'F' then some (c.toNat - 'A'.toNat + 10)
  else none

def isHexDigit (c : Char) : Bool := (hexValue? c).isSome

def isOctalDigit (c : Char) : Bool := decide ('0' ≤ c) && decide (c ≤ '7')

def isBinaryDigit (c : Char) : Bool := c == '0' || c == '1'

/-- The number written by digits in a base; other characters count as zero. -/
def numberOfDigits (base : Nat) (digits : List Char) : Nat :=
  digits.foldl (fun value digit => value * base + (hexValue? digit).getD 0) 0

/-- The number written by exactly `width` hexadecimal digits, and what follows them. -/
def takeHex? (width : Nat) (text : List Char) : Option (Nat × List Char) :=
  let digits := text.take width
  if digits.length = width ∧ digits.all isHexDigit then
    some (numberOfDigits 16 digits, text.drop width)
  else none

/-- A number in hexadecimal digits, padded with zeros to a width. -/
def hexText (width : Nat) (value : Nat) : List Char :=
  let digits := Nat.toDigits 16 value
  List.replicate (width - digits.length) '0' ++ digits

/-- The character of a code point, if the code point is one of a character. -/
def charOfCode? (code : Nat) : Option Char :=
  if valid : code.isValidChar then some (Char.ofNatAux code valid) else none

end TypeCatalog.Text
