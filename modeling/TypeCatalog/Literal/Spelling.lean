import TypeCatalog.Literal.Basic
import TypeCatalog.Text.Digits

/-! # Spellings of numbers and strings

The value of a number or string literal, read from its spelling. Decimal integers of more than
`decimalLimit` digits have no value; nor do strings with an escape that is incomplete, names no
character, or names a character by its name, since names of characters are not known here. -/

namespace TypeCatalog.Literal

/-! ## Numbers -/

/-- The greatest number of digits of a decimal integer. -/
def decimalLimit : Nat := 4300

/-- The exponent behind the digits of a floating-point number, zero when there is none. -/
def exponentOf (text : List Char) : Int :=
  match text with
  | _ :: '-' :: digits => -Int.ofNat (Text.numberOfDigits 10 digits)
  | _ :: '+' :: digits => Int.ofNat (Text.numberOfDigits 10 digits)
  | _ :: digits => Int.ofNat (Text.numberOfDigits 10 digits)
  | [] => 0

/-- The floating-point number of a decimal spelling without underscores. -/
def floatOf (text : List Char) : Binary64 :=
  let whole := text.takeWhile Char.isDigit
  let behind := text.drop whole.length
  let fraction := match behind with
    | '.' :: rest => rest.takeWhile Char.isDigit
    | _ => []
  let exponent := behind.dropWhile fun c => c == '.' || c.isDigit
  .ofDecimal false (Text.numberOfDigits 10 (whole ++ fraction))
    (exponentOf exponent - Int.ofNat fraction.length)

def ofNumber? (spelling : String) : Option Literal :=
  let text := spelling.toList.filter (· ≠ '_')
  match text with
  | '0' :: 'x' :: digits | '0' :: 'X' :: digits => some (.int (Text.numberOfDigits 16 digits))
  | '0' :: 'o' :: digits | '0' :: 'O' :: digits => some (.int (Text.numberOfDigits 8 digits))
  | '0' :: 'b' :: digits | '0' :: 'B' :: digits => some (.int (Text.numberOfDigits 2 digits))
  | text =>
      if text.all Char.isDigit then
        if decimalLimit < text.length then none
        else some (.int (Text.numberOfDigits 10 text))
      else match text.getLast? with
        | some 'j' | some 'J' => some (.complex .zero (floatOf text.dropLast))
        | _ => some (.float (floatOf text))

/-! ## Strings -/

/-- The letters, quotes and body of a string literal. -/
structure StringParts where
  raw : Bool
  isBytes : Bool
  body : List Char

/-- Take a string literal apart. -/
def partsOf (spelling : String) : StringParts :=
  let text := spelling.toList
  let marks := (text.takeWhile Char.isAlpha).map Char.toLower
  let quoted := text.drop marks.length
  let width := match quoted with
    | first :: second :: third :: _ :: _ :: _ => if first = second ∧ second = third then 3 else 1
    | _ => 1
  { raw := marks.contains 'r'
    isBytes := marks.contains 'b'
    body := (quoted.drop width).take (quoted.length - 2 * width) }

/-- The code of an escape that stands for one character. -/
def simpleEscape? (c : Char) : Option Nat :=
  if c = '\\' ∨ c = '\'' ∨ c = '"' then some c.toNat
  else if c = 'a' then some 7
  else if c = 'b' then some 8
  else if c = 'f' then some 12
  else if c = 'n' then some 10
  else if c = 'r' then some 13
  else if c = 't' then some 9
  else if c = 'v' then some 11
  else none

/-- The codes that an escape behind its backslash stands for, and what follows. An escape that is
not known stands for itself with its backslash. -/
def readEscape? (isBytes : Bool) (text : List Char) : Option (List Nat × List Char) :=
  match text with
  | [] => none
  | '\n' :: rest => some ([], rest)
  | 'x' :: rest => (Text.takeHex? 2 rest).map fun (code, rest) => ([code], rest)
  | c :: rest =>
      if let some code := simpleEscape? c then some ([code], rest)
      else if Text.isOctalDigit c then
        let digits := (text.take 3).takeWhile Text.isOctalDigit
        let code := Text.numberOfDigits 8 digits
        some ([if isBytes then code % 256 else code], text.drop digits.length)
      else if c = 'u' ∧ !isBytes then
        (Text.takeHex? 4 rest).map fun (code, rest) => ([code], rest)
      else if c = 'U' ∧ !isBytes then
        (Text.takeHex? 8 rest).map fun (code, rest) => ([code], rest)
      else if c = 'N' ∧ !isBytes then none
      else some (['\\'.toNat, c.toNat], rest)

/-- The codes of the characters of a string. -/
def readBody? (isBytes : Bool) : (fuel : Nat) → List Char → Option (List Nat)
  | 0, _ => none
  | _ + 1, [] => some []
  | fuel + 1, '\\' :: rest => do
      let (codes, rest) ← readEscape? isBytes rest
      let more ← readBody? isBytes fuel rest
      return codes ++ more
  | fuel + 1, c :: rest => do
      let more ← readBody? isBytes fuel rest
      return c.toNat :: more

/-- The value of a string or bytes literal. Bytes are written in ASCII. -/
def ofString? (spelling : String) : Option Literal := do
  let parts := partsOf spelling
  if parts.isBytes && parts.body.any (fun c => decide (128 ≤ c.toNat)) then none
  else
    let codes ←
      if parts.raw then some (parts.body.map Char.toNat)
      else readBody? parts.isBytes (parts.body.length + 1) parts.body
    if parts.isBytes then return .bytes (codes.map Nat.toUInt8)
    else
      let characters ← codes.mapM Text.charOfCode?
      return .string (String.ofList characters)

/-- The value of two literals that stand side by side. -/
def concatenate? : Literal → Literal → Option Literal
  | .string left, .string right => some (.string (left ++ right))
  | .bytes left, .bytes right => some (.bytes (left ++ right))
  | _, _ => none

end TypeCatalog.Literal
