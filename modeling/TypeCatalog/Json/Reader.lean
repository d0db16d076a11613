import TypeCatalog.Json.Basic
import TypeCatalog.Text.Digits

/-! # Reading JSON

The reader takes the standard grammar and the words `NaN`, `Infinity` and `-Infinity`. Of the
members of an object with one key the last counts, at the place of the first. The recursion is
bounded by the length of the text, since each nested value stands behind a bracket. -/

namespace TypeCatalog.Json

/-- Whether a character may stand between the tokens of a text. -/
def isBlank (c : Char) : Bool := c == ' ' || c == '\t' || c == '\n' || c == '\r'

/-- The text behind leading blanks. -/
def skipBlanks (text : List Char) : List Char := text.dropWhile isBlank

/-- What follows a word, if the text begins with it. -/
def afterWord? (word : String) (text : List Char) : Option (List Char) :=
  if word.toList.isPrefixOf text then some (text.drop word.toList.length) else none

/-- The character named by an escape, and what follows. Two escapes of 16-bit units that form a pair
name one character; a unit of such a pair on its own names none. -/
def readEscape? : List Char → Option (Char × List Char)
  | '"' :: rest => some ('"', rest)
  | '\\' :: rest => some ('\\', rest)
  | '/' :: rest => some ('/', rest)
  | 'b' :: rest => some ('\x08', rest)
  | 'f' :: rest => some ('\x0c', rest)
  | 'n' :: rest => some ('\n', rest)
  | 'r' :: rest => some ('\r', rest)
  | 't' :: rest => some ('\t', rest)
  | 'u' :: rest => do
      let (high, rest) ← Text.takeHex? 4 rest
      if 0xD800 ≤ high ∧ high < 0xDC00 then
        match rest with
        | '\\' :: 'u' :: rest => do
            let (low, rest) ← Text.takeHex? 4 rest
            if 0xDC00 ≤ low ∧ low < 0xE000 then
              let c ← Text.charOfCode? (0x10000 + (high - 0xD800) * 0x400 + (low - 0xDC00))
              return (c, rest)
            else none
        | _ => none
      else
        let c ← Text.charOfCode? high
        return (c, rest)
  | _ => none

/-- The characters of a quoted text up to its closing quote, and what follows it. -/
def readQuoted? : (fuel : Nat) → List Char → Option (List Char × List Char)
  | 0, _ => none
  | _ + 1, [] => none
  | _ + 1, '"' :: rest => some ([], rest)
  | fuel + 1, '\\' :: rest => do
      let (c, rest) ← readEscape? rest
      let (more, rest) ← readQuoted? fuel rest
      return (c :: more, rest)
  | fuel + 1, c :: rest =>
      if c.toNat < 32 then none
      else do
        let (more, rest) ← readQuoted? fuel rest
        return (c :: more, rest)

/-- The exponent that a text begins with, zero when there is none, and what follows it. -/
def readExponent (text : List Char) : Option Int × List Char :=
  let digitsFrom (negative : Bool) (rest : List Char) : Option Int × List Char :=
    match rest.takeWhile Char.isDigit with
    | [] => (none, text)
    | digits =>
        let value := Int.ofNat (Text.numberOfDigits 10 digits)
        (some (if negative then -value else value), rest.dropWhile Char.isDigit)
  match text with
  | 'e' :: '-' :: rest | 'E' :: '-' :: rest => digitsFrom true rest
  | 'e' :: '+' :: rest | 'E' :: '+' :: rest => digitsFrom false rest
  | 'e' :: rest | 'E' :: rest => digitsFrom false rest
  | _ => (none, text)

/-- The fraction digits that a text begins with, and what follows them. -/
def readFraction (text : List Char) : List Char × List Char :=
  match text with
  | '.' :: rest =>
      match rest.takeWhile Char.isDigit with
      | [] => ([], text)
      | digits => (digits, rest.dropWhile Char.isDigit)
  | _ => ([], text)

/-- The number that a text begins with, its sign already read. -/
def readMagnitude? (negative : Bool) (text : List Char) : Option (Json × List Char) :=
  let whole := match text with
    | '0' :: _ => ['0']
    | _ => text.takeWhile Char.isDigit
  if whole.isEmpty then none
  else
    let (fraction, rest) := readFraction (text.drop whole.length)
    let (exponent, rest) := readExponent rest
    if fraction.isEmpty && exponent.isNone then
      let value := Int.ofNat (Text.numberOfDigits 10 whole)
      some (.int (if negative then -value else value), rest)
    else
      let digits := Text.numberOfDigits 10 (whole ++ fraction)
      some (.float (.ofDecimal negative digits
        (exponent.getD 0 - Int.ofNat fraction.length)), rest)

/-- The word or number that a text begins with. -/
def readScalar? (text : List Char) : Option (Json × List Char) :=
  let word (spelling : String) (value : Json) : Option (Json × List Char) :=
    (afterWord? spelling text).map fun rest => (value, rest)
  word "null" .null <|> word "true" (.bool true) <|> word "false" (.bool false) <|>
    word "NaN" (.float .notANumber) <|> word "Infinity" (.float (.infinity false)) <|>
    word "-Infinity" (.float (.infinity true)) <|>
    match text with
    | '-' :: rest => readMagnitude? true rest
    | _ => readMagnitude? false text

mutual

/-- The value that a text begins with, and what follows it. -/
def readValue? : (fuel : Nat) → List Char → Option (Json × List Char)
  | 0, _ => none
  | fuel + 1, text =>
      match skipBlanks text with
      | '"' :: rest => do
          let (characters, rest) ← readQuoted? (rest.length + 1) rest
          return (.string (String.ofList characters), rest)
      | '[' :: rest =>
          match skipBlanks rest with
          | ']' :: rest => some (.array [], rest)
          | rest => do
              let (items, rest) ← readItems? fuel rest
              return (.array items, rest)
      | '{' :: rest =>
          match skipBlanks rest with
          | '}' :: rest => some (.object [], rest)
          | rest => do
              let (members, rest) ← readMembers? fuel rest
              return (.object (uniqueMembers members), rest)
      | rest => readScalar? rest

/-- The items of an array up to its closing bracket. -/
def readItems? : (fuel : Nat) → List Char → Option (List Json × List Char)
  | 0, _ => none
  | fuel + 1, text => do
      let (item, rest) ← readValue? fuel text
      match skipBlanks rest with
      | ',' :: rest => do
          let (items, rest) ← readItems? fuel rest
          return (item :: items, rest)
      | ']' :: rest => some ([item], rest)
      | _ => none

/-- The members of an object up to its closing brace. -/
def readMembers? : (fuel : Nat) → List Char → Option (List (String × Json) × List Char)
  | 0, _ => none
  | fuel + 1, text =>
      match skipBlanks text with
      | '"' :: rest => do
          let (key, rest) ← readQuoted? (rest.length + 1) rest
          match skipBlanks rest with
          | ':' :: rest => do
              let (value, rest) ← readValue? fuel rest
              let entry := (String.ofList key, value)
              match skipBlanks rest with
              | ',' :: rest => do
                  let (members, rest) ← readMembers? fuel rest
                  return (entry :: members, rest)
              | '}' :: rest => some ([entry], rest)
              | _ => none
          | _ => none
      | _ => none

end

/-- The value that a whole text writes. -/
def read? (text : String) : Option Json := do
  let characters := text.toList
  let (value, rest) ← readValue? (2 * characters.length + 2) characters
  if (skipBlanks rest).isEmpty then some value else none

end TypeCatalog.Json
