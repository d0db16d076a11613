import TypeCatalog.Text.Digits
import TypeCatalog.Toml.Value

/-! # TOML scalars

Strings, numbers, dates and times. Every reader takes a scalar from the front of a text and gives
what follows it. Line ends are line feeds. -/

namespace TypeCatalog.Toml

/-- Why a text is no document. -/
inductive Fault where
  | malformed
  /-- A decimal integer has more digits than are converted. -/
  | integerTooLong
  deriving DecidableEq, Repr

/-- The greatest number of digits of a decimal integer. -/
def integerDigitLimit : Nat := 4300

/-- Whether a character may stand between the tokens of a line. -/
def isBlank (c : Char) : Bool := c == ' ' || c == '\t'

/-- Whether a character may stand between the items of an array. -/
def isFiller (c : Char) : Bool := isBlank c || c == '\n'

/-- Whether a character may not stand in a comment or in a string on one line. -/
def isForbidden (c : Char) : Bool := (decide (c.toNat < 32) && c != '\t') || c.toNat == 127

/-- Whether a character may not stand in a string. -/
def isForbiddenIn (multiline : Bool) (c : Char) : Bool :=
  isForbidden c && !(multiline && c == '\n')

/-! ## Strings -/

/-- The character that an escape with digits stands for, and what follows. -/
def readCode? (width : Nat) (text : List Char) : Option (List Char × List Char) := do
  let (code, rest) ← Text.takeHex? width text
  let c ← Text.charOfCode? code
  return ([c], rest)

/-- What stands behind the end of a line that a backslash hides: the text behind all blanks and line
ends that follow. -/
def readHiddenLineEnd? (text : List Char) : Option (List Char) :=
  match text.dropWhile isBlank with
  | [] => some []
  | '\n' :: rest => some (rest.dropWhile isFiller)
  | _ => none

/-- The characters that an escape stands for, and what follows. -/
def readEscape? (multiline : Bool) : List Char → Option (List Char × List Char)
  | 'b' :: rest => some (['\x08'], rest)
  | 't' :: rest => some (['\t'], rest)
  | 'n' :: rest => some (['\n'], rest)
  | 'f' :: rest => some (['\x0c'], rest)
  | 'r' :: rest => some (['\r'], rest)
  | '"' :: rest => some (['"'], rest)
  | '\\' :: rest => some (['\\'], rest)
  | 'u' :: rest => readCode? 4 rest
  | 'U' :: rest => readCode? 8 rest
  | c :: rest =>
      if multiline && isFiller c then
        (readHiddenLineEnd? (c :: rest)).map fun behind => ([], behind)
      else none
  | [] => none

/-- The characters of a string with escapes up to its closing quotes, and what follows them. -/
def readEscaped? (multiline : Bool) : (fuel : Nat) → List Char → Option (List Char × List Char)
  | 0, _ => none
  | _ + 1, [] => none
  | fuel + 1, '"' :: rest =>
      if multiline then
        match rest with
        | '"' :: '"' :: behind => some ([], behind)
        | _ => do
            let (more, rest) ← readEscaped? multiline fuel rest
            return ('"' :: more, rest)
      else some ([], rest)
  | fuel + 1, '\\' :: rest => do
      let (characters, rest) ← readEscape? multiline rest
      let (more, rest) ← readEscaped? multiline fuel rest
      return (characters ++ more, rest)
  | fuel + 1, c :: rest =>
      if isForbiddenIn multiline c then none
      else do
        let (more, rest) ← readEscaped? multiline fuel rest
        return (c :: more, rest)

/-- The characters of a string without escapes up to its closing quotes, and what follows them. -/
def readLiteral? (multiline : Bool) : List Char → Option (List Char × List Char)
  | [] => none
  | '\'' :: rest =>
      if multiline then
        match rest with
        | '\'' :: '\'' :: behind => some ([], behind)
        | _ => (readLiteral? multiline rest).map fun (more, behind) => ('\'' :: more, behind)
      else some ([], rest)
  | c :: rest =>
      if isForbiddenIn multiline c then none
      else (readLiteral? multiline rest).map fun (more, behind) => (c :: more, behind)

/-- At most two quotes before the closing ones belong to a string of several lines. -/
def takeExtraQuotes (quote : Char) (found : List Char × List Char) : List Char × List Char :=
  let extra := (found.2.take 2).takeWhile (· == quote)
  (found.1 ++ extra, found.2.drop extra.length)

/-- A text without the line end that it may begin with. -/
def dropLineEnd : List Char → List Char
  | '\n' :: rest => rest
  | text => text

def readLine? : List Char → Option (List Char × List Char)
  | '"' :: rest => readEscaped? false (rest.length + 1) rest
  | '\'' :: rest => readLiteral? false rest
  | _ => none

def readString? (text : List Char) : Option (List Char × List Char) :=
  match text with
  | '"' :: '"' :: '"' :: rest =>
      (readEscaped? true (rest.length + 1) (dropLineEnd rest)).map (takeExtraQuotes '"')
  | '\'' :: '\'' :: '\'' :: rest =>
      (readLiteral? true (dropLineEnd rest)).map (takeExtraQuotes '\'')
  | text => readLine? text

/-! ## Dates and times -/

/-- A number of exactly so many digits within bounds, and what follows. -/
def readDigits? (width least greatest : Nat) (text : List Char) : Option (Nat × List Char) :=
  let digits := text.take width
  let value := Text.numberOfDigits 10 digits
  if digits.length = width ∧ digits.all Char.isDigit ∧ least ≤ value ∧ value ≤ greatest then
    some (value, text.drop width)
  else none

def after? (c : Char) : List Char → Option (List Char)
  | [] => none
  | first :: rest => if first = c then some rest else none

/-- What follows a fraction of a second, if there is one. -/
def afterFraction (text : List Char) : List Char :=
  match text with
  | '.' :: rest =>
      if (rest.takeWhile Char.isDigit).isEmpty then text else rest.dropWhile Char.isDigit
  | _ => text

def afterHourMinute? (text : List Char) : Option (List Char) := do
  let (_, rest) ← readDigits? 2 0 23 text
  let rest ← after? ':' rest
  let (_, rest) ← readDigits? 2 0 59 rest
  return rest

/-- What follows a time of day. -/
def afterTime? (text : List Char) : Option (List Char) := do
  let rest ← afterHourMinute? text
  let rest ← after? ':' rest
  let (_, rest) ← readDigits? 2 0 59 rest
  return afterFraction rest

/-- What follows an offset from universal time, if there is one. -/
def afterOffset (text : List Char) : List Char :=
  match text with
  | 'Z' :: rest | 'z' :: rest => rest
  | '+' :: rest | '-' :: rest => (afterHourMinute? rest).getD text
  | _ => text

def daysOfMonth (year month : Nat) : Nat :=
  if month = 2 then
    if (year % 4 = 0 ∧ year % 100 ≠ 0) ∨ year % 400 = 0 then 29 else 28
  else if [4, 6, 9, 11].contains month then 30
  else 31

/-- What follows a date of the calendar. -/
def afterDate? (text : List Char) : Option (List Char) := do
  let (year, rest) ← readDigits? 4 1 9999 text
  let rest ← after? '-' rest
  let (month, rest) ← readDigits? 2 1 12 rest
  let rest ← after? '-' rest
  let (_, rest) ← readDigits? 2 1 (daysOfMonth year month) rest
  return rest

/-- What follows a date with the time of day that may stand behind it. -/
def afterDateTime? (text : List Char) : Option (List Char) := do
  let rest ← afterDate? text
  match rest with
  | 'T' :: behind | 't' :: behind | ' ' :: behind =>
      return ((afterTime? behind).map afterOffset).getD rest
  | _ => return rest

/-- A date or a time. -/
def readMoment? (text : List Char) : Option (TomlValue × List Char) := do
  let rest ← afterDateTime? text <|> afterTime? text
  return (.moment (String.ofList (text.take (text.length - rest.length))), rest)

/-! ## Numbers -/

/-- Further digits, each with at most one underscore before it, and what follows them. -/
def readMoreDigits (test : Char → Bool) : List Char → List Char × List Char
  | '_' :: digit :: rest =>
      if test digit then
        let (digits, behind) := readMoreDigits test rest
        (digit :: digits, behind)
      else ([], '_' :: digit :: rest)
  | digit :: rest =>
      if test digit then
        let (digits, behind) := readMoreDigits test rest
        (digit :: digits, behind)
      else ([], digit :: rest)
  | [] => ([], [])

/-- Digits with single underscores between them, and what follows them. -/
def readDigitRun? (test : Char → Bool) : List Char → Option (List Char × List Char)
  | digit :: rest =>
      if test digit then
        let (digits, behind) := readMoreDigits test rest
        some (digit :: digits, behind)
      else none
  | [] => none

/-- An integer in a base that is a power of two. -/
def readBased? (text : List Char) : Option (TomlValue × List Char) :=
  let based (base : Nat) (test : Char → Bool) (rest : List Char) :=
    (readDigitRun? test rest).map fun (digits, behind) =>
      (TomlValue.integer (Text.numberOfDigits base digits), behind)
  match text with
  | '0' :: 'x' :: rest => based 16 Text.isHexDigit rest
  | '0' :: 'o' :: rest => based 8 Text.isOctalDigit rest
  | '0' :: 'b' :: rest => based 2 Text.isBinaryDigit rest
  | _ => none

def readSign : List Char → Bool × List Char
  | '-' :: rest => (true, rest)
  | '+' :: rest => (false, rest)
  | text => (false, text)

/-- The digits of a whole number: zero stands alone. -/
def readWhole? : List Char → Option (List Char × List Char)
  | '0' :: rest => some (['0'], rest)
  | text => readDigitRun? Char.isDigit text

def readFraction (text : List Char) : List Char × List Char :=
  match text with
  | '.' :: rest => (readDigitRun? Char.isDigit rest).getD ([], text)
  | _ => ([], text)

def readExponent (text : List Char) : Option Int × List Char :=
  match text with
  | 'e' :: rest | 'E' :: rest =>
      let (negative, digits) := readSign rest
      match readDigitRun? Char.isDigit digits with
      | some (digits, behind) =>
          let value := Int.ofNat (Text.numberOfDigits 10 digits)
          (some (if negative then -value else value), behind)
      | none => (none, text)
  | _ => (none, text)

def readDecimal? (text : List Char) : Option (Except Fault TomlValue × List Char) := do
  let (negative, rest) := readSign text
  let (whole, rest) ← readWhole? rest
  let (fraction, rest) := readFraction rest
  let (exponent, rest) := readExponent rest
  if fraction.isEmpty && exponent.isNone then
    let value := Int.ofNat (Text.numberOfDigits 10 whole)
    if integerDigitLimit < whole.length then return (.error .integerTooLong, rest)
    else return (.ok (.integer (if negative then -value else value)), rest)
  else
    let digits := Text.numberOfDigits 10 (whole ++ fraction)
    let exponent := exponent.getD 0 - Int.ofNat fraction.length
    return (.ok (.float (.ofDecimal negative digits exponent)), rest)

def afterWord? (word : String) (text : List Char) : Option (List Char) :=
  if word.toList.isPrefixOf text then some (text.drop word.toList.length) else none

/-- A truth value or a number that is no decimal. -/
def readWord? (text : List Char) : Option (TomlValue × List Char) :=
  let (negative, rest) := readSign text
  let number (word : String) (value : Binary64) :=
    (afterWord? word rest).map fun behind => (TomlValue.float value, behind)
  (afterWord? "true" text).map (fun behind => (.bool true, behind)) <|>
    (afterWord? "false" text).map (fun behind => (.bool false, behind)) <|>
    number "inf" (.infinity negative) <|> number "nan" .notANumber

/-- A scalar other than a string. -/
def readPlain (text : List Char) : Except Fault (TomlValue × List Char) :=
  match readMoment? text <|> readBased? text with
  | some found => .ok found
  | none =>
      match readDecimal? text with
      | some (value, rest) => value.map fun value => (value, rest)
      | none =>
          match readWord? text with
          | some found => .ok found
          | none => .error .malformed

end TypeCatalog.Toml
