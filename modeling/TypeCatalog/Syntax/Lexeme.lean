import TypeCatalog.Text.Digits
import TypeCatalog.Text.Identifier

/-! # Lexemes

Readers of single lexemes. Each takes a text and gives the characters of the lexeme at its beginning
with the characters behind it, or nothing when the text begins with no well-formed lexeme of the
kind. -/

namespace TypeCatalog.Syntax

/-- A lexeme and the characters behind it. -/
abbrev Cut := List Char × List Char

/-- Put characters in front of a lexeme. -/
def Cut.cons (front : List Char) (cut : Cut) : Cut := (front ++ cut.1, cut.2)

/-- Cut a text where a property of its characters ends. -/
def cutWhile (property : Char → Bool) (text : List Char) : Cut :=
  (text.takeWhile property, text.dropWhile property)

/-- Whether a character separates tokens on a line. -/
def isBlank (c : Char) : Bool := c == ' ' || c == '\t' || c == '\x0c'

def isLineEnd (c : Char) : Bool := c == '\n' || c == '\r'

/-- The line end that a text begins with. -/
def cutLineEnd? : List Char → Option Cut
  | '\r' :: '\n' :: rest => some (['\r', '\n'], rest)
  | '\r' :: rest => some (['\r'], rest)
  | '\n' :: rest => some (['\n'], rest)
  | _ => none

/-! ## Names -/

/-- Whether a character may begin a name as far as the division into tokens goes; that the whole
name is well formed is tested afterwards. -/
def beginsName (c : Char) : Bool := c.isAlpha || c == '_' || decide (128 ≤ c.toNat)

/-- Whether a character continues a name as far as the division into tokens goes. -/
def continuesName (c : Char) : Bool := c.isAlphanum || c == '_' || decide (128 ≤ c.toNat)

/-- The letters that may stand before the quotes of a string. -/
def stringMarks : List String := ["u", "b", "r", "f", "br", "rb", "fr", "rf"]

/-! ## Numbers -/

/-- Digits with single underscores between them, at least one digit. -/
def cutDigits? (isDigit : Char → Bool) : (fuel : Nat) → List Char → Option Cut
  | 0, _ => none
  | fuel + 1, text =>
      let (digits, rest) := cutWhile isDigit text
      if digits.isEmpty then none
      else match rest with
        | '_' :: rest => (cutDigits? isDigit fuel rest).map (Cut.cons (digits ++ ['_']))
        | _ => some (digits, rest)

/-- Decimal digits with single underscores between them. -/
def cutDecimal? (text : List Char) : Option Cut := cutDigits? Char.isDigit (text.length + 1) text

/-- An integer in a base marked by a letter behind a zero. No further digit may follow. -/
def cutBased? (isDigit : Char → Bool) (mark : Char) (text : List Char) : Option Cut := do
  let cut ← match text with
    | '_' :: rest => (cutDigits? isDigit (text.length + 1) rest).map (Cut.cons ['_'])
    | _ => cutDigits? isDigit (text.length + 1) text
  match cut.2 with
  | next :: _ => if next.isDigit then none else some (cut.cons ['0', mark])
  | [] => some (cut.cons ['0', mark])

/-- The exponent that a text begins with, empty when there is none. A sign without digits behind it
is an error. -/
def cutExponent? (text : List Char) : Option Cut :=
  match text with
  | mark :: rest =>
      if mark == 'e' || mark == 'E' then
        match rest with
        | sign :: digits =>
            if sign == '-' || sign == '+' then
              (cutDecimal? digits).map (Cut.cons [mark, sign])
            else if sign.isDigit then (cutDecimal? rest).map (Cut.cons [mark])
            else some ([], text)
        | [] => some ([], text)
      else some ([], text)
  | [] => some ([], text)

/-- The fraction that a text begins with, empty when there is none. -/
def cutFraction? (text : List Char) : Option Cut :=
  match text with
  | '.' :: next :: rest =>
      if next.isDigit then (cutDecimal? (next :: rest)).map (Cut.cons ['.'])
      else some (['.'], next :: rest)
  | ['.'] => some (['.'], [])
  | _ => some ([], text)

/-- The mark of an imaginary number, empty when there is none. -/
def cutImaginary (text : List Char) : Cut :=
  match text with
  | mark :: rest => if mark == 'j' || mark == 'J' then ([mark], rest) else ([], text)
  | [] => ([], text)

/-- A decimal number whose integral part is already read. An integral part that begins with a
superfluous zero needs a fraction, an exponent or the imaginary mark behind it. -/
def cutDecimalTail? (whole : List Char) (text : List Char) : Option Cut := do
  let (fraction, rest) ← cutFraction? text
  let (exponent, rest) ← cutExponent? rest
  let (mark, rest) := cutImaginary rest
  let tail := fraction ++ exponent ++ mark
  let superfluous := match whole with
    | '0' :: more => more.any fun c => c ≠ '0' && c ≠ '_'
    | _ => false
  if superfluous && tail.isEmpty then none else some (whole ++ tail, rest)

def cutNumber? (text : List Char) : Option Cut :=
  match text with
  | '0' :: mark :: rest =>
      if mark == 'x' || mark == 'X' then cutBased? Text.isHexDigit mark rest
      else if mark == 'o' || mark == 'O' then cutBased? Text.isOctalDigit mark rest
      else if mark == 'b' || mark == 'B' then cutBased? Text.isBinaryDigit mark rest
      else do
        let (whole, rest) ← cutDecimal? text
        cutDecimalTail? whole rest
  | '.' :: _ => cutDecimalTail? [] text
  | _ => do
      let (whole, rest) ← cutDecimal? text
      cutDecimalTail? whole rest

/-! ## Strings -/

/-- The opening quotes that a text begins with: three of a kind, or one. -/
def cutQuotes? : List Char → Option Cut
  | first :: rest =>
      if first == '"' || first == '\'' then
        match rest with
        | second :: third :: behind =>
            if second == first && third == first then some ([first, first, first], behind)
            else some ([first], rest)
        | _ => some ([first], rest)
      else none
  | [] => none

/-- The rest of a string up to and with its closing quotes. A backslash hides the character behind
it; a string in single quotes ends on its line. -/
def cutStringBody? (quotes : List Char) : (fuel : Nat) → List Char → Option Cut
  | 0, _ => none
  | fuel + 1, text =>
      if quotes.isPrefixOf text then some (quotes, text.drop quotes.length)
      else match text with
        | [] => none
        | '\\' :: '\r' :: '\n' :: rest =>
            (cutStringBody? quotes fuel rest).map (Cut.cons ['\\', '\r', '\n'])
        | '\\' :: hidden :: rest =>
            (cutStringBody? quotes fuel rest).map (Cut.cons ['\\', hidden])
        | c :: rest =>
            if isLineEnd c && quotes.length == 1 then none
            else (cutStringBody? quotes fuel rest).map (Cut.cons [c])

/-! ## Operators -/

/-- The operators of two or three characters; the longest that fits is taken. -/
def longOperators : List String :=
  ["**=", "//=", ">>=", "<<=", "...", "**", "//", ">>", "<<", "<=", ">=", "==", "!=", "->", "+=",
    "-=", "*=", "/=", "%=", "@=", "&=", "|=", "^=", ":="]

def shortOperators : List Char := "+-*/%@&|^~<>()[]\x7b\x7d,:.;=!".toList

def cutOperator? (text : List Char) : Option Cut :=
  match longOperators.find? fun operator => operator.toList.isPrefixOf text with
  | some operator => some (operator.toList, text.drop operator.toList.length)
  | none =>
      match text with
      | c :: rest => if shortOperators.contains c then some ([c], rest) else none
      | [] => none

end TypeCatalog.Syntax
