import TypeCatalog.Syntax.Expr

/-! # Parsers over tokens

A parser takes tokens from the front of a list and gives a result with the tokens that are left, or
fails. A choice tries its second parser on the same tokens when the first fails. -/

namespace TypeCatalog.Syntax

/-- A parser: a result and the tokens behind it, or nothing. -/
abbrev Parser := StateT (List Token) Option

namespace Parser

variable {α β : Type}

/-- The next token, which stays. -/
def peek? : Parser (Option Token) := fun tokens => some (tokens.head?, tokens)

/-- Take the next token if it passes a test. -/
def satisfy (test : Token → Bool) : Parser Token
  | token :: rest => if test token then some (token, rest) else none
  | [] => none

/-- Take the next token if it is of a kind. -/
def ofKind (kind : TokenKind) : Parser Token := satisfy fun token => decide (token.kind = kind)

def isOperator (text : String) (token : Token) : Bool :=
  decide (token.kind = .operator) && token.text == text

def isWord (text : String) (token : Token) : Bool :=
  decide (token.kind = .name) && token.text == text

def operator (text : String) : Parser Unit := do
  let _ ← satisfy (isOperator text)

/-- Take a word of the language. -/
def word (text : String) : Parser Unit := do
  let _ ← satisfy (isWord text)

/-- Whether the next token passes a test; the token stays. -/
def ahead (test : Token → Bool) : Parser Bool := fun tokens =>
  some ((tokens.head?.map test).getD false, tokens)

/-- Take an operator if it comes next. -/
def operator? (text : String) : Parser Bool := do
  if ← ahead (isOperator text) then
    operator text
    return true
  else return false

/-- Take a word if it comes next. -/
def word? (text : String) : Parser Bool := do
  if ← ahead (isWord text) then
    word text
    return true
  else return false

/-- Apply a parser as often as it succeeds and takes tokens. -/
def manyFrom (item : Parser α) (tokens : List Token) : List α × List Token :=
  match item tokens with
  | none => ([], tokens)
  | some (result, rest) =>
      if rest.length < tokens.length then
        let (results, behind) := manyFrom item rest
        (result :: results, behind)
      else ([], tokens)
termination_by tokens.length

/-- Apply a parser as often as it succeeds and takes tokens. -/
def many (item : Parser α) : Parser (List α) := fun tokens => some (manyFrom item tokens)

/-- Apply a parser at least once. -/
def many1 (item : Parser α) : Parser (List α) := do
  let first ← item
  let rest ← many item
  return first :: rest

def separated (item : Parser α) (separator : Parser Unit) : Parser (List α) := do
  let first ← item
  let rest ← many (do separator; item)
  return first :: rest

/-- Items between commas, with an optional comma behind them; says whether a comma came at all. -/
def commaList (item : Parser α) : Parser (List α × Bool) := do
  let items ← separated item (operator ",")
  let trailing ← operator? ","
  return (items, trailing || decide (1 < items.length))

def ofOption (value : Option α) : Parser α := fun tokens => value.map fun value => (value, tokens)

/-- The extent of the tokens between two states of a parser. -/
def extentBetween (start stop : List Token) : Extent where
  text := Token.join (start.take (start.length - stop.length))
  place := (start.head?.map Token.place).getD .start

/-- Read something together with its extent. -/
def spanned (item : Parser α) : Parser (Extent × α) := do
  let start ← get
  let result ← item
  let stop ← get
  return (extentBetween start stop, result)

end Parser

def reservedWords : List String :=
  ["False", "None", "True", "and", "as", "assert", "async", "await", "break", "class", "continue",
    "def", "del", "elif", "else", "except", "finally", "for", "from", "global", "if", "import",
    "in", "is", "lambda", "nonlocal", "not", "or", "pass", "raise", "return", "try", "while",
    "with", "yield"]

/-- The reserved words that are expressions. -/
def constantWords : List String := ["False", "None", "True"]

namespace Parser

/-- A name that is not reserved. -/
def identifier : Parser Identifier := do
  let token ← satisfy fun token =>
    decide (token.kind = .name) && !reservedWords.contains token.text
  ofOption (Identifier.ofString? token.text)

end Parser

end TypeCatalog.Syntax
