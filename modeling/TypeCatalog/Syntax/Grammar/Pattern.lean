import TypeCatalog.Syntax.Grammar.Expression

/-! # The grammar of patterns

Patterns stand behind `case`. They bind names but declare nothing, so reading one gives no result;
`patternOfDepth n` reads patterns nested up to depth `n`. -/

namespace TypeCatalog.Syntax.ExprGrammar

open TypeCatalog.Syntax.Parser

variable (grammar : ExprGrammar)

/-- Whether the spelling of a number is that of an imaginary one. -/
def isImaginary (spelling : String) : Bool :=
  spelling.toList.getLast?.any fun c => c == 'j' || c == 'J'

/-- A number with an optional sign; an imaginary number may follow a real one. -/
def numberPattern : Parser Unit := do
  let _ ← operator? "-"
  let first ← ofKind .number
  if ← ahead (fun token => isOperator "+" token || isOperator "-" token) then
    oneOf [("+", ()), ("-", ())]
    let second ← ofKind .number
    guard (!isImaginary first.text && isImaginary second.text)

/-- A name with attributes; says whether it has any. -/
def dottedPattern : Parser Bool := do
  let _ ← identifier
  let members ← many (do operator "."; identifier)
  return !members.isEmpty

/-- A constant, a number or strings. -/
def literalPattern : Parser Unit := do
  match ← peek? with
  | none => failure
  | some token =>
      if token.kind = .name then
        let _ ← satisfy fun token => constantWords.contains token.text
      else if token.kind = .string ∨ token.kind = .formattedOpen then
        let _ ← grammar.strings
      else numberPattern

/-- A pattern behind a star, which is a name. -/
def starPattern : Parser Unit := do
  operator "*"
  let _ ← identifier

/-- Patterns with commas between them. Says whether they form a single pattern behind a star, which
is no pattern outside square brackets. -/
def patternItems (pattern : Parser Unit) : Parser Bool := do
  let (stars, isSequence) ← commaList
    ((do starPattern; return true) <|> (do pattern; return false))
  return !isSequence && stars.any id

/-- A pattern or a sequence of patterns between round brackets. -/
def roundPattern (pattern : Parser Unit) : Parser Unit := do
  operator "("
  if ← operator? ")" then return ()
  else
    guard (!(← patternItems pattern))
    operator ")"

/-- A sequence of patterns between square brackets. -/
def squarePattern (pattern : Parser Unit) : Parser Unit := do
  operator "["
  if ← operator? "]" then return ()
  else
    let _ ← patternItems pattern
    operator "]"

/-- An entry of a mapping pattern: a key with a pattern, or a name for the rest; says which. -/
def mappingEntry (pattern : Parser Unit) : Parser Bool := do
  if ← operator? "**" then
    let _ ← identifier
    return true
  else
    grammar.literalPattern <|> (do guard (← dottedPattern))
    operator ":"
    pattern
    return false

/-- A mapping pattern; a name for the rest stands last. -/
def mappingPattern (pattern : Parser Unit) : Parser Unit := do
  operator "\x7b"
  if ← operator? "\x7d" then return ()
  else
    let (entries, _) ← commaList (grammar.mappingEntry pattern)
    guard (!entries.dropLast.any id)
    operator "\x7d"

/-- An argument of a class pattern; says whether it has a keyword. -/
def classArgument (pattern : Parser Unit) : Parser Bool := do
  if ← startsKeyword then
    let _ ← identifier
    operator "="
    pattern
    return true
  else
    pattern
    return false

/-- The arguments of a class pattern: positional ones before those with a keyword. -/
def classArguments (pattern : Parser Unit) : Parser Unit := do
  operator "("
  if ← operator? ")" then return ()
  else
    let (keywords, _) ← commaList (classArgument pattern)
    guard (!(keywords.dropWhile not).any not)
    operator ")"

/-- A pattern without alternatives. -/
def closedPattern (pattern : Parser Unit) : Parser Unit := do
  if ← ahead (isOperator "(") then roundPattern pattern
  else if ← ahead (isOperator "[") then squarePattern pattern
  else if ← ahead (isOperator "\x7b") then grammar.mappingPattern pattern
  else grammar.literalPattern <|> (do
    let _ ← dottedPattern
    if ← ahead (isOperator "(") then classArguments pattern)

/-- Alternatives, perhaps bound to a name. -/
def alternativesPattern (pattern : Parser Unit) : Parser Unit := do
  let _ ← separated (grammar.closedPattern pattern) (operator "|")
  if ← word? "as" then
    let name ← identifier
    guard (name.text != "_")

def patternOfDepth : Nat → Parser Unit
  | 0 => failure
  | depth + 1 => grammar.alternativesPattern (patternOfDepth depth)

/-- The pattern of a case: a pattern, or several with commas between them. -/
def casePattern (depth : Nat) : Parser Unit := do
  guard (!(← patternItems (grammar.patternOfDepth depth)))

end TypeCatalog.Syntax.ExprGrammar
