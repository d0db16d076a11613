import TypeCatalog.Syntax.Parser

/-! # The grammar of expressions

The levels of the grammar are parsers built from the levels of an inner grammar, which reads what
stands inside brackets or behind a prefixed operator. `ExprGrammar.ofDepth n` is the grammar of
expressions nested up to depth `n`; every step inwards takes a token, so the number of tokens bounds
the depth. -/

namespace TypeCatalog.Syntax

/-- The levels of the expression grammar that other parts of the grammar refer to. -/
structure ExprGrammar where
  /-- An atom with attributes, calls and subscripts behind it. -/
  primary : Parser Expr
  /-- A primary with signs before it and a power behind it. -/
  factor : Parser Expr
  /-- Operands joined by arithmetic and bitwise operators. -/
  bitOr : Parser Expr
  /-- A comparison with `not` before it. -/
  inversion : Parser Expr
  /-- Comparisons joined by `and` and `or`. -/
  disjunction : Parser Expr
  /-- A conditional expression, a lambda or a disjunction. -/
  expression : Parser Expr
  /-- A replacement field of a formatted string. -/
  field : Parser Expr

namespace ExprGrammar

open TypeCatalog.Syntax.Parser

def empty : ExprGrammar where
  primary := failure
  factor := failure
  bitOr := failure
  inversion := failure
  disjunction := failure
  expression := failure
  field := failure

variable (grammar : ExprGrammar)

/-- An expression of a form without a meaning of its own. -/
def compoundOf (form : Form) (parts : Parser (List Expr)) : Parser Expr := do
  let (extent, parts) ← spanned parts
  return .compound extent form parts

/-! ## Expressions in brackets and lists -/

def starred : Parser Expr := compoundOf .starred do
  operator "*"
  let value ← grammar.bitOr
  return [value]

/-- Whether an assignment expression comes next. -/
def startsAssignment : Parser Bool := fun tokens =>
  some (match tokens with
    | target :: sign :: _ => decide (target.kind = .name) && isOperator ":=" sign
    | _ => false, tokens)

def assignment : Parser Expr := compoundOf .assignment do
  let (extent, target) ← spanned identifier
  operator ":="
  let value ← grammar.expression
  return [.name extent target, value]

/-- An expression, perhaps with a name assigned to it. -/
def named : Parser Expr := do
  if ← startsAssignment then grammar.assignment else grammar.expression

/-- An item of a display: a starred operand or an expression. -/
def item : Parser Expr := do
  if ← ahead (isOperator "*") then grammar.starred else grammar.named

/-- An item of a list of expressions without brackets. -/
def plainItem : Parser Expr := do
  if ← ahead (isOperator "*") then grammar.starred else grammar.expression

/-- One expression, or several with commas between them, which form a tuple. -/
def itemsOrTuple (item : Parser Expr) : Parser Expr := do
  let (extent, items, isTuple) ← spanned (commaList item)
  match items, isTuple with
  | [single], false => return single
  | items, _ => return .tuple extent items

/-- A list of expressions without brackets. -/
def expressions : Parser Expr := itemsOrTuple grammar.plainItem

def yielding : Parser Expr := compoundOf .yielding do
  word "yield"
  if ← word? "from" then
    let source ← grammar.expression
    return [source]
  else
    let values ← optional grammar.expressions
    return values.toList

/-- The value that a statement assigns or an expression in brackets has. -/
def yieldingOrExpressions : Parser Expr := do
  if ← ahead (isWord "yield") then grammar.yielding else grammar.expressions

/-! ## Targets -/

mutual

def isTarget : Expr → Bool
  | .name _ identifier => !constantWords.contains identifier.text
  | .attribute _ _ _ | .subscript _ _ _ => true
  | .tuple _ items | .list _ items => areTargets items
  | .compound _ .starred parts => areTargets parts
  | _ => false

/-- Whether all expressions of a list may be assigned to. -/
def areTargets : List Expr → Bool
  | [] => true
  | expr :: rest => isTarget expr && areTargets rest

end

/-- Whether an expression may be the only target of an annotation or an augmented assignment. -/
def isSingleTarget : Expr → Bool
  | .name _ identifier => !constantWords.contains identifier.text
  | .attribute _ _ _ | .subscript _ _ _ => true
  | _ => false

/-- A target, perhaps starred. -/
def target : Parser Expr := do
  let expr ←
    if ← ahead (isOperator "*") then
      compoundOf .starred do
        operator "*"
        let value ← grammar.primary
        return [value]
    else grammar.primary
  guard (isTarget expr)
  return expr

/-- Targets with commas between them. -/
def targets : Parser Expr := itemsOrTuple grammar.target

/-! ## Comprehensions -/

/-- Whether the clauses of a comprehension come next. -/
def startsComprehension : Parser Bool := fun tokens =>
  some (match tokens with
    | first :: second :: _ => isWord "for" first || (isWord "async" first && isWord "for" second)
    | _ => false, tokens)

/-- One clause of a comprehension with its conditions. -/
def comprehensionClause : Parser (List Expr) := do
  let _ ← word? "async"
  word "for"
  let targets ← grammar.targets
  word "in"
  let source ← grammar.disjunction
  let conditions ← many (do word "if"; grammar.disjunction)
  return targets :: source :: conditions

def comprehension : Parser (List Expr) := do
  let clauses ← many1 grammar.comprehensionClause
  return clauses.flatten

/-! ## Displays -/

/-- What stands between round brackets: nothing, an expression, items of a tuple or a generator. The
result takes the extent of the brackets. -/
def parenthesized : Parser (Extent → Expr) := do
  operator "("
  if ← operator? ")" then return fun extent => .tuple extent []
  else if ← ahead (isWord "yield") then
    let value ← grammar.yielding
    operator ")"
    return fun extent => value.withText extent.text
  else
    let starredFirst ← ahead (isOperator "*")
    let first ← grammar.item
    if (← startsComprehension) && !starredFirst then
      let clauses ← grammar.comprehension
      operator ")"
      return fun extent => .compound extent .comprehension (first :: clauses)
    else if ← operator? "," then
      let rest ← optional (commaList grammar.item)
      operator ")"
      return fun extent => .tuple extent (first :: (rest.map Prod.fst).getD [])
    else
      guard !starredFirst
      operator ")"
      return fun extent => first.withText extent.text

/-- What stands between square brackets: items of a list or a comprehension. -/
def bracketed : Parser (Extent → Expr) := do
  operator "["
  if ← operator? "]" then return fun extent => .list extent []
  else
    let starredFirst ← ahead (isOperator "*")
    let first ← grammar.item
    if (← startsComprehension) && !starredFirst then
      let clauses ← grammar.comprehension
      operator "]"
      return fun extent => .compound extent .comprehension (first :: clauses)
    else
      let rest ← many (do operator ","; grammar.item)
      let _ ← operator? ","
      operator "]"
      return fun extent => .list extent (first :: rest)

def entry : Parser (Entry Expr) := do
  if ← operator? "**" then
    let mapping ← grammar.bitOr
    return .spread mapping
  else
    let key ← grammar.expression
    operator ":"
    let value ← grammar.expression
    return .pair key value

def dictRest (first : Entry Expr) : Parser (Extent → Expr) := do
  let rest ← many (do operator ","; grammar.entry)
  let _ ← operator? ","
  operator "\x7d"
  return fun extent => .dict extent (first :: rest)

/-- The rest of a set behind its first item. -/
def setRest (first : Expr) : Parser (Extent → Expr) := do
  let rest ← many (do operator ","; grammar.item)
  let _ ← operator? ","
  operator "\x7d"
  return fun extent => .set extent (first :: rest)

/-- What stands between braces: entries of a dictionary, items of a set or a comprehension. -/
def braced : Parser (Extent → Expr) := do
  operator "\x7b"
  if ← operator? "\x7d" then return fun extent => .dict extent []
  else if ← ahead (isOperator "**") then
    let first ← grammar.entry
    grammar.dictRest first
  else if ← ahead (isOperator "*") then
    let first ← grammar.starred
    grammar.setRest first
  else
    let assigned ← startsAssignment
    let first ← grammar.named
    if (← ahead (isOperator ":")) && !assigned then
      operator ":"
      let value ← grammar.expression
      if ← startsComprehension then
        let clauses ← grammar.comprehension
        operator "\x7d"
        return fun extent => .compound extent .comprehension (first :: value :: clauses)
      else grammar.dictRest (.pair first value)
    else if ← startsComprehension then
      let clauses ← grammar.comprehension
      operator "\x7d"
      return fun extent => .compound extent .comprehension (first :: clauses)
    else grammar.setRest first

/-! ## Strings -/

/-- The parts of a formatted string up to its end or the end of a format specification. -/
def formattedParts : Parser (List Expr) := do
  let parts ← many (do
    if ← ahead (fun token => decide (token.kind = .formattedText)) then
      let _ ← ofKind .formattedText
      return ([] : List Expr)
    else
      let field ← grammar.field
      return [field])
  return parts.flatten

/-- The conversions of a formatted value. -/
def conversions : List String := ["a", "r", "s"]

/-- A replacement field: an expression with an optional equals sign, conversion and format
specification. -/
def replacementField : Parser Expr := compoundOf .formatted do
  operator "\x7b"
  let value ← grammar.yieldingOrExpressions
  let _ ← operator? "="
  if ← operator? "!" then
    let conversion ← identifier
    guard (conversions.contains conversion.text)
  let specification ←
    if ← operator? ":" then grammar.formattedParts else pure []
  operator "\x7d"
  return value :: specification

def formatted : Parser Expr := compoundOf .formatted do
  let _ ← ofKind .formattedOpen
  let parts ← grammar.formattedParts
  let _ ← ofKind .formattedClose
  return parts

def plainString : Parser Expr := do
  let (extent, token) ← spanned (ofKind .string)
  return .string extent token.text

/-- One string literal, or several that stand side by side. -/
def strings : Parser Expr := do
  let (extent, parts) ← spanned (many1 (plainString <|> grammar.formatted))
  match parts with
  | [single] => return single
  | parts => return .joined extent parts

/-! ## Arguments and elements -/

/-- How far an argument list has come: keyword arguments end the positional ones, and a mapping
spread into the call ends the starred ones. -/
inductive ArgumentPhase where
  | positional
  | keyword
  | doubleStarred
  deriving DecidableEq

/-- The phase behind an argument, if the argument may stand in the phase before it. -/
def ArgumentPhase.after? (phase : ArgumentPhase) : Argument Expr → Option ArgumentPhase
  | .positional _ => if phase = .positional then some .positional else none
  | .starred _ => if phase = .doubleStarred then none else some phase
  | .keyword _ _ => if phase = .doubleStarred then some .doubleStarred else some .keyword
  | .doubleStarred _ => some .doubleStarred

/-- Whether arguments stand in an order that the grammar allows. -/
def argumentsInOrder (arguments : List (Argument Expr)) : Bool :=
  (arguments.foldlM ArgumentPhase.after? ArgumentPhase.positional).isSome

/-- Whether a keyword argument comes next. -/
def startsKeyword : Parser Bool := fun tokens =>
  some (match tokens with
    | keyword :: sign :: _ => decide (keyword.kind = .name) && isOperator "=" sign
    | _ => false, tokens)

def argument : Parser (Argument Expr) := do
  if ← operator? "**" then
    let mapping ← grammar.expression
    return .doubleStarred mapping
  else if ← operator? "*" then
    let values ← grammar.expression
    return .starred values
  else if ← startsKeyword then
    let keyword ← identifier
    operator "="
    let value ← grammar.expression
    return .keyword keyword value
  else
    let value ← grammar.named
    return .positional value

/-- The arguments up to a closing bracket, which stays. -/
def arguments : Parser (List (Argument Expr)) := do
  if ← ahead (isOperator ")") then return []
  else
    let (arguments, _) ← commaList grammar.argument
    guard (argumentsInOrder arguments)
    return arguments

/-- The arguments of a call up to its closing bracket; a generator may be the only one. -/
def callArguments : Parser (List (Argument Expr)) := do
  if ← operator? ")" then return []
  else
    let (extent, first, clauses) ← spanned (do
      let first ← grammar.argument
      if ← startsComprehension then
        let clauses ← grammar.comprehension
        return (first, clauses)
      else return (first, []))
    match first, clauses with
    | .positional value, clause :: more =>
        operator ")"
        return [.positional (.compound extent .comprehension (value :: clause :: more))]
    | first, [] =>
        let rest ← many (do operator ","; grammar.argument)
        let _ ← operator? ","
        operator ")"
        guard (argumentsInOrder (first :: rest))
        return first :: rest
    | _, _ => failure

/-- Whether an element of a subscript ends here. -/
def elementEnds : Parser Bool :=
  ahead fun token => isOperator ":" token || isOperator "," token || isOperator "]" token

def bound : Parser (List Expr) := do
  if ← elementEnds then return []
  else
    let value ← grammar.expression
    return [value]

/-- An element of a subscript: an index, a starred index, an index with a name, or a slice. -/
def element : Parser (Element Expr) := do
  if ← operator? "*" then
    let value ← grammar.expression
    return .index value
  else if ← startsAssignment then
    let value ← grammar.assignment
    return .index value
  else
    let lower ← grammar.bound
    if ← operator? ":" then
      let upper ← grammar.bound
      let step ← if ← operator? ":" then grammar.bound else pure []
      return .slice (lower ++ upper ++ step)
    else match lower with
      | [value] => return .index value
      | _ => failure

def elements : Parser (List (Element Expr)) := do
  let (elements, _) ← commaList grammar.element
  return elements

/-! ## Operators -/

/-- Take one of several operators. -/
def oneOf {α : Type} : List (String × α) → Parser α
  | [] => failure
  | (text, meaning) :: rest => do
      if ← operator? text then return meaning else oneOf rest

/-- Operands joined from left to right. -/
def leftAssociative (operand : Parser Expr) (operators : List (String × BinaryOperator)) :
    Parser Expr := do
  let start ← get
  let first ← operand
  let rest ← many (do
    let operator ← oneOf operators
    let right ← operand
    let stop ← get
    return (operator, right, stop))
  return rest.foldl (fun left (operator, right, stop) =>
    .binary (extentBetween start stop) operator left right) first

/-- Operands joined by a word into one expression. -/
def joinedBy (form : Form) (text : String) (operand : Parser Expr) : Parser Expr := do
  let (extent, operands) ← spanned (separated operand (word text))
  match operands with
  | [single] => return single
  | operands => return .compound extent form operands

def comparisonOperator : Parser Unit := do
  if ← word? "not" then word "in"
  else if ← word? "in" then return ()
  else if ← word? "is" then
    let _ ← word? "not"
  else oneOf [("==", ()), ("!=", ()), ("<=", ()), ("<", ()), (">=", ()), (">", ())]

/-- Operands with comparison operators between them. -/
def comparisonOf (operand : Parser Expr) : Parser Expr := do
  let (extent, operands) ← spanned (separated operand comparisonOperator)
  match operands with
  | [single] => return single
  | operands => return .compound extent .comparison operands

/-! ## Parameters of lambdas -/

/-- A parameter as far as its place among the others matters. -/
inductive ParameterKind where
  | positional (hasDefault : Bool)
  | slash
  | bareStar
  | starred
  | doubleStarred
  deriving DecidableEq

/-- What parameters may follow. -/
structure ParameterState where
  /-- Whether a positional parameter came before. -/
  some : Bool
  slashed : Bool
  defaulted : Bool
  starred : Bool
  /-- Whether a bare star still needs a parameter behind it. -/
  pending : Bool
  ended : Bool

/-- What parameters may follow a parameter, if it may stand where it stands. -/
def ParameterState.after? (state : ParameterState) : ParameterKind → Option ParameterState
  | .positional hasDefault =>
      if state.ended then none
      else if state.starred then Option.some { state with pending := false }
      else if state.defaulted && !hasDefault then none
      else Option.some { state with some := true, defaulted := hasDefault }
  | .slash =>
      if state.ended || state.starred || state.slashed || !state.some then none
      else Option.some { state with slashed := true }
  | .bareStar =>
      if state.ended || state.starred then none
      else Option.some { state with starred := true, pending := true }
  | .starred =>
      if state.ended || state.starred then none
      else Option.some { state with starred := true }
  | .doubleStarred =>
      if state.ended || state.pending then none
      else Option.some { state with ended := true }

/-- Whether parameters stand in an order that the grammar allows. -/
def parametersInOrder (kinds : List ParameterKind) : Bool :=
  match kinds.foldlM ParameterState.after? ⟨false, false, false, false, false, false⟩ with
  | Option.some state => !state.pending
  | none => false

def parameter (annotate annotateStarred : Parser Unit) : Parser ParameterKind := do
  if ← operator? "/" then return .slash
  else if ← operator? "**" then
    let _ ← identifier
    annotate
    return .doubleStarred
  else if ← operator? "*" then
    if ← ahead (isOperator ",") then return .bareStar
    else
      let _ ← identifier
      annotateStarred
      return .starred
  else
    let _ ← identifier
    annotate
    if ← operator? "=" then
      let _ ← grammar.expression
      return .positional true
    else return .positional false

def parameters (closing : String) (annotate annotateStarred : Parser Unit) : Parser Unit := do
  if ← ahead (isOperator closing) then return ()
  else
    let (kinds, _) ← commaList (grammar.parameter annotate annotateStarred)
    guard (parametersInOrder kinds)

/-! ## The levels -/

/-- A name, a number, a string, an ellipsis or something in brackets. -/
def atom : Parser Expr := do
  match ← peek? with
  | none => failure
  | some token =>
      match token.kind with
      | .name =>
          let (extent, token) ← spanned (satisfy fun token =>
            constantWords.contains token.text || !reservedWords.contains token.text)
          let identifier ← ofOption (Identifier.ofString? token.text)
          return .name extent identifier
      | .number =>
          let (extent, token) ← spanned (ofKind .number)
          return .number extent token.text
      | .string | .formattedOpen => grammar.strings
      | .operator =>
          let (extent, form) ← spanned (
            if token.text == "(" then grammar.parenthesized
            else if token.text == "[" then grammar.bracketed
            else if token.text == "\x7b" then grammar.braced
            else do
              operator "..."
              return fun extent => Expr.ellipsis extent)
          return form extent
      | _ => failure

/-- What may stand behind a primary: an attribute, a call or a subscript. -/
def trailer : Parser (Extent → Expr → Expr) := do
  if ← operator? "." then
    let member ← identifier
    return fun extent object => .attribute extent object member
  else if ← operator? "(" then
    let arguments ← grammar.callArguments
    return fun extent callee => .call extent callee arguments
  else
    operator "["
    let elements ← grammar.elements
    operator "]"
    return fun extent object => .subscript extent object elements

/-- An atom with trailers behind it. -/
def primaryOf : Parser Expr := do
  let start ← get
  let first ← grammar.atom
  let trailers ← many (do
    let trailer ← grammar.trailer
    let stop ← get
    return (trailer, stop))
  return trailers.foldl (fun object (trailer, stop) =>
    trailer (extentBetween start stop) object) first

/-- A primary, perhaps awaited. -/
def awaitOf : Parser Expr := do
  if ← ahead (isWord "await") then
    compoundOf .awaiting do
      word "await"
      let value ← grammar.primaryOf
      return [value]
  else grammar.primaryOf

/-- A primary with a power behind it. -/
def powerOf : Parser Expr := do
  let (extent, base, exponent) ← spanned (do
    let base ← grammar.awaitOf
    if ← operator? "**" then
      let exponent ← grammar.factor
      return (base, some exponent)
    else return (base, none))
  match exponent with
  | some exponent => return .binary extent .power base exponent
  | none => return base

/-- A power with signs before it. -/
def factorOf : Parser Expr := do
  let (extent, sign, operand) ← spanned (do
    let sign ← optional (oneOf [("+", .plus), ("-", .minus), ("~", .invert)])
    let operand ← if sign.isSome then grammar.factor else grammar.powerOf
    return (sign, operand))
  match sign with
  | some sign => return .unary extent sign operand
  | none => return operand

/-- Factors joined by arithmetic and bitwise operators. -/
def bitOrOf : Parser Expr :=
  let term := leftAssociative grammar.factorOf
    [("*", .multiply), ("//", .floorDivide), ("/", .divide), ("%", .modulo),
      ("@", .matrixMultiply)]
  let sum := leftAssociative term [("+", .add), ("-", .subtract)]
  let shift := leftAssociative sum [("<<", .shiftLeft), (">>", .shiftRight)]
  let bitAnd := leftAssociative shift [("&", .bitAnd)]
  let bitXor := leftAssociative bitAnd [("^", .bitXor)]
  leftAssociative bitXor [("|", .bitOr)]

/-- A comparison, perhaps negated. -/
def inversionOf : Parser Expr := do
  if ← ahead (isWord "not") then
    compoundOf .negation do
      word "not"
      let operand ← grammar.inversion
      return [operand]
  else comparisonOf grammar.bitOrOf

/-- Negated comparisons joined by `and` and `or`. -/
def disjunctionOf : Parser Expr :=
  joinedBy .disjunction "or" (joinedBy .conjunction "and" grammar.inversionOf)

def lambdaOf : Parser Expr := compoundOf .lambda do
  word "lambda"
  grammar.parameters ":" (return ()) (return ())
  operator ":"
  let body ← grammar.expression
  return [body]

/-- A lambda, or a disjunction that may be conditional. -/
def expressionOf : Parser Expr := do
  if ← ahead (isWord "lambda") then grammar.lambdaOf
  else
    let (extent, value, condition) ← spanned (do
      let value ← grammar.disjunctionOf
      if ← word? "if" then
        let condition ← grammar.disjunctionOf
        word "else"
        let otherwise ← grammar.expression
        return (value, [condition, otherwise])
      else return (value, []))
    match condition with
    | [] => return value
    | condition => return .compound extent .conditional (value :: condition)

/-- The grammar whose nested expressions the given grammar reads. -/
def around : ExprGrammar where
  primary := grammar.primaryOf
  factor := grammar.factorOf
  bitOr := grammar.bitOrOf
  inversion := grammar.inversionOf
  disjunction := grammar.disjunctionOf
  expression := grammar.expressionOf
  field := grammar.replacementField

def ofDepth : Nat → ExprGrammar
  | 0 => empty
  | depth + 1 => (ofDepth depth).around

end ExprGrammar

end TypeCatalog.Syntax
