import TypeCatalog.Syntax.Grammar.Pattern
import TypeCatalog.Syntax.Statement

/-! # The grammar of statements

`suiteOfDepth n` reads bodies nested up to depth `n`. Assignment is read as an expression first; that
the expression may stand on the left of the sign is tested afterwards. -/

namespace TypeCatalog.Syntax.ExprGrammar

open TypeCatalog.Syntax.Parser

variable (grammar : ExprGrammar)

/-! ## Imports -/

/-- The source text of a dotted name. -/
def dottedName : Parser String := do
  let (extent, _) ← spanned (separated identifier (operator "."))
  return extent.text

/-- The name that an import gives to what it binds. -/
def alternativeName : Parser (Option Identifier) := do
  if ← word? "as" then
    let name ← identifier
    return some name
  else return none

def importModules : Parser SimpleStatement := do
  word "import"
  let names ← separated (do
    let name ← dottedName
    let alternative ← alternativeName
    return (⟨name, alternative⟩ : ImportedName)) (operator ",")
  return .importModules names

/-- The number of dots before the module of a relative import. -/
def importLevel : Parser Nat := do
  let dots ← many (oneOf [("...", 3), (".", 1)])
  return dots.foldl (fun level dot => level + dot) 0

def importedName : Parser ImportedName := do
  let name ← identifier
  let alternative ← alternativeName
  return ⟨name.text, alternative⟩

/-- An import from a module. Names in brackets may end with a comma. -/
def importFrom : Parser SimpleStatement := do
  word "from"
  let level ← importLevel
  let module ←
    if ← ahead (isWord "import") then
      guard (0 < level)
      pure none
    else
      let name ← dottedName
      pure (some name)
  word "import"
  if ← operator? "*" then return .importFrom level module .all
  else if ← operator? "(" then
    let (names, _) ← commaList importedName
    operator ")"
    return .importFrom level module (.names names)
  else
    let names ← separated importedName (operator ",")
    return .importFrom level module (.names names)

/-! ## Assignments -/

/-- The operators that change the value of a target. -/
def augmentedOperators : List (String × Unit) :=
  ["+=", "-=", "*=", "/=", "//=", "%=", "@=", "&=", "|=", "^=", ">>=", "<<=", "**="].map
    fun text => (text, ())

/-- The values behind the first target of an assignment: all but the last are targets. -/
def assignedValues : Parser (List Expr) := do
  let values ← many1 (do operator "="; grammar.yieldingOrExpressions)
  guard (values.dropLast.all isTarget)
  return values

def expressionStatement : Parser SimpleStatement := do
  let first ← grammar.yieldingOrExpressions
  if ← ahead (isOperator ":") then
    guard (isSingleTarget first)
    operator ":"
    let annotation ← grammar.expression
    if ← operator? "=" then
      let value ← grammar.yieldingOrExpressions
      return .annotated first annotation (some value)
    else return .annotated first annotation none
  else if ← ahead (isOperator "=") then
    guard (isTarget first)
    let values ← grammar.assignedValues
    return .other .assignment (first :: values)
  else match ← optional (oneOf augmentedOperators) with
    | some () =>
        guard (isSingleTarget first)
        let value ← grammar.yieldingOrExpressions
        return .other .assignment [first, value]
    | none => return .other .expression [first]

/-! ## Type parameters -/

/-- A type parameter with its bound and default. -/
def typeParameter : Parser Unit := do
  if ← operator? "**" then
    let _ ← identifier
    if ← operator? "=" then
      let _ ← grammar.expression
  else if ← operator? "*" then
    let _ ← identifier
    if ← operator? "=" then
      let _ ← grammar.plainItem
  else
    let _ ← identifier
    if ← operator? ":" then
      let _ ← grammar.expression
    if ← operator? "=" then
      let _ ← grammar.expression

/-- The type parameters of a class, function or type alias, if it has any. -/
def typeParameters : Parser Unit := do
  if ← operator? "[" then
    let _ ← commaList grammar.typeParameter
    operator "]"

def typeAlias : Parser SimpleStatement := do
  word "type"
  let _ ← identifier
  grammar.typeParameters
  operator "="
  let value ← grammar.expression
  return .other .typeAlias [value]

/-! ## Simple statements -/

def wordStatement (text : String) (kind : SimpleKind) (parts : Parser (List Expr)) :
    Parser SimpleStatement := do
  word text
  let parts ← parts
  return .other kind parts

mutual

/-- Whether an expression may be deleted: what may be assigned to, but nothing starred. -/
def isDeletable : Expr → Bool
  | .name _ identifier => !constantWords.contains identifier.text
  | .attribute _ _ _ | .subscript _ _ _ => true
  | .tuple _ items | .list _ items => areDeletable items
  | _ => false

def areDeletable : List Expr → Bool
  | [] => true
  | expr :: rest => isDeletable expr && areDeletable rest

end

def deletedTargets : Parser (List Expr) := do
  let (targets, _) ← commaList grammar.primary
  guard (areDeletable targets)
  return targets

/-- The exception that a statement raises, with its cause. -/
def raisedParts : Parser (List Expr) := do
  match ← optional grammar.expression with
  | none => return []
  | some exception =>
      if ← word? "from" then
        let cause ← grammar.expression
        return [exception, cause]
      else return [exception]

/-- A condition with an optional message. -/
def assertedParts : Parser (List Expr) := do
  let (parts, _) ← (do
    let condition ← grammar.expression
    if ← operator? "," then
      let message ← grammar.expression
      return ([condition, message], true)
    else return ([condition], false))
  return parts

/-- Names whose scope a statement declares. -/
def scopedNames : Parser (List Expr) := do
  let _ ← separated identifier (operator ",")
  return []

def simpleStatement : Parser SimpleStatement := do
  match ← peek? with
  | none => failure
  | some token =>
      if token.kind ≠ .name then grammar.expressionStatement
      else match token.text with
        | "import" => importModules
        | "from" => importFrom
        | "return" => wordStatement "return" .return (do
            let value ← optional grammar.expressions
            return value.toList)
        | "raise" => wordStatement "raise" .raise grammar.raisedParts
        | "pass" => wordStatement "pass" .pass (return [])
        | "del" => wordStatement "del" .delete grammar.deletedTargets
        | "assert" => wordStatement "assert" .assertion grammar.assertedParts
        | "break" => wordStatement "break" .break (return [])
        | "continue" => wordStatement "continue" .continue (return [])
        | "global" => wordStatement "global" .global scopedNames
        | "nonlocal" => wordStatement "nonlocal" .global scopedNames
        | "type" => grammar.typeAlias <|> grammar.expressionStatement
        | _ => grammar.expressionStatement

/-- Simple statements up to the end of the line; a semicolon may stand behind the last. -/
def statementLine : Parser (List SimpleStatement) := do
  let parts ← separated grammar.simpleStatement (operator ";")
  let _ ← operator? ";"
  let _ ← ofKind .lineEnd
  return parts

/-! ## Compound statements -/

/-- A suite: statements in an indented block, or a line of simple statements. -/
def suiteOf (statement : Parser Statement) : Parser Suite := do
  if ← ahead (fun token => decide (token.kind = .lineEnd)) then
    let _ ← ofKind .lineEnd
    let _ ← ofKind .indent
    let body ← many1 statement
    let _ ← ofKind .dedent
    return .indented body
  else
    let parts ← grammar.statementLine
    return .inline parts

variable (suite : Parser Suite)

/-- A clause: its head, a colon and its suite. -/
def clauseOf (kind : ClauseKind) (head : Parser (List Expr)) : Parser Clause := do
  let head ← head
  operator ":"
  let body ← suite
  return .clause kind head body

/-- A clause that consists of a word and its suite, if the word comes next. -/
def wordClause? (text : String) (kind : ClauseKind) : Parser (List Clause) := do
  if ← word? text then
    let clause ← clauseOf suite kind (return [])
    return [clause]
  else return []

def ifStatement : Parser (List Clause) := do
  word "if"
  let first ← clauseOf suite .ifClause (return [← grammar.named])
  let others ← many (do
    word "elif"
    clauseOf suite .elifClause (return [← grammar.named]))
  let last ← wordClause? suite "else" .elseClause
  return first :: others ++ last

/-- The clauses of a loop with a condition. -/
def whileStatement : Parser (List Clause) := do
  word "while"
  let first ← clauseOf suite .whileClause (return [← grammar.named])
  let last ← wordClause? suite "else" .elseClause
  return first :: last

/-- The clauses of a loop over items. -/
def forStatement : Parser (List Clause) := do
  word "for"
  let first ← clauseOf suite .forClause (do
    let targets ← grammar.targets
    word "in"
    let source ← grammar.expressions
    return [targets, source])
  let last ← wordClause? suite "else" .elseClause
  return first :: last

/-- A context with the target it is bound to. -/
def contextItem : Parser (List Expr) := do
  let context ← grammar.expression
  if ← word? "as" then
    let target ← grammar.target
    return [context, target]
  else return [context]

/-- The contexts of a `with` statement, in brackets or not. -/
def contexts : Parser (List Expr) :=
  (do
    operator "("
    let (items, _) ← commaList grammar.contextItem
    operator ")"
    guard (← ahead (isOperator ":"))
    return items.flatten) <|>
  (do
    let items ← separated grammar.contextItem (operator ",")
    return items.flatten)

def withStatement : Parser (List Clause) := do
  word "with"
  let clause ← clauseOf suite .withClause grammar.contexts
  return [clause]

/-- A handler of exceptions; says whether it handles groups. -/
def handler : Parser (Bool × Clause) := do
  word "except"
  let group ← operator? "*"
  let clause ← clauseOf suite .exceptClause (do
    if ← ahead (isOperator ":") then
      guard !group
      return []
    else
      let exception ← grammar.expression
      if ← word? "as" then
        let _ ← identifier
      return [exception])
  return (group, clause)

/-- The clauses of a `try` statement. Its handlers are all of one kind, and without handlers a
`finally` clause must follow. -/
def tryStatement : Parser (List Clause) := do
  word "try"
  let first ← clauseOf suite .tryClause (return [])
  let handlers ← many (grammar.handler suite)
  let otherwise ←
    if handlers.isEmpty then pure [] else wordClause? suite "else" .elseClause
  let finally_ ← wordClause? suite "finally" .finallyClause
  guard (!handlers.isEmpty || !finally_.isEmpty)
  guard (handlers.all Prod.fst || !handlers.any Prod.fst)
  return first :: handlers.map Prod.snd ++ otherwise ++ finally_

/-- A case of a `match` statement. -/
def caseClause (depth : Nat) : Parser Clause := do
  word "case"
  clauseOf suite .caseClause (do
    grammar.casePattern depth
    if ← word? "if" then
      let condition ← grammar.named
      return [condition]
    else return [])

def matchStatement (depth : Nat) : Parser (List Clause) := do
  word "match"
  let _ ← itemsOrTuple grammar.item
  operator ":"
  let _ ← ofKind .lineEnd
  let _ ← ofKind .indent
  let cases ← many1 (grammar.caseClause suite depth)
  let _ ← ofKind .dedent
  return cases

/-! ## Classes and functions -/

/-- Decorators, each on a line of its own. -/
def decorators : Parser (List Expr) :=
  many (do
    operator "@"
    let decorator ← grammar.named
    let _ ← ofKind .lineEnd
    return decorator)

def classStatement (decorators : List Expr) : Parser Statement := do
  let (extent, _) ← spanned (word "class")
  let name ← identifier
  grammar.typeParameters
  let arguments ←
    if ← operator? "(" then
      let arguments ← grammar.arguments
      operator ")"
      pure arguments
    else pure []
  operator ":"
  let body ← suite
  return .classStatement ⟨extent.place, name, decorators, arguments⟩ body

def parameterType (value : Parser Expr) : Parser Unit := do
  if ← operator? ":" then
    let _ ← value

def functionStatement (decorators : List Expr) : Parser Statement := do
  let (extent, _) ← spanned (do
    let _ ← word? "async"
    word "def")
  let name ← identifier
  grammar.typeParameters
  operator "("
  grammar.parameters ")" (parameterType grammar.expression)
    (parameterType grammar.plainItem)
  operator ")"
  let returns ←
    if ← operator? "->" then
      let annotation ← grammar.expression
      pure (some annotation)
    else pure none
  operator ":"
  let body ← suite
  return .functionStatement ⟨extent.place, name, decorators, returns⟩ body

/-- A class or function statement with decorators before it. -/
def decorated : Parser Statement := do
  let decorators ← grammar.decorators
  if ← ahead (isWord "class") then grammar.classStatement suite decorators
  else grammar.functionStatement suite decorators

/-- A compound statement that may run asynchronously. -/
def asynchronous : Parser Statement :=
  (do
    word "async"
    if ← ahead (isWord "for") then return .compound (← grammar.forStatement suite)
    else return .compound (← grammar.withStatement suite)) <|>
  grammar.functionStatement suite []

def lineStatement : Parser Statement := do
  let parts ← grammar.statementLine
  return .line parts

def statementOf (depth : Nat) : Parser Statement := do
  match ← peek? with
  | none => failure
  | some token =>
      if isOperator "@" token then grammar.decorated suite
      else if token.kind ≠ .name then grammar.lineStatement
      else match token.text with
        | "class" => grammar.classStatement suite []
        | "def" => grammar.functionStatement suite []
        | "async" => grammar.asynchronous suite
        | "if" => return .compound (← grammar.ifStatement suite)
        | "while" => return .compound (← grammar.whileStatement suite)
        | "for" => return .compound (← grammar.forStatement suite)
        | "with" => return .compound (← grammar.withStatement suite)
        | "try" => return .compound (← grammar.tryStatement suite)
        | "match" =>
            (return .compound (← grammar.matchStatement suite depth)) <|> grammar.lineStatement
        | _ => grammar.lineStatement

/-- The bodies nested up to a depth. -/
def suiteOfDepth : Nat → Parser Suite
  | 0 => failure
  | depth + 1 => grammar.suiteOf (grammar.statementOf (suiteOfDepth depth) depth)

end TypeCatalog.Syntax.ExprGrammar
