import TypeCatalog.Literal.Spelling
import TypeCatalog.Syntax.Module

/-! # Reading literal values

A literal value is read from the source text of an expression, taken on its own: a text that needs
the brackets around it to continue on a further line has no value. Values are constants, numbers with
at most one sign, sums of a real and an imaginary number, strings, and displays of values. -/

namespace TypeCatalog.Literal

open Syntax

def negate? : Literal → Option Literal
  | .int value => some (.int (-value))
  | .float value => some (.float value.negate)
  | .complex real imaginary => some (.complex real.negate imaginary.negate)
  | _ => none

/-- The value of a number with at most one sign. -/
def signedNumber? : Expr → Option Literal
  | .number _ spelling => ofNumber? spelling
  | .unary _ .plus (.number _ spelling) => ofNumber? spelling
  | .unary _ .minus (.number _ spelling) => (ofNumber? spelling).bind negate?
  | _ => none

/-- The real part of a sum, if it is finite or written as a floating-point number. -/
def realPart? : Literal → Option Binary64
  | .int value =>
      let nearest := Binary64.ofInt value
      if nearest.isFinite then some nearest else none
  | .float value => some value
  | _ => none

/-- The sum of a real number and an imaginary one. -/
def addImaginary (real imaginary : Binary64) : Literal :=
  .complex (real.addZero .zero) imaginary

/-- The difference of a real number and an imaginary one. -/
def subtractImaginary (real imaginary : Binary64) : Literal :=
  .complex real (imaginary.negate.addZero .zero)

/-- The value of a sum or difference of a real number and an imaginary one. -/
def complexSum? (operator : BinaryOperator) (left right : Expr) : Option Literal := do
  let real ← (← signedNumber? left) |> realPart?
  match right with
  | .number _ spelling =>
      match ← ofNumber? spelling with
      | .complex _ imaginary =>
          match operator with
          | .add => some (addImaginary real imaginary)
          | .subtract => some (subtractImaginary real imaginary)
          | _ => none
      | _ => none
  | _ => none

def constant? (identifier : Identifier) : Option Literal :=
  match identifier.text with
  | "None" => some .null
  | "True" => some (.bool true)
  | "False" => some (.bool false)
  | _ => none

/-- The value of string literals that stand side by side. -/
def joined? (parts : List Expr) : Option Literal := do
  let values ← parts.mapM fun part => match part with
    | .string _ spelling => ofString? spelling
    | _ => none
  match values with
  | [] => none
  | first :: rest => rest.foldlM concatenate? first

/-- The set of values, if they may be elements of a set. -/
def checkedSet? (elements : List Literal) : Option Literal :=
  if areHashable elements then some (setOf elements) else none

/-- The dictionary of entries, if their keys may be keys. -/
def checkedDict? (entries : List (Literal × Literal)) : Option Literal :=
  if areHashable (entries.map Prod.fst) then some (dictOf entries) else none

mutual

def ofExpr? : Expr → Option Literal
  | .name _ identifier => constant? identifier
  | .ellipsis _ => some .ellipsis
  | .number extent spelling => signedNumber? (.number extent spelling)
  | .string _ spelling => ofString? spelling
  | .joined _ parts => joined? parts
  | .unary extent operator operand => signedNumber? (.unary extent operator operand)
  | .binary _ operator left right => complexSum? operator left right
  | .tuple _ items => (ofExprs? items).map Literal.tuple
  | .list _ items => (ofExprs? items).map Literal.list
  | .set _ items => (ofExprs? items).bind checkedSet?
  | .dict _ entries => (ofEntries? entries).bind checkedDict?
  | .call _ (.name _ callee) [] => if callee.text = "set" then some (.set []) else none
  | _ => none

def ofExprs? : List Expr → Option (List Literal)
  | [] => some []
  | item :: rest => do
      let value ← ofExpr? item
      let values ← ofExprs? rest
      return value :: values

/-- The keys and values of the entries of a dictionary display. -/
def ofEntries? : List (Entry Expr) → Option (List (Literal × Literal))
  | [] => some []
  | .pair key value :: rest => do
      let key ← ofExpr? key
      let value ← ofExpr? value
      let entries ← ofEntries? rest
      return (key, value) :: entries
  | .spread _ :: _ => none

end

/-- The greatest number of brackets open at once. -/
def bracketLimit : Nat := 200

/-- The greatest number of brackets open at once in a text of tokens. -/
def bracketDepth (tokens : List Token) : Nat :=
  (tokens.foldl (fun (depth, greatest) token =>
    if token.kind ≠ .operator then (depth, greatest)
    else if ["(", "[", "\x7b"].contains token.text then (depth + 1, max greatest (depth + 1))
    else if [")", "]", "\x7d"].contains token.text then (depth - 1, greatest)
    else (depth, greatest)) (0, 0)).2

/-- The literal value that a text writes. -/
def read? (text : String) : Option Literal := do
  let unified := String.ofList (Text.unifyLineEnds text.toList)
  let tokens ← Lexer.tokens? unified
  if bracketDepth tokens ≤ bracketLimit then (Expr.read? unified).bind ofExpr? else none

end TypeCatalog.Literal
