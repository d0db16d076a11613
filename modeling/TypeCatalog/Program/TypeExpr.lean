import TypeCatalog.Literal.Reader
import TypeCatalog.Model.Symbol
import TypeCatalog.Program.Resolution

/-! # Types of expressions

Every expression has a type. Names stand for what they resolve to, subscripts instantiate their
head, operands joined by `|` form a union, and a string literal stands for the expression that it
holds. An expression of any other form is an unresolved type with the expression's source text.

The recursion is structural but for strings, whose text is read as an expression. The value of a
string is shorter than the text that writes it, so the length of the longest string in an expression
bounds the depth to which strings are nested in it. -/

namespace TypeCatalog

open Syntax

/-- What the types of expressions are read against. -/
structure TypeScope extends NameScope where
  /-- The declared types. -/
  types : Table TypeSymbol

namespace TypeScope

variable (scope : TypeScope) (enclosing : List String)

def noneName : String := "builtins.None"

/-- The type that a dotted name stands for. -/
def namedType (name : String) : TypeSymbol :=
  if name = "None" then .externalType noneName
  else match scope.resolve? enclosing name with
    | none => .unresolved name (Text.lastPart name)
    | some resolved => (scope.types.find? resolved).getD (.externalType resolved)

/-- The type of an expression that stands for no known type. -/
def unresolvedType (expr : Expr) : TypeSymbol := .unresolved expr.text expr.text

/-- The union of types. A union of `None` with a single other type is an optional type. -/
def unionOf (options : List TypeSymbol) : TypeSymbol :=
  match options.filter fun option => option.fqn ≠ noneName with
  | [value] =>
      if 1 < options.length then .instantiation (some "typing.Optional") [value] true
      else .instantiation (some "typing.Union") options true
  | _ => .instantiation (some "typing.Union") options true

/-- The type of an expression with given operands: a single operand is the type itself. -/
def ofOperands : List TypeSymbol → TypeSymbol
  | [single] => single
  | operands => unionOf operands

/-- The type of a subscript with the given types between its brackets. -/
def subscriptType (object : Expr) (arguments : List TypeSymbol) : TypeSymbol :=
  let definition := object.dotted?.bind (scope.resolve? enclosing)
  match definition, arguments with
  | some "typing.Annotated", first :: _ => first
  | some "typing.Union", arguments => unionOf arguments
  | definition, arguments =>
      let declared := (definition.map scope.declared.contains).getD false
      .instantiation definition arguments !declared

/-- The text that a string literal stands for. -/
def stringText? (expr : Expr) : Option String :=
  match Literal.read? expr.text with
  | some (.string text) => some text
  | _ => none

mutual

/-- The types of the operands of an expression; an expression that is no union is its only operand.
The given function reads the text of string literals. -/
def operandTypes (ofText? : String → Option TypeSymbol) : Expr → List TypeSymbol
  | .binary _ .bitOr left right => operandTypes ofText? left ++ operandTypes ofText? right
  | .subscript _ object elements =>
      [scope.subscriptType enclosing object (elementTypes ofText? elements)]
  | .string extent spelling =>
      let expr := Expr.string extent spelling
      [((stringText? expr).bind ofText?).getD (unresolvedType expr)]
  | expr =>
      match expr.dotted? with
      | some name => [scope.namedType enclosing name]
      | none => [unresolvedType expr]

/-- The types of the indices of a subscript; slices have none. -/
def elementTypes (ofText? : String → Option TypeSymbol) : List (Element Expr) → List TypeSymbol
  | [] => []
  | .index value :: rest => ofOperands (operandTypes ofText? value) :: elementTypes ofText? rest
  | .slice _ :: rest => elementTypes ofText? rest

end

mutual

/-- The length of the longest string among those that the type of an expression is read from. -/
def longestString : Expr → Nat
  | .binary _ .bitOr left right => max (longestString left) (longestString right)
  | .subscript _ _ elements => longestStringAmong elements
  | .string extent _ => extent.text.length
  | _ => 0

/-- The length of the longest string among the indices of a subscript. -/
def longestStringAmong : List (Element Expr) → Nat
  | [] => 0
  | .index value :: rest => max (longestString value) (longestStringAmong rest)
  | .slice _ :: rest => longestStringAmong rest

end

/-- The type of an expression whose strings are read to a depth. -/
def typeAtDepth : Nat → Expr → TypeSymbol
  | 0, expr => ofOperands (scope.operandTypes enclosing (fun _ => none) expr)
  | depth + 1, expr =>
      ofOperands (scope.operandTypes enclosing
        (fun text => (Expr.read? text).map (typeAtDepth depth)) expr)

def typeOf (expr : Expr) : TypeSymbol :=
  scope.typeAtDepth enclosing (longestString expr) expr

end TypeScope

end TypeCatalog
