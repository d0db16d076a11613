import TypeCatalog.Syntax.Token
import TypeCatalog.Text.Identifier

/-! # Expressions

Expressions keep their source text, the brackets around them included, and the place where they
begin inside these brackets. Forms that play no role in types, names or literal values are one
constructor with a tag. -/

namespace TypeCatalog.Syntax

/-- The source text of an expression and the place where it begins. -/
structure Extent where
  text : String
  place : Place
  deriving Repr, Inhabited

/-- An argument of a call. -/
inductive Argument (ε : Type) where
  | positional (value : ε)
  | keyword (name : Identifier) (value : ε)
  | starred (value : ε)
  | doubleStarred (value : ε)

/-- An element between the brackets of a subscript. -/
inductive Element (ε : Type) where
  | index (value : ε)
  | slice (bounds : List ε)

/-- An entry of a dictionary display: a key with its value, or a mapping spread into it. -/
inductive Entry (ε : Type) where
  | pair (key value : ε)
  | spread (mapping : ε)

inductive UnaryOperator where
  | plus
  | minus
  | invert
  deriving DecidableEq, Repr

inductive BinaryOperator where
  | bitOr
  | bitXor
  | bitAnd
  | shiftLeft
  | shiftRight
  | add
  | subtract
  | multiply
  | divide
  | floorDivide
  | modulo
  | matrixMultiply
  | power
  deriving DecidableEq, Repr

/-- The forms of expression that are neither types, names nor literal values. -/
inductive Form where
  | assignment
  | awaiting
  | comparison
  | comprehension
  | conditional
  | conjunction
  | disjunction
  | formatted
  | lambda
  | negation
  | starred
  | yielding
  deriving DecidableEq, Repr

/-- An expression. -/
inductive Expr where
  | name (extent : Extent) (identifier : Identifier)
  | attribute (extent : Extent) (object : Expr) (member : Identifier)
  | number (extent : Extent) (spelling : String)
  | ellipsis (extent : Extent)
  /-- One string or bytes literal. -/
  | string (extent : Extent) (spelling : String)
  /-- Adjacent string literals, formatted ones among them. -/
  | joined (extent : Extent) (parts : List Expr)
  | unary (extent : Extent) (operator : UnaryOperator) (operand : Expr)
  | binary (extent : Extent) (operator : BinaryOperator) (left right : Expr)
  | subscript (extent : Extent) (object : Expr) (elements : List (Element Expr))
  | call (extent : Extent) (callee : Expr) (arguments : List (Argument Expr))
  | tuple (extent : Extent) (items : List Expr)
  | list (extent : Extent) (items : List Expr)
  | set (extent : Extent) (items : List Expr)
  | dict (extent : Extent) (entries : List (Entry Expr))
  | compound (extent : Extent) (form : Form) (parts : List Expr)
  deriving Inhabited

namespace Element

/-- The value of an index; a slice has none. -/
def index? {ε : Type} : Element ε → Option ε
  | .index value => some value
  | .slice _ => none

end Element

namespace Expr

def extent : Expr → Extent
  | .name extent _ | .attribute extent _ _ | .number extent _ | .ellipsis extent
  | .string extent _ | .joined extent _ | .unary extent _ _ | .binary extent _ _ _
  | .subscript extent _ _ | .call extent _ _ | .tuple extent _ | .list extent _ | .set extent _
  | .dict extent _ | .compound extent _ _ => extent

def text (expr : Expr) : String := expr.extent.text

/-- The place where an expression begins. -/
def place (expr : Expr) : Place := expr.extent.place

/-- The expression with another source text. -/
def withText (text : String) : Expr → Expr
  | .name extent identifier => .name { extent with text := text } identifier
  | .attribute extent object member => .attribute { extent with text := text } object member
  | .number extent spelling => .number { extent with text := text } spelling
  | .ellipsis extent => .ellipsis { extent with text := text }
  | .string extent spelling => .string { extent with text := text } spelling
  | .joined extent parts => .joined { extent with text := text } parts
  | .unary extent operator operand => .unary { extent with text := text } operator operand
  | .binary extent operator left right => .binary { extent with text := text } operator left right
  | .subscript extent object elements => .subscript { extent with text := text } object elements
  | .call extent callee arguments => .call { extent with text := text } callee arguments
  | .tuple extent items => .tuple { extent with text := text } items
  | .list extent items => .list { extent with text := text } items
  | .set extent items => .set { extent with text := text } items
  | .dict extent entries => .dict { extent with text := text } entries
  | .compound extent form parts => .compound { extent with text := text } form parts

/-- The dotted name that an expression spells: a name, or an attribute of a dotted name. -/
def dotted? : Expr → Option String
  | .name _ identifier => some identifier.text
  | .attribute _ object member => object.dotted?.map fun head => head ++ "." ++ member.text
  | _ => none

@[simp] theorem extent_withText (text : String) (expr : Expr) :
    (expr.withText text).extent = { expr.extent with text := text } := by
  cases expr <;> rfl

/-- Brackets around an expression leave its dotted name as it is. -/
@[simp] theorem dotted?_withText (text : String) (expr : Expr) :
    (expr.withText text).dotted? = expr.dotted? := by
  cases expr <;> rfl

end Expr

end TypeCatalog.Syntax
