import TypeCatalog.Literal.Reader
import TypeCatalog.Model.Symbol
import TypeCatalog.Notice
import TypeCatalog.Program.Resolution

/-! # Reading attribute annotations

A decorator or a piece of metadata is an attribute annotation when it is a dotted name or a call of
one. Its arguments are the literal values of the call; other arguments are skipped with a notice,
starred ones without. -/

namespace TypeCatalog

open Syntax

/-- What an argument of a call gives to an attribute annotation. -/
inductive ArgumentReading where
  | positional (value : Literal)
  | named (key : String) (value : Literal)
  | skipped

namespace ArgumentReading

/-- Read an argument; a starred one gives nothing. -/
def ofArgument? : Argument Expr → Option ArgumentReading
  | .positional value =>
      match Literal.read? value.text with
      | some literal => some (.positional literal)
      | none => some .skipped
  | .keyword name value =>
      match Literal.read? value.text with
      | some literal => some (.named name.text literal)
      | none => some .skipped
  | .starred _ | .doubleStarred _ => none

def positional? : ArgumentReading → Option Literal
  | .positional value => some value
  | _ => none

/-- The key and value of a named argument. -/
def named? : ArgumentReading → Option (String × Literal)
  | .named key value => some (key, value)
  | _ => none

def isSkipped : ArgumentReading → Bool
  | .skipped => true
  | _ => false

end ArgumentReading

/-- The expression that is called, or the expression itself when it is no call. -/
def calleeOf : Expr → Expr
  | .call _ callee _ => callee
  | expr => expr

def argumentReadings : Expr → List ArgumentReading
  | .call _ _ arguments => arguments.filterMap ArgumentReading.ofArgument?
  | _ => []

namespace NameScope

variable (scope : NameScope) (enclosing : List String)

/-- The full name of the attribute that an expression annotates: what its dotted name resolves to,
or the name itself. -/
def attributeName? (expr : Expr) : Option String :=
  (calleeOf expr).dotted?.map fun name => (scope.resolve? enclosing name).getD name

/-- The attribute annotation that an expression writes. -/
def attributeOf? (locate : Place → Option Location) (expr : Expr) : Option Attribute :=
  (scope.attributeName? enclosing expr).map fun fullName =>
    { fullName := fullName
      shortName := Text.lastPart fullName
      arguments := (argumentReadings expr).filterMap ArgumentReading.positional?
      named := (argumentReadings expr).filterMap ArgumentReading.named?
      location := locate expr.place }

/-- The notices of reading an expression as an attribute annotation on a target. -/
def attributeNotices (target : String) (expr : Expr) : List Notice :=
  match scope.attributeName? enclosing expr with
  | some fullName =>
      ((argumentReadings expr).filter ArgumentReading.isSkipped).map fun _ =>
        .skippedArgument fullName target
  | none => []

end NameScope

def propertyDecorators : List String := ["builtins.property", "functools.cached_property"]

/-- The last parts of decorators that belong to properties. -/
def accessorSuffixes : List String := [".setter", ".getter", ".deleter"]

/-- Whether a decorator makes or belongs to a property; such decorators are no attributes. -/
def isAccessorDecorator (fullName : String) : Bool :=
  propertyDecorators.contains fullName ||
    accessorSuffixes.any fun suffix => suffix.toList.isSuffixOf fullName.toList

namespace NameScope

def decoratorAttributes (scope : NameScope) (enclosing : List String)
    (locate : Place → Option Location) (decorators : List Expr) : List Attribute :=
  (decorators.filterMap (scope.attributeOf? enclosing locate)).filter fun found =>
    !isAccessorDecorator found.fullName

def decoratorNotices (scope : NameScope) (enclosing : List String) (target : String)
    (decorators : List Expr) : List Notice :=
  decorators.flatMap (scope.attributeNotices enclosing target)

end NameScope

end TypeCatalog
