import TypeCatalog.Program.Members
import TypeCatalog.Proofs.NullableTypes

/-! # Expressions without places

Where an expression stands in its source decides about locations alone: names, types and attribute
annotations are read from its text and its parts (`TypeCatalog.TypeScope.typeOf_unplaced`,
`TypeCatalog.NameScope.attributeName?_unplaced`).
-/

namespace TypeCatalog

namespace Syntax

/-- An extent at the beginning of a source. -/
def Extent.unplaced (extent : Extent) : Extent := { extent with place := .start }

mutual

/-- An expression with all its parts at the beginning of a source. -/
def Expr.unplaced : Expr → Expr
  | .name extent identifier => .name extent.unplaced identifier
  | .attribute extent object member => .attribute extent.unplaced object.unplaced member
  | .number extent spelling => .number extent.unplaced spelling
  | .ellipsis extent => .ellipsis extent.unplaced
  | .string extent spelling => .string extent.unplaced spelling
  | .joined extent parts => .joined extent.unplaced (unplacedExprs parts)
  | .unary extent operator operand => .unary extent.unplaced operator operand.unplaced
  | .binary extent operator left right =>
      .binary extent.unplaced operator left.unplaced right.unplaced
  | .subscript extent object elements =>
      .subscript extent.unplaced object.unplaced (unplacedElements elements)
  | .call extent callee arguments =>
      .call extent.unplaced callee.unplaced (unplacedArguments arguments)
  | .tuple extent items => .tuple extent.unplaced (unplacedExprs items)
  | .list extent items => .list extent.unplaced (unplacedExprs items)
  | .set extent items => .set extent.unplaced (unplacedExprs items)
  | .dict extent entries => .dict extent.unplaced (unplacedEntries entries)
  | .compound extent form parts => .compound extent.unplaced form (unplacedExprs parts)

def unplacedExprs : List Expr → List Expr
  | [] => []
  | expr :: rest => expr.unplaced :: unplacedExprs rest

def unplacedElements : List (Element Expr) → List (Element Expr)
  | [] => []
  | .index value :: rest => .index value.unplaced :: unplacedElements rest
  | .slice bounds :: rest => .slice (unplacedExprs bounds) :: unplacedElements rest

def unplacedArguments : List (Argument Expr) → List (Argument Expr)
  | [] => []
  | .positional value :: rest => .positional value.unplaced :: unplacedArguments rest
  | .keyword name value :: rest => .keyword name value.unplaced :: unplacedArguments rest
  | .starred value :: rest => .starred value.unplaced :: unplacedArguments rest
  | .doubleStarred value :: rest => .doubleStarred value.unplaced :: unplacedArguments rest

def unplacedEntries : List (Entry Expr) → List (Entry Expr)
  | [] => []
  | .pair key value :: rest => .pair key.unplaced value.unplaced :: unplacedEntries rest
  | .spread mapping :: rest => .spread mapping.unplaced :: unplacedEntries rest

end

namespace Expr

@[simp] theorem text_unplaced (expr : Expr) : expr.unplaced.text = expr.text := by
  cases expr <;> rfl

@[simp] theorem dotted?_unplaced : ∀ expr : Expr, expr.unplaced.dotted? = expr.dotted?
  | .attribute _ object _ => by rw [unplaced, dotted?, dotted?, dotted?_unplaced object]
  | .name _ _ | .number _ _ | .ellipsis _ | .string _ _ | .joined _ _ | .unary _ _ _
  | .binary _ _ _ _ | .subscript _ _ _ | .call _ _ _ | .tuple _ _ | .list _ _ | .set _ _
  | .dict _ _ | .compound _ _ _ => rfl

end Expr

def Element.unplaced : Element Expr → Element Expr
  | .index value => .index value.unplaced
  | .slice bounds => .slice (unplacedExprs bounds)

def Argument.unplaced : Argument Expr → Argument Expr
  | .positional value => .positional value.unplaced
  | .keyword name value => .keyword name value.unplaced
  | .starred value => .starred value.unplaced
  | .doubleStarred value => .doubleStarred value.unplaced

theorem unplacedElements_eq_map (elements : List (Element Expr)) :
    unplacedElements elements = elements.map Element.unplaced := by
  induction elements with
  | nil => rfl
  | cons element rest ih =>
      cases element <;> rw [unplacedElements, ih, List.map_cons, Element.unplaced]

theorem unplacedArguments_eq_map :
    ∀ arguments : List (Argument Expr),
      unplacedArguments arguments = arguments.map Argument.unplaced
  | [] => rfl
  | argument :: rest => by
      cases argument <;>
        rw [unplacedArguments, unplacedArguments_eq_map rest, List.map_cons, Argument.unplaced]

/-- The indices of a subscript without their places. -/
theorem filterMap_index?_unplaced (elements : List (Element Expr)) :
    (elements.map Element.unplaced).filterMap Element.index? =
      (elements.filterMap Element.index?).map Expr.unplaced := by
  rw [List.filterMap_map, List.map_filterMap]
  refine List.filterMap_congr fun element _ => ?_
  cases element <;> rfl

end Syntax

open Syntax

/-! ## Types -/

namespace TypeScope

mutual

@[simp] theorem longestString_unplaced :
    ∀ expr : Expr, longestString expr.unplaced = longestString expr
  | .binary _ operator left right => by
      cases operator with
      | bitOr =>
          rw [Expr.unplaced, longestString, longestString, longestString_unplaced left,
            longestString_unplaced right]
      | _ => rfl
  | .subscript _ _ elements => by
      rw [Expr.unplaced, longestString, longestString, longestStringAmong_unplaced elements]
  | .name _ _ | .attribute _ _ _ | .number _ _ | .ellipsis _ | .string _ _ | .joined _ _
  | .unary _ _ _ | .call _ _ _ | .tuple _ _ | .list _ _ | .set _ _ | .dict _ _
  | .compound _ _ _ => rfl

theorem longestStringAmong_unplaced : ∀ elements : List (Element Expr),
    longestStringAmong (unplacedElements elements) = longestStringAmong elements
  | [] => rfl
  | .index value :: rest => by
      rw [unplacedElements, longestStringAmong, longestStringAmong, longestString_unplaced value,
        longestStringAmong_unplaced rest]
  | .slice _ :: rest => longestStringAmong_unplaced rest

end

variable (scope : TypeScope) (enclosing : List String)

@[simp] theorem subscriptType_unplaced (object : Expr) (arguments : List TypeSymbol) :
    scope.subscriptType enclosing object.unplaced arguments =
      scope.subscriptType enclosing object arguments := by
  rw [subscriptType.eq_def, subscriptType.eq_def, Expr.dotted?_unplaced]

mutual

theorem operandTypes_unplaced (ofText? : String → Option TypeSymbol) : ∀ expr : Expr,
    scope.operandTypes enclosing ofText? expr.unplaced = scope.operandTypes enclosing ofText? expr
  | .binary extent operator left right => by
      cases operator with
      | bitOr =>
          rw [Expr.unplaced, operandTypes, operandTypes, operandTypes_unplaced ofText? left,
            operandTypes_unplaced ofText? right]
      | _ => rfl
  | .subscript extent object elements => by
      rw [Expr.unplaced, operandTypes, operandTypes, elementTypes_unplaced ofText? elements,
        subscriptType_unplaced]
  | .attribute extent object member => by
      have dotted := Expr.dotted?_unplaced (.attribute extent object member)
      rw [Expr.unplaced] at dotted
      rw [Expr.unplaced, operandTypes, operandTypes, dotted]
      all_goals first | rfl | nofun
  | .string _ _ | .name _ _ | .number _ _ | .ellipsis _ | .joined _ _ | .unary _ _ _
  | .call _ _ _ | .tuple _ _ | .list _ _ | .set _ _ | .dict _ _ | .compound _ _ _ => rfl

theorem elementTypes_unplaced (ofText? : String → Option TypeSymbol) :
    ∀ elements : List (Element Expr),
      scope.elementTypes enclosing ofText? (unplacedElements elements) =
        scope.elementTypes enclosing ofText? elements
  | [] => rfl
  | .index value :: rest => by
      rw [unplacedElements, elementTypes, elementTypes, operandTypes_unplaced ofText? value,
        elementTypes_unplaced ofText? rest]
  | .slice _ :: rest => elementTypes_unplaced ofText? rest

end

/-- The type of an expression does not depend on where the expression stands. -/
@[simp] theorem typeOf_unplaced (expr : Expr) :
    scope.typeOf enclosing expr.unplaced = scope.typeOf enclosing expr := by
  rw [typeOf, typeOf, longestString_unplaced, typeAtDepth_eq, typeAtDepth_eq,
    operandTypes_unplaced]

end TypeScope

/-! ## Attribute annotations -/

theorem calleeOf_unplaced (expr : Expr) : calleeOf expr.unplaced = (calleeOf expr).unplaced := by
  cases expr <;> rfl

theorem argumentReadings_unplaced (expr : Expr) :
    argumentReadings expr.unplaced = argumentReadings expr := by
  cases expr with
  | call extent callee arguments =>
      rw [Expr.unplaced, argumentReadings, argumentReadings, unplacedArguments_eq_map,
        List.filterMap_map]
      refine List.filterMap_congr fun argument _ => ?_
      cases argument <;> simp [Argument.unplaced, ArgumentReading.ofArgument?]
  | _ => rfl

namespace NameScope

variable (scope : NameScope) (enclosing : List String)

@[simp] theorem attributeName?_unplaced (expr : Expr) :
    scope.attributeName? enclosing expr.unplaced = scope.attributeName? enclosing expr := by
  rw [attributeName?, attributeName?, calleeOf_unplaced, Expr.dotted?_unplaced]

end NameScope

end TypeCatalog
