import TypeCatalog.Proofs.UnlocatedSymbols
import TypeCatalog.Proofs.UnplacedExpressions

/-! # Scopes without locations

The declared types among which an expression is read have locations, and so have the types that are
read from it. Both can be lost together (`TypeCatalog.TypeScope.typeOf_unlocated`), and an attribute
annotation has no location but that of its place (`TypeCatalog.NameScope.attributeOf?_unlocated`).
-/

namespace TypeCatalog

open Syntax

/-! ## Types -/

namespace TypeScope

/-- A scope whose types have lost their locations. -/
def unlocated (scope : TypeScope) : TypeScope :=
  { scope with types := scope.types.map TypeSymbol.unlocated }

theorem unlocated_unionOf (options : List TypeSymbol) :
    (unionOf options).unlocated = unionOf (options.map TypeSymbol.unlocated) := by
  have valued : (options.map TypeSymbol.unlocated).filter (fun option => option.fqn ≠ noneName) =
      (options.filter fun option => option.fqn ≠ noneName).map TypeSymbol.unlocated := by
    rw [List.filter_map]
    simp [Function.comp_def]
  rw [unionOf, unionOf, valued, List.length_map]
  generalize options.filter (fun option => option.fqn ≠ noneName) = values
  rcases values with _ | ⟨value, _ | ⟨second, further⟩⟩
  · exact TypeSymbol.unlocated_instantiation _ _ _
  · dsimp only [List.map_cons, List.map_nil]
    split
    · exact TypeSymbol.unlocated_instantiation _ _ _
    · exact TypeSymbol.unlocated_instantiation _ _ _
  · exact TypeSymbol.unlocated_instantiation _ _ _

theorem unlocated_ofOperands (operands : List TypeSymbol) :
    (ofOperands operands).unlocated = ofOperands (operands.map TypeSymbol.unlocated) := by
  match operands with
  | [_] => rfl
  | [] => exact unlocated_unionOf []
  | first :: second :: rest => exact unlocated_unionOf (first :: second :: rest)

theorem unlocated_unresolvedType (expr : Expr) :
    (unresolvedType expr).unlocated = unresolvedType expr := by
  rw [TypeSymbol.unlocated_eq]
  rfl

theorem unlocated_externalType (name : String) :
    (TypeSymbol.externalType name).unlocated = .externalType name := by
  rw [TypeSymbol.unlocated_eq]
  rfl

variable (scope : TypeScope) (enclosing : List String)

theorem namedType_unlocated (name : String) :
    scope.unlocated.namedType enclosing name = (scope.namedType enclosing name).unlocated := by
  have resolved : scope.unlocated.resolve? enclosing name = scope.resolve? enclosing name := rfl
  have found : ∀ key, scope.unlocated.types.find? key =
      (scope.types.find? key).map TypeSymbol.unlocated := fun key => Table.find?_map _ _ key
  rw [namedType, namedType, resolved]
  split
  · exact (unlocated_externalType _).symm
  · cases scope.resolve? enclosing name with
    | none =>
        rw [TypeSymbol.unlocated_eq]
        rfl
    | some key =>
        simp only [found]
        cases scope.types.find? key with
        | none => exact (unlocated_externalType _).symm
        | some symbol => rfl

/-- What a subscript is by the definition of its head. -/
theorem subscriptType_eq (object : Expr) (arguments : List TypeSymbol) :
    scope.subscriptType enclosing object arguments =
      let definition := object.dotted?.bind (scope.resolve? enclosing)
      let external := !(definition.map scope.declared.contains).getD false
      if definition = some "typing.Annotated" then
        arguments.head?.getD (.instantiation definition arguments external)
      else if definition = some "typing.Union" then unionOf arguments
      else .instantiation definition arguments external := by
  unfold subscriptType
  generalize object.dotted?.bind (scope.resolve? enclosing) = definition
  dsimp only
  split
  · rfl
  · rfl
  · rename_i noUnion noAnnotated
    rw [if_neg noUnion]
    split
    · rename_i annotated
      cases arguments with
      | nil => rfl
      | cons first rest => exact absurd rfl (noAnnotated first rest annotated)
    · rfl

theorem subscriptType_unlocated (object : Expr) (arguments : List TypeSymbol) :
    scope.unlocated.subscriptType enclosing object (arguments.map TypeSymbol.unlocated) =
      (scope.subscriptType enclosing object arguments).unlocated := by
  have resolved : object.dotted?.bind (scope.unlocated.resolve? enclosing) =
      object.dotted?.bind (scope.resolve? enclosing) := rfl
  have declared : scope.unlocated.declared = scope.declared := rfl
  rw [subscriptType_eq, subscriptType_eq, resolved, declared]
  dsimp only
  split
  · cases arguments with
    | nil => exact (TypeSymbol.unlocated_instantiation _ [] _).symm
    | cons first rest => rfl
  · split
    · exact (unlocated_unionOf _).symm
    · exact (TypeSymbol.unlocated_instantiation _ _ _).symm

mutual

/-- Operands are read from types without locations when strings are. -/
theorem operandTypes_unlocated (ofText? : String → Option TypeSymbol) : ∀ expr : Expr,
    scope.unlocated.operandTypes enclosing (fun text => (ofText? text).map TypeSymbol.unlocated)
      expr = (scope.operandTypes enclosing ofText? expr).map TypeSymbol.unlocated
  | .binary extent operator left right => by
      cases operator with
      | bitOr =>
          rw [operandTypes, operandTypes, operandTypes_unlocated ofText? left,
            operandTypes_unlocated ofText? right, List.map_append]
      | _ => simp [operandTypes, Expr.dotted?, unlocated_unresolvedType]
  | .subscript extent object elements => by
      rw [operandTypes, operandTypes, elementTypes_unlocated ofText? elements,
        subscriptType_unlocated, List.map_cons, List.map_nil]
  | .string extent spelling => by
      rw [operandTypes, operandTypes, List.map_cons, List.map_nil]
      cases stringText? (.string extent spelling) with
      | none => rw [Option.bind_none, Option.bind_none, Option.getD_none, unlocated_unresolvedType]
      | some text =>
          rw [Option.bind_some, Option.bind_some]
          cases ofText? text with
          | none => exact congrArg ([·]) (unlocated_unresolvedType _).symm
          | some symbol => rfl
  | .name _ _ => by simp [operandTypes, Expr.dotted?, namedType_unlocated]
  | .attribute extent object member => by
      cases dotted : (Expr.attribute extent object member).dotted? with
      | none => simp [operandTypes, dotted, unlocated_unresolvedType]
      | some name => simp [operandTypes, dotted, namedType_unlocated]
  | .number _ _ | .ellipsis _ | .joined _ _ | .unary _ _ _ | .call _ _ _ | .tuple _ _ | .list _ _
  | .set _ _ | .dict _ _ | .compound _ _ _ => by
      simp [operandTypes, Expr.dotted?, unlocated_unresolvedType]

theorem elementTypes_unlocated (ofText? : String → Option TypeSymbol) :
    ∀ elements : List (Element Expr),
      scope.unlocated.elementTypes enclosing
        (fun text => (ofText? text).map TypeSymbol.unlocated) elements =
        (scope.elementTypes enclosing ofText? elements).map TypeSymbol.unlocated
  | [] => rfl
  | .index value :: rest => by
      rw [elementTypes, elementTypes, operandTypes_unlocated ofText? value,
        elementTypes_unlocated ofText? rest, List.map_cons, unlocated_ofOperands]
  | .slice _ :: rest => elementTypes_unlocated ofText? rest

end

theorem typeAtDepth_unlocated (depth : Nat) (expr : Expr) :
    scope.unlocated.typeAtDepth enclosing depth expr =
      (scope.typeAtDepth enclosing depth expr).unlocated := by
  induction depth generalizing expr with
  | zero =>
      rw [typeAtDepth, typeAtDepth, unlocated_ofOperands, ← operandTypes_unlocated]
      rfl
  | succ depth ih =>
      rw [typeAtDepth, typeAtDepth, unlocated_ofOperands, ← operandTypes_unlocated]
      refine congrArg ofOperands (congrFun (congrArg _ (funext fun text => ?_)) expr)
      rw [Option.map_map]
      exact congrFun (congrArg Option.map (funext ih)) _

/-- Types are read from types without locations. -/
theorem typeOf_unlocated (expr : Expr) :
    scope.unlocated.typeOf enclosing expr = (scope.typeOf enclosing expr).unlocated :=
  scope.typeAtDepth_unlocated enclosing (longestString expr) expr

end TypeScope

/-! ## Attribute annotations -/

namespace NameScope

variable (scope : NameScope) (enclosing : List String)

/-- An attribute annotation keeps its location alone from its place. -/
theorem attributeOf?_unlocated (locate : Place → Option Location) (expr : Expr) :
    scope.attributeOf? enclosing (fun _ => none) expr.unplaced =
      (scope.attributeOf? enclosing locate expr).map Attribute.unlocated := by
  rw [attributeOf?, attributeOf?, attributeName?_unplaced, argumentReadings_unplaced,
    Option.map_map]
  rfl

theorem filterMap_attributeOf?_unlocated (locate : Place → Option Location) (exprs : List Expr) :
    (exprs.map Expr.unplaced).filterMap (scope.attributeOf? enclosing fun _ => none) =
      (exprs.filterMap (scope.attributeOf? enclosing locate)).map Attribute.unlocated := by
  rw [List.filterMap_map, List.map_filterMap]
  exact List.filterMap_congr fun expr _ => scope.attributeOf?_unlocated enclosing locate expr

theorem decoratorAttributes_unlocated (locate : Place → Option Location)
    (decorators : List Expr) :
    scope.decoratorAttributes enclosing (fun _ => none) (decorators.map Expr.unplaced) =
      (scope.decoratorAttributes enclosing locate decorators).map Attribute.unlocated := by
  rw [decoratorAttributes, decoratorAttributes, filterMap_attributeOf?_unlocated, List.filter_map]
  rfl

end NameScope

end TypeCatalog
