import TypeCatalog.Program.Members

/-! # Scopes that agree

What an expression of a program says depends on which classes are declared, not on the order in
which they were. Scopes that know the same classes, imports and types give every name, type,
attribute and class body the same reading (`TypeCatalog.TypeScope.Agrees.sites`).
-/

namespace TypeCatalog

open Syntax

namespace NameScope

/-- Scopes of one module that know the same classes. -/
structure Agrees (left right : NameScope) : Prop where
  declared : ∀ name, name ∈ left.declared ↔ name ∈ right.declared
  imports : left.imports = right.imports
  moduleName : left.moduleName = right.moduleName

namespace Agrees

variable {left right : NameScope} (agrees : left.Agrees right)

include agrees

theorem contains : left.declared.contains = right.declared.contains := by
  funext name
  rw [Bool.eq_iff_iff, List.contains_iff_mem, List.contains_iff_mem]
  exact agrees.declared name

theorem resolve? : left.resolve? = right.resolve? := by
  funext enclosing name
  rw [NameScope.resolve?, NameScope.resolve?, declaredIn?, declaredIn?, imported?, imported?,
    global?, global?, agrees.contains, agrees.imports, agrees.moduleName]

theorem attributeName? : left.attributeName? = right.attributeName? := by
  funext enclosing expr
  rw [NameScope.attributeName?, NameScope.attributeName?, agrees.resolve?]

theorem attributeOf? : left.attributeOf? = right.attributeOf? := by
  funext enclosing locate expr
  rw [NameScope.attributeOf?, NameScope.attributeOf?, agrees.attributeName?]

theorem decoratorAttributes : left.decoratorAttributes = right.decoratorAttributes := by
  funext enclosing locate decorators
  rw [NameScope.decoratorAttributes, NameScope.decoratorAttributes, agrees.attributeOf?]

end Agrees

end NameScope

namespace TypeScope

/-- Scopes of one module that know the same classes and types. -/
structure Agrees (left right : TypeScope) : Prop where
  names : left.toNameScope.Agrees right.toNameScope
  types : ∀ key, left.types.find? key = right.types.find? key

namespace Agrees

variable {left right : TypeScope}

theorem namedType (agrees : left.Agrees right) : left.namedType = right.namedType := by
  funext enclosing name
  rw [TypeScope.namedType, TypeScope.namedType, agrees.names.resolve?]
  simp only [agrees.types]

theorem subscriptType (agrees : left.Agrees right) : left.subscriptType = right.subscriptType := by
  funext enclosing object arguments
  unfold TypeScope.subscriptType
  rw [agrees.names.resolve?, agrees.names.contains]

mutual

theorem operandTypes (agrees : left.Agrees right) (enclosing : List String)
    (ofText? : String → Option TypeSymbol) : ∀ expr,
      left.operandTypes enclosing ofText? expr = right.operandTypes enclosing ofText? expr
  | .binary _ operator first second => by
      cases operator with
      | bitOr =>
          rw [TypeScope.operandTypes, TypeScope.operandTypes,
            agrees.operandTypes enclosing ofText? first,
            agrees.operandTypes enclosing ofText? second]
      | _ => simp [TypeScope.operandTypes, agrees.namedType]
  | .subscript _ object elements => by
      rw [TypeScope.operandTypes, TypeScope.operandTypes, agrees.subscriptType,
        agrees.elementTypes enclosing ofText? elements]
  | .string _ _ => by rw [TypeScope.operandTypes, TypeScope.operandTypes]
  | .name _ _ | .attribute _ _ _ => by simp [TypeScope.operandTypes, agrees.namedType]
  | .number _ _ | .ellipsis _ | .joined _ _ | .unary _ _ _ | .call _ _ _ | .tuple _ _ | .list _ _
  | .set _ _ | .dict _ _ | .compound _ _ _ => by
      simp [TypeScope.operandTypes, Expr.dotted?]

theorem elementTypes (agrees : left.Agrees right) (enclosing : List String)
    (ofText? : String → Option TypeSymbol) : ∀ elements,
      left.elementTypes enclosing ofText? elements = right.elementTypes enclosing ofText? elements
  | [] => by rw [TypeScope.elementTypes, TypeScope.elementTypes]
  | .index value :: rest => by
      rw [TypeScope.elementTypes, TypeScope.elementTypes,
        agrees.operandTypes enclosing ofText? value, agrees.elementTypes enclosing ofText? rest]
  | .slice _ :: rest => by
      rw [TypeScope.elementTypes, TypeScope.elementTypes,
        agrees.elementTypes enclosing ofText? rest]

end

theorem typeAtDepth (agrees : left.Agrees right) (enclosing : List String) (depth : Nat)
    (expr : Expr) :
    left.typeAtDepth enclosing depth expr = right.typeAtDepth enclosing depth expr := by
  induction depth generalizing expr with
  | zero => rw [TypeScope.typeAtDepth, TypeScope.typeAtDepth, agrees.operandTypes]
  | succ depth ih =>
      rw [TypeScope.typeAtDepth, TypeScope.typeAtDepth, agrees.operandTypes, funext ih]

theorem typeOf (agrees : left.Agrees right) : left.typeOf = right.typeOf := by
  funext enclosing expr
  rw [TypeScope.typeOf, TypeScope.typeOf, agrees.typeAtDepth]

/-! ## Class bodies -/

variable (agrees : left.Agrees right) (entry : ClassEntry)

include agrees

theorem subscripted? : ClassReading.subscripted? ⟨left, entry⟩ =
    ClassReading.subscripted? ⟨right, entry⟩ := by
  funext type
  cases type with
  | subscript _ object elements =>
      rw [ClassReading.subscripted?, ClassReading.subscripted?, agrees.names.resolve?]
  | _ => rfl

theorem field? : ClassReading.field? ⟨left, entry⟩ = ClassReading.field? ⟨right, entry⟩ := by
  funext target type
  cases target with
  | name _ identifier =>
      rw [ClassReading.field?, ClassReading.field?, ClassReading.isClassVariable,
        ClassReading.isClassVariable, ClassReading.metadata, ClassReading.metadata,
        agrees.subscripted? entry, agrees.typeOf, agrees.names.attributeOf?]
      rfl
  | _ => rfl

theorem property? :
    ClassReading.property? ⟨left, entry⟩ = ClassReading.property? ⟨right, entry⟩ := by
  funext header
  rw [ClassReading.property?, ClassReading.property?, ClassReading.isProperty,
    ClassReading.isProperty, agrees.names.attributeName?, agrees.typeOf,
    agrees.names.decoratorAttributes]
  rfl

theorem statementSites :
    ClassReading.statementSites ⟨left, entry⟩ = ClassReading.statementSites ⟨right, entry⟩ := by
  have simple : ClassReading.simpleSite? ⟨left, entry⟩ =
      ClassReading.simpleSite? ⟨right, entry⟩ := by
    funext part
    cases part with
    | annotated target type value =>
        rw [ClassReading.simpleSite?, ClassReading.simpleSite?, agrees.field? entry]
    | _ => rfl
  funext statement
  cases statement with
  | line parts => rw [ClassReading.statementSites, ClassReading.statementSites, simple]
  | functionStatement header body =>
      rw [ClassReading.statementSites, ClassReading.statementSites, agrees.property? entry]
  | _ => rfl

/-- A class declares the same members as seen from scopes that agree. -/
theorem sites : ClassReading.sites ⟨left, entry⟩ = ClassReading.sites ⟨right, entry⟩ := by
  rw [ClassReading.sites, ClassReading.sites, agrees.statementSites entry]

end Agrees

end TypeScope

end TypeCatalog
