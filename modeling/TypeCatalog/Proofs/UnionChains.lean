import TypeCatalog.Proofs.QuotedTypes

/-! # Chains of unions

Operands that are joined by the operator of unions have one type however they are grouped: the
optional type of the only operand that is not `None`, or else the union of all operands in source
order (`TypeCatalog.TypeScope.typeOf_of_joins`).
-/

namespace TypeCatalog

open Syntax

namespace Syntax.Expr

/-- An expression joins operands by the operator of unions, in the given order and grouped in any
way. Brackets around a group show in its extent only; those around an operand are part of it. -/
inductive Joins : List Expr → Expr → Prop
  | operand {expr : Expr} (single : expr.isUnion = false) : Joins [expr] expr
  | join (extent : Extent) {front behind : List Expr} {left right : Expr}
      (first : Joins front left) (second : Joins behind right) :
      Joins (front ++ behind) (.binary extent .bitOr left right)

end Syntax.Expr

namespace TypeScope

open Syntax.Expr

/-! ## Unions of types -/

section

variable {value : TypeSymbol} {types : List TypeSymbol}

/-- A type is the only one among others that does not stand for `None`. -/
def OnlyValue (value : TypeSymbol) (types : List TypeSymbol) : Prop :=
  ∃ front behind, types = front ++ value :: behind ∧ value.fqn ≠ noneName ∧
    ∀ other ∈ front ++ behind, other.fqn = noneName

theorem onlyValue_iff :
    OnlyValue value types ↔ (types.filter fun type => type.fqn ≠ noneName) = [value] := by
  rw [List.filter_eq_cons_iff]
  simp only [List.filter_eq_nil_iff, decide_eq_true_eq, not_not]
  constructor
  · rintro ⟨front, behind, split, valued, others⟩
    rw [List.forall_mem_append] at others
    exact ⟨front, behind, split, others.1, valued, others.2⟩
  · rintro ⟨front, behind, split, before, valued, after⟩
    exact ⟨front, behind, split, valued, List.forall_mem_append.mpr ⟨before, after⟩⟩

/-- The order of types does not matter for which of them is the only value. -/
theorem OnlyValue.of_perm {others : List TypeSymbol} (only : OnlyValue value types)
    (order : others.Perm types) : OnlyValue value others := by
  rw [onlyValue_iff] at only ⊢
  have filtered := order.filter fun type => type.fqn ≠ noneName
  rw [only] at filtered
  exact List.perm_singleton.mp filtered

theorem unionOf_of_onlyValue (only : OnlyValue value types) (several : 2 ≤ types.length) :
    unionOf types = optionalOf value := by
  have more : 1 < types.length := several
  rw [unionOf, onlyValue_iff.mp only]
  simp only [if_pos more, optionalOf, defaultOptionalWrapper]

theorem unionOf_of_not_onlyValue (other : ∀ value, ¬ OnlyValue value types) :
    unionOf types = .instantiation (some "typing.Union") types true := by
  rw [unionOf]
  split
  · rename_i value single
    exact absurd (onlyValue_iff.mpr single) (other value)
  · rfl

end

/-! ## Operands of chains -/

variable (scope : TypeScope) (enclosing : List String)

/-- The types of the operands that an expression joins are those that the operands have alone. -/
theorem operandTypes_of_joins {operands : List Expr} {expr : Expr} (joins : Joins operands expr) :
    scope.operandTypes enclosing (fun text => (Expr.read? text).map (scope.typeOf enclosing)) expr =
      operands.map (scope.typeOf enclosing) := by
  induction joins with
  | @operand expr single =>
      obtain ⟨symbol, alone⟩ := scope.exists_operandTypes_eq enclosing
        (fun text => (Expr.read? text).map (scope.typeOf enclosing)) single
      have typed := scope.typeOf_eq enclosing expr
      rw [alone] at typed
      rw [alone, List.map_singleton, typed, ofOperands]
  | join extent first second ihFirst ihSecond =>
      rw [operandTypes, ihFirst, ihSecond, List.map_append]

theorem typeOf_eq_unionOf {operands : List Expr} {expr : Expr} (joins : Joins operands expr)
    (several : 2 ≤ operands.length) :
    scope.typeOf enclosing expr = unionOf (operands.map (scope.typeOf enclosing)) := by
  rw [typeOf_eq, scope.operandTypes_of_joins enclosing joins]
  match operands, several with
  | _ :: _ :: _, _ => rfl

/-- **Chains of unions.** The type of joined operands depends only on the types of the operands and
on their order: it is the optional type of the only one that is not `None`, or else the union of all
of them. An optional type does not depend on their order either, so `None` may stand anywhere. -/
theorem typeOf_of_joins (scope : TypeScope) (enclosing : List String) {operands : List Expr}
    {expr : Expr} (joins : Joins operands expr) (several : 2 ≤ operands.length) :
    let typeOf := scope.typeOf enclosing
    let types := operands.map typeOf
    (∀ value, OnlyValue value types → typeOf expr = optionalOf value) ∧
    ((∀ value, ¬ OnlyValue value types) →
      typeOf expr = .instantiation (some "typing.Union") types true) ∧
    (∀ others other, Joins others other → others.map typeOf = types →
      typeOf other = typeOf expr) ∧
    (∀ others other, Joins others other → (others.map typeOf).Perm types →
      (typeOf expr).isOptional defaultOptionalWrapper = true → typeOf other = typeOf expr) := by
  intro typeOf types
  have joined : typeOf expr = unionOf types := scope.typeOf_eq_unionOf enclosing joins several
  have count : 2 ≤ types.length := by rwa [List.length_map]
  have others : ∀ others other, Joins others other → (others.map typeOf).Perm types →
      typeOf other = unionOf (others.map typeOf) := by
    intro others other otherJoins order
    refine scope.typeOf_eq_unionOf enclosing otherJoins ?_
    rw [← List.length_map typeOf, order.length_eq]
    exact count
  refine ⟨?_, ?_, ?_, ?_⟩
  · intro value only
    rw [joined, unionOf_of_onlyValue only count]
  · intro noValue
    rw [joined, unionOf_of_not_onlyValue noValue]
  · intro operands other otherJoins same
    rw [others operands other otherJoins (same ▸ List.Perm.refl _), same, joined]
  · intro operands other otherJoins order optional
    obtain ⟨value, only⟩ : ∃ value, OnlyValue value types := by
      by_contra noValue
      rw [joined, unionOf_of_not_onlyValue (not_exists.mp noValue)] at optional
      simp [TypeSymbol.isOptional, TypeSymbol.instantiation, defaultOptionalWrapper] at optional
    have moved := only.of_perm order
    rw [others operands other otherJoins order, joined, unionOf_of_onlyValue only count,
      unionOf_of_onlyValue moved (order.length_eq ▸ count)]

end TypeScope

/-! ## A quoted union among `None`s -/

namespace Sample

/-- A string that spells a union. -/
def quotedUnion : Expr := .string ⟨"\"int | str\"", ⟨2, 0⟩⟩ "\"int | str\""

def joinedWith (left right : Expr) : Expr := .binary lineExtent .bitOr left right

end Sample

namespace TypeScope

open Sample Syntax.Expr

theorem typeOf_importing_none : importing.typeOf [] (written "None") = noneType := by
  have named : (written "None").dotted? = some "None" := rfl
  rw [typeOf_of_dotted? importing [] named, namedType, if_pos rfl, noneType]

/-- A quoted union is one operand. With `None` on both sides it is optional, and it stays the same
type when it is moved and grouped in another way. -/
theorem typeOf_of_quotedUnion :
    let typeOf := importing.typeOf []
    let none := written "None"
    let chain := joinedWith none (joinedWith quotedUnion none)
    (typeOf quotedUnion).fqn = "typing.Union[builtins.int, builtins.str]" ∧
      Joins [none, quotedUnion, none] chain ∧ typeOf chain = optionalOf (typeOf quotedUnion) ∧
      typeOf (joinedWith (joinedWith none none) quotedUnion) = typeOf chain := by
  intro typeOf none chain
  have named : (typeOf quotedUnion).fqn = "typing.Union[builtins.int, builtins.str]" := by
    decide +kernel
  have alone : Joins [none] none := .operand rfl
  have quoted : Joins [quotedUnion] quotedUnion := .operand rfl
  have joins : Joins [none, quotedUnion, none] chain := alone.join _ (quoted.join _ alone)
  have moved : Joins [none, none, quotedUnion] (joinedWith (joinedWith none none) quotedUnion) :=
    (alone.join _ alone).join _ quoted
  have isNone : typeOf none = noneType := typeOf_importing_none
  have valued : (typeOf quotedUnion).fqn ≠ noneName := by
    rw [named]
    decide
  have only : OnlyValue (typeOf quotedUnion) ([none, quotedUnion, none].map typeOf) := by
    refine ⟨[noneType], [noneType], by simp [isNone], valued, ?_⟩
    simp [noneType, TypeSymbol.externalType, TypeSymbol.plain]
  obtain ⟨isOptional, _, _, anywhere⟩ := typeOf_of_joins importing [] joins (by decide)
  have optional := isOptional _ only
  refine ⟨named, joins, optional, anywhere _ _ moved ?_ ?_⟩
  · exact (List.Perm.swap _ _ _).cons _
  · rw [optional]
    rfl

end TypeScope

end TypeCatalog
