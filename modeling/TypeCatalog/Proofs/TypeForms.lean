import TypeCatalog.Proofs.ClassBodies
import TypeCatalog.Proofs.ScopedNames

/-! # Forms of types

Every type that an expression stands for is a declared type, a plain type that is not declared, an
unresolved name, or an instantiation of such types (`TypeCatalog.TypeScope.built_typeOf`), however
deep it is put together from names, strings, unions and subscripts. So are the bases of classes
(`TypeCatalog.Declarations.exists_built_of_find?_writtenBases`) and the types of members
(`TypeCatalog.ClassReading.built_of_mem_members`).
-/

namespace TypeCatalog

open Syntax

namespace TypeScope

/-- The types that are built from names and texts in a scope. -/
inductive Built (scope : TypeScope) : TypeSymbol → Prop where
  | nothing : Built scope (.externalType noneName)
  | unresolved (fqn name : String) : Built scope (.unresolved fqn name)
  | declared {key : String} {symbol : TypeSymbol} (known : scope.types.find? key = some symbol) :
      Built scope symbol
  | undeclared {key : String} (unknown : scope.types.find? key = none) :
      Built scope (.externalType key)
  | instantiation {definition : Option String} {arguments : List TypeSymbol} {external : Bool}
      (each : ∀ argument ∈ arguments, Built scope argument)
      (known : external = false → ∃ key ∈ definition, key ∈ scope.declared) :
      Built scope (.instantiation definition arguments external)

variable {scope : TypeScope} {enclosing : List String}

theorem built_unresolvedType (expr : Expr) : scope.Built (unresolvedType expr) :=
  .unresolved expr.text expr.text

theorem built_namedType (name : String) : scope.Built (scope.namedType enclosing name) := by
  rw [namedType]
  split
  · exact .nothing
  · cases scope.resolve? enclosing name with
    | none => exact .unresolved _ _
    | some key =>
        dsimp only
        cases found : scope.types.find? key with
        | none => exact .undeclared found
        | some symbol => exact .declared found

theorem built_unionOf {options : List TypeSymbol} (each : ∀ option ∈ options, scope.Built option) :
    scope.Built (unionOf options) := by
  rw [unionOf]
  split
  · rename_i value single
    have isOption : value ∈ options :=
      (List.mem_filter.mp (single ▸ List.mem_singleton_self value)).1
    split
    · refine .instantiation ?_ nofun
      exact List.forall_mem_singleton.mpr (each value isOption)
    · exact .instantiation each nofun
  · exact .instantiation each nofun

theorem built_ofOperands {operands : List TypeSymbol}
    (each : ∀ operand ∈ operands, scope.Built operand) : scope.Built (ofOperands operands) := by
  rw [ofOperands.eq_def]
  split
  · exact each _ List.mem_cons_self
  · exact built_unionOf each

/-- An instantiation belongs to the program only if its definition is declared. -/
theorem built_subscriptType (object : Expr) {arguments : List TypeSymbol}
    (each : ∀ argument ∈ arguments, scope.Built argument) :
    scope.Built (scope.subscriptType enclosing object arguments) := by
  rw [subscriptType_eq]
  generalize object.dotted?.bind (scope.resolve? enclosing) = definition
  have instantiated : scope.Built (.instantiation definition arguments
      !(definition.map scope.declared.contains).getD false) := by
    refine .instantiation each fun own => ?_
    cases definition with
    | none => simp at own
    | some key => exact ⟨key, rfl, by simpa using own⟩
  dsimp only
  split
  · cases arguments with
    | nil => exact instantiated
    | cons first rest => exact each first List.mem_cons_self
  · split
    · exact built_unionOf each
    · exact instantiated

mutual

theorem built_operandTypes {ofText? : String → Option TypeSymbol}
    (texts : ∀ text symbol, ofText? text = some symbol → scope.Built symbol) :
    ∀ expr : Expr, ∀ operand ∈ scope.operandTypes enclosing ofText? expr, scope.Built operand
  | .name extent identifier, operand, listed => by
      rw [scope.operandTypes_of_dotted? enclosing ofText? rfl, List.mem_singleton] at listed
      exact listed ▸ built_namedType _
  | .attribute extent object member, operand, listed => by
      cases dotted : (Expr.attribute extent object member).dotted? with
      | none =>
          simp only [operandTypes, dotted, List.mem_singleton] at listed
          exact listed ▸ built_unresolvedType _
      | some name =>
          rw [scope.operandTypes_of_dotted? enclosing ofText? dotted, List.mem_singleton] at listed
          exact listed ▸ built_namedType _
  | .string extent spelling, operand, listed => by
      rw [operandTypes, List.mem_singleton] at listed
      subst listed
      cases typed : (stringText? (.string extent spelling)).bind ofText? with
      | none => exact built_unresolvedType _
      | some symbol =>
          obtain ⟨text, _, isTyped⟩ := Option.bind_eq_some_iff.mp typed
          exact texts text symbol isTyped
  | .subscript extent object elements, operand, listed => by
      rw [operandTypes, List.mem_singleton] at listed
      exact listed ▸ built_subscriptType object (built_elementTypes texts elements)
  | .binary extent operator left right, operand, listed => by
      cases operator with
      | bitOr =>
          rw [operandTypes] at listed
          rcases List.mem_append.mp listed with inLeft | inRight
          · exact built_operandTypes texts left operand inLeft
          · exact built_operandTypes texts right operand inRight
      | _ =>
          simp only [operandTypes, Expr.dotted?, List.mem_singleton] at listed
          exact listed ▸ built_unresolvedType _
  | .number _ _, _, listed | .ellipsis _, _, listed | .joined _ _, _, listed
  | .unary _ _ _, _, listed | .call _ _ _, _, listed | .tuple _ _, _, listed
  | .list _ _, _, listed | .set _ _, _, listed | .dict _ _, _, listed
  | .compound _ _ _, _, listed => by
      simp only [operandTypes, Expr.dotted?, List.mem_singleton] at listed
      exact listed ▸ built_unresolvedType _

theorem built_elementTypes {ofText? : String → Option TypeSymbol}
    (texts : ∀ text symbol, ofText? text = some symbol → scope.Built symbol) :
    ∀ elements : List (Element Expr), ∀ type ∈ scope.elementTypes enclosing ofText? elements,
      scope.Built type
  | [], type, listed => by simp [elementTypes] at listed
  | .index value :: rest, type, listed => by
      rw [elementTypes, List.mem_cons] at listed
      rcases listed with rfl | inRest
      · exact built_ofOperands (built_operandTypes texts value)
      · exact built_elementTypes texts rest type inRest
  | .slice _ :: rest, type, listed => by
      rw [elementTypes] at listed
      exact built_elementTypes texts rest type listed

end

theorem built_typeAtDepth (depth : Nat) (expr : Expr) :
    scope.Built (scope.typeAtDepth enclosing depth expr) := by
  induction depth generalizing expr with
  | zero => exact built_ofOperands (built_operandTypes (fun _ _ isTyped => by simp at isTyped) expr)
  | succ depth ih =>
      refine built_ofOperands (built_operandTypes ?_ expr)
      intro text symbol isTyped
      obtain ⟨inner, _, rfl⟩ := Option.map_eq_some_iff.mp isTyped
      exact ih inner

/-- Every type that an expression stands for is built from names and texts. -/
theorem built_typeOf (expr : Expr) : scope.Built (scope.typeOf enclosing expr) :=
  built_typeAtDepth (longestString expr) expr

end TypeScope

/-! ## Bases and members -/

namespace Declarations

variable {found : Declarations}

/-- The bases that classes write are built in their units. -/
theorem exists_built_of_find?_writtenBases {key : String} {base : TypeSymbol}
    (written : (found.writtenBases found.types).find? key = some base) :
    ∃ unit, (found.typeScope found.types unit).Built base := by
  have known : key ∈ found.fqns :=
    mem_fqns_of_mem_writtenBases (Table.isSome_find?_iff.mp (by simp [written]))
  obtain ⟨entry, declared, rfl⟩ := List.mem_map.mp known
  rw [find?_writtenBases declared] at written
  obtain ⟨expr, _, rfl⟩ := List.mem_map.mp (List.mem_of_find?_eq_some written)
  exact ⟨entry.unit, TypeScope.built_typeOf expr⟩

end Declarations

/-- The types of the members of a class are built in its scope. -/
theorem ClassReading.built_of_mem_members {reading : ClassReading} {member : Member}
    (listed : member ∈ reading.members) {type : TypeSymbol} (typed : member.type = some type) :
    reading.scope.Built type := by
  obtain ⟨item, _, declares⟩ := reading.exists_item_of_mem_members listed
  have spelled : ∃ expr, reading.scope.typeOf reading.entry.bodyScopes expr = type := by
    cases declares with
    | field lasting owned => exact ⟨_, Option.some.inj (owned.type.symm.trans typed)⟩
    | property decorates makes owned =>
        obtain ⟨expr, _, same⟩ := Option.map_eq_some_iff.mp (owned.type.symm.trans typed)
        exact ⟨expr, same⟩
  obtain ⟨expr, rfl⟩ := spelled
  exact TypeScope.built_typeOf expr

end TypeCatalog
