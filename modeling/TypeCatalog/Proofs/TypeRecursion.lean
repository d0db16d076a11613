import Mathlib.Data.List.Forall2
import TypeCatalog.Proofs.ClassVariables
import TypeCatalog.Proofs.TypeExpressions
import TypeCatalog.Proofs.UnionChains

/-! # The recursion of types

The type of an expression is made from the types of other expressions
(`TypeCatalog.TypeScope.callees`): the operands of a union, the indices of a subscript, and the
expression that the value of a string writes. This is no recursion on the expression, since a string
is read anew; but its text gets shorter at every step, through the value of a string and the
expression that is read from it. So it ends for every type expression of a module
(`TypeCatalog.TypeScope.recursion_ends`).
-/

namespace TypeCatalog

open Syntax

/-! ## Operands of unions -/

namespace Syntax.Expr

/-- The operands that an expression joins, from left to right; an expression that joins none is its
only operand. -/
def unionOperands : Expr → List Expr
  | .binary _ .bitOr left right => left.unionOperands ++ right.unionOperands
  | expr => [expr]

theorem unionOperands_ne_nil (expr : Expr) : expr.unionOperands ≠ [] := by
  fun_induction unionOperands expr with
  | case1 _ left right ih _ => exact List.append_ne_nil_of_left_ne_nil ih _
  | case2 => exact List.cons_ne_nil _ _

theorem joins_unionOperands (expr : Expr) : Joins expr.unionOperands expr := by
  fun_induction unionOperands expr with
  | case1 extent left right ihLeft ihRight => exact .join extent ihLeft ihRight
  | case2 expr other =>
      refine .operand ?_
      unfold isUnion
      split
      · exact absurd rfl (other _ _ _)
      · rfl

theorem two_le_length_unionOperands (extent : Extent) (left right : Expr) :
    2 ≤ (Expr.binary extent .bitOr left right).unionOperands.length := by
  have first := List.length_pos_iff.mpr left.unionOperands_ne_nil
  have second := List.length_pos_iff.mpr right.unionOperands_ne_nil
  rw [unionOperands, List.length_append]
  omega

/-- The operands of an expression that tapers are no longer than it, and they taper. -/
theorem Tapers.tapersIn_of_mem_unionOperands {expr operand : Expr} (tapers : expr.Tapers)
    (listed : operand ∈ expr.unionOperands) : operand.TapersIn expr.text.length := by
  fun_induction unionOperands expr with
  | case1 extent left right ihLeft ihRight =>
      obtain ⟨⟨leftShorter, leftTapers⟩, rightShorter, rightTapers⟩ := tapers
      rcases List.mem_append.mp listed with inLeft | inRight
      · exact widens_tapersIn (ihLeft leftTapers inLeft) (Nat.le_of_lt leftShorter)
      · exact widens_tapersIn (ihRight rightTapers inRight) (Nat.le_of_lt rightShorter)
  | case2 expr =>
      obtain rfl := List.mem_singleton.mp listed
      exact ⟨Nat.le_refl _, tapers⟩

/-- The operands of a union are shorter than the union. -/
theorem Tapers.shorter_of_mem_unionOperands {extent : Extent} {left right operand : Expr}
    (tapers : (Expr.binary extent .bitOr left right).Tapers)
    (listed : operand ∈ (Expr.binary extent .bitOr left right).unionOperands) :
    operand.text.length < extent.text.length ∧ operand.Tapers := by
  obtain ⟨⟨leftShorter, leftTapers⟩, rightShorter, rightTapers⟩ := tapers
  rw [unionOperands] at listed
  rcases List.mem_append.mp listed with inLeft | inRight
  · obtain ⟨short, inner⟩ := leftTapers.tapersIn_of_mem_unionOperands inLeft
    exact ⟨by omega, inner⟩
  · obtain ⟨short, inner⟩ := rightTapers.tapersIn_of_mem_unionOperands inRight
    exact ⟨by omega, inner⟩

end Syntax.Expr

namespace TypeScope

variable (scope : TypeScope) (enclosing : List String)

/-! ## Calls -/

/-- The expressions whose types the type of an expression is made from, in the order in which they
are asked for. Of what stands between the brackets of `Annotated` the first alone counts. -/
def callees : Expr → List Expr
  | .string extent spelling => ((stringText? (.string extent spelling)).bind Expr.read?).toList
  | .subscript _ object elements =>
      let indices := elements.filterMap Element.index?
      if scope.headOf enclosing object = some "typing.Annotated" then indices.take 1 else indices
  | .binary extent .bitOr left right => (Expr.binary extent .bitOr left right).unionOperands
  | _ => []

/-- The type of an expression that is made from the types of its callees. -/
def typeFrom (types : List TypeSymbol) : Expr → TypeSymbol
  | .string extent spelling => types.head?.getD (unresolvedType (.string extent spelling))
  | .subscript _ object _ => scope.subscriptType enclosing object types
  | .binary _ .bitOr _ _ => unionOf types
  | expr =>
      match expr.dotted? with
      | some name => scope.namedType enclosing name
      | none => unresolvedType expr

/-- The type of an expression calls for the type of another. -/
def Calls (caller callee : Expr) : Prop := callee ∈ scope.callees enclosing caller

/-- The recursion ends for an expression with a type: it ends for all callees, and the type is made
from theirs. -/
inductive EndsWith : Expr → TypeSymbol → Prop where
  | made {expr : Expr} {types : List TypeSymbol}
      (each : List.Forall₂ EndsWith (scope.callees enclosing expr) types) :
      EndsWith expr (scope.typeFrom enclosing types expr)

/-! ## Shorter texts -/

variable {scope enclosing}

/-- What a string stands for is shorter than the string: its value is shorter, and no expression is
longer than the text that writes it. -/
theorem shorter_of_quoted {expr inner : Expr} {text : String}
    (stands : stringText? expr = some text) (isRead : Expr.read? text = some inner) :
    inner.text.length < expr.text.length ∧ inner.Tapers := by
  have shorter := length_stringText?_le stands
  obtain ⟨short, tapers⟩ := Expr.tapersIn_of_read? isRead
  have written : 0 < text.length := by
    refine Nat.pos_of_ne_zero fun empty => ?_
    rw [String.length_eq_zero_iff.mp empty, read?_empty] at isRead
    simp at isRead
  exact ⟨by omega, tapers⟩

/-- One step of the recursion: every callee is shorter than the caller and tapers again. -/
theorem shorter_of_calls {caller callee : Expr} (tapers : caller.Tapers)
    (calls : scope.Calls enclosing caller callee) :
    callee.text.length < caller.text.length ∧ callee.Tapers := by
  unfold Calls callees at calls
  split at calls
  · rename_i extent spelling
    obtain ⟨text, stands, isRead⟩ := Option.bind_eq_some_iff.mp (Option.mem_toList.mp calls)
    exact shorter_of_quoted stands isRead
  · rename_i extent object elements
    have listed : callee ∈ elements.filterMap Element.index? := by
      dsimp only at calls
      split at calls
      · exact List.mem_of_mem_take calls
      · exact calls
    exact indicesTaper_iff.mp tapers callee listed
  · exact tapers.shorter_of_mem_unionOperands calls
  · simp at calls

/-- A run of the recursion: every expression that is reached tapers. -/
theorem tapers_of_reaches {expr caller : Expr} (tapers : expr.Tapers)
    (reaches : Relation.ReflTransGen (scope.Calls enclosing) expr caller) : caller.Tapers := by
  induction reaches with
  | refl => exact tapers
  | tail _ calls ih => exact (shorter_of_calls ih calls).2

/-- Calls are nested no deeper than the expression has characters. -/
theorem length_le_of_isChain {expr : Expr} {chain : List Expr} (tapers : expr.Tapers)
    (isChain : List.IsChain (scope.Calls enclosing) (expr :: chain)) :
    chain.length ≤ expr.text.length := by
  induction chain generalizing expr with
  | nil => exact Nat.zero_le _
  | cons callee rest ih =>
      obtain ⟨calls, others⟩ := List.isChain_cons_cons.mp isChain
      obtain ⟨shorter, inner⟩ := shorter_of_calls tapers calls
      have deeper := ih inner others
      rw [List.length_cons]
      omega

/-! ## Results -/

variable (scope enclosing)

/-- Behind the first type in the brackets of `Annotated` nothing counts. -/
theorem subscriptType_take_one {object : Expr}
    (head : scope.headOf enclosing object = some "typing.Annotated") (types : List TypeSymbol) :
    scope.subscriptType enclosing object (types.take 1) =
      scope.subscriptType enclosing object types := by
  have isHead : object.dotted?.bind (scope.resolve? enclosing) = some "typing.Annotated" := head
  rw [subscriptType_eq, subscriptType_eq, isHead]
  cases types with
  | nil => rfl
  | cons first rest => rfl

/-- The type of an expression is made from the types of its callees. -/
theorem typeOf_eq_typeFrom : ∀ expr : Expr, scope.typeOf enclosing expr =
    scope.typeFrom enclosing ((scope.callees enclosing expr).map (scope.typeOf enclosing)) expr
  | .string extent spelling => by
      rw [typeOf_eq, operandTypes, callees, typeFrom, ofOperands]
      cases stringText? (.string extent spelling) with
      | none => rfl
      | some text =>
          rw [Option.bind_some, Option.bind_some]
          cases Expr.read? text <;> rfl
  | .subscript extent object elements => by
      rw [typeOf_subscript, callees, typeFrom]
      split
      · rename_i head
        rw [List.map_take, subscriptType_take_one scope enclosing head]
      · rfl
  | .binary extent operator left right => by
      cases operator with
      | bitOr =>
          have joins := (Expr.binary extent .bitOr left right).joins_unionOperands
          exact scope.typeOf_eq_unionOf enclosing joins
            (Expr.two_le_length_unionOperands extent left right)
      | _ => rfl
  | .attribute extent object member => by
      rw [typeOf_eq]
      simp only [operandTypes, typeFrom]
      cases (Expr.attribute extent object member).dotted? <;> rfl
  | .name _ _ | .number _ _ | .ellipsis _ | .joined _ _ | .unary _ _ _ | .call _ _ _ | .tuple _ _
  | .list _ _ | .set _ _ | .dict _ _ | .compound _ _ _ => rfl

variable {scope enclosing}

/-- The recursion ends for an expression that tapers, with its type and no other. -/
theorem endsWith_iff {expr : Expr} (tapers : expr.Tapers) {symbol : TypeSymbol} :
    scope.EndsWith enclosing expr symbol ↔ symbol = scope.typeOf enclosing expr := by
  induction width : expr.text.length using Nat.strongRecOn generalizing expr symbol with
  | ind width ih =>
      subst width
      have inner : ∀ callee ∈ scope.callees enclosing expr, ∀ {symbol : TypeSymbol},
          scope.EndsWith enclosing callee symbol ↔ symbol = scope.typeOf enclosing callee := by
        intro callee calls symbol
        obtain ⟨shorter, calleeTapers⟩ := shorter_of_calls tapers calls
        exact ih _ shorter calleeTapers rfl
      constructor
      · rintro ⟨each⟩
        have typed := ((List.forall₂_and_left _ _).mpr ⟨fun _ calls => calls, each⟩).imp
          fun callee symbol ⟨calls, ends⟩ => ((inner callee calls).mp ends).symm
        rw [← List.forall₂_map_left_iff, List.forall₂_eq_eq_eq] at typed
        rw [typeOf_eq_typeFrom, typed]
      · rintro rfl
        rw [typeOf_eq_typeFrom]
        refine .made (List.forall₂_map_right_iff.mpr (List.forall₂_same.mpr ?_))
        exact fun callee calls => (inner callee calls).mpr rfl

/-- **Types always end.** Whatever type expression a module that is read from a text holds, in
whatever scope, the recursion of its type ends. Every expression whose type is asked for on the way
is shorter than the one that it is asked for, also where strings hold expressions with strings; so
calls are nested no deeper than the expression has characters. The recursion ends with the type of
the expression and with no other. -/
theorem recursion_ends {text : String} {module : Module} (isRead : Module.read? text = some module)
    {expr : Expr} (isType : expr ∈ module.typeExprs) (scope : TypeScope)
    (enclosing : List String) :
    (∀ caller callee, Relation.ReflTransGen (scope.Calls enclosing) expr caller →
      scope.Calls enclosing caller callee → callee.text.length < caller.text.length) ∧
    (∀ chain, List.IsChain (scope.Calls enclosing) (expr :: chain) →
      chain.length ≤ expr.text.length) ∧
    (∀ symbol, scope.EndsWith enclosing expr symbol ↔ symbol = scope.typeOf enclosing expr) := by
  have tapers := Module.tapers_of_mem_typeExprs isRead expr isType
  refine ⟨fun caller callee reaches calls => ?_, fun chain => length_le_of_isChain tapers,
    fun symbol => endsWith_iff tapers⟩
  exact (shorter_of_calls (tapers_of_reaches tapers reaches) calls).1

end TypeScope

/-! ## Strings in a string -/

namespace Sample

/-- A class with a field whose annotation is a string with another string in it. -/
def nestedText : String := "class A:\n    x: \"list['int | None'] | A\"\n"

/-- Whether calls lead from an expression through expressions with the given texts. -/
def leadsThrough : List String → Expr → Bool
  | [], _ => true
  | text :: rest, expr => (importing.callees [] expr).any fun callee =>
      callee.text == text && leadsThrough rest callee

theorem exists_chain_of_leadsThrough {texts : List String} {expr : Expr}
    (leads : leadsThrough texts expr = true) :
    ∃ chain, chain.map Expr.text = texts ∧ List.IsChain (importing.Calls []) (expr :: chain) := by
  induction texts generalizing expr with
  | nil => exact ⟨[], rfl, .singleton _⟩
  | cons text rest ih =>
      obtain ⟨callee, calls, onward⟩ := List.any_eq_true.mp leads
      obtain ⟨same, further⟩ := Bool.and_eq_true_iff.mp onward
      obtain ⟨chain, texts, isChain⟩ := ih further
      refine ⟨callee :: chain, ?_, .cons_cons calls isChain⟩
      rw [List.map_cons, eq_of_beq same, texts]

end Sample

namespace TypeScope

open Sample

/-- The type of the sample's field calls through both strings and ends with a union. -/
theorem recursion_ends_in_nestedText :
    ∃ module expr, Module.read? nestedText = some module ∧ expr ∈ module.typeExprs ∧
      (∃ chain, chain.map Expr.text = ["list['int | None'] | A", "list['int | None']",
          "'int | None'", "int | None", "int"] ∧
        List.IsChain (importing.Calls []) (expr :: chain) ∧ chain.length ≤ expr.text.length) ∧
      (∀ callee, importing.Calls [] expr callee → callee.text.length < expr.text.length) ∧
      ∃ symbol, importing.EndsWith [] expr symbol ∧
        symbol.fqn = "typing.Union[builtins.list[typing.Optional[builtins.int]], A]" := by
  have evaluated : (Module.read? nestedText).any (fun module => module.typeExprs.any fun expr =>
      leadsThrough ["list['int | None'] | A", "list['int | None']", "'int | None'", "int | None",
        "int"] expr && (importing.typeOf [] expr).fqn ==
          "typing.Union[builtins.list[typing.Optional[builtins.int]], A]") = true := by
    decide +kernel
  obtain ⟨module, isRead, typed⟩ := (Option.any_eq_true _ _).mp evaluated
  obtain ⟨expr, isType, holds⟩ := List.any_eq_true.mp typed
  obtain ⟨leads, named⟩ := Bool.and_eq_true_iff.mp holds
  obtain ⟨chain, texts, isChain⟩ := exists_chain_of_leadsThrough leads
  obtain ⟨shorter, nested, ends⟩ := recursion_ends isRead isType importing []
  exact ⟨module, expr, isRead, isType, ⟨chain, texts, isChain, nested chain isChain⟩,
    fun callee calls => shorter expr callee .refl calls, _, (ends _).mpr rfl, eq_of_beq named⟩

end TypeScope

end TypeCatalog
