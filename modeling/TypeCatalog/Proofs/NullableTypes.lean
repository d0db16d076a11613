import TypeCatalog.Model.Optionality
import TypeCatalog.Proofs.ScopedNames

/-! # Nullable types

A type that allows `None` besides its values is written in four ways: by the optional type, by the
union type, and by the operator of unions with `None` on either side. They have one type, the
optional type of the values (`TypeCatalog.TypeScope.nullable_spellings_agree`). Two things stand in
the way (`TypeCatalog.TypeScope.joined_operands_and_declared_wrappers_differ`): operands that are
themselves joined by the operator become operands of the one union with `None`, and a program that
declares the optional type has instantiations of its own class.
-/

namespace TypeCatalog

open Syntax

namespace Syntax.Expr

/-- Whether an expression joins operands by the operator of unions. -/
def isUnion : Expr → Bool
  | .binary _ .bitOr _ _ => true
  | _ => false

/-- The ways to write that `None` is allowed besides the values of a type: both constructors are
applied to the expression of the type, and the operator to an operand that stands for it. -/
def nullableSpellings (extent : Extent) (optional union none expr operand : Expr) : List Expr :=
  [.subscript extent optional [.index expr],
    .subscript extent union [.index expr, .index none],
    .binary extent .bitOr operand none,
    .binary extent .bitOr none operand]

end Syntax.Expr

namespace TypeScope

variable (scope : TypeScope) (enclosing : List String)

/-! ## Operands -/

/-- How strings are read to a depth. -/
def textReader : Nat → String → Option TypeSymbol
  | 0, _ => none
  | depth + 1, text => (Expr.read? text).map (scope.typeAtDepth enclosing depth)

theorem typeAtDepth_eq (depth : Nat) (expr : Expr) :
    scope.typeAtDepth enclosing depth expr =
      ofOperands (scope.operandTypes enclosing (scope.textReader enclosing depth) expr) := by
  cases depth with
  | zero => rw [typeAtDepth]; rfl
  | succ depth => rw [typeAtDepth]; rfl

/-- The types of the operands that an expression joins; an expression that joins none is its only
operand. -/
def operandsOf (expr : Expr) : List TypeSymbol :=
  scope.operandTypes enclosing (scope.textReader enclosing (longestString expr)) expr

theorem typeOf_eq_ofOperands (expr : Expr) :
    scope.typeOf enclosing expr = ofOperands (scope.operandsOf enclosing expr) :=
  scope.typeAtDepth_eq enclosing (longestString expr) expr

theorem exists_operandTypes_eq (ofText? : String → Option TypeSymbol) {expr : Expr}
    (single : expr.isUnion = false) :
    ∃ symbol, scope.operandTypes enclosing ofText? expr = [symbol] := by
  match expr, single with
  | .name _ _, _ => exact ⟨_, scope.operandTypes_of_dotted? enclosing ofText? rfl⟩
  | .attribute extent object member, _ =>
      unfold operandTypes
      cases (Expr.attribute extent object member).dotted? with
      | none => exact ⟨_, rfl⟩
      | some name => exact ⟨_, rfl⟩
  | .binary _ operator _ _, single =>
      cases operator with
      | bitOr => simp [Expr.isUnion] at single
      | _ => simp [operandTypes, Expr.dotted?]
  | .number _ _, _ | .ellipsis _, _ | .string _ _, _ | .joined _ _, _ | .unary _ _ _, _
  | .subscript _ _ _, _ | .call _ _ _, _ | .tuple _ _, _ | .list _ _, _ | .set _ _, _
  | .dict _ _, _ | .compound _ _ _, _ => simp [operandTypes, Expr.dotted?]

/-- An expression that joins no operands is its only operand. -/
theorem operandsOf_of_single {expr : Expr} (single : expr.isUnion = false) :
    scope.operandsOf enclosing expr = [scope.typeOf enclosing expr] := by
  obtain ⟨symbol, operands⟩ := scope.exists_operandTypes_eq enclosing
    (scope.textReader enclosing (longestString expr)) single
  rw [typeOf_eq_ofOperands, operandsOf, operands, ofOperands]

theorem operandTypes_ne_nil_of_single (ofText? : String → Option TypeSymbol) {expr : Expr}
    (single : expr.isUnion = false) : scope.operandTypes enclosing ofText? expr ≠ [] := by
  obtain ⟨symbol, operands⟩ := scope.exists_operandTypes_eq enclosing ofText? single
  rw [operands]
  exact List.cons_ne_nil _ _

theorem operandTypes_ne_nil (ofText? : String → Option TypeSymbol) :
    ∀ expr, scope.operandTypes enclosing ofText? expr ≠ []
  | .binary _ operator left _ => by
      cases operator with
      | bitOr =>
          rw [operandTypes]
          exact List.append_ne_nil_of_left_ne_nil (operandTypes_ne_nil ofText? left) _
      | _ => exact scope.operandTypes_ne_nil_of_single enclosing ofText? rfl
  | .name _ _ | .attribute _ _ _ | .number _ _ | .ellipsis _ | .string _ _ | .joined _ _
  | .unary _ _ _ | .subscript _ _ _ | .call _ _ _ | .tuple _ _ | .list _ _ | .set _ _
  | .dict _ _ | .compound _ _ _ => scope.operandTypes_ne_nil_of_single enclosing ofText? rfl

/-- Several operands form a union. -/
theorem ofOperands_append {front behind : List TypeSymbol} (inFront : front ≠ [])
    (inBehind : behind ≠ []) : ofOperands (front ++ behind) = unionOf (front ++ behind) := by
  match front, behind with
  | [], _ => exact absurd rfl inFront
  | _, [] => exact absurd rfl inBehind
  | [_], _ :: _ => rfl
  | _ :: _ :: _, _ => rfl

/-! ## Unions with `None` -/

/-- The type that allows `None` alone. -/
def noneType : TypeSymbol := .externalType noneName

theorem longestString_of_dotted? {expr : Expr} {name : String}
    (dotted : expr.dotted? = some name) : longestString expr = 0 := by
  match expr, dotted with
  | .name _ _, _ => rfl
  | .attribute _ _ _, _ => rfl

/-- The operator joins `None` to the operands of the other side. -/
theorem operandsOf_join_none {none : Expr} (named : none.dotted? = some "None") (extent : Extent)
    (expr : Expr) :
    scope.operandsOf enclosing (.binary extent .bitOr expr none) =
        scope.operandsOf enclosing expr ++ [noneType] ∧
      scope.operandsOf enclosing (.binary extent .bitOr none expr) =
        [noneType] ++ scope.operandsOf enclosing expr := by
  have short : longestString none = 0 := longestString_of_dotted? named
  have alone : ∀ ofText?, scope.operandTypes enclosing ofText? none = [noneType] := by
    intro ofText?
    rw [scope.operandTypes_of_dotted? enclosing ofText? named, namedType, if_pos rfl, noneType]
  refine ⟨?_, ?_⟩
  · rw [operandsOf, operandTypes, alone, longestString, short, Nat.max_zero, operandsOf]
  · rw [operandsOf, operandTypes, alone, longestString, short, Nat.zero_max, operandsOf]

theorem typeOf_join_none {none : Expr} (named : none.dotted? = some "None") (extent : Extent)
    (expr : Expr) :
    scope.typeOf enclosing (.binary extent .bitOr expr none) =
        unionOf (scope.operandsOf enclosing expr ++ [noneType]) ∧
      scope.typeOf enclosing (.binary extent .bitOr none expr) =
        unionOf (noneType :: scope.operandsOf enclosing expr) := by
  obtain ⟨behind, inFront⟩ := scope.operandsOf_join_none enclosing named extent expr
  have some : scope.operandsOf enclosing expr ≠ [] := scope.operandTypes_ne_nil enclosing _ expr
  refine ⟨?_, ?_⟩
  · rw [typeOf_eq_ofOperands, behind, ofOperands_append some (List.cons_ne_nil _ _)]
  · rw [typeOf_eq_ofOperands, inFront, ofOperands_append (List.cons_ne_nil _ _) some]
    rfl

/-- The optional type of values of a type. -/
def optionalOf (value : TypeSymbol) : TypeSymbol :=
  .instantiation (some defaultOptionalWrapper) [value] true

/-- The union of `None` with one other type is its optional type. -/
theorem unionOf_none {value : TypeSymbol} (valued : value.fqn ≠ noneName) :
    unionOf [value, noneType] = optionalOf value ∧
      unionOf [noneType, value] = optionalOf value := by
  have isNone : noneType.fqn = noneName := rfl
  refine ⟨?_, ?_⟩
  · simp [unionOf, valued, isNone, optionalOf, defaultOptionalWrapper]
  · simp [unionOf, valued, isNone, optionalOf, defaultOptionalWrapper]

/-! ## Subscripts -/

/-- A subscript with one index instantiates its head by the type of the index. -/
theorem typeOf_subscript_single (extent : Extent) (object expr : Expr) :
    scope.typeOf enclosing (.subscript extent object [.index expr]) =
      scope.subscriptType enclosing object [scope.typeOf enclosing expr] := by
  have depth : longestString (.subscript extent object [.index expr]) = longestString expr := by
    rw [longestString, longestStringAmong, longestStringAmong, Nat.max_zero]
  rw [typeOf, depth, typeAtDepth_eq, operandTypes, elementTypes, elementTypes, ofOperands, typeOf,
    typeAtDepth_eq]

/-- A subscript with `None` as its second index has the type of `None` as its second argument. -/
theorem typeOf_subscript_none {none : Expr} (named : none.dotted? = some "None") (extent : Extent)
    (object expr : Expr) :
    scope.typeOf enclosing (.subscript extent object [.index expr, .index none]) =
      scope.subscriptType enclosing object [scope.typeOf enclosing expr, noneType] := by
  have depth : longestString (.subscript extent object [.index expr, .index none]) =
      longestString expr := by
    rw [longestString, longestStringAmong, longestStringAmong, longestStringAmong,
      longestString_of_dotted? named, Nat.max_zero, Nat.max_zero]
  rw [typeOf, depth, typeAtDepth_eq, operandTypes, elementTypes, elementTypes, elementTypes,
    scope.operandTypes_of_dotted? enclosing _ named, namedType, if_pos rfl, ofOperands, ofOperands,
    typeOf, typeAtDepth_eq, noneType]

theorem subscriptType_optional {object : Expr} (value : TypeSymbol)
    (head : object.dotted?.bind (scope.resolve? enclosing) = some defaultOptionalWrapper) :
    scope.subscriptType enclosing object [value] =
      .instantiation (some defaultOptionalWrapper) [value]
        (!scope.declared.contains defaultOptionalWrapper) := by
  unfold subscriptType
  rw [head]
  rfl

theorem subscriptType_union {object : Expr} (arguments : List TypeSymbol)
    (head : object.dotted?.bind (scope.resolve? enclosing) = some "typing.Union") :
    scope.subscriptType enclosing object arguments = unionOf arguments := by
  unfold subscriptType
  rw [head]
  rfl

/-! ## The spellings -/

/-- **Nullable types.** The four ways to write a nullable type give the optional type of its
values, whatever the expression of the values is; the operator takes an operand of the same type
that joins no operands itself. When the program declares the optional type, the constructor gives
an instantiation of that class. Operands that are joined by the operator are joined to `None` one
by one. -/
theorem nullable_spellings_agree (scope : TypeScope) (enclosing : List String)
    {expr operand optional union none : Expr}
    (optionalHead : optional.dotted?.bind (scope.resolve? enclosing) =
      some defaultOptionalWrapper)
    (unionHead : union.dotted?.bind (scope.resolve? enclosing) = some "typing.Union")
    (noneNamed : none.dotted? = some "None")
    (valued : (scope.typeOf enclosing expr).fqn ≠ noneName)
    (single : operand.isUnion = false)
    (alike : scope.typeOf enclosing operand = scope.typeOf enclosing expr) (extent : Extent) :
    let value := scope.typeOf enclosing expr
    (∀ spelling ∈ Expr.nullableSpellings extent optional union none expr operand,
      (scope.typeOf enclosing spelling).isOptional defaultOptionalWrapper = true ∧
      (scope.typeOf enclosing spelling).wrappedType? defaultOptionalWrapper = some value ∧
      (defaultOptionalWrapper ∉ scope.declared →
        scope.typeOf enclosing spelling = optionalOf value)) ∧
    ∀ joined : Expr, joined.isUnion = true →
      scope.typeOf enclosing (.binary extent .bitOr joined none) =
        unionOf (scope.operandsOf enclosing joined ++ [noneType]) ∧
      scope.typeOf enclosing (.binary extent .bitOr none joined) =
        unionOf (noneType :: scope.operandsOf enclosing joined) := by
  intro value
  have byOperator := scope.typeOf_join_none enclosing noneNamed extent operand
  have joinedOptional := unionOf_none valued
  rw [scope.operandsOf_of_single enclosing single, alike] at byOperator
  -- every spelling is an instantiation of the optional type, external unless it is declared
  have instantiated : ∀ spelling ∈ Expr.nullableSpellings extent optional union none expr operand,
      ∃ external, scope.typeOf enclosing spelling =
        .instantiation (some defaultOptionalWrapper) [value] external ∧
        (defaultOptionalWrapper ∉ scope.declared → external = true) := by
    intro spelling listed
    rw [Expr.nullableSpellings, List.mem_cons, List.mem_cons, List.mem_cons,
      List.mem_singleton] at listed
    rcases listed with rfl | rfl | rfl | rfl
    · refine ⟨!scope.declared.contains defaultOptionalWrapper, ?_, ?_⟩
      · rw [typeOf_subscript_single, scope.subscriptType_optional enclosing _ optionalHead]
      · intro undeclared
        simpa using undeclared
    · refine ⟨true, ?_, fun _ => rfl⟩
      rw [scope.typeOf_subscript_none enclosing noneNamed,
        scope.subscriptType_union enclosing _ unionHead]
      exact joinedOptional.1
    · exact ⟨true, byOperator.1.trans joinedOptional.1, fun _ => rfl⟩
    · exact ⟨true, byOperator.2.trans joinedOptional.2, fun _ => rfl⟩
  refine ⟨?_, fun joined _ => scope.typeOf_join_none enclosing noneNamed extent joined⟩
  intro spelling listed
  obtain ⟨external, typed, marked⟩ := instantiated spelling listed
  rw [typed]
  refine ⟨rfl, rfl, ?_⟩
  intro undeclared
  rw [marked undeclared, optionalOf]

/-- The type of a subscript or of joined operands is not read from their source text, so brackets
around them make no difference. -/
theorem typeOf_withText (expr : Expr) (composed : expr.isUnion = true ∨
    ∃ extent object elements, expr = .subscript extent object elements) (text : String) :
    scope.typeOf enclosing (expr.withText text) = scope.typeOf enclosing expr := by
  match expr, composed with
  | .binary _ operator _ _, composed =>
      cases operator with
      | bitOr =>
          rw [typeOf_eq_ofOperands, typeOf_eq_ofOperands, operandsOf, operandsOf, Expr.withText,
            operandTypes, operandTypes, longestString, longestString]
      | _ => simp [Expr.isUnion] at composed
  | .subscript _ _ _, _ =>
      rw [typeOf_eq_ofOperands, typeOf_eq_ofOperands, operandsOf, operandsOf, Expr.withText,
        operandTypes, operandTypes, longestString, longestString]
  | .name _ _, composed | .attribute _ _ _, composed | .number _ _, composed
  | .ellipsis _, composed | .string _ _, composed | .joined _ _, composed
  | .unary _ _ _, composed | .call _ _ _, composed | .tuple _ _, composed | .list _ _, composed
  | .set _ _, composed | .dict _ _, composed | .compound _ _ _, composed =>
      simp [Expr.isUnion] at composed

end TypeScope

/-! ## A module that imports the constructors -/

namespace Sample

/-- A name on the third line of a module. -/
def written (name : String) : Expr :=
  .name ⟨name, ⟨2, 0⟩⟩ ((Identifier.ofString? name).getD default)

def lineExtent : Extent := ⟨"", ⟨2, 0⟩⟩

def intOrStr : Expr := .binary ⟨"int | str", ⟨2, 5⟩⟩ .bitOr (written "int") (written "str")

def listOfUnion : Expr :=
  .subscript ⟨"list[int | str]", ⟨2, 0⟩⟩ (written "list") [.index intOrStr]

/-- What a module sees that imports the constructors of optional and union types. -/
def importing : TypeScope where
  declared := []
  imports := .ofList [("Optional", "typing.Optional"), ("Union", "typing.Union")]
  moduleName := "m"
  types := .empty

/-- What a module sees that declares these constructors itself. -/
def declaring : TypeScope where
  declared := ["typing.Optional", "typing.Union"]
  imports := .empty
  moduleName := "typing"
  types := .ofList [("typing.Optional", .plain "typing.Optional" [] none false),
    ("typing.Union", .plain "typing.Union" [] none false)]

end Sample

namespace TypeScope

/-- The imported names are those of the constructors. -/
theorem resolve?_importing :
    (Sample.written "Optional").dotted?.bind (Sample.importing.resolve? []) =
        some defaultOptionalWrapper ∧
      (Sample.written "Union").dotted?.bind (Sample.importing.resolve? []) =
        some "typing.Union" := by
  decide +kernel

/-- A list of a union, in brackets beside the operator. -/
theorem nullable_spellings_of_list :
    let value := Sample.importing.typeOf [] Sample.listOfUnion
    value.fqn = "builtins.list[typing.Union[builtins.int, builtins.str]]" ∧
      ∀ spelling ∈ Expr.nullableSpellings Sample.lineExtent (Sample.written "Optional")
        (Sample.written "Union") (Sample.written "None") Sample.listOfUnion
        (Sample.listOfUnion.withText "(list[int | str])"),
        Sample.importing.typeOf [] spelling = optionalOf value := by
  intro value
  have named : value.fqn = "builtins.list[typing.Union[builtins.int, builtins.str]]" := by
    decide +kernel
  have valued : value.fqn ≠ noneName := by
    rw [named]
    decide
  have alike := Sample.importing.typeOf_withText [] Sample.listOfUnion
    (Or.inr ⟨_, _, _, rfl⟩) "(list[int | str])"
  refine ⟨named, ?_⟩
  intro spelling listed
  have noneNamed : (Sample.written "None").dotted? = some "None" := rfl
  have agreed := nullable_spellings_agree Sample.importing [] resolve?_importing.1
    resolve?_importing.2 noneNamed valued rfl alike Sample.lineExtent
  exact (agreed.1 spelling listed).2.2 List.not_mem_nil

/-- The spellings differ for operands that are joined by the operator, and in a program that
declares the optional type. -/
theorem joined_operands_and_declared_wrappers_differ :
    let agree := fun (scope : TypeScope) (enclosing : List String) (expr : Expr) =>
      ∀ optional union none extent,
        optional.dotted?.bind (scope.resolve? enclosing) = some defaultOptionalWrapper →
        union.dotted?.bind (scope.resolve? enclosing) = some "typing.Union" →
        none.dotted? = some "None" → (scope.typeOf enclosing expr).fqn ≠ noneName →
        ∀ spelling ∈ Expr.nullableSpellings extent optional union none expr expr,
          scope.typeOf enclosing spelling = optionalOf (scope.typeOf enclosing expr)
    (¬ ∀ scope enclosing expr, defaultOptionalWrapper ∉ scope.declared →
      agree scope enclosing expr) ∧
    (¬ ∀ scope enclosing expr, expr.isUnion = false → agree scope enclosing expr) := by
  intro agree
  refine ⟨?_, ?_⟩
  · intro always
    have same := always Sample.importing [] Sample.intOrStr List.not_mem_nil
      (Sample.written "Optional") (Sample.written "Union") (Sample.written "None")
      Sample.lineExtent resolve?_importing.1 resolve?_importing.2 rfl (by decide +kernel)
      (.binary Sample.lineExtent .bitOr Sample.intOrStr (Sample.written "None"))
      (by simp [Expr.nullableSpellings])
    exact absurd (congrArg TypeSymbol.fqn same) (by decide +kernel)
  · intro always
    have same := always Sample.declaring [] (Sample.written "int") rfl
      (Sample.written "Optional") (Sample.written "Union") (Sample.written "None")
      Sample.lineExtent (by decide +kernel) (by decide +kernel) rfl (by decide +kernel)
      (.subscript Sample.lineExtent (Sample.written "Optional") [.index (Sample.written "int")])
      (by simp [Expr.nullableSpellings])
    exact absurd (congrArg TypeSymbol.external same) (by decide +kernel)

end TypeScope

end TypeCatalog
