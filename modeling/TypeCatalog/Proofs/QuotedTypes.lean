import TypeCatalog.Proofs.LiteralWidths
import TypeCatalog.Proofs.NullableTypes

/-! # Types of strings

A string in the place of a type stands for the expression that its value writes
(`TypeCatalog.TypeScope.typeOf_eq`). Types are computed to a depth of strings within strings; since
a value is shorter than its string, and the strings in an expression are no longer than its text,
the depth is never reached.
-/

namespace TypeCatalog

open Syntax

namespace TypeScope

/-- A text that a string stands for is shorter than the string. -/
theorem length_stringText?_le {expr : Expr} {text : String}
    (stands : stringText? expr = some text) : text.length ≤ expr.text.length - 2 := by
  unfold stringText? at stands
  split at stands
  · rename_i read
    obtain rfl := Option.some.inj stands
    exact Literal.textWidth_read?_le read
  · simp at stands

/-- Nothing is no expression. -/
theorem read?_empty : Expr.read? "" = none := by decide +kernel

variable (scope : TypeScope) (enclosing : List String)

mutual

/-- The strings in an expression are read alike when their texts are. -/
theorem operandTypes_congr {first second : String → Option TypeSymbol} {width : Nat}
    (alike : ∀ text : String, text.length ≤ width - 2 → first text = second text) :
    ∀ expr, longestString expr ≤ width →
    scope.operandTypes enclosing first expr = scope.operandTypes enclosing second expr
  | .binary _ operator left right, short => by
      cases operator with
      | bitOr =>
          obtain ⟨leftShort, rightShort⟩ := Nat.max_le.mp short
          rw [operandTypes, operandTypes, operandTypes_congr alike left leftShort,
            operandTypes_congr alike right rightShort]
      | _ => rfl
  | .subscript _ _ elements, short => by
      rw [operandTypes, operandTypes, elementTypes_congr alike elements short]
  | .string extent spelling, short => by
      rw [operandTypes, operandTypes]
      cases stands : stringText? (.string extent spelling) with
      | none => rfl
      | some text =>
          have shorter := length_stringText?_le stands
          have isLongest : (Expr.string extent spelling).text.length ≤ width := short
          rw [Option.bind_some, Option.bind_some, alike text (by omega)]
  | .name _ _, _ | .attribute _ _ _, _ | .number _ _, _ | .ellipsis _, _ | .joined _ _, _
  | .unary _ _ _, _ | .call _ _ _, _ | .tuple _ _, _ | .list _ _, _ | .set _ _, _
  | .dict _ _, _ | .compound _ _ _, _ => rfl

theorem elementTypes_congr {first second : String → Option TypeSymbol} {width : Nat}
    (alike : ∀ text : String, text.length ≤ width - 2 → first text = second text) :
    ∀ elements, longestStringAmong elements ≤ width →
    scope.elementTypes enclosing first elements = scope.elementTypes enclosing second elements
  | [], _ => rfl
  | .index value :: rest, short => by
      obtain ⟨valueShort, restShort⟩ := Nat.max_le.mp short
      rw [elementTypes, elementTypes, operandTypes_congr alike value valueShort,
        elementTypes_congr alike rest restShort]
  | .slice _ :: rest, short => elementTypes_congr alike rest short

end

theorem textReader_empty (depth : Nat) : scope.textReader enclosing depth "" = none := by
  cases depth with
  | zero => rfl
  | succ depth => rw [textReader, read?_empty, Option.map_none]

/-- Depths that no string of an expression exceeds give one type: a text that a string stands for
is shorter than the string, and so are the strings of the expression that it writes. -/
theorem typeAtDepth_eq_of_le {width first second : Nat} {expr : Expr}
    (short : longestString expr ≤ width) (firstDeep : width ≤ first) (secondDeep : width ≤ second) :
    scope.typeAtDepth enclosing first expr = scope.typeAtDepth enclosing second expr := by
  induction width using Nat.strongRecOn generalizing first second expr with
  | ind width ih =>
      rw [typeAtDepth_eq, typeAtDepth_eq]
      refine congrArg ofOperands (scope.operandTypes_congr enclosing ?_ expr short)
      intro text shorter
      match first, second with
      | first + 1, second + 1 =>
          cases isRead : Expr.read? text with
          | none => simp only [textReader, isRead, Option.map_none]
          | some inner =>
              simp only [textReader, isRead, Option.map_some]
              have within := (Expr.within_of_read? isRead).longest
              by_cases empty : text.length = 0
              · rw [String.length_eq_zero_iff.mp empty, read?_empty] at isRead
                simp at isRead
              · exact congrArg some (ih text.length (by omega) within (by omega) (by omega))
      | 0, _ | _ + 1, 0 =>
          obtain rfl : text = "" := String.length_eq_zero_iff.mp (by omega)
          rw [textReader_empty, textReader_empty]

/-- **Types without a depth.** The strings in an expression stand for the types of the expressions
that their texts write, however deep strings are nested in each other. -/
theorem typeOf_eq (expr : Expr) : scope.typeOf enclosing expr =
    ofOperands (scope.operandTypes enclosing
      (fun text => (Expr.read? text).map (scope.typeOf enclosing)) expr) := by
  have deeper := scope.typeAtDepth_eq_of_le enclosing (Nat.le_refl (longestString expr))
    (Nat.le_refl _) (Nat.le_succ _)
  rw [typeOf, deeper, typeAtDepth_eq]
  refine congrArg ofOperands (scope.operandTypes_congr enclosing ?_ expr (Nat.le_refl _))
  intro text shorter
  rw [textReader]
  refine Option.map_congr ?_
  intro inner isRead
  have within := (Expr.within_of_read? (Option.mem_def.mp isRead)).longest
  exact scope.typeAtDepth_eq_of_le enclosing (Nat.le_refl _) (by omega) (Nat.le_refl _)

/-- A string has the type of the expression that its text writes. -/
theorem typeOf_string {extent : Extent} {spelling text : String} {expr : Expr}
    (stands : stringText? (.string extent spelling) = some text)
    (isRead : Expr.read? text = some expr) :
    scope.typeOf enclosing (.string extent spelling) = scope.typeOf enclosing expr := by
  rw [typeOf_eq, operandTypes, stands, Option.bind_some, isRead]
  rfl

end TypeScope

end TypeCatalog
