import TypeCatalog.Literal.Reader
import TypeCatalog.Proofs.ExpressionWidths

/-! # Widths of literal values

The value of a string is shorter than the text that writes it
(`TypeCatalog.Literal.textWidth_read?_le`): its quotes have no part in the value, escapes stand for
no more characters than they are written with, and adjacent strings add up.
-/

namespace TypeCatalog

open Syntax

namespace Text

theorem length_unifyLineEnds_le (text : List Char) : (unifyLineEnds text).length ≤ text.length := by
  fun_induction unifyLineEnds text with
  | case1 => exact Nat.le_refl _
  | case2 rest ih =>
      simp only [List.length_cons]
      omega
  | case3 rest _ ih => exact Nat.succ_le_succ ih
  | case4 c rest _ _ ih => exact Nat.succ_le_succ ih

end Text

namespace Literal

/-! ## Lengths of texts -/

/-- The length of a text; values of other kinds have none. -/
def textWidth : Literal → Nat
  | .string text => text.length
  | _ => 0

/-- A hexadecimal escape has one code. -/
theorem length_hexEscape_le {width : Nat} {text rest : List Char} {codes : List Nat}
    (read : (Text.takeHex? width text).map (fun (code, rest) => ([code], rest)) =
      some (codes, rest)) : codes.length + rest.length ≤ text.length + 1 := by
  obtain ⟨⟨code, behind⟩, taken, same⟩ := Option.map_eq_some_iff.mp read
  obtain ⟨rfl, rfl⟩ := Prod.mk.inj same
  unfold Text.takeHex? at taken
  dsimp only at taken
  split at taken
  · rw [← (Prod.mk.inj (Option.some.inj taken)).2, List.length_singleton, List.length_drop]
    omega
  · simp at taken

/-- An escape has no more codes than characters, its backslash included. -/
theorem length_readEscape?_le {isBytes : Bool} {text rest : List Char} {codes : List Nat}
    (read : readEscape? isBytes text = some (codes, rest)) :
    codes.length + rest.length ≤ text.length + 1 := by
  unfold readEscape? at read
  split at read
  · simp at read
  · obtain ⟨rfl, rfl⟩ := Prod.mk.inj (Option.some.inj read)
    simp only [List.length_cons, List.length_nil]
    omega
  · exact Nat.le_succ_of_le (length_hexEscape_le read)
  · repeat' split at read
    · obtain ⟨rfl, rfl⟩ := Prod.mk.inj (Option.some.inj read)
      simp only [List.length_cons, List.length_nil]
      omega
    · obtain ⟨rfl, rfl⟩ := Prod.mk.inj (Option.some.inj read)
      rw [List.length_singleton, List.length_drop]
      omega
    · obtain ⟨rfl, rfl⟩ := Prod.mk.inj (Option.some.inj read)
      rw [List.length_singleton, List.length_drop]
      omega
    · exact Nat.le_succ_of_le (length_hexEscape_le read)
    · exact Nat.le_succ_of_le (length_hexEscape_le read)
    · simp at read
    · obtain ⟨rfl, rfl⟩ := Prod.mk.inj (Option.some.inj read)
      simp only [List.length_cons, List.length_nil]
      omega

theorem length_readBody?_le (isBytes : Bool) (fuel : Nat) (text : List Char) {codes : List Nat}
    (read : readBody? isBytes fuel text = some codes) : codes.length ≤ text.length := by
  fun_induction readBody? isBytes fuel text generalizing codes with
  | case1 => simp at read
  | case2 => exact Nat.le_of_eq (congrArg List.length (Option.some.inj read)).symm
  | case3 fuel rest ih =>
      obtain ⟨⟨front, behind⟩, escape, read⟩ := Option.bind_eq_some_iff.mp read
      obtain ⟨more, readMore, same⟩ := Option.bind_eq_some_iff.mp read
      have bound := length_readEscape?_le escape
      have others := ih _ readMore
      rw [← Option.some.inj same, List.length_append, List.length_cons]
      omega
  | case4 fuel c rest _ ih =>
      obtain ⟨more, readMore, same⟩ := Option.bind_eq_some_iff.mp read
      rw [← Option.some.inj same]
      exact Nat.succ_le_succ (ih readMore)

theorem length_body_le (spelling : String) :
    (partsOf spelling).body.length ≤ spelling.length - 2 := by
  have whole := String.length_toList (s := spelling)
  unfold partsOf
  dsimp only
  rw [List.length_take, List.length_drop, List.length_drop]
  split
  · split <;> omega
  · omega

theorem length_of_mapM_eq_some {α β : Type} {read? : α → Option β} {items : List α}
    {results : List β} (mapped : items.mapM read? = some results) :
    results.length = items.length := by
  induction items generalizing results with
  | nil => exact (congrArg List.length (Option.some.inj mapped)).symm
  | cons item rest ih =>
      rw [List.mapM_cons] at mapped
      obtain ⟨first, _, mapped⟩ := Option.bind_eq_some_iff.mp mapped
      obtain ⟨others, readOthers, same⟩ := Option.bind_eq_some_iff.mp mapped
      rw [← Option.some.inj same, List.length_cons, List.length_cons, ih readOthers]

theorem textWidth_ofString?_le {spelling : String} {value : Literal}
    (read : ofString? spelling = some value) : value.textWidth ≤ spelling.length - 2 := by
  have body := length_body_le spelling
  -- both ways to read a body give no more codes than it has characters
  have ofCodes : ∀ codes : List Nat, codes.length ≤ (partsOf spelling).body.length →
      (if (partsOf spelling).isBytes then some (.bytes (codes.map Nat.toUInt8))
      else (codes.mapM Text.charOfCode?).bind fun characters =>
        some (.string (String.ofList characters))) = some value →
      value.textWidth ≤ spelling.length - 2 := by
    intro codes short read
    split at read
    · rw [← Option.some.inj read]
      exact Nat.zero_le _
    · obtain ⟨characters, translated, read⟩ := Option.bind_eq_some_iff.mp read
      rw [← Option.some.inj read, textWidth, String.length_ofList,
        length_of_mapM_eq_some translated]
      omega
  simp only [ofString?, Option.bind_eq_bind] at read
  split at read
  · contradiction
  · split at read
    · obtain ⟨codes, isCodes, read⟩ := Option.bind_eq_some_iff.mp read
      refine ofCodes codes ?_ read
      exact Option.some.inj isCodes ▸ Nat.le_of_eq (List.length_map _)
    · obtain ⟨codes, isCodes, read⟩ := Option.bind_eq_some_iff.mp read
      exact ofCodes codes (length_readBody?_le _ _ _ isCodes) read

theorem textWidth_concatenate? {left right value : Literal}
    (read : concatenate? left right = some value) :
    value.textWidth ≤ left.textWidth + right.textWidth := by
  unfold concatenate? at read
  split at read
  · rw [← Option.some.inj read]
    exact Nat.le_of_eq (String.length_append _ _)
  · rw [← Option.some.inj read]
    exact Nat.zero_le _
  · simp at read

/-- The widths of texts that stand side by side. -/
theorem textWidth_foldlM_concatenate? {values : List Literal} {first value : Literal}
    (read : values.foldlM concatenate? first = some value) :
    value.textWidth ≤ first.textWidth + (values.map textWidth).sum := by
  induction values generalizing first with
  | nil => exact Nat.le_of_eq (congrArg textWidth (Option.some.inj read)).symm
  | cons next rest ih =>
      rw [List.foldlM_cons] at read
      obtain ⟨both, joined, read⟩ := Option.bind_eq_some_iff.mp read
      have bound := textWidth_concatenate? joined
      have others := ih read
      rw [List.map_cons, List.sum_cons]
      omega

/-- The string literals among the parts of a joined one. -/
def partString? : Expr → Option Literal
  | .string _ spelling => ofString? spelling
  | _ => none

theorem textWidth_partString?_le {part : Expr} {value : Literal}
    (read : partString? part = some value) : value.textWidth ≤ part.spelledWidth - 2 := by
  unfold partString? at read
  split at read
  · exact textWidth_ofString?_le read
  · simp at read

theorem sum_textWidth_partStrings_le {parts : List Expr} {values : List Literal}
    (read : parts.mapM partString? = some values) :
    (values.map textWidth).sum ≤ spelledWidths parts - 2 := by
  induction parts generalizing values with
  | nil => exact Option.some.inj read ▸ Nat.zero_le _
  | cons part rest ih =>
      rw [List.mapM_cons] at read
      obtain ⟨first, readFirst, read⟩ := Option.bind_eq_some_iff.mp read
      obtain ⟨others, readOthers, same⟩ := Option.bind_eq_some_iff.mp read
      have bound := textWidth_partString?_le readFirst
      have behind := ih readOthers
      rw [← Option.some.inj same, List.map_cons, List.sum_cons, spelledWidths]
      omega

theorem textWidth_joined?_le {parts : List Expr} {value : Literal}
    (read : joined? parts = some value) : value.textWidth ≤ spelledWidths parts - 2 := by
  obtain ⟨values, readParts, joined⟩ := Option.bind_eq_some_iff.mp read
  cases parts with
  | nil =>
      rw [← Option.some.inj readParts] at joined
      simp at joined
  | cons part rest =>
      rw [List.mapM_cons] at readParts
      obtain ⟨first, readFirst, readParts⟩ := Option.bind_eq_some_iff.mp readParts
      obtain ⟨others, readOthers, same⟩ := Option.bind_eq_some_iff.mp readParts
      rw [← Option.some.inj same] at joined
      have bound := textWidth_foldlM_concatenate? joined
      have inFront := textWidth_partString?_le readFirst
      have behind := sum_textWidth_partStrings_le readOthers
      rw [spelledWidths]
      omega

/-! ## Values without a text -/

theorem textWidth_ofNumber? {spelling : String} {value : Literal}
    (read : ofNumber? spelling = some value) : value.textWidth = 0 := by
  rw [ofNumber?] at read
  split at read
  iterate 6
    · rw [← Option.some.inj read]
      rfl
  · split_ifs at read
    · rw [← Option.some.inj read]
      rfl
    · split at read
      all_goals
        rw [← Option.some.inj read]
        rfl

theorem textWidth_negate? {number value : Literal} (negated : negate? number = some value) :
    value.textWidth = 0 := by
  cases number with
  | int | float | complex =>
      rw [← Option.some.inj negated]
      rfl
  | _ => contradiction

theorem textWidth_signedNumber? {expr : Expr} {value : Literal}
    (read : signedNumber? expr = some value) : value.textWidth = 0 := by
  rw [signedNumber?.eq_def] at read
  split at read
  · exact textWidth_ofNumber? read
  · exact textWidth_ofNumber? read
  · obtain ⟨number, _, negated⟩ := Option.bind_eq_some_iff.mp read
    exact textWidth_negate? negated
  · contradiction

theorem textWidth_complexSum? {operator : BinaryOperator} {left right : Expr} {value : Literal}
    (read : complexSum? operator left right = some value) : value.textWidth = 0 := by
  rw [complexSum?] at read
  obtain ⟨_, _, read⟩ := Option.bind_eq_some_iff.mp read
  obtain ⟨real, _, read⟩ := Option.bind_eq_some_iff.mp read
  split at read
  · obtain ⟨_, _, read⟩ := Option.bind_eq_some_iff.mp read
    repeat' split at read
    · exact Option.some.inj read ▸ rfl
    · exact Option.some.inj read ▸ rfl
    · contradiction
    · contradiction
  · contradiction

theorem textWidth_constant? {identifier : Identifier} {value : Literal}
    (read : constant? identifier = some value) : value.textWidth = 0 := by
  rw [constant?] at read
  split at read
  · exact Option.some.inj read ▸ rfl
  · exact Option.some.inj read ▸ rfl
  · exact Option.some.inj read ▸ rfl
  · contradiction

/-- The text of a string value is shorter than what its strings are written with. -/
theorem textWidth_ofExpr?_le : ∀ {expr : Expr} {value : Literal}, ofExpr? expr = some value →
    value.textWidth ≤ expr.spelledWidth - 2
  | .string _ _, _, read => textWidth_ofString?_le read
  | .joined _ _, _, read => textWidth_joined?_le read
  | .name _ _, _, read => Nat.le_of_eq (textWidth_constant? read)
  | .ellipsis _, _, read => by
      rw [ofExpr?] at read
      exact Option.some.inj read ▸ Nat.zero_le _
  | .number _ _, _, read => by
      rw [ofExpr?] at read
      exact Nat.le_of_eq (textWidth_signedNumber? read)
  | .unary _ _ _, _, read => Nat.le_of_eq (textWidth_signedNumber? read)
  | .binary _ _ _ _, _, read => Nat.le_of_eq (textWidth_complexSum? read)
  | .tuple _ _, _, read => by
      obtain ⟨values, _, rfl⟩ := Option.map_eq_some_iff.mp read
      exact Nat.zero_le _
  | .list _ _, _, read => by
      obtain ⟨values, _, rfl⟩ := Option.map_eq_some_iff.mp read
      exact Nat.zero_le _
  | .set _ _, _, read => by
      obtain ⟨values, _, read⟩ := Option.bind_eq_some_iff.mp read
      unfold checkedSet? at read
      split_ifs at read
      exact Option.some.inj read ▸ Nat.zero_le _
  | .dict _ _, _, read => by
      obtain ⟨entries, _, read⟩ := Option.bind_eq_some_iff.mp read
      unfold checkedDict? at read
      split_ifs at read
      exact Option.some.inj read ▸ Nat.zero_le _
  | .call _ _ _, _, read => by
      rw [ofExpr?.eq_def] at read
      split at read
      all_goals try contradiction
      split_ifs at read
      exact Option.some.inj read ▸ Nat.zero_le _

/-- The text of a string is shorter than the text that writes it. -/
theorem textWidth_read?_le {text : String} {value : Literal} (read : read? text = some value) :
    value.textWidth ≤ text.length - 2 := by
  obtain ⟨tokens, _, read⟩ := Option.bind_eq_some_iff.mp read
  split_ifs at read
  obtain ⟨expr, isRead, read⟩ := Option.bind_eq_some_iff.mp read
  have spelled := (Expr.within_of_read? isRead).spelled
  have unified := Text.length_unifyLineEnds_le text.toList
  rw [String.length_ofList] at spelled
  rw [String.length_toList] at unified
  exact Nat.le_trans (textWidth_ofExpr?_le read) (by omega)

end Literal

end TypeCatalog
