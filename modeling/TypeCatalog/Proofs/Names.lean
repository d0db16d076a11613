import Mathlib.Data.List.Induction
import TypeCatalog.Text.Dotted
import TypeCatalog.Text.Identifier

/-! # Qualified names

Identifiers hold no dot, so a qualified name whose last part is an identifier comes apart in one way
(`TypeCatalog.Text.append_dot_inj`).
-/

namespace TypeCatalog

namespace Identifier

/-- A character that neither begins nor continues identifiers is in none. -/
theorem notMem (identifier : Identifier) {c : Char} (start : Text.isIdentifierStart c = false)
    (part : Text.isIdentifierPart c = false) : c ∉ identifier.text.toList := by
  have valid := identifier.valid
  unfold Text.isIdentifier at valid
  split at valid
  · exact absurd valid (by simp)
  · rename_i first rest spelled
    simp only [Bool.and_eq_true, List.all_eq_true] at valid
    rw [spelled]
    intro member
    rcases List.mem_cons.mp member with rfl | later
    · exact absurd (start.symm.trans valid.1) (by simp)
    · exact absurd (part.symm.trans (valid.2 c later)) (by simp)

theorem dot_notMem (identifier : Identifier) : '.' ∉ identifier.text.toList :=
  identifier.notMem (by decide) (by decide)

theorem slash_notMem (identifier : Identifier) : '/' ∉ identifier.text.toList :=
  identifier.notMem (by decide) (by decide)

end Identifier

namespace Text

/-- Two texts that are split at a dot with no dot behind it are split in the same place. -/
private theorem append_dot_cons_inj {left right name other : List Char}
    (same : left ++ '.' :: name = right ++ '.' :: other) (plain : '.' ∉ name)
    (otherPlain : '.' ∉ other) : left = right ∧ name = other := by
  rcases List.append_eq_append_iff.mp same with
    ⟨between, rightIs, nameIs⟩ | ⟨between, leftIs, otherIs⟩
  · cases between with
    | nil => simp_all
    | cons first between =>
        rw [List.cons_append, List.cons.injEq] at nameIs
        exact absurd (by simp [nameIs.2]) plain
  · cases between with
    | nil => simp_all
    | cons first between =>
        rw [List.cons_append, List.cons.injEq] at otherIs
        exact absurd (by simp [otherIs.2]) otherPlain

/-- A qualified name whose last part holds no dot comes apart in one way. -/
theorem append_dot_inj {left right name other : String}
    (same : left ++ "." ++ name = right ++ "." ++ other) (plain : '.' ∉ name.toList)
    (otherPlain : '.' ∉ other.toList) : left = right ∧ name = other := by
  have spelled := congrArg String.toList same
  simp only [String.toList_append, String.append_assoc] at spelled
  obtain ⟨lefts, names⟩ := append_dot_cons_inj spelled plain otherPlain
  exact ⟨String.toList_inj.mp lefts, String.toList_inj.mp names⟩

theorem dotted_concat {parts : List String} (some_ : parts ≠ []) (part : String) :
    dotted (parts ++ [part]) = dotted parts ++ "." ++ part := by
  unfold dotted
  rw [String.intercalate_append_of_ne_nil some_ (by simp), String.intercalate_singleton]

/-! ## Splitting at separators -/

theorem splitAt_append {separator : Char} {mark : String} (spelled : mark.toList = [separator])
    (left right : String) : splitAt separator (left ++ mark ++ right) =
      splitAt separator left ++ splitAt separator right := by
  rw [splitAt, String.toList_append, String.toList_append, spelled, List.append_assoc,
    List.singleton_append, List.splitOn_append_cons_self, List.map_append]
  rfl

theorem splitAt_of_notMem {separator : Char} {text : String} (plain : separator ∉ text.toList) :
    splitAt separator text = [text] := by
  rw [splitAt, List.splitOn_eq_singleton plain, List.map_singleton, String.ofList_toList]

/-- Parts without dots are the last parts of the name that they extend. -/
theorem dottedParts_dotted (package : String) {parts : List String}
    (plain : ∀ part ∈ parts, '.' ∉ part.toList) :
    dottedParts (dotted (package :: parts)) = dottedParts package ++ parts := by
  induction parts using List.reverseRecOn with
  | nil => rw [dotted, String.intercalate_singleton, List.append_nil]
  | append_singleton front last ih =>
      have before := ih fun part member => plain part (List.mem_append_left _ member)
      have single : splitAt '.' last = [last] := splitAt_of_notMem (plain last (by simp))
      rw [← List.cons_append, dotted_concat (List.cons_ne_nil _ _), dottedParts,
        splitAt_append rfl, single, ← List.append_assoc]
      exact congrArg (· ++ [last]) before

end Text

end TypeCatalog
