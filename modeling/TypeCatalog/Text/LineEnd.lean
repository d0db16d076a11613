/-! # Line ends

A line ends with a line feed, a carriage return, or a carriage return followed by a line feed. -/

namespace TypeCatalog.Text

/-- Write every line end as a line feed. -/
def unifyLineEnds : List Char → List Char
  | [] => []
  | '\r' :: '\n' :: rest => '\n' :: unifyLineEnds rest
  | '\r' :: rest => '\n' :: unifyLineEnds rest
  | c :: rest => c :: unifyLineEnds rest

/-- The line end that comes first in a text, a line feed when there is none. -/
def firstLineEnd : List Char → List Char
  | [] => ['\n']
  | '\n' :: _ => ['\n']
  | '\r' :: '\n' :: _ => ['\r', '\n']
  | '\r' :: _ => ['\r']
  | _ :: rest => firstLineEnd rest

/-- A text without carriage returns has its line ends unified already. -/
theorem unifyLineEnds_of_notMem {text : List Char} (absent : '\r' ∉ text) :
    unifyLineEnds text = text := by
  induction text with
  | nil => rfl
  | cons c rest ih =>
      have different : c ≠ '\r' := fun same => absent (by simp [same])
      have later : '\r' ∉ rest := fun member => absent (by simp [member])
      rw [unifyLineEnds, ih later]
      · intro _ same
        exact (different same).elim
      · intro same
        exact different same

end TypeCatalog.Text
