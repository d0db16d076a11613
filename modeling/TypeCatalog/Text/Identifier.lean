import TypeCatalog.Text.IdentifierRanges

/-! # Identifiers

A name of the source language is a letter, an underscore or another character with the property
`XID_Start`, followed by characters with the property `XID_Continue`. An `Identifier` is a text with
a proof that it has this form, so an identifier is never empty and never holds a dot. -/

namespace TypeCatalog.Text

/-- Whether a code point lies in one of the given inclusive ranges. -/
def inRanges (ranges : List (Nat × Nat)) (code : Nat) : Bool :=
  ranges.any fun range => decide (range.1 ≤ code) && decide (code ≤ range.2)

def isIdentifierStart (c : Char) : Bool :=
  if c.toNat < 128 then c.isAlpha || c == '_'
  else inRanges identifierStartRanges c.toNat

def isIdentifierPart (c : Char) : Bool :=
  if c.toNat < 128 then c.isAlphanum || c == '_'
  else inRanges identifierStartRanges c.toNat || inRanges identifierExtendRanges c.toNat

def isIdentifier (text : String) : Bool :=
  match text.toList with
  | [] => false
  | first :: rest => isIdentifierStart first && rest.all isIdentifierPart

end TypeCatalog.Text

namespace TypeCatalog

/-- A text of the form of an identifier. -/
structure Identifier where
  text : String
  valid : Text.isIdentifier text = true

namespace Identifier

instance : DecidableEq Identifier := fun left right =>
  if same : left.text = right.text then
    isTrue (by cases left; cases right; cases same; rfl)
  else isFalse fun equal => same (congrArg Identifier.text equal)

/-- The identifier a text spells, if it has the form of one. -/
def ofString? (text : String) : Option Identifier :=
  if valid : Text.isIdentifier text = true then some ⟨text, valid⟩ else none

instance : Inhabited Identifier := ⟨⟨"_", by decide +kernel⟩⟩

theorem text_ne_empty (identifier : Identifier) : identifier.text ≠ "" := by
  intro empty
  have valid := identifier.valid
  rw [empty] at valid
  simp [Text.isIdentifier] at valid

theorem not_isIdentifierPart_dot : Text.isIdentifierPart '.' = false := by decide

end Identifier

end TypeCatalog
