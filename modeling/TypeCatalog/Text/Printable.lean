import TypeCatalog.Text.Identifier
import TypeCatalog.Text.PrintableRanges

/-! # Printable characters

Printable are the visible characters of ASCII, the blank, and beyond ASCII the characters listed in
`printableRanges`. -/

namespace TypeCatalog.Text

/-- Whether a quoted display shows a character as it is. -/
def isPrintable (c : Char) : Bool :=
  if c.toNat < 128 then decide (32 ≤ c.toNat) && decide (c.toNat < 127)
  else inRanges printableRanges c.toNat

end TypeCatalog.Text
