import TypeCatalog.Text.Digits
import TypeCatalog.Text.Printable

/-! # Quoted displays of texts and bytes

A text is displayed between apostrophes, or between double quotes when it holds an apostrophe and no
double quote. The quote and the backslash are escaped by a backslash, and so are characters that are
not printable. -/

namespace TypeCatalog.Text

/-- The quote that a display of the given characters uses. -/
def quoteFor (characters : List Char) : Char :=
  if characters.contains '\'' && !characters.contains '"' then '"' else '\''

/-- The escape that a display writes for a control character or a character that ends or escapes,
if the character has a short one. -/
def shortEscape? (quote c : Char) : Option (List Char) :=
  if c = quote ∨ c = '\\' then some ['\\', c]
  else if c = '\n' then some ['\\', 'n']
  else if c = '\r' then some ['\\', 'r']
  else if c = '\t' then some ['\\', 't']
  else none

/-- The escape of a character by its code point, with as few digits as the forms allow. -/
def codeEscape (code : Nat) : List Char :=
  if code < 0x100 then '\\' :: 'x' :: hexText 2 code
  else if code < 0x10000 then '\\' :: 'u' :: hexText 4 code
  else '\\' :: 'U' :: hexText 8 code

/-- A character inside the display of a text. -/
def displayChar (quote c : Char) : List Char :=
  match shortEscape? quote c with
  | some escape => escape
  | none => if isPrintable c then [c] else codeEscape c.toNat

def display (text : String) : String :=
  let characters := text.toList
  let quote := quoteFor characters
  String.ofList (quote :: characters.flatMap (displayChar quote) ++ [quote])

/-- A byte inside a display: bytes are shown like the characters of ASCII, others by their value. -/
def displayByte (quote : Char) (byte : UInt8) : List Char :=
  let c := Char.ofNat byte.toNat
  match shortEscape? quote c with
  | some escape => escape
  | none => if 32 ≤ byte.toNat ∧ byte.toNat < 127 then [c] else codeEscape byte.toNat

def displayBytes (bytes : List UInt8) : String :=
  let quote := quoteFor (bytes.map fun byte => Char.ofNat byte.toNat)
  String.ofList ('b' :: quote :: bytes.flatMap (displayByte quote) ++ [quote])

end TypeCatalog.Text
