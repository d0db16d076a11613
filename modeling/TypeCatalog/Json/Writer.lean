import TypeCatalog.Json.Basic
import TypeCatalog.Number.Decimal
import TypeCatalog.Text.Digits

/-! # JSON text

A value is written on one line, in ASCII, with a blank after every comma and colon and the members
of every object in the order of the code points of their keys. Infinite numbers are written as the
words `Infinity` and `-Infinity`, which readers of the permissive dialect accept. -/

namespace TypeCatalog

/-- Floating-point numbers in JSON text are written like plain numbers, with words of their own for
the values that are not finite. -/
def DecimalStyle.json : DecimalStyle :=
  { DecimalStyle.plain with infinite := "Infinity", undefined := "NaN" }

namespace Json

def escapeUnit (unit : Nat) : List Char := '\\' :: 'u' :: Text.hexText 4 unit

/-- A character inside a quoted text. Characters beyond ASCII are escaped by their 16-bit units. -/
def escapeChar (c : Char) : List Char :=
  if c = '"' then ['\\', '"']
  else if c = '\\' then ['\\', '\\']
  else if c = '\n' then ['\\', 'n']
  else if c = '\r' then ['\\', 'r']
  else if c = '\t' then ['\\', 't']
  else if c.toNat = 8 then ['\\', 'b']
  else if c.toNat = 12 then ['\\', 'f']
  else if 32 ≤ c.toNat ∧ c.toNat < 127 then [c]
  else if c.toNat < 0x10000 then escapeUnit c.toNat
  else
    let offset := c.toNat - 0x10000
    escapeUnit (0xD800 + offset / 0x400) ++ escapeUnit (0xDC00 + offset % 0x400)

def quote (text : String) : String :=
  String.ofList ('"' :: text.toList.flatMap escapeChar ++ ['"'])

/-- Members in the order of their keys. -/
def sortMembers {α : Type} (members : List (String × α)) : List (String × α) :=
  members.mergeSort fun left right => decide (left.1 ≤ right.1)

mutual

/-- The text of a value. -/
def write : Json → String
  | .null => "null"
  | .bool true => "true"
  | .bool false => "false"
  | .int value => toString value
  | .float value => DecimalStyle.json.text value
  | .string value => quote value
  | .array items => "[" ++ ", ".intercalate (writeItems items) ++ "]"
  | .object members =>
      let written := sortMembers (writeMembers members)
      "\x7b" ++ ", ".intercalate (written.map fun entry => quote entry.1 ++ ": " ++ entry.2) ++
        "\x7d"

/-- The texts of the items of an array. -/
def writeItems : List Json → List String
  | [] => []
  | item :: rest => write item :: writeItems rest

/-- The keys of an object with the texts of their values. -/
def writeMembers : List (String × Json) → List (String × String)
  | [] => []
  | (key, value) :: rest => (key, write value) :: writeMembers rest

end

end Json

end TypeCatalog
