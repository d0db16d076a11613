import TypeCatalog.Number.Binary64
import TypeCatalog.Table

/-! # TOML values

A document is a table. Tables keep the order of their entries; a path of keys leads through tables,
and through an array to its last item. -/

namespace TypeCatalog

/-- A value of a TOML document. -/
inductive TomlValue where
  | string (value : String)
  | bool (value : Bool)
  | integer (value : Int)
  | float (value : Binary64)
  /-- A date, a time or both, as it is written. -/
  | moment (text : String)
  | array (items : List TomlValue)
  | table (entries : List (String × TomlValue))
  deriving Inhabited

abbrev TomlEntries := List (String × TomlValue)

namespace TomlValue

def entries? : TomlValue → Option TomlEntries
  | .table entries => some entries
  | _ => none

/-- Whether a value is written as a whole, so that later statements cannot add to it. -/
def isCompound : TomlValue → Bool
  | .array _ | .table _ => true
  | _ => false

end TomlValue

namespace TomlEntries

/-- Change the table at the end of a path. Tables that are missing on the way are made; a value that
is neither a table nor an array that ends with one leads nowhere. -/
def changeAt? (change : TomlEntries → Option TomlEntries) :
    (path : List String) → TomlEntries → Option TomlEntries
  | [], entries => change entries
  | key :: rest, entries =>
      match entries.lookup key with
      | none => (changeAt? change rest []).map fun inner => setEntry entries key (.table inner)
      | some (.table inner) =>
          (changeAt? change rest inner).map fun inner => setEntry entries key (.table inner)
      | some (.array items) =>
          match items.getLast? with
          | some (.table inner) => (changeAt? change rest inner).map fun inner =>
              setEntry entries key (.array (items.dropLast ++ [.table inner]))
          | _ => none
      | some _ => none

/-- Add a value under a key that is not taken. -/
def add? (key : String) (value : TomlValue) (entries : TomlEntries) : Option TomlEntries :=
  if (entries.lookup key).isSome then none else some (entries ++ [(key, value)])

/-- Append an empty table to the array under a key, which is made when it is missing. -/
def appendTable? (key : String) (entries : TomlEntries) : Option TomlEntries :=
  match entries.lookup key with
  | none => some (entries ++ [(key, .array [.table []])])
  | some (.array items) => some (setEntry entries key (.array (items ++ [.table []])))
  | some _ => none

end TomlEntries

end TypeCatalog
