import TypeCatalog.Literal.Display
import TypeCatalog.Notice
import TypeCatalog.Settings.Basic
import TypeCatalog.Toml.Document

/-! # Reading settings

Settings stand in a table of a TOML document. Each of them is a text that is not empty; other keys of
the table are ignored with a notice, and so is everything outside it. -/

namespace TypeCatalog

/-- Why settings cannot be read. -/
inductive SettingsFault where
  /-- The file does not hold UTF-8 text. -/
  | undecodable
  /-- The text is no document. -/
  | malformed
  /-- The document holds an integer that is too long to be converted. -/
  | integerTooLong
  /-- A setting is no text, or an empty one. -/
  | notText (key : String)
  deriving DecidableEq, Repr

namespace SettingsFault

/-- The fault of settings whose document has a fault. -/
def ofToml : Toml.Fault → SettingsFault
  | .malformed => .malformed
  | .integerTooLong => .integerTooLong

/-- The wording of a fault that settings have beyond those of their document. -/
def message? : SettingsFault → Option String
  | .notText key => some ("tool.serialschema." ++ key ++ " must be a non-empty string")
  | _ => none

end SettingsFault

namespace Settings

def keys : List String := ["optional_wrapper", "root_base", "type_attribute"]

/-- The table of a document that holds settings. -/
def table? (document : TomlEntries) : Option TomlEntries := do
  let tool ← (← document.lookup "tool").entries?
  (← tool.lookup "serialschema").entries?

def textOf (table : TomlEntries) (key : String) : Except SettingsFault (Option String) :=
  match table.lookup key with
  | none => .ok none
  | some (.string "") => .error (.notText key)
  | some (.string text) => .ok (some text)
  | some _ => .error (.notText key)

def ofTable (table : TomlEntries) : Except SettingsFault Settings := do
  let wrapper ← textOf table "optional_wrapper"
  let root ← textOf table "root_base"
  let marker ← textOf table "type_attribute"
  return {
    optionalWrapper := wrapper.getD defaultOptionalWrapper
    rootBase := root
    typeAttribute := marker }

/-- The notices of keys of a table that are no settings. -/
def unknownKeys (path : String) (table : TomlEntries) : List Notice :=
  match (table.map Prod.fst).filter fun key => !keys.contains key with
  | [] => []
  | unknown => [.ignoredSettings (Literal.sortTexts unknown) path]

/-- The settings that a document holds, with the notices of reading them. -/
def ofDocument (path : String) (document : TomlEntries) :
    Except SettingsFault (Settings × List Notice) :=
  match table? document with
  | none => .ok ({}, [])
  | some table => (ofTable table).map fun settings => (settings, unknownKeys path table)

/-- The settings that the bytes of a file hold, with the notices of reading them. -/
def ofBytes (path : String) (bytes : ByteArray) :
    Except SettingsFault (Settings × List Notice) := do
  match String.fromUTF8? bytes with
  | none => .error .undecodable
  | some text =>
      let document ← (Toml.read text).mapError SettingsFault.ofToml
      ofDocument path document

end Settings

end TypeCatalog
