import TypeCatalog.Toml.Scalar

/-! # TOML documents

A document is read statement by statement: headers of tables, headers of items of arrays of tables,
and entries. A value that is written as a whole is frozen: nothing can be added to it or below it. A
table may be declared by one header only; tables that the dotted key of an entry leads through count
as declared from the next header on. -/

namespace TypeCatalog.Toml

/-- A reader: takes from the front of a text, or tells what is wrong. -/
abbrev Reader := StateT (List Char) (Except Fault)

namespace Reader

variable {α : Type}

/-- Fail on a text that is no document. -/
def malformed : Reader α := throw .malformed

/-- Take what an optional reader takes. -/
def ofOption (read : List Char → Option (α × List Char)) : Reader α := do
  match read (← get) with
  | some (result, rest) =>
      set rest
      return result
  | none => malformed

def require (value : Option α) : Reader α :=
  match value with
  | some value => return value
  | none => malformed

def skip (test : Char → Bool) : Reader Unit := modify (·.dropWhile test)

/-- Take a word if it comes next. -/
def accept (word : String) : Reader Bool := do
  match afterWord? word (← get) with
  | some rest =>
      set rest
      return true
  | none => return false

/-- Take a word that must come next. -/
def expect (word : String) : Reader Unit := do
  if !(← accept word) then malformed

end Reader

/-! ## Comments and keys -/

/-- What follows a comment, if one comes next. -/
def afterComment? (text : List Char) : Option (List Char) :=
  match text with
  | '#' :: rest =>
      if (rest.takeWhile (· != '\n')).any isForbidden then none
      else some (rest.dropWhile (· != '\n'))
  | _ => some text

/-- What follows blanks, line ends and comments. -/
def afterFiller? : (fuel : Nat) → List Char → Option (List Char)
  | 0, _ => none
  | fuel + 1, text =>
      match text.dropWhile isFiller with
      | '#' :: rest => (afterComment? ('#' :: rest)).bind (afterFiller? fuel)
      | rest => some rest

/-- Skip blanks, line ends and comments. -/
def skipFiller : Reader Unit :=
  .ofOption fun text => (afterFiller? (text.length + 1) text).map fun rest => ((), rest)

/-- Whether a character may stand in a key without quotes. -/
def isBareKeyChar (c : Char) : Bool := c.isAlphanum || c == '-' || c == '_'

def readKeyPart? (text : List Char) : Option (String × List Char) :=
  match text.takeWhile isBareKeyChar with
  | [] => (readLine? text).map fun (characters, rest) => (String.ofList characters, rest)
  | bare => some (String.ofList bare, text.dropWhile isBareKeyChar)

/-- Further parts of a key, each behind a dot. -/
def keyParts : (fuel : Nat) → Reader (List String)
  | 0 => Reader.malformed
  | fuel + 1 => do
      Reader.skip isBlank
      if ← Reader.accept "." then
        Reader.skip isBlank
        let part ← Reader.ofOption readKeyPart?
        let parts ← keyParts fuel
        return part :: parts
      else return []

/-- A dotted key, with the blanks behind it: the parts before the last, and the last. -/
structure Key where
  path : List String
  last : String
  deriving DecidableEq, Repr, Inhabited

namespace Key

def parts (key : Key) : List String := key.path ++ [key.last]

def ofParts : String → List String → Key
  | first, [] => ⟨[], first⟩
  | first, second :: rest =>
      let key := ofParts second rest
      ⟨first :: key.path, key.last⟩

end Key

def key : Reader Key := do
  let first ← Reader.ofOption readKeyPart?
  let parts ← keyParts ((← get).length + 1)
  return Key.ofParts first parts

/-- Whether a path leads into one of the given values that are written as a whole. -/
def leadsInto (frozen : List (List String)) (path : List String) : Bool :=
  frozen.any fun value => value.isPrefixOf path

/-! ## Values -/

mutual

def value : (fuel : Nat) → Reader TomlValue
  | 0 => Reader.malformed
  | fuel + 1 => do
      match ← get with
      | '"' :: _ | '\'' :: _ =>
          let characters ← Reader.ofOption readString?
          return .string (String.ofList characters)
      | '[' :: rest => do
          set rest
          skipFiller
          return .array (← items fuel)
      | '{' :: rest => do
          set rest
          Reader.skip isBlank
          if ← Reader.accept "\x7d" then return .table []
          else return .table (← pairs fuel [] [])
      | text => do
          let (found, rest) ← readPlain text
          set rest
          return found

/-- The items of an array up to its closing bracket. -/
def items : (fuel : Nat) → Reader (List TomlValue)
  | 0 => Reader.malformed
  | fuel + 1 => do
      if ← Reader.accept "]" then return []
      else
        let item ← value fuel
        skipFiller
        if ← Reader.accept "]" then return [item]
        else
          Reader.expect ","
          skipFiller
          return item :: (← items fuel)

/-- The entries of an inline table up to its closing brace, after the given ones. -/
def pairs : (fuel : Nat) → (frozen : List (List String)) → TomlEntries → Reader TomlEntries
  | 0, _, _ => Reader.malformed
  | fuel + 1, frozen, entries => do
      let key ← key
      Reader.expect "="
      Reader.skip isBlank
      let added ← value fuel
      if leadsInto frozen key.parts then Reader.malformed
      else
        let entries ← Reader.require
          (TomlEntries.changeAt? (TomlEntries.add? key.last added) key.path entries)
        Reader.skip isBlank
        if ← Reader.accept "\x7d" then return entries
        else
          Reader.expect ","
          Reader.skip isBlank
          let frozen := if added.isCompound then key.parts :: frozen else frozen
          pairs fuel frozen entries

end

/-! ## Statements -/

/-- What has been read of a document. -/
structure Document where
  entries : TomlEntries := []
  /-- The table that entries are added to. -/
  header : List String := []
  /-- The values that are written as a whole. -/
  frozen : List (List String) := []
  /-- The tables that no header may declare any more. -/
  declared : List (List String) := []
  /-- The tables that will count as declared from the next header on. -/
  pending : List (List String) := []

namespace Document

/-- Add an entry below the current header. -/
def addEntry? (document : Document) (key : Key) (value : TomlValue) : Option Document := do
  let passed := (List.range key.path.length).map fun count =>
    document.header ++ key.path.take (count + 1)
  let path := document.header ++ key.path
  if passed.any document.declared.contains || leadsInto document.frozen path then none
  else
    let entries ← TomlEntries.changeAt? (TomlEntries.add? key.last value) path document.entries
    return { document with
      entries := entries
      frozen :=
        if value.isCompound then (document.header ++ key.parts) :: document.frozen
        else document.frozen
      pending := passed ++ document.pending }

/-- Let the tables that are pending count as declared. -/
def settle (document : Document) : Document :=
  { document with declared := document.pending ++ document.declared, pending := [] }

/-- Declare a table and make it current. -/
def openTable? (document : Document) (key : Key) : Option Document := do
  let path := key.parts
  if document.declared.contains path || leadsInto document.frozen path then none
  else
    let entries ← TomlEntries.changeAt? some path document.entries
    return { document with
      entries := entries, header := path, declared := path :: document.declared }

/-- Append a table to an array of tables and make it current. What was declared below the array's
last table may be declared anew. -/
def openItem? (document : Document) (key : Key) : Option Document := do
  let path := key.parts
  let outside (other : List String) : Bool := !path.isPrefixOf other
  if leadsInto document.frozen path then none
  else
    let entries ← TomlEntries.changeAt? (TomlEntries.appendTable? key.last) key.path
      document.entries
    return { document with
      entries := entries
      header := path
      frozen := document.frozen.filter outside
      declared := path :: document.declared.filter outside }

/-- Read a statement, if one comes next, with the blanks behind it. -/
def statement (document : Document) : Reader Document := do
  if ← Reader.accept "[[" then
    Reader.skip isBlank
    let key ← key
    let document ← Reader.require (document.settle.openItem? key)
    Reader.expect "]]"
    Reader.skip isBlank
    return document
  else if ← Reader.accept "[" then
    Reader.skip isBlank
    let key ← key
    let document ← Reader.require (document.settle.openTable? key)
    Reader.expect "]"
    Reader.skip isBlank
    return document
  else
    match ← get with
    | [] => return document
    | c :: _ =>
        if c == '\n' || c == '#' then return document
        else
          let key ← key
          Reader.expect "="
          Reader.skip isBlank
          let added ← value (2 * (← get).length + 2)
          let document ← Reader.require (document.addEntry? key added)
          Reader.skip isBlank
          return document

def statements : (fuel : Nat) → Document → Reader Document
  | 0, _ => Reader.malformed
  | fuel + 1, document => do
      Reader.skip isBlank
      let document ← document.statement
      Reader.ofOption fun text => (afterComment? text).map fun rest => ((), rest)
      match ← get with
      | [] => return document
      | '\n' :: rest => do
          set rest
          statements fuel document
      | _ => Reader.malformed

end Document

/-- A text with every carriage return before a line feed left out. -/
def joinLineEnds : List Char → List Char
  | '\r' :: '\n' :: rest => '\n' :: joinLineEnds rest
  | c :: rest => c :: joinLineEnds rest
  | [] => []

/-- The document that a text writes. -/
def read (text : String) : Except Fault TomlEntries := do
  let characters := joinLineEnds text.toList
  let (document, _) ← Document.statements (characters.length + 1) {} characters
  return document.entries

end TypeCatalog.Toml
