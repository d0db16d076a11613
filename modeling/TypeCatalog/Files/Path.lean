import TypeCatalog.Text.Dotted

/-! # Paths

A path is a list of names behind an anchor: no anchor for a relative path, one slash for an absolute
one, and two slashes where a text begins with exactly two. Single dots and repeated slashes count for
nothing; double dots are names like others until a path is resolved. -/

namespace TypeCatalog

/-- A path to a file or directory. -/
structure Path where
  anchor : String
  names : List String
  deriving DecidableEq, Repr, Inhabited

namespace Path

/-- The anchor that a text begins with. -/
def anchorOf : List Char → String
  | '/' :: '/' :: '/' :: _ => "/"
  | '/' :: '/' :: _ => "//"
  | '/' :: _ => "/"
  | _ => ""

def ofText (text : String) : Path where
  anchor := anchorOf text.toList
  names := (Text.splitAt '/' text).filter fun name => name ≠ "" && name ≠ "."

def absolute (names : List String) : Path := ⟨"/", names⟩

/-- The text that spells a path; a dot stands for the path without names. -/
def text (path : Path) : String :=
  if path.anchor = "" ∧ path.names = [] then "."
  else path.anchor ++ "/".intercalate path.names

def append (path : Path) (names : List String) : Path :=
  { path with names := path.names ++ names }

/-- The last name of a path, empty when it has none. -/
def fileName (path : Path) : String := path.names.getLastD ""

/-- Follow names from a directory given by its names: double dots lead one step up. -/
def follow : (directory : List String) → List String → List String
  | directory, [] => directory
  | directory, ".." :: rest => follow directory.dropLast rest
  | directory, name :: rest => follow (directory ++ [name]) rest

/-- Where the names of a path are followed from: the root, or the current directory. -/
def origin (path : Path) (current : List String) : List String :=
  if path.anchor = "" then current else []

/-- The names of the absolute path that a path stands for in the current directory. -/
def resolve (path : Path) (current : List String) : List String :=
  follow (path.origin current) path.names

end Path

end TypeCatalog
