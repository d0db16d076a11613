import TypeCatalog.Files.Discovery

/-! # Finding modules by name

A dotted name is looked up part by part: the first part in the directories of a search path, every
further part in the directory of the package before it. A directory with a package module, or a
module file, counts wherever it is found; a directory without a package module counts when nothing
else does. -/

namespace TypeCatalog

/-- What a module name stands for. -/
inductive FoundModule where
  | package (directory : List String)
  | moduleFile (directory : List String)

namespace FoundModule

/-- The directory of a package, or the directory in which a module file stands. -/
def directory : FoundModule → List String
  | .package directory | .moduleFile directory => directory

end FoundModule

namespace FileNode

variable (root : FileNode)

/-- A package with a package module, or a module file, in a directory. -/
def regularModule? (name : String) (directory : List String) : Option FoundModule :=
  let inner := directory ++ [name]
  if root.hasFile (inner ++ [packageModule ++ sourceSuffix]) then some (.package inner)
  else if root.hasFile (directory ++ [name ++ sourceSuffix]) then some (.moduleFile directory)
  else none

def namespacePackage? (name : String) (directory : List String) : Option FoundModule :=
  let inner := directory ++ [name]
  if root.hasDirectory inner then some (.package inner) else none

/-- What the last part of a name stands for in directories. A part is never empty. -/
def findModule? (directories : List (List String)) (name : String) : Option FoundModule :=
  if name = "" then none
  else directories.findSome? (root.regularModule? name) <|>
    directories.findSome? (root.namespacePackage? name)

/-- What a name stands for, given by its parts: an error when a part before the last stands for no
package, nothing when the last part stands for no module. -/
def findParts (directories : List (List String)) :
    List String → Except Unit (Option FoundModule)
  | [] => .ok none
  | [name] => .ok (root.findModule? directories name)
  | name :: rest =>
      match root.findModule? directories name with
      | some (.package found) => findParts [found] rest
      | _ => .error ()

/-- What a dotted name stands for. Relative names stand for nothing. -/
def findModule (searchPath : List (List String)) (name : String) :
    Except Unit (Option FoundModule) :=
  if name.toList.head? = some '.' then .error ()
  else root.findParts searchPath (Text.dottedParts name)

end FileNode

end TypeCatalog
