import TypeCatalog.Files.Node
import TypeCatalog.Text.Dotted

/-! # Discovering sources

The sources of a tree are all entries below its root whose names end in `.py`, directories of such
names included, in the order of their paths compared name by name. Each stands for a module. -/

namespace TypeCatalog

/-- The ending of the names of sources. -/
def sourceSuffix : String := ".py"

def isSourceName (name : String) : Bool := sourceSuffix.toList.isSuffixOf name.toList

namespace FileNode

mutual

/-- The paths of the sources below a node, with the sources. -/
def sources : FileNode → List (List String × FileNode)
  | .file _ => []
  | .directory entries => sourcesAmong entries

/-- The paths of the sources among entries and below them, with the sources. -/
def sourcesAmong : List (String × FileNode) → List (List String × FileNode)
  | [] => []
  | (name, node) :: rest =>
      let inner := node.sources.map fun found => (name :: found.1, found.2)
      (if isSourceName name then ([name], node) :: inner else inner) ++ sourcesAmong rest

end

/-- Whether a path comes no later than another. The first names that differ decide, and a path
comes before its continuations. -/
def noLater : List String → List String → Bool
  | [], _ => true
  | _ :: _, [] => false
  | left :: lefts, right :: rights =>
      if left = right then noLater lefts rights else decide (left ≤ right)

/-- The sources of a tree in the order of their paths. -/
def discover (root : FileNode) : List (List String × FileNode) :=
  root.sources.mergeSort fun left right => noLater left.1 right.1

end FileNode

/-- The name of the module of a package without its ending. -/
def packageModule : String := "__init__"

/-- The name of a source without its ending; a name that is nothing but the ending stays. -/
def stemOf (name : String) : String :=
  if name = sourceSuffix then name
  else String.ofList (name.toList.take (name.toList.length - sourceSuffix.toList.length))

/-- The parts that a source adds to the name of its package. -/
def moduleParts : List String → List String
  | [] => []
  | [name] => if stemOf name = packageModule then [] else [stemOf name]
  | name :: rest => name :: moduleParts rest

/-- The qualified name of the module that a source stands for. -/
def moduleName (package : String) (path : List String) : String :=
  Text.dotted (package :: moduleParts path)

end TypeCatalog
