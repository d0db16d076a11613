import TypeCatalog.Table

/-! # Files and directories

A node of a file system is a file with its bytes, or a directory with named nodes. -/

namespace TypeCatalog

/-- A file or a directory. -/
inductive FileNode where
  | file (content : ByteArray)
  | directory (entries : List (String × FileNode))
  deriving Inhabited

namespace FileNode

def entries : FileNode → List (String × FileNode)
  | .file _ => []
  | .directory entries => entries

def isFile : FileNode → Bool
  | .file _ => true
  | .directory _ => false

def isDirectory (node : FileNode) : Bool := !node.isFile

/-- The node at the end of a path. -/
def at? (root : FileNode) : List String → Option FileNode
  | [] => some root
  | name :: rest => (root.entries.lookup name).bind fun inner => inner.at? rest

/-- Put a node at the end of a path. Directories that are missing on the way are made. -/
def put (root : FileNode) (path : List String) (content : FileNode) : FileNode :=
  match path with
  | [] => content
  | name :: rest =>
      let inner := (root.entries.lookup name).getD (.directory [])
      .directory (setEntry root.entries name (inner.put rest content))

/-- Whether a file stands at the end of a path. -/
def hasFile (root : FileNode) (path : List String) : Bool := (root.at? path).any isFile

/-- Whether a directory stands at the end of a path. -/
def hasDirectory (root : FileNode) (path : List String) : Bool :=
  (root.at? path).any isDirectory

/-- What making directories leaves behind: the files, and where the path leads when it could be
followed to its end. -/
structure MadeDirectories where
  root : FileNode
  directory? : Option (List String)

/-- Make the directories that a path leads through, starting from a directory. A file on the way
makes this impossible from there on, and so does a place that is locked. -/
def makeDirectories (locked : List String → Bool) (root : FileNode) (directory : List String) :
    List String → MadeDirectories
  | [] => ⟨root, some directory⟩
  | ".." :: rest => makeDirectories locked root directory.dropLast rest
  | name :: rest =>
      let inner := directory ++ [name]
      match root.at? inner with
      | some (.directory _) => makeDirectories locked root inner rest
      | some (.file _) => ⟨root, none⟩
      | none =>
          if locked inner then ⟨root, none⟩
          else makeDirectories locked (root.put inner (.directory [])) inner rest

end FileNode

end TypeCatalog
