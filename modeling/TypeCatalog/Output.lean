import TypeCatalog.Files.Node
import TypeCatalog.Files.Path
import TypeCatalog.Json.Writer
import TypeCatalog.Schema.TypeDescription

/-! # Writing records

Records are written to a directory: one line each in `types.jsonl`, and what goes with them in
`manifest.json`. The directory is made when it is missing; a file in the way of a directory, a
directory in the way of a file or a place that is locked stops the writing where it stands. -/

namespace TypeCatalog

/-- The name and the version of this tool. -/
def toolName : String := "serialschema"

def toolVersion : String := "0.1.0"

/-- What goes with written records. -/
structure Manifest where
  package : String
  extractedAt : String
  typeCount : Nat

namespace Manifest

def toJson (manifest : Manifest) : Json :=
  .object [("package", .string manifest.package), ("extracted_at", .string manifest.extractedAt),
    ("tool", .string toolName), ("tool_version", .string toolVersion),
    ("schema_version", .string Schema.version), ("type_count", .int manifest.typeCount)]

end Manifest

/-- Records as text, each on a line of its own. -/
def linesOf (records : List Json) : String :=
  String.join (records.map fun record => record.write ++ "\n")

def textFile (text : String) : FileNode := .file text.toUTF8

def recordsFile : String := "types.jsonl"

def manifestFile : String := "manifest.json"

/-- The files after writing, and whether everything was written. -/
structure Written where
  root : FileNode
  complete : Bool

/-- Write a file, unless a directory stands in the way or its place is locked. -/
def writeFile (locked : List String → Bool) (root : FileNode) (path : List String) (text : String) :
    Written :=
  if root.hasDirectory path || locked path then ⟨root, false⟩
  else ⟨root.put path (textFile text), true⟩

/-- Write records and their manifest to a directory, seen from the current directory. Nothing can be
made or opened for writing at the locked places, whatever the reason is. -/
def emit (locked : List String → Bool) (root : FileNode) (current : List String) (out : Path)
    (records : List Json) (manifest : Manifest) : Written :=
  let made := root.makeDirectories locked (out.origin current) out.names
  match made.directory? with
  | none => ⟨made.root, false⟩
  | some directory =>
      let written := writeFile locked made.root (directory ++ [recordsFile]) (linesOf records)
      if written.complete then
        writeFile locked written.root (directory ++ [manifestFile]) manifest.toJson.write
      else written

end TypeCatalog
