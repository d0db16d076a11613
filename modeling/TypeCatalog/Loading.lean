import TypeCatalog.Files.Discovery
import TypeCatalog.Files.Path
import TypeCatalog.Outcome
import TypeCatalog.Program.Basic

/-! # Loading programs

A program is loaded from all sources of a tree, or not at all: every source that cannot be read or
parsed is reported, and one such source keeps the program from being built. -/

namespace TypeCatalog

open Syntax

/-- Why a source gives no module. -/
inductive SourceFault where
  | unreadable
  | unparsable
  deriving DecidableEq, Repr

namespace SourceFault

def code : SourceFault → String
  | .unreadable => "read"
  | .unparsable => "parse"

end SourceFault

namespace FileNode

/-- The text of a file, with unified line ends; the bytes must be those of UTF-8. -/
def text? : FileNode → Option String
  | .file content =>
      (String.fromUTF8? content).map fun text => String.ofList (Text.unifyLineEnds text.toList)
  | .directory _ => none

def readModule (source : FileNode) : Except SourceFault Module :=
  match source.text? with
  | none => .error .unreadable
  | some text =>
      match Module.read? text with
      | some module => .ok module
      | none => .error .unparsable

end FileNode

/-- A source of a tree as it is read. -/
structure ReadSource where
  path : Path
  name : String
  module : Except SourceFault Module

/-- The sources of a tree as they are read, in order. -/
def readSources (root : Path) (tree : FileNode) (package : String) : List ReadSource :=
  tree.discover.map fun found =>
    { path := root.append found.1
      name := moduleName package found.1
      module := found.2.readModule }

namespace ReadSource

/-- What a source contributes to a program, or the fault to report with its path. -/
def outcome (source : ReadSource) :
    Except (Option (SourceFault × String)) (Option SourceModule) :=
  match source.module with
  | .ok module => .ok (some ⟨source.path.text, source.name, module⟩)
  | .error fault => .error (some (fault, source.path.text))

end ReadSource

/-- Why a program is not loaded. -/
inductive LoadFailure where
  /-- The number of workers is less than one. -/
  | noWorkers
  | faults (faults : List (SourceFault × String))

/-- The modules of a tree by at least one worker. How many workers read the sources makes no
difference, since outcomes are gathered in the order of the sources. -/
def loadModules (root : Path) (tree : FileNode) (package : String) (workers : Int) :
    Except LoadFailure (List SourceModule) :=
  if workers < 1 then .error .noWorkers
  else match gather ((readSources root tree package).map ReadSource.outcome) with
    | .ok modules => .ok modules
    | .error faults => .error (.faults faults)

def loadProgram (root : Path) (tree : FileNode) (package : String) (workers : Int) :
    Except LoadFailure Program :=
  (loadModules root tree package workers).map fun modules =>
    let program := Program.ofModules modules
    { program with
      notices := modules.map (fun module => Notice.parsed module.path) ++ program.notices }

end TypeCatalog
