import TypeCatalog.Model.Symbol
import TypeCatalog.Program.Imports

/-! # Sources of a program

A program is built from a list of modules, each with a path and a qualified name. Several modules
may have one path; the places of the last of them are those that the path is known for, so only its
statements are located. -/

namespace TypeCatalog

open Syntax

/-- A module of a program as it is given. -/
structure SourceModule where
  path : String
  name : String
  module : Module
  deriving Inhabited

namespace SourceModule

/-- The last part of a path, behind its last slash; single dots and repeated slashes count for
nothing. -/
def fileName (path : String) : String :=
  let named := (Text.splitAt '/' path).filter fun part => part ≠ "" && part ≠ "."
  named.getLastD ""

def isPackage (source : SourceModule) : Bool := fileName source.path == "__init__.py"

def imports (source : SourceModule) : Table String :=
  importTable ⟨source.name, source.isPackage⟩ source.module

end SourceModule

/-- A module among the other modules of its program. -/
structure SourceUnit extends SourceModule where
  /-- Its place among the modules. -/
  number : Nat
  /-- Whether no later module has its path. -/
  isLastOfPath : Bool
  imports : Table String
  deriving Inhabited

namespace SourceUnit

def locationOf (unit : SourceUnit) (place : Place) : Location :=
  ⟨unit.path, place.line, place.column⟩

/-- A place in a unit, if its path is known for it. -/
def locate (unit : SourceUnit) (place : Place) : Option Location :=
  if unit.isLastOfPath then some (unit.locationOf place) else none

def numberedFrom (number : Nat) : List SourceModule → List SourceUnit
  | [] => []
  | source :: rest =>
      { toSourceModule := source
        number := number
        isLastOfPath := !(rest.map SourceModule.path).contains source.path
        imports := source.imports } :: numberedFrom (number + 1) rest

def ofModules (sources : List SourceModule) : List SourceUnit := numberedFrom 0 sources

/-- Units stand for their modules in order. -/
theorem map_toSourceModule_numberedFrom (number : Nat) (sources : List SourceModule) :
    (numberedFrom number sources).map toSourceModule = sources := by
  induction sources generalizing number with
  | nil => rfl
  | cons source rest ih => simp [numberedFrom, ih]

end SourceUnit

end TypeCatalog
