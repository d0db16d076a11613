import TypeCatalog.Syntax.Module
import TypeCatalog.Table
import TypeCatalog.Text.Dotted

/-! # Import tables

The import table of a module maps the names that imports bind to the qualified names they stand for.
It is the fold of the bindings of the import statements in module scope, of which the first of each
name is kept: these are the statement lines at the top level and in the indented blocks of compound
statements there, but not in classes or functions. -/

namespace TypeCatalog

open Syntax

namespace Syntax

namespace SimpleStatement

def isImport : SimpleStatement → Bool
  | .importModules _ | .importFrom _ _ _ => true
  | _ => false

end SimpleStatement

mutual

/-- The import statements of a statement that bind names in the scope around it. -/
def Statement.imports : Statement → List SimpleStatement
  | .line parts => parts.filter SimpleStatement.isImport
  | .classStatement _ _ | .functionStatement _ _ => []
  | .compound clauses => clauseImports clauses

def clauseImports : List Clause → List SimpleStatement
  | [] => []
  | .clause _ _ body :: rest => body.imports ++ clauseImports rest

/-- The import statements of a suite; only those of an indented block count. -/
def Suite.imports : Suite → List SimpleStatement
  | .inline _ => []
  | .indented body => statementImports body

def statementImports : List Statement → List SimpleStatement
  | [] => []
  | statement :: rest => statement.imports ++ statementImports rest

end

end Syntax

/-- A name in an import table and what it stands for. -/
structure Binding where
  name : String
  target : String
  deriving DecidableEq, Repr

/-- Where a module stands: its qualified name, and whether it is the module of a package. -/
structure ModuleScope where
  name : String
  isPackage : Bool

namespace ModuleScope

/-- The parts of the package that relative imports of one level start from. -/
def packageParts (scope : ModuleScope) : List String :=
  let parts := Text.dottedParts scope.name
  if scope.isPackage then parts else parts.dropLast

/-- The parts of the package that a relative import of a positive level starts from. -/
def ancestorParts (scope : ModuleScope) (level : Nat) : List String :=
  let parts := scope.packageParts
  parts.take (parts.length - (level - 1))

def importedModule (scope : ModuleScope) (level : Nat) (module : Option String) : String :=
  match module with
  | some name =>
      if level = 0 then name else Text.dotted (scope.ancestorParts level ++ [name])
  | none => Text.dotted (if level = 0 then scope.packageParts else scope.ancestorParts level)

def importedBinding (source : String) (imported : ImportedName) : Binding where
  name := match imported.alternative with
    | some alternative => alternative.text
    | none => imported.name
  target := if source = "" then imported.name else source ++ "." ++ imported.name

/-- The binding of an imported module: its alternative name stands for the module, and without one
the first part of its name stands for itself. -/
def moduleBinding (imported : ImportedName) : Binding :=
  match imported.alternative with
  | some alternative => ⟨alternative.text, imported.name⟩
  | none => ⟨Text.firstPart imported.name, Text.firstPart imported.name⟩

/-- The bindings of an import statement in source order. -/
def bindings (scope : ModuleScope) : SimpleStatement → List Binding
  | .importModules names => names.map moduleBinding
  | .importFrom level module (.names names) =>
      names.map (importedBinding (scope.importedModule level module))
  | _ => []

end ModuleScope

/-- Bind a name unless it is bound already. -/
def bindFirst (table : Table String) (binding : Binding) : Table String :=
  table.insertNew binding.name binding.target

def importTable (scope : ModuleScope) (module : Module) : Table String :=
  ((statementImports module.body).flatMap scope.bindings).foldl bindFirst Table.empty

end TypeCatalog
