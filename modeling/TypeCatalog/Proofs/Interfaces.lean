import TypeCatalog.Proofs.BareClasses
import TypeCatalog.Proofs.ModuleClasses
import TypeCatalog.Proofs.Overrides

/-! # Interfaces of modules

The interface of a module is what is left of it without the bodies of functions in which no class
stands, the values of annotated assignments, and the simple statements that are neither imports nor
fields of a class. Programs of modules with equal interfaces are described alike, but for locations
(`TypeCatalog.Program.describe_of_sameInterface`).
-/

namespace TypeCatalog

open Syntax

/-! ## Interfaces -/

namespace Syntax

/-- An import, or an annotated assignment where it is a field, without its value. -/
def SimpleStatement.interface? (isField : Bool) : SimpleStatement → Option SimpleStatement
  | .annotated target type _ =>
      if isField then some (.annotated target.unplaced type.unplaced none) else none
  | .other _ _ => none
  | importing => some importing

mutual

/-- What is left of a statement, a line for each simple statement. The fields of classes are kept
or not; they are annotated assignments in the body of the class itself. -/
def Statement.interface (fields inClass : Bool) : Statement → List Statement
  | .line parts =>
      (parts.filterMap (SimpleStatement.interface? inClass)).map fun part => .line [part]
  | .classStatement header body =>
      [.classStatement header.unplaced (body.interface fields fields)]
  | .functionStatement header body =>
      let left := if body.classHeaders.isEmpty then .indented [] else body.interface fields false
      [.functionStatement header.unplaced left]
  | .compound clauses => [.compound (clauseInterfaces fields clauses)]

def clauseInterfaces (fields : Bool) : List Clause → List Clause
  | [] => []
  | .clause kind head body :: rest =>
      .clause kind (head.map Expr.unplaced) (body.interface fields false) ::
        clauseInterfaces fields rest

/-- What is left of a suite. A suite of which nothing is left is the same on the line of its colon
as in a block. -/
def Suite.interface (fields inClass : Bool) : Suite → Suite
  | .inline parts =>
      let left := parts.filterMap (SimpleStatement.interface? inClass)
      if left.isEmpty then .indented [] else .inline left
  | .indented body => .indented (statementInterfaces fields inClass body)

def statementInterfaces (fields inClass : Bool) : List Statement → List Statement
  | [] => []
  | statement :: rest =>
      statement.interface fields inClass ++ statementInterfaces fields inClass rest

end

end Syntax

/-! ## Imports -/

namespace Syntax

theorem statementImports_append (front behind : List Statement) :
    statementImports (front ++ behind) = statementImports front ++ statementImports behind := by
  induction front with
  | nil => rfl
  | cons statement rest ih =>
      rw [List.cons_append, statementImports, statementImports, ih, List.append_assoc]

theorem statementImports_lines (fields : Bool) (parts : List SimpleStatement) :
    statementImports ((parts.filterMap (SimpleStatement.interface? fields)).map
      fun part => .line [part]) = parts.filter SimpleStatement.isImport := by
  induction parts with
  | nil => rfl
  | cons part rest ih =>
      cases part with
      | annotated target type value =>
          cases fields <;> exact ih
      | other kind parts => exact ih
      | importModules names => exact congrArg (SimpleStatement.importModules names :: ·) ih
      | importFrom level module names =>
          exact congrArg (SimpleStatement.importFrom level module names :: ·) ih

theorem Suite.imports_interface_inline (fields inClass : Bool) (parts : List SimpleStatement) :
    ((Suite.inline parts).interface fields inClass).imports = [] := by
  rw [Suite.interface]
  split <;> rfl

mutual

/-- Interfaces have the imports of their statements. -/
theorem statementImports_interface (fields inClass : Bool) : ∀ statement : Statement,
    statementImports (statement.interface fields inClass) = statement.imports
  | .line parts => by
      rw [Statement.interface, statementImports_lines, Statement.imports]
  | .classStatement header body => by rw [Statement.interface]; rfl
  | .functionStatement header body => by rw [Statement.interface]; rfl
  | .compound clauses => by
      rw [Statement.interface, statementImports, Statement.imports, Statement.imports,
        clauseImports_interfaces fields clauses, statementImports, List.append_nil]

theorem clauseImports_interfaces (fields : Bool) : ∀ clauses : List Clause,
    clauseImports (clauseInterfaces fields clauses) = clauseImports clauses
  | [] => by rw [clauseInterfaces]
  | .clause kind head body :: rest => by
      rw [clauseInterfaces, clauseImports, clauseImports, Suite.imports_interface fields false body,
        clauseImports_interfaces fields rest]

theorem Suite.imports_interface (fields inClass : Bool) : ∀ suite : Suite,
    (suite.interface fields inClass).imports = suite.imports
  | .inline parts => by rw [Suite.imports_interface_inline, Suite.imports]
  | .indented body => by
      rw [Suite.interface, Suite.imports, Suite.imports,
        statementImports_interfaces fields inClass body]

theorem statementImports_interfaces (fields inClass : Bool) : ∀ statements : List Statement,
    statementImports (statementInterfaces fields inClass statements) = statementImports statements
  | [] => by rw [statementInterfaces]
  | statement :: rest => by
      rw [statementInterfaces, statementImports_append, statementImports,
        statementImports_interface fields inClass statement,
        statementImports_interfaces fields inClass rest]

end

end Syntax

/-! ## Class statements -/

namespace ClassSite

/-- The interface of a class statement where it stands. -/
def interface (fields : Bool) (site : ClassSite) : ClassSite where
  unit := site.unit.bare
  around := site.around
  depth := site.depth
  header := site.header.unplaced
  body := site.body.interface fields fields

theorem ofStatements_append (unit : SourceUnit) (around : List String) (depth : Nat)
    (front behind : List Statement) : ofStatements unit around depth (front ++ behind) =
      ofStatements unit around depth front ++ ofStatements unit around depth behind := by
  induction front with
  | nil => rw [ofStatements]; rfl
  | cons statement rest ih =>
      rw [List.cons_append, ofStatements, ofStatements, ih, List.append_assoc]

theorem ofStatements_singleton (unit : SourceUnit) (around : List String) (depth : Nat)
    (statement : Statement) :
    ofStatements unit around depth [statement] = ofStatement unit around depth statement := by
  rw [ofStatements, ofStatements, List.append_nil]

theorem ofStatements_lines (unit : SourceUnit) (around : List String) (depth : Nat)
    (parts : List SimpleStatement) :
    ofStatements unit around depth (parts.map fun part => .line [part]) = [] := by
  induction parts with
  | nil => rw [List.map_nil, ofStatements]
  | cons part rest ih => rw [List.map_cons, ofStatements, ih, ofStatement, List.append_nil]

/-- A suite in which no class stands has no class statements. -/
theorem ofSuite_eq_nil (unit : SourceUnit) (around : List String) (depth : Nat) {suite : Suite}
    (free : suite.classHeaders = []) : ofSuite unit around depth suite = [] :=
  List.map_eq_nil_iff.mp ((map_header_ofSuite unit around depth suite).trans free)

mutual

/-- The class statements of an interface are the interfaces of class statements. -/
theorem ofStatements_interface (fields inClass : Bool) (unit : SourceUnit) (around : List String)
    (depth : Nat) : ∀ statement : Statement,
    ofStatements unit.bare around depth (statement.interface fields inClass) =
      (ofStatement unit around depth statement).map (interface fields)
  | .line parts => by
      rw [Statement.interface, ofStatements_lines, ofStatement, List.map_nil]
  | .classStatement header body => by
      rw [Statement.interface, ofStatements_singleton, ofStatement, ofStatement, List.map_cons]
      exact congrArg (_ :: ·) (ofSuite_interface fields fields unit _ (depth + 1) body)
  | .functionStatement header body => by
      rw [Statement.interface, ofStatements_singleton, ofStatement, ofStatement]
      split
      · -- The body is left out, and no class stands in it.
        rename_i free
        rw [ofSuite_eq_nil unit _ depth (List.isEmpty_iff.mp free), ofSuite, ofStatements,
          List.map_nil]
      · exact ofSuite_interface fields false unit _ depth body
  | .compound clauses => by
      rw [Statement.interface, ofStatements_singleton, ofStatement, ofStatement,
        ofClauses_interface fields unit around depth clauses]

theorem ofClauses_interface (fields : Bool) (unit : SourceUnit) (around : List String)
    (depth : Nat) : ∀ clauses : List Clause,
    ofClauses unit.bare around depth (clauseInterfaces fields clauses) =
      (ofClauses unit around depth clauses).map (interface fields)
  | [] => by rw [clauseInterfaces, ofClauses, ofClauses, List.map_nil]
  | .clause kind head body :: rest => by
      rw [clauseInterfaces, ofClauses, ofClauses, List.map_append,
        ofSuite_interface fields false unit around depth body,
        ofClauses_interface fields unit around depth rest]

theorem ofSuite_interface (fields inClass : Bool) (unit : SourceUnit) (around : List String)
    (depth : Nat) : ∀ suite : Suite,
    ofSuite unit.bare around depth (suite.interface fields inClass) =
      (ofSuite unit around depth suite).map (interface fields)
  | .inline parts => by
      rw [Suite.interface, ofSuite, List.map_nil]
      split
      · rw [ofSuite, ofStatements]
      · rw [ofSuite]
  | .indented body => by
      rw [Suite.interface, ofSuite, ofSuite,
        ofStatements_interfaces fields inClass unit around depth body]

theorem ofStatements_interfaces (fields inClass : Bool) (unit : SourceUnit)
    (around : List String) (depth : Nat) : ∀ statements : List Statement,
    ofStatements unit.bare around depth (statementInterfaces fields inClass statements) =
      (ofStatements unit around depth statements).map (interface fields)
  | [] => by rw [statementInterfaces, ofStatements, ofStatements, List.map_nil]
  | statement :: rest => by
      rw [statementInterfaces, ofStatements_append, ofStatements, List.map_append,
        ofStatements_interface fields inClass unit around depth statement,
        ofStatements_interfaces fields inClass unit around depth rest]

end

end ClassSite

/-! ## Classes -/

namespace Syntax

/-- The annotated assignments and functions among the lines of an interface. -/
def Statement.declaring : Statement → List Statement
  | .line [.annotated target type value] => [.line [.annotated target type value]]
  | .functionStatement header _ => [.functionStatement header (.inline [])]
  | _ => []

theorem flatMap_declaring_lines (parts : List SimpleStatement) :
    ((parts.filterMap (SimpleStatement.interface? true)).map fun part =>
      Statement.line [part]).flatMap Statement.declaring =
        (parts.filterMap SimpleStatement.bare?).map fun part => .line [part] := by
  induction parts with
  | nil => rfl
  | cons part rest ih =>
      cases part with
      | annotated target type value => exact congrArg (_ :: ·) ih
      | importModules names => exact ih
      | importFrom level module names => exact ih
      | other kind parts => exact ih

/-- The interface of a statement in the body of a class tells what the statement says there. -/
theorem Statement.declaring_interface (statement : Statement) :
    (statement.interface true true).flatMap declaring = statement.bare := by
  cases statement with
  | line parts => rw [interface, flatMap_declaring_lines, bare]
  | classStatement header body => rw [interface]; rfl
  | functionStatement header body => rw [interface]; rfl
  | compound clauses => rw [interface]; rfl

theorem Suite.declaring_interface (body : Suite) :
    (body.interface true true).statements.flatMap Statement.declaring = body.bare := by
  cases body with
  | inline parts =>
      rw [interface]
      split <;> rfl
  | indented statements =>
      rw [interface]
      induction statements with
      | nil => rfl
      | cons statement rest ih =>
          rw [statementInterfaces, statements, List.flatMap_append, Statement.declaring_interface]
          exact congrArg (statement.bare ++ ·) ih

end Syntax

namespace SourceModule

/-- Modules of one path and one name with one interface. -/
structure SameInterface (fields : Bool) (first second : SourceModule) : Prop where
  path : first.path = second.path
  name : first.name = second.name
  body : statementInterfaces fields false first.module.body =
    statementInterfaces fields false second.module.body

namespace SameInterface

variable {fields : Bool} {first second : SourceModule}

theorem imports (same : SameInterface fields first second) : first.imports = second.imports := by
  rw [SourceModule.imports, SourceModule.imports, isPackage, isPackage, same.path, same.name,
    importTable, importTable, ← statementImports_interfaces fields false first.module.body,
    same.body, statementImports_interfaces]

end SameInterface

end SourceModule

namespace SourceUnit

theorem interface_classSites (fields : Bool) (unit : SourceUnit) :
    unit.classSites.map (ClassSite.interface fields) =
      ClassSite.ofStatements unit.bare [unit.name] 0
        (statementInterfaces fields false unit.module.body) :=
  (ClassSite.ofStatements_interfaces fields false unit [unit.name] 0 unit.module.body).symm

/-- Modules with equal interfaces have class statements with equal interfaces. -/
theorem interface_flatMap_classSites {fields : Bool} {first second : List SourceModule}
    (alike : List.Forall₂ (SourceModule.SameInterface fields) first second) (number : Nat) :
    ((numberedFrom number first).flatMap classSites).map (ClassSite.interface fields) =
      ((numberedFrom number second).flatMap classSites).map (ClassSite.interface fields) := by
  induction alike generalizing number with
  | nil => rfl
  | cons same rest ih =>
      rw [numberedFrom, numberedFrom, List.flatMap_cons, List.flatMap_cons, List.map_append,
        List.map_append, ih, interface_classSites, interface_classSites]
      simp only [bare, same.imports, same.name, same.body]

end SourceUnit

namespace ClassSite

/-- The class of a class statement that is an interface. -/
def declared (site : ClassSite) : ClassEntry where
  unit := site.unit
  scope := Text.dotted site.around
  header := site.header
  body := .indented (site.body.statements.flatMap Statement.declaring)

theorem declared_interface (site : ClassSite) :
    (site.interface true).declared = site.entry.bare := by
  rw [declared, interface, Suite.declaring_interface]
  rfl

end ClassSite

namespace Program

/-- The class statements that declare the classes of programs with equal interfaces have equal
interfaces. -/
theorem interface_keptAfter {fields : Bool} {first second : List SourceModule}
    (alike : List.Forall₂ (SourceModule.SameInterface fields) first second) :
    (ClassSite.keptAfter [] ((ofModules first).units.flatMap SourceUnit.classSites)).map
        (ClassSite.interface fields) =
      (ClassSite.keptAfter [] ((ofModules second).units.flatMap SourceUnit.classSites)).map
        (ClassSite.interface fields) := by
  have commutes := ClassSite.keptAfter_map (ClassSite.interface fields) (fun _ => rfl)
    (fun _ => rfl) []
  rw [← commutes, ← commutes]
  exact congrArg _ (SourceUnit.interface_flatMap_classSites alike 0)

/-- Programs of modules with equal interfaces have equal bare classes. -/
theorem bare_classes {first second : List SourceModule}
    (alike : List.Forall₂ (SourceModule.SameInterface true) first second) :
    (ofModules first).declarations.classes.map ClassEntry.bare =
      (ofModules second).declarations.classes.map ClassEntry.bare := by
  have stripped : ∀ sources : List SourceModule,
      (ofModules sources).declarations.classes.map ClassEntry.bare =
        ((ClassSite.keptAfter [] ((ofModules sources).units.flatMap SourceUnit.classSites)).map
          (ClassSite.interface true)).map ClassSite.declared := by
    intro sources
    rw [show (ofModules sources).declarations = .ofUnits (ofModules sources).units from rfl,
      Declarations.classes_ofUnits, List.map_map, List.map_map]
    exact List.map_congr_left fun site _ => site.declared_interface.symm
  rw [stripped, stripped, interface_keptAfter alike]

/-- **Interfaces.** Programs of modules with equal interfaces are described by the same records
under all settings, but for locations: whatever stands in functions without classes, is assigned to
fields or is said by simple statements that are neither imports nor fields, and wherever all that
moves the rest. -/
theorem describe_of_sameInterface {first second : List SourceModule}
    (alike : List.Forall₂ (SourceModule.SameInterface true) first second) (settings : Settings)
    (serializableOnly : Bool) :
    ((ofModules first).index.describe settings serializableOnly).map TypeRecord.unlocated =
      ((ofModules second).index.describe settings serializableOnly).map TypeRecord.unlocated := by
  rw [describe_ofModules, describe_ofModules]
  exact Declarations.records_congr (bare_classes alike) settings serializableOnly

end Program

namespace Sample

/-- A class with a field and a function, and a function in which a class stands. -/
def terse : SourceModule where
  path := "m.py"
  name := "m"
  module := ⟨[
    classOn 1 a [] (.indented [.line [.annotated (name 2 x) (name 2 b) none],
      .functionStatement ⟨⟨3, 4⟩, c, [], none⟩ (.inline [])]),
    .functionStatement ⟨⟨4, 0⟩, x, [], none⟩ (.indented [classOn 5 c [name 5 a] (.inline [])])],
    by decide +kernel⟩

/-- The same with a value for the field, statements in the functions, and statements that are
neither imports nor fields around the classes. -/
def verbose : SourceModule where
  path := "m.py"
  name := "m"
  module := ⟨[
    .line [.annotated (name 1 x) (name 1 b) none, .other .expression [name 1 b]],
    classOn 2 a [] (.indented [.line [.other .pass []],
      .line [.annotated (name 3 x) (name 3 b) (some (name 3 c))],
      .functionStatement ⟨⟨4, 4⟩, c, [], none⟩ (.indented [
        .line [.annotated (name 5 x) (name 5 b) none, .importModules []]])]),
    .functionStatement ⟨⟨6, 0⟩, x, [], none⟩ (.indented [.line [.other .return []],
      classOn 7 c [name 7 a] (.indented [.line [.other .pass []]])])],
    by decide +kernel⟩

end Sample

namespace Program

/-- The two samples are described by the same two records, but for locations. -/
theorem describe_of_verbose :
    let described := fun source : SourceModule =>
      ((ofModules [source]).index.describe {} false).map TypeRecord.unlocated
    List.Forall₂ (SourceModule.SameInterface true) [Sample.terse] [Sample.verbose] ∧
      described Sample.terse = described Sample.verbose ∧
      (described Sample.terse).map TypeRecord.fqn = ["m.A", "m.x.C"] := by
  intro described
  have alike : List.Forall₂ (SourceModule.SameInterface true) [Sample.terse] [Sample.verbose] :=
    .cons ⟨rfl, rfl, rfl⟩ .nil
  exact ⟨alike, describe_of_sameInterface alike {} false, by decide +kernel⟩

end Program

end TypeCatalog
