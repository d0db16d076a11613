import TypeCatalog.Proofs.ImportTables
import TypeCatalog.Proofs.ModuleNames
import TypeCatalog.Proofs.ScopedNames

/-! # Relative imports

A relative import names a module by steps up from the package of the importing module and by what
follows the dots (`TypeCatalog.RelativeImport`). In the program of a tree the name that it binds
stands for the declared class of that module (`TypeCatalog.Program.typeOf_relativeImport`): the
names that modules have from their paths, the packages that imports start from and the names of
declared classes are made by one scheme. Because classes are known by their qualified names, a class
that another module declares under the same qualified name is found first
(`TypeCatalog.Program.covered_imports_are_not_seen`).
-/

namespace TypeCatalog

open Syntax

/-! ## Names that are not changed -/

namespace NameScope

/-- A part with the dot behind it begins a name only where it begins the first part. -/
private theorem prefix_of_dotted_prefix {part first more : List Char} (undotted : '.' ∉ part)
    (begins : part ++ ['.'] <+: first ++ '.' :: more) : part <+: first := by
  rcases List.prefix_or_prefix_of_prefix ((List.prefix_append _ _).trans begins)
      (List.prefix_append first _) with short | ⟨behind, rfl⟩
  · exact short
  · cases behind with
    | nil => rw [List.append_nil]
    | cons next behind =>
        rw [List.append_assoc, List.prefix_append_right_inj, List.cons_append,
          List.cons_prefix_cons] at begins
        exact absurd (List.mem_append_right first (begins.1 ▸ List.mem_cons_self)) undotted

/-- Only names below the backport of the typing module are changed. -/
theorem normalize_of_package {package : String}
    (other : "typing_extensions".toList.isPrefixOf package.toList = false) (rest : String) :
    normalize (package ++ "." ++ rest) = package ++ "." ++ rest := by
  have kept : "typing_extensions.".toList.isPrefixOf (package ++ "." ++ rest).toList = false := by
    rw [← Bool.not_eq_true, List.isPrefixOf_iff_prefix, String.toList_append,
      String.toList_append, List.append_assoc]
    intro begins
    have short : "typing_extensions".toList <+: package.toList :=
      prefix_of_dotted_prefix (by decide) begins
    rw [← List.isPrefixOf_iff_prefix, other] at short
    exact Bool.false_ne_true short
  rw [normalize]
  simp only [kept]
  rfl

end NameScope

/-! ## Modules of a loaded tree -/

/-- A module of a tree: the source that it is read from, whose path is made of identifiers. -/
structure TreeModule (tree : FileNode) where
  path : SourcePath
  node : FileNode
  module : Module
  discovered : (path.names, node) ∈ tree.discover
  read : node.readModule = .ok module

namespace TreeModule

variable {tree : FileNode} (source : TreeModule tree)

/-- The qualified name of the module when the tree is loaded as a package. -/
def name (package : String) : String := moduleName package source.path.names

/-- The module as it is given to the program of the tree. -/
def sourceModule (root package : String) : SourceModule :=
  ⟨((Path.ofText root).append source.path.names).text, source.name package, source.module⟩

end TreeModule

/-- What is loaded is built from modules, every module of the tree among them. -/
theorem exists_modules_of_loadProgram {root package : String} {tree : FileNode} {workers : Int}
    {program : Program}
    (loaded : loadProgram (Path.ofText root) tree package workers = .ok program) :
    ∃ modules notices, program = { Program.ofModules modules with notices := notices } ∧
      ∀ source : TreeModule tree, source.sourceModule root package ∈ modules := by
  rw [loadProgram, loadModules] at loaded
  split at loaded
  · simp [Except.map] at loaded
  · split at loaded
    · rename_i modules gathered
      refine ⟨modules, _, (Except.ok.inj loaded).symm, ?_⟩
      intro source
      rw [gather] at gathered
      split at gathered
      · rw [← Except.ok.inj gathered, valuesOf, List.mem_filterMap]
        refine ⟨.ok (some (source.sourceModule root package)), ?_, rfl⟩
        rw [readSources, List.map_map]
        refine List.mem_map.mpr ⟨(source.path.names, source.node), source.discovered, ?_⟩
        simp only [Function.comp_apply, ReadSource.outcome, source.read]
        rfl
      · simp at gathered
    · simp [Except.map] at loaded

namespace SourceUnit

theorem imports_of_mem_numberedFrom (number : Nat) {sources : List SourceModule}
    {unit : SourceUnit} (member : unit ∈ numberedFrom number sources) :
    unit.imports = unit.toSourceModule.imports := by
  induction sources generalizing number with
  | nil => exact absurd member List.not_mem_nil
  | cons source rest ih =>
      rw [numberedFrom] at member
      rcases List.mem_cons.mp member with rfl | later
      · rfl
      · exact ih (number + 1) later

end SourceUnit

/-! ## Relative imports -/

namespace ModuleScope

theorem importedModule_of_pos (scope : ModuleScope) {level : Nat} (positive : 1 ≤ level)
    (base : Option String) : scope.importedModule level base =
      Text.dotted (scope.ancestorParts level ++ base.toList) := by
  have relative : level ≠ 0 := Nat.one_le_iff_ne_zero.mp positive
  cases base with
  | none => rw [importedModule, if_neg relative, Option.toList_none, List.append_nil]
  | some name => rw [importedModule, if_neg relative, Option.toList_some]

end ModuleScope

/-- A name without dots is read by the import that binds it, when no scope declares it. -/
theorem NameScope.resolve?_of_imported {scope : NameScope} {name target : String}
    (undotted : '.' ∉ name.toList) (unknown : scope.moduleName ++ "." ++ name ∉ scope.declared)
    (imported : scope.imports.find? name = some target) :
    scope.resolve? [] name = some (normalize target) := by
  have undeclared : scope.declaredIn? ([] ++ [scope.moduleName]) name = none :=
    scope.declaredIn?_eq_none (by simpa using unknown)
  have found : scope.imported? name = some (normalize target) := by
    rw [imported?, Text.dottedParts, Text.splitAt_of_notMem undotted]
    simp only [imported, Option.map_some, Text.dotted, String.intercalate_singleton]
  rw [resolve?, undeclared, found]
  rfl

/-- An import of a class from one module of a tree into the scope of another, by a name relative to
the package of the importing module. The name is bound by no import before. -/
structure RelativeImport (tree : FileNode) (package : String) where
  importer : TreeModule tree
  definer : TreeModule tree
  className : Identifier
  alternative : Option Identifier
  level : Nat
  base : Option String
  before : List PlacedPiece
  after : List PlacedPiece
  front : List ImportedName
  back : List ImportedName
  /-- The statement is a line of the module scope. -/
  stands : importer.module.scopePieces = before ++
    ⟨[], .simple (.importFrom level base (.names (front ++ ⟨className.text, alternative⟩ :: back)))⟩
      :: after
  /-- One dot stands for the package of the module, every further dot for one part less. -/
  climbs : 1 ≤ level ∧ level ≤ (importer.path.packageParts package).length
  /-- The package that the dots stand for, followed by what is written behind them, is the other
  module. -/
  denotes : Text.dotted ((importer.path.packageParts package).take
    ((importer.path.packageParts package).length - (level - 1)) ++ base.toList) =
      definer.name package
  declared : ∃ placed ∈ definer.module.scopePieces, placed.className? = some className.text
  firstPiece : ∀ placed ∈ before, ∀ bound ∈ placed.bindings (importer.path.scope package),
    bound.name ≠ (alternative.getD className).text
  firstName : ∀ other ∈ front,
    (ModuleScope.importedBinding "" other).name ≠ (alternative.getD className).text
  bindable : (alternative.getD className).text ≠ "None"

namespace RelativeImport

variable {tree : FileNode} {package : String} (link : RelativeImport tree package)

/-- The name that the import binds. -/
def boundName : Identifier := link.alternative.getD link.className

/-- The qualified name of the imported class. -/
def target : String := link.definer.name package ++ "." ++ link.className.text

theorem importedModule_eq :
    (link.importer.path.scope package).importedModule link.level link.base =
      link.definer.name package := by
  rw [ModuleScope.importedModule_of_pos _ link.climbs.1, ModuleScope.ancestorParts,
    SourcePath.packageParts_scope]
  exact link.denotes

/-- The import binds its name to the imported class. -/
theorem importedBinding_eq (named : package ≠ "") :
    ModuleScope.importedBinding (link.definer.name package)
      ⟨link.className.text, link.alternative⟩ = ⟨link.boundName.text, link.target⟩ := by
  have present : link.definer.name package ≠ "" := link.definer.path.moduleName_ne_empty named
  rw [ModuleScope.importedBinding, if_neg present, boundName, target]
  cases link.alternative <;> rfl

/-- The import table holds the imported class under the name that the import binds. -/
theorem find?_importTable (named : package ≠ "") :
    (importTable (link.importer.path.scope package) link.importer.module).find?
      link.boundName.text = some link.target := by
  have binds : (⟨[], .simple (.importFrom link.level link.base (.names (link.front ++
      ⟨link.className.text, link.alternative⟩ :: link.back)))⟩ : PlacedPiece).bindings
        (link.importer.path.scope package) =
      link.front.map (ModuleScope.importedBinding (link.definer.name package)) ++
        ⟨link.boundName.text, link.target⟩ ::
          link.back.map (ModuleScope.importedBinding (link.definer.name package)) := by
    show List.map (ModuleScope.importedBinding
      ((link.importer.path.scope package).importedModule link.level link.base)) _ = _
    rw [link.importedModule_eq, List.map_append, List.map_cons, link.importedBinding_eq named]
  refine find?_importTable_of_first link.stands rfl binds link.firstPiece ?_
  intro bound member
  obtain ⟨other, listed, rfl⟩ := List.mem_map.mp member
  exact link.firstName other listed

/-- In the scope of the importing module the bound name stands for the imported class, when no class
has the qualified name that it would have there. -/
theorem resolve?_boundName (named : package ≠ "")
    (proper : "typing_extensions".toList.isPrefixOf package.toList = false) {root : String}
    {modules : List SourceModule} {unit : SourceUnit}
    (listed : unit ∈ SourceUnit.ofModules modules)
    (isImporter : unit.toSourceModule = link.importer.sourceModule root package)
    {declarations : Declarations}
    (apart : link.importer.name package ++ "." ++ link.boundName.text ∉ declarations.fqns) :
    (declarations.nameScope unit).resolve? [] link.boundName.text = some link.target := by
  have imports : unit.imports.find? link.boundName.text = some link.target := by
    rw [SourceUnit.imports_of_mem_numberedFrom 0 listed, isImporter, TreeModule.sourceModule,
      TreeModule.name, SourcePath.imports_eq]
    exact link.find?_importTable named
  have unknown : unit.name ++ "." ++ link.boundName.text ∉ declarations.fqns := by
    rw [isImporter]
    exact apart
  have unchanged : NameScope.normalize link.target = link.target := by
    obtain ⟨rest, spelled⟩ :=
      link.definer.path.exists_moduleName_append package link.className.text
    rw [show link.target = package ++ "." ++ rest from spelled]
    exact NameScope.normalize_of_package proper rest
  rw [NameScope.resolve?_of_imported link.boundName.dot_notMem unknown imports, unchanged]

end RelativeImport

/-! ## Programs of trees -/

section

variable {tree : FileNode} {root package : String} {modules : List SourceModule}
  (among : ∀ source : TreeModule tree, source.sourceModule root package ∈ modules)

include among

theorem TreeModule.exists_unit (source : TreeModule tree) :
    ∃ unit ∈ SourceUnit.ofModules modules,
      unit.toSourceModule = source.sourceModule root package := by
  have listed := among source
  rw [← SourceUnit.map_toSourceModule_numberedFrom 0 modules] at listed
  exact List.mem_map.mp listed

namespace RelativeImport

variable (link : RelativeImport tree package)

/-- The imported class is declared. -/
theorem target_mem_fqns :
    link.target ∈ (Declarations.ofUnits (SourceUnit.ofModules modules)).fqns := by
  obtain ⟨unit, listed, isDefiner⟩ := TreeModule.exists_unit among link.definer
  obtain ⟨placed, inScope, isClass⟩ := link.declared
  have known := Declarations.mem_fqns_of_mem_scopePieces listed
    (show placed ∈ unit.module.scopePieces by rw [isDefiner]; exact inScope) isClass
  rw [isDefiner] at known
  exact known

end RelativeImport

end

namespace Program

/-- **Relative imports name declared classes.** In the program of a tree the name that is bound by a
relative import stands for the imported class, as declared: the path of a source gives its module
the name that relative imports lead to, in the module of a package as in every other module. No
class may have the qualified name that the bound name has in the importing module. -/
theorem typeOf_relativeImport {tree : FileNode} {root package : String} {workers : Int}
    {program : Program}
    (loaded : loadProgram (Path.ofText root) tree package workers = .ok program)
    (named : package ≠ "")
    (proper : "typing_extensions".toList.isPrefixOf package.toList = false)
    (link : RelativeImport tree package)
    (apart : program.index.lookupType?
      (link.importer.name package ++ "." ++ link.boundName.text) = none) :
    (∃ unit ∈ program.units,
      unit.toSourceModule = link.importer.sourceModule root package) ∧
    ∃ symbol, program.index.lookupType? link.target = some symbol ∧
      ∀ unit ∈ program.units, unit.toSourceModule = link.importer.sourceModule root package →
        ∀ extent, (program.typeScope unit).typeOf [] (.name extent link.boundName) = symbol := by
  obtain ⟨modules, notices, rfl, among⟩ := exists_modules_of_loadProgram loaded
  refine ⟨link.importer.exists_unit among, ?_⟩
  obtain ⟨entry, declared, isTarget⟩ := List.mem_map.mp (link.target_mem_fqns among)
  have stored : (ofModules modules).index.lookupType? link.target =
      some ((ofModules modules).declarations.declaredType entry) := by
    rw [lookupType?_eq_find?_types, ← isTarget]
    exact Declarations.find?_types declared
  refine ⟨_, stored, ?_⟩
  intro unit listed isImporter extent
  have resolved : ((ofModules modules).typeScope unit).resolve? [] link.boundName.text =
      some link.target :=
    link.resolve?_boundName named proper listed isImporter
      (notMem_fqns_of_lookupType?_eq_none modules apart)
  have kept : ((ofModules modules).typeScope unit).types.find? link.target =
      some ((ofModules modules).declarations.declaredType entry) := stored
  show ((ofModules modules).typeScope unit).typeOf [] (.name extent link.boundName) = _
  rw [TypeScope.typeOf_of_dotted? _ _ rfl, TypeScope.namedType,
    if_neg (show link.boundName.text ≠ "None" from link.bindable), resolved]
  simp only [kept, Option.getD_some]

end Program

/-! ## Trees with an import -/

namespace Syntax

namespace PlacedPiece

/-- What a statement line imports from a module. -/
def importFrom? : PlacedPiece → Option (Nat × Option String × List ImportedName)
  | ⟨[], .simple (.importFrom level base (.names names))⟩ => some (level, base, names)
  | _ => none

theorem eq_of_importFrom? {placed : PlacedPiece} {level : Nat} {base : Option String}
    {names : List ImportedName} (written : placed.importFrom? = some (level, base, names)) :
    placed = ⟨[], .simple (.importFrom level base (.names names))⟩ := by
  unfold importFrom? at written
  split at written
  · simp only [Option.some.injEq, Prod.mk.injEq] at written
    obtain ⟨rfl, rfl, rfl⟩ := written
    rfl
  · simp at written

end PlacedPiece

/-- A module of one import. -/
theorem Module.scopePieces_of_importFrom? {module : Module} {level : Nat} {base : Option String}
    {names : List ImportedName}
    (written : module.scopePieces.map PlacedPiece.importFrom? = [some (level, base, names)]) :
    module.scopePieces = [⟨[], .simple (.importFrom level base (.names names))⟩] := by
  obtain ⟨placed, pieces, only⟩ := List.map_eq_singleton_iff.mp written
  rw [pieces, PlacedPiece.eq_of_importFrom? only]

end Syntax

namespace FileNode

/-- The module that a file holds, the empty one if it holds none. -/
def module (node : FileNode) : Module := node.readModule.toOption.getD .empty

theorem readModule_eq {node : FileNode} (readable : node.readModule.toOption.isSome = true) :
    node.readModule = .ok node.module := by
  unfold module
  cases outcome : node.readModule with
  | ok found => rfl
  | error fault =>
      rw [outcome] at readable
      exact absurd readable Bool.false_ne_true

end FileNode

namespace Sample

/-- A source file with a text. -/
def sourceFile (text : String) : FileNode := .file text.toUTF8

def d : Identifier := ⟨"D", by decide +kernel⟩

/-- A module with a class that others import. -/
def defining : FileNode := sourceFile "class C: pass\n"

/-- A tree with a class in one file and an import of it in a directory beside. -/
def climbingTree : FileNode := .directory
  [("g.py", defining), ("q", .directory [("a.py", sourceFile "from ..g import C as D\n")])]

/-- A tree in which the module of the package declares a class that has the qualified name of a name
that another module imports. -/
def coveredTree : FileNode := .directory
  [("__init__.py", sourceFile "class a:\n    class D: pass\n"),
    ("a.py", sourceFile "from .g import C as D\n"), ("g.py", defining)]

theorem discover_climbingTree : climbingTree.discover = climbingTree.sources :=
  List.mergeSort_of_pairwise (by decide +kernel)

theorem discover_coveredTree : coveredTree.discover = coveredTree.sources :=
  List.mergeSort_of_pairwise (by decide +kernel)

/-- The module of a source at a position in a tree. -/
def moduleAt {tree : FileNode} (ordered : tree.discover = tree.sources) (path : SourcePath)
    (node : FileNode) (index : Nat) (stands : tree.sources[index]? = some (path.names, node))
    (readable : node.readModule.toOption.isSome = true) : TreeModule tree where
  path := path
  node := node
  module := node.module
  discovered := ordered ▸ List.mem_of_getElem? stands
  read := FileNode.readModule_eq readable

/-- The import of a class `C` as `D` from a module `g`, which is all that a module of the package
`p` does. -/
def soleImport {tree : FileNode} (importer definer : TreeModule tree) (level : Nat)
    (written : importer.module.scopePieces.map PlacedPiece.importFrom? =
      [some (level, some "g", [⟨"C", some d⟩])])
    (climbs : 1 ≤ level ∧ level ≤ (importer.path.packageParts "p").length)
    (denotes : Text.dotted ((importer.path.packageParts "p").take
      ((importer.path.packageParts "p").length - (level - 1)) ++ ["g"]) = definer.name "p")
    (declared : ∃ placed ∈ definer.module.scopePieces, placed.className? = some "C") :
    RelativeImport tree "p" where
  importer := importer
  definer := definer
  className := c
  alternative := some d
  level := level
  base := some "g"
  before := []
  after := []
  front := []
  back := []
  stands := Module.scopePieces_of_importFrom? written
  climbs := climbs
  denotes := denotes
  declared := declared
  firstPiece := fun _ inNone => absurd inNone List.not_mem_nil
  firstName := fun _ inNone => absurd inNone List.not_mem_nil
  bindable := by decide

/-- The import of the first tree: two steps up from a directory. -/
def climbing : RelativeImport climbingTree "p" :=
  soleImport
    (moduleAt discover_climbingTree ⟨[⟨"q", by decide +kernel⟩], ⟨"a", by decide +kernel⟩⟩
      (sourceFile "from ..g import C as D\n") 1 rfl (by decide +kernel))
    (moduleAt discover_climbingTree ⟨[], ⟨"g", by decide +kernel⟩⟩ defining 0 rfl
      (by decide +kernel))
    2 (by decide +kernel) (by decide +kernel) (by decide +kernel) (by decide +kernel)

/-- The import of the second tree: from the package of a file. -/
def covering : RelativeImport coveredTree "p" :=
  soleImport
    (moduleAt discover_coveredTree ⟨[], ⟨"a", by decide +kernel⟩⟩
      (sourceFile "from .g import C as D\n") 1 rfl (by decide +kernel))
    (moduleAt discover_coveredTree ⟨[], ⟨"g", by decide +kernel⟩⟩ defining 2 rfl
      (by decide +kernel))
    1 (by decide +kernel) (by decide +kernel) (by decide +kernel) (by decide +kernel)

/-- The program of a tree that is loaded from a directory as a package. -/
def loadedTree (tree : FileNode) : Option Program :=
  (loadProgram (Path.ofText "src") tree "p" 1).toOption

theorem loadProgram_of_loadedTree {tree : FileNode} {program : Program}
    (loaded : loadedTree tree = some program) :
    loadProgram (Path.ofText "src") tree "p" 1 = .ok program :=
  eq_ok_of_toOption loaded

end Sample

namespace Program

/-- The import of the first tree stands for the class of the other file. -/
theorem typeOf_climbing :
    ∃ program, loadProgram (Path.ofText "src") Sample.climbingTree "p" 1 = .ok program ∧
      (∃ unit ∈ program.units,
        unit.toSourceModule = Sample.climbing.importer.sourceModule "src" "p") ∧
      ∃ symbol, program.index.lookupType? "p.g.C" = some symbol ∧
        ∀ unit ∈ program.units,
          unit.toSourceModule = Sample.climbing.importer.sourceModule "src" "p" →
            ∀ extent, (program.typeScope unit).typeOf [] (.name extent Sample.d) = symbol := by
  have evaluated : (Sample.loadedTree Sample.climbingTree).map (fun program =>
      (program.index.lookupType? "p.q.a.D").isNone) = some true := by
    rw [Sample.loadedTree, loadProgram, loadModules, readSources, Sample.discover_climbingTree]
    decide +kernel
  obtain ⟨program, found, unknown⟩ := Option.map_eq_some_iff.mp evaluated
  have loaded := Sample.loadProgram_of_loadedTree found
  refine ⟨program, loaded, ?_⟩
  exact typeOf_relativeImport loaded (by decide) (by decide) Sample.climbing
    (Option.isNone_iff_eq_none.mp unknown)

/-- A relative import need not stand for the class that it imports although its module declares no
class of that name: in the second tree the module of the package declares a class of the same
qualified name. -/
theorem covered_imports_are_not_seen :
    ¬ ∀ (tree : FileNode) (root package : String) (workers : Int) (program : Program),
      loadProgram (Path.ofText root) tree package workers = .ok program → package ≠ "" →
      "typing_extensions".toList.isPrefixOf package.toList = false →
      ∀ link : RelativeImport tree package,
        (∀ placed ∈ link.importer.module.scopePieces,
          placed.className? ≠ some link.boundName.text) →
        (∃ unit ∈ program.units,
          unit.toSourceModule = link.importer.sourceModule root package) ∧
        ∃ symbol, program.index.lookupType? link.target = some symbol ∧
          ∀ unit ∈ program.units,
            unit.toSourceModule = link.importer.sourceModule root package →
              ∀ extent, (program.typeScope unit).typeOf [] (.name extent link.boundName) =
                symbol := by
  intro always
  have evaluated : (Sample.loadedTree Sample.coveredTree).map (fun program =>
      ((program.index.lookupType? "p.g.C").map TypeSymbol.fqn,
        program.units.all fun unit => unit.name ≠ "p.a" ||
          ((program.typeScope unit).typeOf [] (Sample.name 1 Sample.d)).fqn = "p.a.D")) =
            some (some "p.g.C", true) := by
    rw [Sample.loadedTree, loadProgram, loadModules, readSources, Sample.discover_coveredTree]
    decide +kernel
  obtain ⟨program, found, facts⟩ := Option.map_eq_some_iff.mp evaluated
  obtain ⟨named, read⟩ := Prod.mk.inj facts
  obtain ⟨⟨unit, listed, isImporter⟩, symbol, target, imported⟩ :=
    always Sample.coveredTree "src" "p" 1 program (Sample.loadProgram_of_loadedTree found)
      (by decide) (by decide) Sample.covering (by decide +kernel)
  have importer : unit.name = "p.a" := by
    rw [isImporter]
    decide +kernel
  have covered : ((program.typeScope unit).typeOf [] (Sample.name 1 Sample.d)).fqn = "p.a.D" := by
    simpa [importer] using List.all_eq_true.mp read unit listed
  have expected : symbol.fqn = "p.g.C" := by
    rw [show Sample.covering.target = "p.g.C" by decide +kernel] at target
    simpa [target] using named
  have same := imported unit listed isImporter ⟨Sample.d.text, ⟨1, 8⟩⟩
  rw [← same] at expected
  exact absurd (covered.symm.trans expected) (by decide)

end Program

end TypeCatalog
