import TypeCatalog.Proofs.ClassIndex
import TypeCatalog.Proofs.TreeSources
import TypeCatalog.Proofs.WorkerPools

/-! # Loaded programs

A tree is loaded as a program of all its sources, or not at all with the faults of all sources that
have one (`TypeCatalog.loadProgram_all_or_nothing`). Neither the order in which directories list
their entries nor the order in which workers end their tasks makes a difference: sources are
discovered in the order of their paths, and what was read is looked up by the texts of paths
(`TypeCatalog.FileNode.sourcesAmongRead?_readTasks`).
-/

namespace TypeCatalog

open Syntax

/-! ## Reading sources -/

namespace FileNode

theorem readModule_eq_ok_iff {node : FileNode} {module : Module} :
    node.readModule = .ok module ↔
      ∃ text, node.text? = some text ∧ Module.read? text = some module := by
  rw [readModule]
  cases node.text? with
  | none => simp
  | some text => cases parsed : Module.read? text <;> simp [parsed]

/-- What is wrong with a source: its text cannot be read, or is no module. -/
def fault? (node : FileNode) : Option SourceFault :=
  match node.text? with
  | none => some .unreadable
  | some text => if (Module.read? text).isSome then none else some .unparsable

theorem readModule_eq_error_iff {node : FileNode} {fault : SourceFault} :
    node.readModule = .error fault ↔ node.fault? = some fault := by
  rw [readModule, fault?]
  cases node.text? with
  | none => simp
  | some text => cases parsed : Module.read? text <;> simp [parsed]

theorem fault?_eq_none_iff {node : FileNode} :
    node.fault? = none ↔ ∃ module, node.readModule = .ok module := by
  rw [readModule, fault?]
  cases node.text? with
  | none => simp
  | some text => cases parsed : Module.read? text <;> simp [parsed]

end FileNode

namespace ReadSource

/-- The fault of a source, to be reported with its path. -/
def fault? (source : ReadSource) : Option (SourceFault × String) :=
  match source.module with
  | .ok _ => none
  | .error fault => some (fault, source.path.text)

/-- The module that a source gives. -/
def Gives (source : ReadSource) (given : SourceModule) : Prop :=
  source.module = .ok given.module ∧ given.path = source.path.text ∧ given.name = source.name

theorem errorsOf_outcomes (sources : List ReadSource) :
    errorsOf (sources.map outcome) = sources.filterMap fault? := by
  rw [errorsOf, List.filterMap_map]
  refine List.filterMap_congr fun source _ => ?_
  rw [Function.comp_apply, outcome, fault?]
  cases source.module <;> rfl

/-- Sources without faults give their modules in order. -/
theorem gives_valuesOf {sources : List ReadSource} (flawless : sources.filterMap fault? = []) :
    List.Forall₂ Gives sources (valuesOf (sources.map outcome)) := by
  induction sources with
  | nil => exact .nil
  | cons source rest ih =>
      obtain ⟨path, name, module⟩ := source
      cases module with
      | error fault => simp [fault?] at flawless
      | ok module => exact .cons ⟨rfl, rfl, rfl⟩ (ih flawless)

end ReadSource

/-! ## Programs of sources -/

/-- The program of sources as they are read: of all of them, or of none. -/
def programOf (sources : List ReadSource) : Except LoadFailure Program :=
  match gather (sources.map ReadSource.outcome) with
  | .error faults => .error (.faults faults)
  | .ok modules =>
      let program := Program.ofModules modules
      .ok { program with
        notices := modules.map (fun module => Notice.parsed module.path) ++ program.notices }

theorem loadProgram_eq (root : Path) (tree : FileNode) (package : String) {workers : Int}
    (staffed : 1 ≤ workers) :
    loadProgram root tree package workers = programOf (readSources root tree package) := by
  rw [loadProgram, loadModules, if_neg (by omega), programOf]
  cases gather ((readSources root tree package).map ReadSource.outcome) <;> rfl

/-- What is loaded is loaded by at least one worker. -/
theorem staffed_of_loadProgram {root : Path} {tree : FileNode} {package : String} {workers : Int}
    {program : Program} (loaded : loadProgram root tree package workers = .ok program) :
    1 ≤ workers := by
  by_contra few
  simp [loadProgram, loadModules, show workers < 1 by omega, Except.map] at loaded

/-- Sources without faults give a program with their modules as units, in order. -/
theorem programOf_of_flawless {sources : List ReadSource}
    (flawless : sources.filterMap ReadSource.fault? = []) :
    ∃ program, programOf sources = .ok program ∧
      List.Forall₂ (fun source unit => source.Gives unit.toSourceModule) sources program.units := by
  have gathered : gather (sources.map ReadSource.outcome) =
      .ok (valuesOf (sources.map ReadSource.outcome)) := by
    rw [gather, ReadSource.errorsOf_outcomes, flawless]
  refine ⟨_, by rw [programOf, gathered], ?_⟩
  have units : (SourceUnit.ofModules (valuesOf (sources.map ReadSource.outcome))).map
      SourceUnit.toSourceModule = valuesOf (sources.map ReadSource.outcome) :=
    SourceUnit.map_toSourceModule_numberedFrom 0 _
  have given := ReadSource.gives_valuesOf flawless
  rw [← units, List.forall₂_map_right_iff] at given
  exact given

/-- Sources with faults give the faults in order, and no program. -/
theorem programOf_of_faults {sources : List ReadSource}
    (flawed : sources.filterMap ReadSource.fault? ≠ []) :
    programOf sources = .error (.faults (sources.filterMap ReadSource.fault?)) := by
  have gathered : gather (sources.map ReadSource.outcome) =
      .error (sources.filterMap ReadSource.fault?) := by
    rw [gather, ReadSource.errorsOf_outcomes]
    cases faults : sources.filterMap ReadSource.fault? with
    | nil => exact absurd faults flawed
    | cons fault rest => rfl
  rw [programOf, gathered]

/-! ## Reading in any order -/

namespace FileNode

variable (root : Path) (tree : FileNode) (package : String)

/-- The faults of the sources of a tree with the texts of their paths, in order. -/
def faults : List (SourceFault × String) :=
  tree.discover.filterMap fun found =>
    found.2.fault?.map fun fault => (fault, (root.append found.1).text)

theorem filterMap_fault?_readSources :
    (readSources root tree package).filterMap ReadSource.fault? = tree.faults root := by
  rw [readSources, List.filterMap_map, faults]
  refine List.filterMap_congr fun found _ => ?_
  rw [Function.comp_apply, ReadSource.fault?]
  cases read : found.2.readModule with
  | ok module => rw [fault?_eq_none_iff.mpr ⟨module, read⟩]; rfl
  | error fault => rw [readModule_eq_error_iff.mp read]; rfl

/-- There are no faults exactly when every source can be read and parsed. -/
theorem faults_eq_nil_iff : tree.faults root = [] ↔ ∀ found ∈ tree.discover,
    ∃ text module, found.2.text? = some text ∧ Module.read? text = some module := by
  rw [faults, List.filterMap_eq_nil_iff]
  refine forall₂_congr fun found _ => ?_
  rw [Option.map_eq_none_iff, fault?_eq_none_iff, exists_comm]
  exact exists_congr fun module => readModule_eq_ok_iff

/-- Directories may list their entries in any order. -/
theorem SameFiles.readSources {left right : FileNode} (same : left.SameFiles right)
    (leftProper : left.Proper) (rightProper : right.Proper) :
    readSources root left package = readSources root right package := by
  have listed : ∀ tree : FileNode, TypeCatalog.readSources root tree package =
      tree.listing.map fun found => ⟨root.append found.1, moduleName package found.1,
        (found.2.elim (directory []) file).readModule⟩ := by
    intro tree
    rw [TypeCatalog.readSources, listing, List.map_map]
    refine List.map_congr_left fun found _ => ?_
    rw [readModule_eq_of_content]
    rfl
  rw [listed, listed, same.listing_eq leftProper rightProper]

/-- The tasks of reading a tree: the paths of its sources with what stands there. -/
def readTasks : List (Path × FileNode) :=
  tree.discover.map fun found => (root.append found.1, found.2)

/-- What a worker gives back: the text of the path that it was given, and what it read. -/
def readTask (input : Path × FileNode) : String × Except SourceFault Module :=
  (input.1.text, input.2.readModule)

/-- The sources of a tree with what was read, looked up by the texts of their paths. -/
def sourcesAmongRead? (parsed : Table (Except SourceFault Module)) : Option (List ReadSource) :=
  tree.discover.mapM fun found =>
    (parsed.find? (root.append found.1).text).map fun module =>
      ⟨root.append found.1, moduleName package found.1, module⟩

variable {tree}

/-- The texts of paths tell the sources apart. -/
theorem eq_of_text_eq (proper : tree.Proper) {first second : List String × FileNode}
    (firstListed : first ∈ tree.discover) (secondListed : second ∈ tree.discover)
    (same : (root.append first.1).text = (root.append second.1).text) : first = second := by
  obtain ⟨⟨name, last, _⟩, found⟩ := (mem_discover_iff proper first.1 first.2).mp firstListed
  obtain ⟨⟨other, otherLast, _⟩, otherFound⟩ :=
    (mem_discover_iff proper second.1 second.2).mp secondListed
  have paths : first.1 = second.1 := by
    refine Path.text_append_inj root ?_ ?_ (slash_notMem_of_at? proper found)
      (slash_notMem_of_at? proper otherFound) same
    · rintro empty
      simp [empty] at last
    · rintro empty
      simp [empty] at otherLast
  rw [paths, otherFound] at found
  exact Prod.ext paths (Option.some.inj found).symm

/-- What was read for a path is found under it. -/
theorem sourcesAmongRead?_readTasks (proper : tree.Proper) :
    tree.sourcesAmongRead? root package (.ofList ((tree.readTasks root).map readTask)) =
      some (TypeCatalog.readSources root tree package) := by
  rw [sourcesAmongRead?, TypeCatalog.readSources]
  refine mapM_eq_some_map fun found listed => ?_
  rw [Table.ofList, Table.find?_foldl_insert]
  · rfl
  · exact List.mem_map_of_mem (List.mem_map_of_mem listed)
  · intro other member
    obtain ⟨input, inputListed, isTask⟩ := List.mem_map.mp member
    obtain ⟨source, sourceListed, rfl⟩ := List.mem_map.mp inputListed
    obtain ⟨same, rfl⟩ := Prod.mk.inj isTask
    have isFound := eq_of_text_eq root proper sourceListed listed same
    rw [isFound]

end FileNode

/-! ## Loading -/

section

variable (root : Path) {tree : FileNode} (package : String) {workers : Int} (staffed : 1 ≤ workers)

include staffed

/-- A tree without faults is loaded as the modules of its sources, in order. -/
theorem loadProgram_of_flawless (flawless : tree.faults root = []) :
    ∃ program, loadProgram root tree package workers = .ok program ∧
      List.Forall₂ (fun found unit => found.2.readModule = .ok unit.module ∧
        unit.path = (root.append found.1).text ∧ unit.name = moduleName package found.1)
          tree.discover program.units := by
  rw [← FileNode.filterMap_fault?_readSources root tree package] at flawless
  obtain ⟨program, loaded, units⟩ := programOf_of_flawless flawless
  rw [readSources, List.forall₂_map_left_iff] at units
  rw [loadProgram_eq root tree package staffed]
  exact ⟨program, loaded, units⟩

/-- Of a tree with faults there is no program, but all its faults in order. -/
theorem loadProgram_of_faults (flawed : tree.faults root ≠ []) :
    loadProgram root tree package workers = .error (.faults (tree.faults root)) := by
  rw [← FileNode.filterMap_fault?_readSources root tree package] at flawed ⊢
  rw [loadProgram_eq root tree package staffed]
  exact programOf_of_faults flawed

theorem exists_loadProgram_iff :
    (∃ program, loadProgram root tree package workers = .ok program) ↔ tree.faults root = [] := by
  constructor
  · rintro ⟨program, loaded⟩
    by_contra flawed
    rw [loadProgram_of_faults root package staffed flawed] at loaded
    exact absurd loaded (by simp)
  · intro flawless
    obtain ⟨program, loaded, _⟩ := loadProgram_of_flawless root package staffed flawless
    exact ⟨program, loaded⟩

/-- Directories may list their entries in any order, and workers may be as many as they like. -/
theorem loadProgram_of_sameFiles {other : FileNode} {others : Int} (same : tree.SameFiles other)
    (proper : tree.Proper) (otherProper : other.Proper) (otherStaffed : 1 ≤ others) :
    loadProgram root other package others = loadProgram root tree package workers := by
  rw [loadProgram_eq root other package otherStaffed, loadProgram_eq root tree package staffed,
    same.readSources root package proper otherProper]

/-- Workers may end their tasks in any order. -/
theorem loadProgram_of_run (proper : tree.Proper) {steps : Nat}
    {tasks : List (PoolTask (Path × FileNode) (String × Except SourceFault Module))}
    (run : Pool.Run FileNode.readTask workers.toNat steps (Pool.start (tree.readTasks root)) tasks)
    (ended : Pool.Ended FileNode.readTask workers.toNat tasks) :
    (tree.sourcesAmongRead? root package (.ofList (Pool.outcomes tasks))).map programOf =
      some (loadProgram root tree package workers) := by
  have staffedPool : 1 ≤ workers.toNat := by omega
  rw [Pool.outcomes_of_ended staffedPool run ended,
    FileNode.sourcesAmongRead?_readTasks root package proper, Option.map_some,
    loadProgram_eq root tree package staffed]

end

namespace Sample

/-- A tree with a directory that is named like a module, in which a class is declared, and a file
that is no module. -/
def faultyTree : FileNode := .directory
  [("a.py", .directory [("c.py", .file "class C: pass\n".toUTF8)]),
    ("b.py", .file "class\n".toUTF8)]

/-- The same tree, listed in another order. -/
def faultyTreeReordered : FileNode := .directory
  [("b.py", .file "class\n".toUTF8),
    ("a.py", .directory [("c.py", .file "class C: pass\n".toUTF8)])]

theorem discover_faultyTree : faultyTree.discover = faultyTree.sources :=
  List.mergeSort_of_pairwise (by decide +kernel)

theorem proper_faultyTree : faultyTree.Proper ∧ faultyTreeReordered.Proper := by
  simp [faultyTree, faultyTreeReordered, FileNode.Proper, FileNode.ProperAmong]

theorem sameFiles_faultyTree : faultyTree.SameFiles faultyTreeReordered :=
  FileNode.sameFiles_of_perm (.swap _ _ _) (by decide)

end Sample

end TypeCatalog
