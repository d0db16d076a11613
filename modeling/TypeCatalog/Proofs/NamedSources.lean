import TypeCatalog.Proofs.CommandAgreement

/-! # Sources given by name

A source that is no path is the dotted name of a package. The tree of the source begins at the
directory of that package, while its modules are named below the first part of the dotted name
(`TypeCatalog.Environment.module_names_of_package`). So the modules of a package without parents have
the names under which they are imported, and those of a package inside another have not, unless the
package is named in full (`TypeCatalog.Environment.nested_packages_lose_their_parents`).
-/

namespace TypeCatalog

namespace Text

/-- The first part of a name is the whole name exactly when the name has no dot. -/
theorem firstPart_eq_self_iff (name : String) : firstPart name = name ↔ '.' ∉ name.toList := by
  rw [firstPart, ← String.toList_inj, String.toList_ofList, List.takeWhile_eq_self_iff]
  simp only [bne_iff_ne]
  exact ⟨fun plain dotted => plain '.' dotted rfl, fun plain c member same => plain (same ▸ member)⟩

theorem dotted_cons_inj {package name : String} (parts : List String) :
    dotted (package :: parts) = dotted (name :: parts) ↔ package = name := by
  refine ⟨fun same => ?_, fun same => same ▸ rfl⟩
  cases parts with
  | nil => simpa [dotted] using same
  | cons part rest =>
      rw [dotted, dotted, String.intercalate_cons_cons, String.intercalate_cons_cons,
        String.append_assoc, String.append_assoc] at same
      exact (String.append_left_inj _).mp same

end Text

namespace SourcePath

/-- The name under which a source is imported, when the root of its tree is the directory of a
package: the module of a directory is imported by the name of the directory. -/
def importName (path : SourcePath) (package : String) : String :=
  Text.dotted (package :: (path.directories.map Identifier.text ++
    if path.stem.text = packageModule then [] else [path.stem.text]))

/-- A module has the name under which it is imported exactly when its tree is named by the package
whose directory is the root. -/
theorem moduleName_eq_importName_iff (path : SourcePath) (package name : String) :
    moduleName package path.names = path.importName name ↔ package = name := by
  rw [moduleName_eq, importName, Text.dotted_cons_inj]

end SourcePath

namespace Environment

variable {environment : Environment} {name : String} {directory : List String}

/-- The tree of a source that is the name of a package begins at the directory of the package. -/
theorem placeOf_of_package (noPath : environment.placeOfPath? name = none)
    (found : environment.root.findModule environment.searchPath name =
      .ok (some (.package directory))) :
    environment.placeOf name = .ok ⟨directory, some (Text.firstPart name)⟩ := by
  rw [placeOf, noPath, found]
  rfl

/-- A command works at the place of its source, under the package that it is given or else under
the one that the place suggests. -/
theorem root_and_package_of_prepare {options : CommandOptions} {place : SourcePlace}
    {prepared : Prepared} (placed : environment.placeOf options.source = .ok place)
    (ready : environment.prepare options = .ok prepared) :
    prepared.root = place.root ∧ (options.package <|> place.package) = some prepared.package := by
  rw [prepare, placed] at ready
  simp only [Except.mapError, bind, Except.bind] at ready
  split at ready
  · exact absurd ready (by simp)
  · rename_i package known
    split at ready
    · exact absurd ready (by simp)
    · obtain rfl := Except.ok.inj ready
      exact ⟨rfl, known⟩

/-- The units of a program that a command loads are named below its package, source by source. -/
theorem names_of_load {prepared : Prepared} {workers : Int} {program : Program}
    (loaded : environment.load prepared workers = .ok program) :
    (program.units.map fun unit => unit.name) =
      (environment.sourceTree prepared).discover.map fun found =>
        moduleName prepared.package found.1 := by
  rw [load_eq] at loaded
  obtain ⟨modules, notices, rfl, -, names⟩ := exists_modules_of_loaded loaded
  rw [← names]
  exact SourceUnit.map_ofModules SourceModule.name modules

/-- **Names of the modules of a package.** When a source is the name of a package, its tree begins at
the directory of that package, and without another package its modules are named below the first
part of the name. So every module has the name under which it is imported when the name has no dot,
and no module has when it has one. A command names the modules below the package that it is given,
and then they have their import names exactly when that package is the name of the source. -/
theorem module_names_of_package (environment : Environment) {name : String}
    {directory : List String} (noPath : environment.placeOfPath? name = none)
    (found : environment.root.findModule environment.searchPath name =
      .ok (some (.package directory))) :
    environment.placeOf name = .ok ⟨directory, some (Text.firstPart name)⟩ ∧
    (∀ path : SourcePath, moduleName (Text.firstPart name) path.names = path.importName name ↔
      '.' ∉ name.toList) ∧
    ∀ options prepared, options.source = name → environment.prepare options = .ok prepared →
      prepared.root = directory ∧
      prepared.package = options.package.getD (Text.firstPart name) ∧
      (∀ path : SourcePath, moduleName prepared.package path.names = path.importName name ↔
        prepared.package = name) ∧
      ∀ workers program, environment.load prepared workers = .ok program →
        (program.units.map fun unit => unit.name) =
          (environment.sourceTree prepared).discover.map fun source =>
            moduleName prepared.package source.1 := by
  have placed := placeOf_of_package noPath found
  refine ⟨placed, ?_, ?_⟩
  · intro path
    rw [path.moduleName_eq_importName_iff, Text.firstPart_eq_self_iff]
  · rintro options prepared rfl ready
    obtain ⟨root, package⟩ := root_and_package_of_prepare placed ready
    refine ⟨root, ?_, fun path => path.moduleName_eq_importName_iff _ _,
      fun workers program loaded => names_of_load loaded⟩
    cases given : options.package <;> simp_all

end Environment

namespace Sample

theorem isIdentifier_g : Text.isIdentifier "g" = true := by decide +kernel

/-- A module beside the others of a package. -/
def sibling : SourcePath := ⟨[], ⟨"g", isIdentifier_g⟩⟩

/-- A package inside a package, in a directory in which modules are looked for by name. -/
def parentedTree : FileNode := .directory [("__init__.py", defining)]

def parented : Environment where
  root := .directory [("lib", .directory [("a", .directory [("__init__.py", sourceFile ""),
    ("b", parentedTree)])])]
  current := []
  searchPath := [["lib"]]
  time := "2024-01-01T00:00:00+00:00"

theorem placeOfPath?_parented : parented.placeOfPath? "a.b" = none := by rfl

theorem findModule_parented : parented.root.findModule parented.searchPath "a.b" =
    .ok (some (.package ["lib", "a", "b"])) := by rfl

/-- What a command works on that is given the name of the inner package and nothing else. -/
def parentedTarget : Environment.Prepared := ⟨["lib", "a", "b"], "a", {}, []⟩

theorem prepare_parented : parented.prepare ⟨"a.b", none, false, false⟩ = .ok parentedTarget :=
  Environment.Sample.eq_ok_of_fields (by decide +kernel)

theorem discover_parentedTree : parentedTree.discover = [(["__init__.py"], defining)] :=
  List.mergeSort_singleton _

theorem exists_loaded_parented : ∃ program, parented.load parentedTarget 1 = .ok program := by
  have evaluated : ((loadProgram (.absolute ["lib", "a", "b"]) parentedTree "a" 1).toOption).isSome =
      true := by
    rw [loadProgram, loadModules, readSources, discover_parentedTree]
    decide +kernel
  obtain ⟨program, found⟩ := Option.isSome_iff_exists.mp evaluated
  exact ⟨program, eq_ok_of_toOption found⟩

end Sample

namespace Environment

/-- The module of the inner package of the sample is named by the outer package alone. -/
theorem module_names_of_parented :
    let environment := Sample.parented
    environment.placeOfPath? "a.b" = none ∧
      environment.root.findModule environment.searchPath "a.b" =
        .ok (some (.package ["lib", "a", "b"])) ∧
      environment.placeOf "a.b" = .ok ⟨["lib", "a", "b"], some "a"⟩ ∧
      (∀ path : SourcePath, moduleName "a" path.names ≠ path.importName "a.b") ∧
      (∀ path : SourcePath, moduleName "a.b" path.names = path.importName "a.b") ∧
      ∃ prepared program, environment.prepare ⟨"a.b", none, false, false⟩ = .ok prepared ∧
        prepared.root = ["lib", "a", "b"] ∧ prepared.package = "a" ∧
        environment.load prepared 1 = .ok program ∧
        (program.units.map fun unit => unit.name) = ["a"] := by
  intro environment
  have noPath := Sample.placeOfPath?_parented
  have found := Sample.findModule_parented
  obtain ⟨placed, own, prepares⟩ := module_names_of_package environment noPath found
  obtain ⟨root, package, _, loads⟩ := prepares _ _ rfl Sample.prepare_parented
  obtain ⟨program, loaded⟩ := Sample.exists_loaded_parented
  refine ⟨noPath, found, placed, fun path same => ?_,
    fun path => (path.moduleName_eq_importName_iff "a.b" "a.b").mpr rfl, Sample.parentedTarget,
    program, Sample.prepare_parented, root, package, loaded, ?_⟩
  · exact (own path).mp same (by decide)
  · rw [loads 1 program loaded, show environment.sourceTree Sample.parentedTarget =
      Sample.parentedTree from rfl, Sample.discover_parentedTree]
    rfl

/-- The modules of a package need not have the names under which they are imported: the parents of
the package are missing where its directory is the root. -/
theorem nested_packages_lose_their_parents :
    ¬ ∀ (environment : Environment) (name : String) (directory : List String),
      environment.placeOfPath? name = none →
      environment.root.findModule environment.searchPath name =
        .ok (some (.package directory)) →
      ∃ package, environment.placeOf name = .ok ⟨directory, some package⟩ ∧
        ∀ path : SourcePath, moduleName package path.names = path.importName name := by
  intro always
  obtain ⟨package, placed, imported⟩ := always Sample.parented "a.b" ["lib", "a", "b"]
    Sample.placeOfPath?_parented Sample.findModule_parented
  have packaged := (placeOf_of_package Sample.placeOfPath?_parented
    Sample.findModule_parented).symm.trans placed
  obtain rfl : Text.firstPart "a.b" = package := by simpa using packaged
  have named := (Sample.sibling.moduleName_eq_importName_iff _ _).mp (imported Sample.sibling)
  exact absurd named (by decide)

end Environment

end TypeCatalog
