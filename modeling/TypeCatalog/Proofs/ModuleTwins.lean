import TypeCatalog.Proofs.ModuleNames
import TypeCatalog.Proofs.TreeSources

/-! # Twins among modules

The module of a package is named like its directory, and so is a module that stands beside that
directory under its name. Among sources whose parts hold no dots these twins are the only ones that
have one module name (`TypeCatalog.PlainSource.moduleName_eq_iff_areTwins`), so the modules of a tree
of such sources have different names exactly when no two of them are twins
(`TypeCatalog.FileNode.nodup_moduleNames_iff`).
-/

namespace TypeCatalog

/-- The path of a source whose parts are plain: neither its directories nor its name without the
ending are empty or hold a dot. -/
structure PlainSource where
  directories : List String
  stem : String
  plain : ∀ part ∈ directories ++ [stem], part ≠ "" ∧ '.' ∉ part.toList

/-- A module and the module of a package are twins when the module stands beside the directory of
the package, under the same name. -/
def AreTwins (module package : List String) : Prop :=
  ∃ parent name, name ≠ packageModule ∧ module = parent ++ [name ++ sourceSuffix] ∧
    package = parent ++ [name, packageModule ++ sourceSuffix]

namespace PlainSource

def names (source : PlainSource) : List String :=
  source.directories ++ [source.stem ++ sourceSuffix]

/-- The parts that a source adds to the name of its package. -/
def ownParts (source : PlainSource) : List String :=
  source.directories ++ if source.stem = packageModule then [] else [source.stem]

theorem moduleParts_names (source : PlainSource) : moduleParts source.names = source.ownParts :=
  moduleParts_append _ (source.plain source.stem (by simp)).1

theorem dot_notMem_ownParts (source : PlainSource) : ∀ part ∈ source.ownParts, '.' ∉ part.toList := by
  intro part listed
  refine (source.plain part ?_).2
  rw [ownParts] at listed
  split at listed
  · rw [List.append_nil] at listed
    exact List.mem_append_left _ listed
  · exact listed

variable (package : String) (first second : PlainSource)

/-- Modules have one name exactly when their sources add the same parts to that of the package. -/
theorem moduleName_eq_iff_ownParts_eq :
    moduleName package first.names = moduleName package second.names ↔
      first.ownParts = second.ownParts := by
  rw [moduleName, moduleName, moduleParts_names, moduleParts_names]
  refine ⟨fun same => ?_, fun same => by rw [same]⟩
  have parts := congrArg Text.dottedParts same
  rwa [Text.dottedParts_dotted _ first.dot_notMem_ownParts,
    Text.dottedParts_dotted _ second.dot_notMem_ownParts, List.append_cancel_left_eq] at parts

theorem names_eq_iff :
    first.names = second.names ↔
      first.directories = second.directories ∧ first.stem = second.stem := by
  rw [names, names, List.append_singleton_inj, String.append_left_inj]

theorem areTwins_iff :
    AreTwins first.names second.names ↔ first.stem ≠ packageModule ∧
      second.stem = packageModule ∧ second.directories = first.directories ++ [first.stem] := by
  constructor
  · rintro ⟨parent, name, ordinary, ofModule, ofPackage⟩
    rw [names, List.append_singleton_inj, String.append_left_inj] at ofModule
    obtain ⟨rfl, rfl⟩ := ofModule
    rw [names, List.append_cons first.directories, List.append_singleton_inj,
      String.append_left_inj] at ofPackage
    exact ⟨ordinary, ofPackage.2, ofPackage.1⟩
  · rintro ⟨ordinary, isPackage, directories⟩
    refine ⟨first.directories, first.stem, ordinary, rfl, ?_⟩
    rw [names, isPackage, directories, ← List.append_cons]

/-- Two sources add the same parts exactly when they are one source or twins. -/
theorem ownParts_eq_iff :
    first.ownParts = second.ownParts ↔ first.names = second.names ∨
      AreTwins first.names second.names ∨ AreTwins second.names first.names := by
  rw [names_eq_iff, areTwins_iff, areTwins_iff, ownParts, ownParts]
  -- the module of a package leaves its own part out
  by_cases isPackage : first.stem = packageModule <;>
    by_cases alsoPackage : second.stem = packageModule
  · simp [isPackage, alsoPackage]
  · simp [isPackage, alsoPackage, Ne.symm alsoPackage]
  · simp [isPackage, alsoPackage, eq_comm]
  · simp [isPackage, alsoPackage, List.append_singleton_inj]

theorem moduleName_eq_iff :
    moduleName package first.names = moduleName package second.names ↔
      first.names = second.names ∨
        AreTwins first.names second.names ∨ AreTwins second.names first.names := by
  rw [moduleName_eq_iff_ownParts_eq, ownParts_eq_iff]

/-- **Names of modules.** Under every package two different sources have one module name exactly
when they are twins. -/
theorem moduleName_eq_iff_areTwins (distinct : first.names ≠ second.names) :
    moduleName package first.names = moduleName package second.names ↔
      AreTwins first.names second.names ∨ AreTwins second.names first.names := by
  rw [moduleName_eq_iff]
  exact or_iff_right distinct

end PlainSource

namespace Sample

/-- A module beside a directory of its name. -/
def besideDirectory : PlainSource := ⟨["p"], "x", by decide⟩

/-- The module of the package in that directory. -/
def inDirectory : PlainSource := ⟨["p", "x"], packageModule, by decide⟩

/-- The module of a package in the root of a tree. -/
def inRoot : PlainSource := ⟨[], packageModule, by decide⟩

/-- The module of a package in a directory that is named like such modules. -/
def inPackageModule : PlainSource := ⟨[packageModule], packageModule, by decide⟩

end Sample

namespace PlainSource

/-- In the samples the module and the package of one directory name are twins, and the two modules
of packages are not. -/
theorem moduleNames_of_twins_and_packages :
    (Sample.besideDirectory.names ≠ Sample.inDirectory.names ∧
      moduleName "a.b" Sample.besideDirectory.names = moduleName "a.b" Sample.inDirectory.names) ∧
    Sample.inRoot.names ≠ Sample.inPackageModule.names ∧
      moduleName "a.b" Sample.inRoot.names ≠ moduleName "a.b" Sample.inPackageModule.names := by
  have apart : Sample.besideDirectory.names ≠ Sample.inDirectory.names := by decide
  have packagesApart : Sample.inRoot.names ≠ Sample.inPackageModule.names := by decide
  have twins : AreTwins Sample.besideDirectory.names Sample.inDirectory.names :=
    ⟨["p"], "x", by decide, rfl, rfl⟩
  refine ⟨⟨apart, (moduleName_eq_iff_areTwins "a.b" _ _ apart).mpr (Or.inl twins)⟩, packagesApart,
    fun same => ?_⟩
  rcases (moduleName_eq_iff_areTwins "a.b" _ _ packagesApart).mp same with twins | twins
  · exact absurd rfl ((areTwins_iff _ _).mp twins).1
  · exact absurd rfl ((areTwins_iff _ _).mp twins).1

end PlainSource

/-! ## Trees -/

theorem AreTwins.ne {module package : List String} (twins : AreTwins module package) :
    module ≠ package := by
  obtain ⟨parent, name, _, rfl, rfl⟩ := twins
  intro same
  have lengths := congrArg List.length same
  simp at lengths

/-- **Modules of a tree.** In a tree whose sources are plain all modules have different names exactly
when no two of its sources are twins. -/
theorem FileNode.nodup_moduleNames_iff {tree : FileNode} (proper : tree.Proper)
    (plain : ∀ found ∈ tree.discover, ∃ source : PlainSource, source.names = found.1)
    (package : String) :
    (tree.discover.map fun found => moduleName package found.1).Nodup ↔
      ∀ first ∈ tree.discover.map Prod.fst, ∀ second ∈ tree.discover.map Prod.fst,
        ¬ AreTwins first second := by
  have eachPlain : ∀ path ∈ tree.discover.map Prod.fst,
      ∃ source : PlainSource, source.names = path := by
    intro path listed
    obtain ⟨found, inTree, rfl⟩ := List.mem_map.mp listed
    exact plain found inTree
  show (tree.discover.map (moduleName package ∘ Prod.fst)).Nodup ↔ _
  rw [← List.map_map, List.nodup_map_iff_inj_on (nodup_discover proper)]
  constructor
  · intro injective first listed second secondListed twins
    obtain ⟨source, rfl⟩ := eachPlain first listed
    obtain ⟨other, rfl⟩ := eachPlain second secondListed
    have same := (source.moduleName_eq_iff package other).mpr (Or.inr (Or.inl twins))
    exact twins.ne (injective _ listed _ secondListed same)
  · intro untwinned first listed second secondListed same
    obtain ⟨source, rfl⟩ := eachPlain first listed
    obtain ⟨other, rfl⟩ := eachPlain second secondListed
    rcases (source.moduleName_eq_iff package other).mp same with equal | twins | twins
    · exact equal
    · exact absurd twins (untwinned _ listed _ secondListed)
    · exact absurd twins (untwinned _ secondListed _ listed)

/-- A path that is made of identifiers is plain. -/
def SourcePath.toPlain (path : SourcePath) : PlainSource where
  directories := path.directories.map Identifier.text
  stem := path.stem.text
  plain := by
    intro part listed
    rw [← List.map_singleton, ← List.map_append] at listed
    obtain ⟨identifier, _, rfl⟩ := List.mem_map.mp listed
    exact ⟨identifier.text_ne_empty, identifier.dot_notMem⟩

end TypeCatalog
