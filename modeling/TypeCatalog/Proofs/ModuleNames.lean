import TypeCatalog.Loading
import TypeCatalog.Proofs.Names

/-! # Names of modules

A source of a tree stands for a module that is named by the package of the tree, the directories of
the source and its own name, which the module of a package does without
(`TypeCatalog.SourcePath.moduleName_eq`). Relative imports start from the parts of that name that
belong to the package: they are the parts of the package of the tree and the directories, whether
the source is the module of a package or not (`TypeCatalog.SourcePath.packageParts_scope`).
-/

namespace TypeCatalog

theorem stemOf_append_sourceSuffix {stem : String} (named : stem ≠ "") :
    stemOf (stem ++ sourceSuffix) = stem := by
  have longer : stem ++ sourceSuffix ≠ sourceSuffix := by
    intro same
    have spelled := congrArg String.toList same
    rw [String.toList_append, List.append_left_eq_self] at spelled
    exact named (String.toList_inj.mp spelled)
  rw [stemOf, if_neg longer, String.toList_append, List.length_append, Nat.add_sub_cancel,
    List.take_left, String.ofList_toList]

/-- A source adds its directories to the name of its package and, unless it is the module of a
package, its own name without the ending. -/
theorem moduleParts_append (directories : List String) {stem : String} (named : stem ≠ "") :
    moduleParts (directories ++ [stem ++ sourceSuffix]) =
      directories ++ if stem = packageModule then [] else [stem] := by
  induction directories with
  | nil => rw [List.nil_append, moduleParts, stemOf_append_sourceSuffix named]; rfl
  | cons directory rest ih =>
      rw [List.cons_append, List.cons_append, ← ih]
      cases rest with
      | nil => rfl
      | cons next rest => rfl

/-- The path of a source in a tree: the directories that lead to it, and its name without the
ending. -/
structure SourcePath where
  directories : List Identifier
  stem : Identifier

namespace SourcePath

variable (path : SourcePath)

def fileName : String := path.stem.text ++ sourceSuffix

def names : List String := path.directories.map Identifier.text ++ [path.fileName]

/-- The parts of the package that a source belongs to. -/
def packageParts (package : String) : List String :=
  Text.dottedParts package ++ path.directories.map Identifier.text

/-! ## Names -/

theorem stemOf_fileName : stemOf path.fileName = path.stem.text :=
  stemOf_append_sourceSuffix path.stem.text_ne_empty

theorem moduleParts_names :
    moduleParts path.names = path.directories.map Identifier.text ++
      if path.stem.text = packageModule then [] else [path.stem.text] :=
  moduleParts_append _ path.stem.text_ne_empty

/-- **The name of a module.** It is the package of the tree followed by the directories and, unless
the source is the module of a package, by its name. -/
theorem moduleName_eq (package : String) :
    moduleName package path.names = Text.dotted (package :: (path.directories.map Identifier.text ++
      if path.stem.text = packageModule then [] else [path.stem.text])) := by
  rw [moduleName, moduleParts_names]

/-- The parts of the name of a module. -/
theorem dottedParts_moduleName (package : String) :
    Text.dottedParts (moduleName package path.names) = path.packageParts package ++
      if path.stem.text = packageModule then [] else [path.stem.text] := by
  rw [moduleName_eq, Text.dottedParts_dotted, packageParts, List.append_assoc]
  intro part member
  rcases List.mem_append.mp member with directory | name
  · obtain ⟨identifier, _, rfl⟩ := List.mem_map.mp directory
    exact identifier.dot_notMem
  · split at name
    · exact absurd name List.not_mem_nil
    · rw [List.mem_singleton.mp name]
      exact path.stem.dot_notMem

theorem moduleName_ne_empty {package : String} (named : package ≠ "") :
    moduleName package path.names ≠ "" := by
  intro empty
  have spelled := congrArg String.toList empty
  rw [moduleName, Text.dotted] at spelled
  cases parts : moduleParts path.names with
  | nil =>
      rw [parts, String.intercalate_singleton] at spelled
      exact named (String.toList_inj.mp spelled)
  | cons part rest =>
      rw [parts, String.intercalate_cons_cons] at spelled
      simp at spelled

/-- A name in a module is a name below the package of the tree. -/
theorem exists_moduleName_append (package name : String) :
    ∃ rest, moduleName package path.names ++ "." ++ name = package ++ "." ++ rest := by
  rw [moduleName, Text.dotted]
  cases moduleParts path.names with
  | nil => exact ⟨name, by rw [String.intercalate_singleton]⟩
  | cons part rest =>
      refine ⟨".".intercalate (part :: rest) ++ "." ++ name, ?_⟩
      rw [String.intercalate_cons_cons, String.append_assoc, String.append_assoc,
        String.append_assoc, String.append_assoc, String.append_assoc]

/-! ## File names -/

/-- What stands behind the last slash of a path is its file name. -/
theorem fileName_append_slash (front : String) {name : String} (plain : '/' ∉ name.toList)
    (proper : name ≠ "" ∧ name ≠ ".") : SourceModule.fileName (front ++ "/" ++ name) = name := by
  rw [SourceModule.fileName, Text.splitAt_append rfl, Text.splitAt_of_notMem plain,
    List.filter_append, List.filter_cons_of_pos (by simpa using proper), List.filter_nil,
    List.getLastD_concat]

theorem fileName_of_slash_notMem {name : String} (plain : '/' ∉ name.toList)
    (proper : name ≠ "" ∧ name ≠ ".") : SourceModule.fileName name = name := by
  rw [SourceModule.fileName, Text.splitAt_of_notMem plain,
    List.filter_cons_of_pos (by simpa using proper), List.filter_nil]
  rfl

theorem anchorOf_cases (chars : List Char) :
    Path.anchorOf chars = "" ∨ ∃ front, Path.anchorOf chars = front ++ "/" := by
  unfold Path.anchorOf
  split
  · exact Or.inr ⟨"", rfl⟩
  · exact Or.inr ⟨"/", rfl⟩
  · exact Or.inr ⟨"", rfl⟩
  · exact Or.inl rfl

theorem slash_notMem_fileName : '/' ∉ path.fileName.toList := by
  rw [fileName, String.toList_append, List.mem_append]
  rintro (inStem | inSuffix)
  · exact path.stem.slash_notMem inStem
  · exact absurd inSuffix (by decide)

theorem fileName_proper : path.fileName ≠ "" ∧ path.fileName ≠ "." := by
  have long : 3 ≤ path.fileName.length := by
    rw [fileName, String.length_append]
    exact Nat.le_add_left 3 _
  refine ⟨?_, ?_⟩
  · intro same
    rw [same] at long
    exact absurd long (by decide)
  · intro same
    rw [same] at long
    exact absurd long (by decide)

/-- The file name of a source below a root is that of its path. -/
theorem fileName_text (root : String) :
    SourceModule.fileName ((Path.ofText root).append path.names).text = path.fileName := by
  have names : ((Path.ofText root).append path.names).names =
      ((Path.ofText root).names ++ path.directories.map Identifier.text) ++ [path.fileName] := by
    rw [Path.append, SourcePath.names, List.append_assoc]
  have spelled : ((Path.ofText root).append path.names).text =
      Path.anchorOf root.toList ++ "/".intercalate
        (((Path.ofText root).names ++ path.directories.map Identifier.text) ++
          [path.fileName]) := by
    rw [Path.text, names, if_neg (by simp)]
    rfl
  rw [spelled]
  generalize (Path.ofText root).names ++ path.directories.map Identifier.text = above
  cases above with
  | nil =>
      rw [List.nil_append, String.intercalate_singleton]
      rcases anchorOf_cases root.toList with anchored | ⟨front, anchored⟩
      · rw [anchored, String.empty_append]
        exact fileName_of_slash_notMem path.slash_notMem_fileName path.fileName_proper
      · rw [anchored]
        exact fileName_append_slash front path.slash_notMem_fileName path.fileName_proper
  | cons first rest =>
      rw [String.intercalate_append_of_ne_nil (List.cons_ne_nil _ _) (List.cons_ne_nil _ _),
        String.intercalate_singleton, ← String.append_assoc, ← String.append_assoc]
      exact fileName_append_slash _ path.slash_notMem_fileName path.fileName_proper

/-- A source is that of a package when it has the name of package modules. -/
theorem isPackage_eq (root name : String) (module : Syntax.Module) :
    SourceModule.isPackage ⟨((Path.ofText root).append path.names).text, name, module⟩ =
      decide (path.stem.text = packageModule) := by
  rw [SourceModule.isPackage, fileName_text]
  by_cases isPackage : path.stem.text = packageModule
  · rw [decide_eq_true isPackage, fileName, isPackage]
    rfl
  · rw [decide_eq_false isPackage, beq_eq_false_iff_ne]
    intro same
    have stem : stemOf path.fileName = packageModule := by
      rw [same]
      decide
    exact isPackage (path.stemOf_fileName.symm.trans stem)

/-! ## Packages -/

/-- Where the module of a source stands. -/
def scope (package : String) : ModuleScope :=
  ⟨moduleName package path.names, decide (path.stem.text = packageModule)⟩

/-- **The package of a module.** Relative imports of one level start from the package of the tree
followed by the directories, in the module of a package as in every other module. -/
theorem packageParts_scope (package : String) :
    (path.scope package).packageParts = path.packageParts package := by
  rw [ModuleScope.packageParts, scope, dottedParts_moduleName]
  by_cases isPackage : path.stem.text = packageModule
  · rw [if_pos isPackage, List.append_nil, if_pos (decide_eq_true isPackage)]
  · rw [if_neg isPackage, if_neg (by simpa using isPackage), List.dropLast_concat]

/-- The import table of a source is made where its path says that it stands. -/
theorem imports_eq (root package : String) (module : Syntax.Module) :
    SourceModule.imports ⟨((Path.ofText root).append path.names).text,
      moduleName package path.names, module⟩ = importTable (path.scope package) module := by
  rw [SourceModule.imports, isPackage_eq]
  rfl

end SourcePath

end TypeCatalog
