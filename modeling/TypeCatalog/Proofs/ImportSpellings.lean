import TypeCatalog.Proofs.ImportTables
import TypeCatalog.Proofs.ModuleClasses
import TypeCatalog.Proofs.StatementLayouts
import TypeCatalog.Program.Basic

/-! # Spellings of imports

The layout of imports does not matter: modules whose texts have the same tokens, but for brackets
around imported names, have the same import tables, and a program that has one of them in place of
the other resolves the same names (`TypeCatalog.importTable_eq_of_sameTokens`). Dotted names are
kept as they are written, so this takes that no blank stands within them
(`TypeCatalog.spaced_names_are_kept_as_written`).
-/

namespace TypeCatalog

open Syntax

/-! ## Bindings -/

namespace Syntax

/-- The dotted names in an import. -/
def SimpleStatement.dottedNames : SimpleStatement → List String
  | .importModules names => names.map ImportedName.name
  | .importFrom _ module _ => module.toList
  | _ => []

/-- The dotted names in the imports of a module are written without gaps. -/
def Module.ImportsCompactly (module : Module) : Prop :=
  ∀ statement ∈ statementImports module.body, ∀ name ∈ statement.dottedNames, Text.Compact name

instance (module : Module) : Decidable module.ImportsCompactly :=
  inferInstanceAs (Decidable (∀ statement ∈ statementImports module.body,
    ∀ name ∈ statement.dottedNames, Text.Compact name))

theorem ImportedName.Same.eq {imported other : ImportedName} (same : imported.Same other)
    (compact : Text.Compact imported.name) (otherCompact : Text.Compact other.name) :
    imported = other := by
  obtain ⟨name, alternative⟩ := imported
  obtain ⟨otherName, otherAlternative⟩ := other
  obtain rfl : name = otherName := same.name compact otherCompact
  obtain rfl : alternative = otherAlternative := same.alternative
  rfl

end Syntax

namespace ModuleScope

/-- Imports that are the same bind the same names to the same targets. -/
theorem bindings_eq_of_same (scope : ModuleScope) {statement other : SimpleStatement}
    (same : statement.Same other) (compact : ∀ name ∈ statement.dottedNames, Text.Compact name)
    (otherCompact : ∀ name ∈ other.dottedNames, Text.Compact name) :
    scope.bindings statement = scope.bindings other := by
  cases same with
  | @modules names others each =>
      have equal : names = others := by
        induction each with
        | nil => rfl
        | cons first _ ih =>
            rw [SimpleStatement.dottedNames, List.map_cons, List.forall_mem_cons]
              at compact otherCompact
            rw [first.eq compact.1 otherCompact.1, ih compact.2 otherCompact.2]
      rw [equal]
  | source level same names =>
      cases same with
      | none => rfl
      | some same =>
          rw [same (compact _ (List.mem_singleton_self _))
            (otherCompact _ (List.mem_singleton_self _))]
  | other isOther twinIsOther =>
      rw [scope.bindings_of_not_isImport isOther, scope.bindings_of_not_isImport twinIsOther]

theorem flatMap_bindings_eq_of_same (scope : ModuleScope) {imports others : List SimpleStatement}
    (same : List.Forall₂ SimpleStatement.Same imports others)
    (compact : ∀ statement ∈ imports, ∀ name ∈ statement.dottedNames, Text.Compact name)
    (otherCompact : ∀ statement ∈ others, ∀ name ∈ statement.dottedNames, Text.Compact name) :
    imports.flatMap scope.bindings = others.flatMap scope.bindings := by
  induction same with
  | nil => rfl
  | cons first _ ih =>
      rw [List.forall_mem_cons] at compact otherCompact
      rw [List.flatMap_cons, List.flatMap_cons,
        scope.bindings_eq_of_same first compact.1 otherCompact.1, ih compact.2 otherCompact.2]

end ModuleScope

/-! ## Modules that take each other's place -/

namespace ClassSite

/-- Which names are declared depends on the names of class statements and on where they stand. -/
theorem fqns_keptAfter_eq_of_bare {sites others : List ClassSite}
    (same : sites.map bare = others.map bare) :
    ((keptAfter [] sites).map entry).map ClassEntry.fqn =
      ((keptAfter [] others).map entry).map ClassEntry.fqn := by
  have named : ∀ sites : List ClassSite, (sites.map entry).map ClassEntry.fqn =
      (sites.map bare).map fun site => site.entry.fqn := by
    intro sites
    rw [List.map_map, List.map_map]
    rfl
  have kept : ∀ sites : List ClassSite,
      (keptAfter [] sites).map bare = keptAfter [] (sites.map bare) := fun sites =>
    (keptAfter_map bare (fun _ => rfl) (fun _ => rfl) [] sites).symm
  rw [named, named, kept, kept, same]

end ClassSite

namespace SourceUnit

/-- The unit of a module at a place in a program, whose path is that of no later module or is. -/
def standing (number : Nat) (isLastOfPath : Bool) (source : SourceModule) : SourceUnit :=
  ⟨source, number, isLastOfPath, source.imports⟩

/-- Where a module takes the place of another of its path, all other units stay as they are. -/
theorem numberedFrom_replaced (number : Nat) (before after : List SourceModule)
    {source other : SourceModule} (path : source.path = other.path) :
    ∃ front back place isLastOfPath,
      numberedFrom number (before ++ source :: after) =
        front ++ standing place isLastOfPath source :: back ∧
      numberedFrom number (before ++ other :: after) =
        front ++ standing place isLastOfPath other :: back := by
  induction before generalizing number with
  | nil =>
      refine ⟨[], numberedFrom (number + 1) after, number,
        !(after.map SourceModule.path).contains source.path, rfl, ?_⟩
      rw [path]
      rfl
  | cons first before ih =>
      obtain ⟨front, back, place, isLastOfPath, units, otherUnits⟩ := ih (number + 1)
      -- whether a path comes again is told from the paths behind it, which are the same
      have paths : (before ++ source :: after).map SourceModule.path =
          (before ++ other :: after).map SourceModule.path := by
        rw [List.map_append, List.map_append, List.map_cons, List.map_cons, path]
      refine ⟨⟨first, number, !((before ++ source :: after).map SourceModule.path).contains
        first.path, first.imports⟩ :: front, back, place, isLastOfPath, ?_, ?_⟩
      · rw [List.cons_append, numberedFrom, units, List.cons_append]
      · rw [List.cons_append, numberedFrom, otherUnits, List.cons_append, paths]

end SourceUnit

namespace Program

/-- A module in place of another that has its path, its name, its imports and its classes leaves it
unchanged what names are resolved against. -/
theorem nameScopes_replaced (before after : List SourceModule) {source other : SourceModule}
    (path : source.path = other.path) (name : source.name = other.name)
    (imports : source.imports = other.imports)
    (same : List.Forall₂ Statement.Same source.module.body other.module.body) :
    let program := ofModules (before ++ source :: after)
    let changed := ofModules (before ++ other :: after)
    program.units.map program.nameScope = changed.units.map changed.nameScope := by
  intro program changed
  obtain ⟨front, back, place, isLastOfPath, units, otherUnits⟩ :=
    SourceUnit.numberedFrom_replaced 0 before after path
  replace units : program.units = front ++ .standing place isLastOfPath source :: back := units
  replace otherUnits : changed.units = front ++ .standing place isLastOfPath other :: back :=
    otherUnits
  set unit := SourceUnit.standing place isLastOfPath source with isUnit
  set changedUnit := SourceUnit.standing place isLastOfPath other with isChangedUnit
  have sites : unit.classSites.map ClassSite.bare = changedUnit.classSites.map ClassSite.bare := by
    have named : unit.name = changedUnit.name := name
    rw [SourceUnit.classSites, SourceUnit.classSites, named]
    exact classes_same same unit changedUnit [changedUnit.name] 0
  have declared : program.declarations.fqns = changed.declarations.fqns := by
    have classes : program.declarations.classes =
        (ClassSite.keptAfter [] (program.units.flatMap SourceUnit.classSites)).map
          ClassSite.entry := Declarations.classes_ofUnits program.units
    have changedClasses : changed.declarations.classes =
        (ClassSite.keptAfter [] (changed.units.flatMap SourceUnit.classSites)).map
          ClassSite.entry := Declarations.classes_ofUnits changed.units
    rw [Declarations.fqns, Declarations.fqns, classes, changedClasses]
    apply ClassSite.fqns_keptAfter_eq_of_bare
    rw [units, otherUnits]
    simp only [List.flatMap_append, List.flatMap_cons, List.map_append, sites]
  have scopes : ∀ unit, program.nameScope unit = changed.nameScope unit := fun unit => by
    rw [nameScope, nameScope, Declarations.nameScope, Declarations.nameScope, declared]
  have replaced : program.nameScope unit = changed.nameScope changedUnit := by
    rw [scopes, nameScope, nameScope, Declarations.nameScope, Declarations.nameScope]
    exact congrArg₂ (NameScope.mk _) imports name
  rw [units, otherUnits, List.map_append, List.map_append, List.map_cons, List.map_cons, replaced,
    List.map_congr_left fun unit _ => scopes unit, List.map_congr_left fun unit _ => scopes unit]

end Program

/-- **Layouts of imports.** Two modules whose texts have the same tokens, but for brackets around
imported names, and whose imports write dotted names without gaps have the same import table wherever
they stand; with one in place of the other, a program resolves every name in every unit as before. -/
theorem importTable_eq_of_sameTokens {text otherText : String} {module other : Module}
    (sameTokens : SameTokens text otherText) (isRead : Module.read? text = some module)
    (otherIsRead : Module.read? otherText = some other) (compact : module.ImportsCompactly)
    (otherCompact : other.ImportsCompactly) :
    (∀ scope, importTable scope module = importTable scope other) ∧
      ∀ (before after : List SourceModule) (path name : String),
        let program := Program.ofModules (before ++ ⟨path, name, module⟩ :: after)
        let changed := Program.ofModules (before ++ ⟨path, name, other⟩ :: after)
        ∀ enclosing dotted,
          (program.units.map fun unit => (program.nameScope unit).resolve? enclosing dotted) =
            changed.units.map fun unit => (changed.nameScope unit).resolve? enclosing dotted := by
  have same := Module.body_same_of_sameTokens sameTokens isRead otherIsRead
  have tables : ∀ scope, importTable scope module = importTable scope other := fun scope => by
    rw [importTable, importTable, scope.flatMap_bindings_eq_of_same (statementImports_same same)
      compact otherCompact]
  refine ⟨tables, ?_⟩
  intro before after path name program changed enclosing dotted
  have scopes : program.units.map program.nameScope = changed.units.map changed.nameScope :=
    Program.nameScopes_replaced before after rfl rfl (tables _) same
  have resolved := congrArg
    (List.map fun scope : NameScope => scope.resolve? enclosing dotted) scopes
  rwa [List.map_map, List.map_map] at resolved

namespace Sample

/-- An import of one name. -/
def plainImport : String := "from a.b import C\n"

/-- The same import with a continued line and a comment, and with brackets around the name. -/
def laidOutImport : String := "from a.b \\\n  import ( # one name\n  C,\n)\n"

theorem sameTokens_laidOutImport : SameTokens plainImport laidOutImport := by
  have listed (lead : String) (place : Place) :
      NamesListed [⟨c.text, none⟩] [⟨.name, "C", lead, place⟩] :=
    .last (.plain ⟨rfl, rfl, (by decide : "C" ∉ reservedWords)⟩)
  have line : Layout true
      (⟨.name, "import", " ", ⟨0, 9⟩⟩ :: ([⟨.name, "C", " ", ⟨0, 16⟩⟩] ++
        ⟨.lineEnd, "\n", "", ⟨0, 17⟩⟩ :: [⟨.finish, "", "", ⟨1, 0⟩⟩]))
      (⟨.name, "import", " \\\n  ", ⟨1, 2⟩⟩ :: ((⟨.operator, "(", " ", ⟨1, 9⟩⟩ ::
        ([⟨.name, "C", " # one name\n  ", ⟨2, 2⟩⟩] ++
          [⟨.operator, ",", "", ⟨2, 3⟩⟩, ⟨.operator, ")", "\n", ⟨3, 0⟩⟩])) ++
        ⟨.lineEnd, "\n", "", ⟨3, 1⟩⟩ :: [⟨.finish, "", "", ⟨4, 0⟩⟩])) :=
    .imported rfl rfl (.bare (listed _ _)) (.trailed rfl (listed _ _) rfl rfl) rfl
      (.token _ ⟨rfl, Or.inl rfl⟩ (.token _ ⟨rfl, Or.inl rfl⟩ (.nil _)))
  refine ⟨
    ⟨.name, "from", "", ⟨0, 0⟩⟩ :: ⟨.name, "a", " ", ⟨0, 5⟩⟩ :: ⟨.operator, ".", "", ⟨0, 6⟩⟩ ::
      ⟨.name, "b", "", ⟨0, 7⟩⟩ :: _,
    ⟨.name, "from", "", ⟨0, 0⟩⟩ :: ⟨.name, "a", " ", ⟨0, 5⟩⟩ :: ⟨.operator, ".", "", ⟨0, 6⟩⟩ ::
      ⟨.name, "b", "", ⟨0, 7⟩⟩ :: _, ?_, ?_,
    .token _ ⟨rfl, Or.inl rfl⟩ (.token _ ⟨rfl, Or.inl rfl⟩ (.token _ ⟨rfl, Or.inl rfl⟩
      (.token _ ⟨rfl, Or.inl rfl⟩ line)))⟩
  · rfl
  · rfl

end Sample

/-- A name in brackets, behind a continued line and a comment, is imported as on a single line. -/
theorem importTable_eq_of_bracketedName : ∃ module other,
    SameTokens Sample.plainImport Sample.laidOutImport ∧
      Module.read? Sample.plainImport = some module ∧
      Module.read? Sample.laidOutImport = some other ∧
      module.ImportsCompactly ∧ other.ImportsCompactly ∧
      (∀ scope, importTable scope module = importTable scope other) ∧
      (importTable ⟨"m", false⟩ other).entries = [("C", "a.b.C")] := by
  have evaluated : ∀ text ∈ [Sample.plainImport, Sample.laidOutImport],
      (Module.read? text).any (fun module => decide module.ImportsCompactly &&
        decide ((importTable ⟨"m", false⟩ module).entries = [("C", "a.b.C")])) = true := by
    decide +kernel
  rw [List.forall_mem_cons, List.forall_mem_singleton, Option.any_eq_true, Option.any_eq_true]
    at evaluated
  obtain ⟨⟨module, isRead, first⟩, other, otherIsRead, second⟩ := evaluated
  rw [Bool.and_eq_true, decide_eq_true_eq, decide_eq_true_eq] at first second
  have sameTables := (importTable_eq_of_sameTokens Sample.sameTokens_laidOutImport isRead otherIsRead
    first.1 second.1).1
  exact ⟨module, other, Sample.sameTokens_laidOutImport, isRead, otherIsRead, first.1, second.1,
    sameTables, sameTables ⟨"m", false⟩ ▸ first.2⟩

/-- Dotted names are kept as they are written: blanks around a dot are kept with the name in front
of it. -/
theorem spaced_names_are_kept_as_written :
    ¬ ∀ (text otherText : String) (module other : Module), SameTokens text otherText →
      Module.read? text = some module → Module.read? otherText = some other →
      ∀ scope, importTable scope module = importTable scope other := by
  intro always
  have tables : ((Module.read? "import os.path\n").map fun module =>
        (importTable ⟨"m", false⟩ module).entries) = some [("os", "os")] ∧
      ((Module.read? "import os . path\n").map fun module =>
        (importTable ⟨"m", false⟩ module).entries) = some [("os ", "os ")] := by
    decide +kernel
  obtain ⟨module, isRead, table⟩ := Option.map_eq_some_iff.mp tables.1
  obtain ⟨other, otherIsRead, otherTable⟩ := Option.map_eq_some_iff.mp tables.2
  have sameTokens : SameTokens "import os.path\n" "import os . path\n" := by
    refine ⟨
      [⟨.name, "import", "", ⟨0, 0⟩⟩, ⟨.name, "os", " ", ⟨0, 7⟩⟩, ⟨.operator, ".", "", ⟨0, 9⟩⟩,
        ⟨.name, "path", "", ⟨0, 10⟩⟩, ⟨.lineEnd, "\n", "", ⟨0, 14⟩⟩, ⟨.finish, "", "", ⟨1, 0⟩⟩],
      [⟨.name, "import", "", ⟨0, 0⟩⟩, ⟨.name, "os", " ", ⟨0, 7⟩⟩, ⟨.operator, ".", " ", ⟨0, 10⟩⟩,
        ⟨.name, "path", " ", ⟨0, 12⟩⟩, ⟨.lineEnd, "\n", "", ⟨0, 16⟩⟩, ⟨.finish, "", "", ⟨1, 0⟩⟩],
      ?_, ?_, ?_⟩
    · rfl
    · rfl
    · repeat' first | exact .nil _ | refine .token _ ⟨rfl, Or.inl rfl⟩ ?_
  have same := congrArg Table.entries (always _ _ _ _ sameTokens isRead otherIsRead ⟨"m", false⟩)
  rw [table, otherTable] at same
  exact absurd same (by decide)

end TypeCatalog
