import TypeCatalog.Proofs.Collections
import TypeCatalog.Proofs.Lineages
import TypeCatalog.Proofs.Pieces

/-! # Import tables

An import table lists the first binding of each name among the imports of the module scope, in
source order (`TypeCatalog.entries_importTable`). Every branch of a compound statement counts that
is an indented block, at any depth; a branch on the line of its colon does not
(`TypeCatalog.oneLineImports_are_not_read`).
-/

namespace TypeCatalog

open Syntax

namespace Binding

/-- A binding as an entry of an import table. -/
def entry (binding : Binding) : String × String := (binding.name, binding.target)

end Binding

/-! ## The first binding of each name -/

/-- Bindings one after the other add the first of each name that is not bound yet. -/
theorem entries_foldl_bindFirst (bindings : List Binding) (table : Table String)
    (seen : List String) (same : ∀ name, name ∈ seen ↔ name ∈ table.keys) :
    (bindings.foldl bindFirst table).entries =
      table.entries ++ (firstOfEachFrom Binding.name seen bindings).map Binding.entry := by
  induction bindings generalizing table seen with
  | nil => rw [List.foldl_nil, firstOfEachFrom, List.map_nil, List.append_nil]
  | cons binding rest ih =>
      rw [List.foldl_cons, firstOfEachFrom]
      by_cases bound : binding.name ∈ seen
      · have kept : bindFirst table binding = table :=
          if_pos (Table.contains_iff.mpr ((same _).mp bound))
        rw [if_pos (List.contains_iff_mem.mpr bound), kept, ih table seen same]
      · have absent : binding.name ∉ table.keys := fun member => bound ((same _).mpr member)
        have added : (bindFirst table binding).entries = table.entries ++ [binding.entry] :=
          Table.entries_insertNew_of_absent _ absent
        have known : ∀ name, name ∈ binding.name :: seen ↔
            name ∈ (bindFirst table binding).keys := by
          intro name
          rw [Table.keys, added, List.map_append, List.mem_append, List.mem_cons, same name,
            or_comm]
          exact or_congr_right List.mem_singleton.symm
        rw [if_neg fun listed => bound (List.contains_iff_mem.mp listed), ih _ _ known, added,
          List.map_cons, List.append_assoc, List.singleton_append]

/-- A name is bound by the first binding of its name. -/
theorem find?_foldl_bindFirst (bindings : List Binding) (table : Table String) (name : String) :
    (bindings.foldl bindFirst table).find? name =
      (table.find? name).or
        ((bindings.find? fun binding => binding.name = name).map Binding.target) := by
  induction bindings generalizing table with
  | nil => rw [List.foldl_nil, List.find?_nil, Option.map_none, Option.or_none]
  | cons binding rest ih =>
      rw [List.foldl_cons, ih, bindFirst, Table.find?_insertNew, Option.or_assoc, List.find?_cons]
      by_cases asked : name = binding.name
      · simp [asked]
      · have differ : binding.name ≠ name := fun same => asked same.symm
        simp [asked, differ]

/-! ## Imports among the pieces -/

namespace Syntax.PlacedPiece

/-- The names that a piece imports and what they stand for. -/
def bindings (scope : ModuleScope) (placed : PlacedPiece) : List Binding :=
  match placed.piece with
  | .simple statement => scope.bindings statement
  | .classStatement _ _ => []

end Syntax.PlacedPiece

namespace ModuleScope

variable (scope : ModuleScope)

/-- What pieces that stand in nothing bind. -/
def lineBindings (pieces : List PlacedPiece) : List Binding :=
  (pieces.filter fun placed => placed.around.isEmpty).flatMap (PlacedPiece.bindings scope)

theorem lineBindings_append (front rest : List PlacedPiece) :
    scope.lineBindings (front ++ rest) = scope.lineBindings front ++ scope.lineBindings rest := by
  rw [lineBindings, List.filter_append, List.flatMap_append]
  rfl

/-- Pieces in a class or function body stand in something. -/
theorem lineBindings_map_inside (outer : Enclosure) (pieces : List PlacedPiece) :
    scope.lineBindings (pieces.map (PlacedPiece.inside outer)) = [] := by
  have nowhere : (pieces.map (PlacedPiece.inside outer)).filter
      (fun placed => placed.around.isEmpty) = [] := by
    rw [List.filter_eq_nil_iff]
    intro placed member
    obtain ⟨inner, _, rfl⟩ := List.mem_map.mp member
    simp [PlacedPiece.inside]
  rw [lineBindings, nowhere, List.flatMap_nil]

/-- Simple statements that are no imports bind nothing. -/
theorem bindings_of_not_isImport {part : SimpleStatement} (other : part.isImport = false) :
    scope.bindings part = [] := by
  cases part with
  | importModules names => simp [SimpleStatement.isImport] at other
  | importFrom level module names => simp [SimpleStatement.isImport] at other
  | annotated target annotation value => rfl
  | other kind parts => rfl

mutual

theorem flatMap_bindings_imports :
    ∀ statement : Statement, statement.imports.flatMap scope.bindings =
      scope.lineBindings statement.pieces
  | .line parts => by
      have everywhere : (parts.map fun part => (⟨[], .simple part⟩ : PlacedPiece)).filter
          (fun placed => placed.around.isEmpty) =
            parts.map fun part => ⟨[], .simple part⟩ := by
        rw [List.filter_eq_self]
        intro placed member
        obtain ⟨part, _, rfl⟩ := List.mem_map.mp member
        rfl
      rw [Statement.imports, Statement.pieces, lineBindings, everywhere, List.flatMap_map,
        flatMap_filter_of_eq_nil fun part _ => scope.bindings_of_not_isImport]
      rfl
  | .classStatement header body => by
      have own : scope.lineBindings [⟨[], .classStatement header body⟩] = [] := rfl
      rw [Statement.imports, Statement.pieces, List.flatMap_nil, ← List.singleton_append,
        lineBindings_append, own, lineBindings_map_inside, List.append_nil]
  | .functionStatement header body => by
      rw [Statement.imports, Statement.pieces, List.flatMap_nil, lineBindings_map_inside]
  | .compound clauses => by
      rw [Statement.imports, Statement.pieces, flatMap_bindings_clauseImports clauses]

theorem flatMap_bindings_clauseImports :
    ∀ clauses : List Clause, (clauseImports clauses).flatMap scope.bindings =
      scope.lineBindings (clausePieces clauses)
  | [] => rfl
  | .clause _ _ body :: rest => by
      rw [clauseImports, clausePieces, List.flatMap_append, lineBindings_append,
        flatMap_bindings_suiteImports body, flatMap_bindings_clauseImports rest]

theorem flatMap_bindings_suiteImports :
    ∀ suite : Suite, suite.imports.flatMap scope.bindings = scope.lineBindings suite.pieces
  | .inline parts => by
      have nowhere : (parts.map fun part => (⟨[.oneLine], .simple part⟩ : PlacedPiece)).filter
          (fun placed => placed.around.isEmpty) = [] := by
        rw [List.filter_eq_nil_iff]
        intro placed member
        obtain ⟨part, _, rfl⟩ := List.mem_map.mp member
        simp
      rw [Suite.imports, Suite.pieces, lineBindings, nowhere, List.flatMap_nil, List.flatMap_nil]
  | .indented body => by
      rw [Suite.imports, Suite.pieces, flatMap_bindings_statementImports body]

theorem flatMap_bindings_statementImports :
    ∀ statements : List Statement, (statementImports statements).flatMap scope.bindings =
      scope.lineBindings (statementPieces statements)
  | [] => rfl
  | statement :: rest => by
      rw [statementImports, statementPieces, List.flatMap_append, lineBindings_append,
        flatMap_bindings_imports statement, flatMap_bindings_statementImports rest]

end

/-- What the import table of a module is made from are the bindings of its pieces that stand in
nothing. -/
theorem importTable_eq (module : Module) :
    importTable scope module = (scope.lineBindings module.pieces).foldl bindFirst .empty := by
  rw [importTable, flatMap_bindings_statementImports]
  rfl

end ModuleScope

/-! ## The table of a module -/

/-- A name stands for the target of its first binding among the pieces that stand in nothing. -/
theorem find?_importTable (scope : ModuleScope) (module : Module) (name : String) :
    (importTable scope module).find? name =
      ((scope.lineBindings module.pieces).find? fun binding => binding.name = name).map
        Binding.target := by
  rw [scope.importTable_eq, find?_foldl_bindFirst, Table.find?_empty, Option.none_or]

/-- The pieces of the module scope that stand on no line of a colon stand in nothing. -/
theorem filter_scopePieces (module : Module) :
    (module.scopePieces.filter fun placed => !placed.onOneLine) =
      module.pieces.filter fun placed => placed.around.isEmpty := by
  rw [Module.scopePieces, List.filter_filter]
  apply List.filter_congr
  intro placed _
  rw [Bool.and_comm, placed.inModuleScope_and_not_onOneLine]

/-- A name that no piece of the module scope binds before stands for the target of its binding. -/
theorem find?_importTable_of_first {scope : ModuleScope} {module : Module}
    {before after : List PlacedPiece} {placed : PlacedPiece}
    (stands : module.scopePieces = before ++ placed :: after)
    (onLine : placed.onOneLine = false) {earlier later : List Binding} {binding : Binding}
    (binds : placed.bindings scope = earlier ++ binding :: later)
    (firstPiece : ∀ other ∈ before, ∀ bound ∈ other.bindings scope, bound.name ≠ binding.name)
    (firstBinding : ∀ bound ∈ earlier, bound.name ≠ binding.name) :
    (importTable scope module).find? binding.name = some binding.target := by
  have split : scope.lineBindings module.pieces =
      ((before.filter fun other => !other.onOneLine).flatMap (PlacedPiece.bindings scope) ++
        earlier) ++ binding :: (later ++
          (after.filter fun other => !other.onOneLine).flatMap (PlacedPiece.bindings scope)) := by
    rw [ModuleScope.lineBindings, ← filter_scopePieces, stands, List.filter_append,
      List.filter_cons_of_pos (by rw [onLine]; rfl), List.flatMap_append, List.flatMap_cons, binds]
    simp only [List.append_assoc, List.cons_append]
  have unbound : ((before.filter fun other => !other.onOneLine).flatMap
      (PlacedPiece.bindings scope) ++ earlier).find? (fun bound => bound.name = binding.name) =
        none := by
    rw [List.find?_eq_none]
    intro bound member
    rw [decide_eq_true_eq]
    rcases List.mem_append.mp member with inPieces | inStatement
    · obtain ⟨other, listed, isBound⟩ := List.mem_flatMap.mp inPieces
      exact firstPiece other (List.mem_of_mem_filter listed) bound isBound
    · exact firstBinding bound inStatement
  rw [find?_importTable, split, List.find?_append, unbound, Option.none_or,
    List.find?_cons_of_pos (by simp), Option.map_some]

/-- **The first binding of each name.** The import table of a module lists, for the imports of the
module scope in source order, the first binding of each name, whatever branches of compound
statements they stand in; what stands on the line of a colon is left out. When nothing is imported
there, these are all imports of the module scope. -/
theorem entries_importTable (scope : ModuleScope) (module : Module) :
    let firstOfEachName := fun pieces : List PlacedPiece =>
      (firstOfEach Binding.name (pieces.flatMap (PlacedPiece.bindings scope))).map Binding.entry
    (importTable scope module).entries =
        firstOfEachName (module.scopePieces.filter fun placed => !placed.onOneLine) ∧
      ((∀ placed ∈ module.scopePieces, placed.onOneLine = true → placed.bindings scope = []) →
        (importTable scope module).entries = firstOfEachName module.scopePieces) := by
  intro firstOfEachName
  have whole : (importTable scope module).entries =
      firstOfEachName (module.scopePieces.filter fun placed => !placed.onOneLine) := by
    rw [scope.importTable_eq, entries_foldl_bindFirst _ _ [] (by simp), filter_scopePieces]
    rfl
  refine ⟨whole, ?_⟩
  intro unused
  have dropped : ∀ placed ∈ module.scopePieces, (!placed.onOneLine) = false →
      placed.bindings scope = [] := by
    intro placed member oneLine
    exact unused placed member (by simpa using oneLine)
  calc (importTable scope module).entries
      = firstOfEachName (module.scopePieces.filter fun placed => !placed.onOneLine) := whole
    _ = firstOfEachName module.scopePieces :=
        congrArg (fun bindings => (firstOfEach Binding.name bindings).map Binding.entry)
          (flatMap_filter_of_eq_nil dropped)

namespace Sample

/-- An import on the line of the condition that it stands under. -/
def guarded : Module where
  body := [.compound [.clause .ifClause [name 1 a]
    (.inline [.importFrom 0 (some "lib") (.names [⟨"B", none⟩])])]]
  sites_nodup := by decide +kernel

end Sample

/-- Not all imports of the module scope are read: the import of the sample binds nothing. -/
theorem oneLineImports_are_not_read :
    ¬ ∀ (scope : ModuleScope) (module : Module), (importTable scope module).entries =
      (firstOfEach Binding.name
        (module.scopePieces.flatMap (PlacedPiece.bindings scope))).map Binding.entry := by
  intro read
  exact absurd (read ⟨"m", false⟩ Sample.guarded) (by decide +kernel)

end TypeCatalog
