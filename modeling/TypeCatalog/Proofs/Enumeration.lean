import TypeCatalog.Proofs.ClassIndex
import TypeCatalog.Proofs.Sites

/-! # Enumeration of declared types

The declared types of a program are enumerated by walking over the nodes of every unit and looking
up what stands there. Since the places of a unit are different, the walk meets every declared class
once, in the order in which the classes were collected
(`TypeCatalog.Program.namedTypes_ofModules`).
-/

namespace TypeCatalog

open Syntax

/-! ## Classes by unit -/

namespace SourceUnit

theorem map_number_numberedFrom (number : Nat) (sources : List SourceModule) :
    (numberedFrom number sources).map SourceUnit.number = List.range' number sources.length := by
  induction sources generalizing number with
  | nil => rfl
  | cons source rest ih => rw [numberedFrom, List.map_cons, ih, List.length_cons, List.range'_succ]

theorem nodup_numbers (sources : List SourceModule) :
    ((ofModules sources).map SourceUnit.number).Nodup := by
  rw [ofModules, map_number_numberedFrom]
  exact List.nodup_range'

end SourceUnit

namespace Declarations

/-- The declared classes of a unit. -/
def classesOf (found : Declarations) (unit : SourceUnit) : List ClassEntry :=
  found.classes.filter fun entry => entry.unit.number = unit.number

/-- The declared classes come unit by unit, and those of a unit are among its class statements. -/
theorem classesOf_ofUnits {units : List SourceUnit}
    (distinct : (units.map SourceUnit.number).Nodup) :
    units.flatMap (ofUnits units).classesOf = (ofUnits units).classes ∧
      ∀ unit ∈ units, ∃ sites : List ClassSite, sites.Sublist unit.classSites ∧
        (ofUnits units).classesOf unit = sites.map ClassSite.entry := by
  have numbered : ∀ unit ∈ units, ∀ site ∈ unit.classSites, site.unit.number = unit.number := by
    intro unit _ site member
    rw [unit.classSites_standIn.ofUnit site member]
  obtain ⟨together, parts⟩ := flatMap_filter_of_sublist
    (ClassSite.keptAfter_sublist [] (units.flatMap SourceUnit.classSites)) numbered distinct
  have ofUnit : ∀ unit, (ofUnits units).classesOf unit =
      ((ClassSite.keptAfter [] (units.flatMap SourceUnit.classSites)).filter
        fun site => site.unit.number = unit.number).map ClassSite.entry := by
    intro unit
    rw [classesOf, classes_ofUnits, List.filter_map]
    rfl
  refine ⟨?_, fun unit member => ⟨_, parts unit member, ofUnit unit⟩⟩
  rw [List.flatMap_congr fun unit _ => ofUnit unit, ← List.map_flatMap, together, classes_ofUnits]

/-- The classes of a unit stand at class statements of it, in order, and hold sites of it. -/
theorem places_classesOf {units : List SourceUnit}
    (distinct : (units.map SourceUnit.number).Nodup) {unit : SourceUnit} (member : unit ∈ units) :
    (((ofUnits units).classesOf unit).map fun entry => entry.header.place).Sublist
        (statementSites unit.module.body) ∧
      ∀ entry ∈ (ofUnits units).classesOf unit, (entry.header.place, true) ∈ unit.marks ∧
        ∀ mark ∈ entry.body.marks, mark ∈ unit.marks := by
  obtain ⟨sites, part, classes⟩ := (classesOf_ofUnits distinct).2 unit member
  have standIn := unit.classSites_standIn
  have places : (sites.map fun site => site.header.place).Sublist
      ((unit.marks.filter Prod.snd).map Prod.fst) := standIn.places ▸ part.map _
  rw [classes]
  refine ⟨?_, ?_⟩
  · rw [List.map_map, ← unit.map_fst_marks]
    exact places.trans (List.filter_sublist.map _)
  · intro entry listed
    obtain ⟨site, inPart, rfl⟩ := List.mem_map.mp listed
    refine ⟨?_, standIn.bodies site (part.mem inPart)⟩
    obtain ⟨⟨place, isClass⟩, marked, same⟩ :=
      List.mem_map.mp (places.mem (List.mem_map_of_mem inPart))
    obtain ⟨inMarks, rfl⟩ := List.mem_filter.mp marked
    exact same ▸ inMarks

end Declarations

/-! ## Symbols by place -/

/-- Looking up a type among the symbols of a unit finds those that stand at class statements, when
symbols in front of them stand at other sites and neither these nor those behind are types. -/
theorem type?_lookup_append (unit : SourceUnit) {front types behind : List (Place × Symbol)}
    (inFront : ∀ pair ∈ front, pair.2.type? = none ∧ (pair.1, false) ∈ unit.marks)
    (inTypes : ∀ pair ∈ types, (pair.1, true) ∈ unit.marks)
    (inBehind : ∀ pair ∈ behind, pair.2.type? = none) (place : Place) :
    ((front ++ types ++ behind).lookup place).bind Symbol.type? =
      (types.lookup place).bind Symbol.type? := by
  rw [List.lookup_append, List.lookup_append]
  cases before : front.lookup place with
  | some symbol =>
      have listed := mem_of_lookup before
      have missing : types.lookup place = none := by
        rw [List.lookup_eq_none_iff]
        intro other member
        have apart : place ≠ other.1 := fun same =>
          unit.marks_unique (inTypes other member) (same ▸ (inFront _ listed).2)
        simpa using apart
      rw [missing]
      exact (inFront _ listed).1
  | none =>
      rw [Option.none_or]
      cases typed : types.lookup place with
      | some symbol => rfl
      | none =>
          rw [Option.none_or]
          cases after : behind.lookup place with
          | none => rfl
          | some symbol => exact inBehind _ (mem_of_lookup after)

namespace Program

/-- What is seen of the symbols of a unit stands at its sites, unless modules and functions are seen
too. -/
theorem filterMap_symbols_symbolUnit {β : Type} {view : Symbol → Option β}
    (skips : ∀ declaration, view (.declaration declaration) = none) (unit : SourceUnit)
    (symbols : List (Place × Symbol)) :
    (symbolUnit unit symbols).symbols.filterMap view =
      (statementSites unit.module.body).filterMap fun place => (symbols.lookup place).bind view := by
  rw [SymbolUnit.symbols, symbolUnit, ← unit.module.filterMap_place_nodes, List.filterMap_filterMap,
    List.filterMap_map, List.filterMap_filterMap]
  congr 1
  funext node
  cases node with
  | module => exact skips _
  | site place => rfl
  | other => rfl

/-- The symbols of the declared classes of a unit, by the places of their statements. -/
def classSymbols (found : Declarations) (unit : SourceUnit) : List (Place × Symbol) :=
  (found.classesOf unit).map fun entry => (entry.header.place, .type (found.declaredType entry))

theorem filterMap_classes (found : Declarations) (unit : SourceUnit) :
    (found.classes.filterMap fun entry =>
      if entry.unit.number = unit.number then
        (found.types.find? entry.fqn).map fun symbol => (entry.header.place, Symbol.type symbol)
      else none) = classSymbols found unit := by
  rw [classSymbols, Declarations.classesOf, ← List.filterMap_eq_map, List.filterMap_filter]
  apply List.filterMap_congr
  intro entry declared
  rw [Declarations.find?_types declared]
  by_cases number : entry.unit.number = unit.number <;> simp [number]

/-- What stands at a place of a unit is a type exactly when a declared class stands there. -/
theorem type?_lookup_siteSymbols {found : Declarations} {unit : SourceUnit}
    (classes : ∀ entry ∈ found.classesOf unit, (entry.header.place, true) ∈ unit.marks ∧
      ∀ mark ∈ entry.body.marks, mark ∈ unit.marks) (place : Place) :
    ((siteSymbols found found.types (classMembers found found.types) unit).lookup place).bind
      Symbol.type? = ((classSymbols found unit).lookup place).bind Symbol.type? := by
  rw [siteSymbols, filterMap_classes]
  refine type?_lookup_append unit ?_ ?_ ?_ place
  · intro pair listed
    obtain ⟨_, inClasses, inSites⟩ := List.mem_flatMap.mp listed
    obtain ⟨entry, declared, rfl⟩ := List.mem_map.mp inClasses
    dsimp only at inSites
    by_cases number : entry.unit.number = unit.number
    · rw [if_pos number] at inSites
      obtain ⟨site, declaredSite, rfl⟩ := List.mem_map.mp inSites
      have own : entry ∈ found.classesOf unit :=
        List.mem_filter.mpr ⟨declared, by simpa using number⟩
      exact ⟨rfl, (classes entry own).2 _ ((found.reading entry).marked_of_mem_sites declaredSite)⟩
    · simp [number] at inSites
  · intro pair ofClass
    obtain ⟨entry, own, rfl⟩ := List.mem_map.mp ofClass
    exact (classes entry own).1
  · intro pair listed
    obtain ⟨entry, _, declared⟩ := List.mem_filterMap.mp listed
    split at declared
    · rw [← Option.some.inj declared]
      rfl
    · simp at declared

/-- The types that the nodes of a unit declare are those of its classes, in order. -/
theorem types_symbolUnit_siteSymbols {units : List SourceUnit}
    (distinct : (units.map SourceUnit.number).Nodup) {unit : SourceUnit} (member : unit ∈ units) :
    let found := Declarations.ofUnits units
    (symbolUnit unit (siteSymbols found found.types (classMembers found found.types)
      unit)).symbols.filterMap Symbol.type? =
        (found.classesOf unit).map found.declaredType := by
  intro found
  obtain ⟨places, classes⟩ := Declarations.places_classesOf distinct member
  have listed : (statementSites unit.module.body).filterMap
      (fun place => (classSymbols found unit).lookup place) =
        (classSymbols found unit).map Prod.snd := by
    refine filterMap_lookup_of_sublist ?_ unit.module.sites_nodup
    rw [classSymbols, List.map_map]
    exact places
  calc
    _ = (statementSites unit.module.body).filterMap fun place =>
        ((classSymbols found unit).lookup place).bind Symbol.type? := by
      rw [filterMap_symbols_symbolUnit fun _ => rfl]
      exact List.filterMap_congr fun place _ => type?_lookup_siteSymbols classes place
    _ = ((classSymbols found unit).map Prod.snd).filterMap Symbol.type? := by
      rw [← listed, List.filterMap_filterMap]
    _ = (found.classesOf unit).map found.declaredType := by
      rw [classSymbols, List.map_map, List.filterMap_map, ← List.filterMap_eq_map]
      rfl

/-! ## The enumeration -/

theorem units_foldl_addUnit (shown : SourceUnit → SymbolUnit) (units : List SourceUnit)
    (index : Index) : (units.foldl (fun index unit => index.addUnit (shown unit)) index).units =
      index.units ++ units.map shown := by
  induction units generalizing index with
  | nil => simp
  | cons unit rest ih =>
      rw [List.foldl_cons, ih, List.map_cons, Index.addUnit, List.append_assoc,
        List.singleton_append]

/-- Every unit of a program is listed with the symbols of its sites. -/
theorem index_units_ofModules (sources : List SourceModule) :
    let found := (ofModules sources).declarations
    (ofModules sources).index.units = (ofModules sources).units.map fun unit =>
      symbolUnit unit (siteSymbols found found.types (classMembers found found.types) unit) := by
  intro found
  have unlisted : (linkOverrides found.classIndex).units = [] := by
    rw [linkOverrides, Declarations.classIndex_eq]
    refine (view_foldl Index.units _ (by intros; rfl) _ _).trans ?_
    exact view_foldl Index.units _ (by intros; rfl) found.classes .empty
  refine (units_foldl_addUnit _ _ _).trans ?_
  exact congrArg (· ++ _) unlisted

/-- The declared types are enumerated in the order in which their classes are collected. -/
theorem namedTypes_eq_map_declaredType (sources : List SourceModule) :
    let found := (ofModules sources).declarations
    (ofModules sources).index.namedTypes = found.classes.map found.declaredType := by
  have distinct := SourceUnit.nodup_numbers sources
  rw [Index.namedTypes, index_units_ofModules, List.flatMap_map]
  refine (List.flatMap_congr fun unit member =>
    types_symbolUnit_siteSymbols distinct member).trans ?_
  rw [← List.map_flatMap]
  exact congrArg _ (Declarations.classesOf_ofUnits distinct).1

/-- **Enumeration.** The declared types are enumerated in the order in which the index lists them,
each once: they are those of the class statements of all units in pre-order, of which the first of
each qualified name counts and what stands inside the others does not. -/
theorem namedTypes_ofModules (sources : List SourceModule) :
    let program := ofModules sources
    let names := program.index.namedTypes.map TypeSymbol.fqn
    program.units.map SourceUnit.toSourceModule = sources ∧
      names = program.index.types.keys ∧
      names = (ClassSite.keptAfter [] (program.units.flatMap SourceUnit.classSites)).map
        ClassSite.fqn ∧
      names.Nodup := by
  intro program names
  have declared : names = program.declarations.fqns := by
    rw [show names = program.index.namedTypes.map TypeSymbol.fqn from rfl,
      namedTypes_eq_map_declaredType, List.map_map]
    rfl
  refine ⟨SourceUnit.map_toSourceModule_numberedFrom 0 sources, ?_, ?_, ?_⟩
  · rw [declared, types_ofModules, Declarations.keys_types_classIndex]
  · rw [declared, Declarations.fqns, show program.declarations =
      Declarations.ofUnits program.units from rfl, Declarations.classes_ofUnits, List.map_map]
    apply List.map_congr_left
    intro site kept
    obtain ⟨unit, _, inUnit⟩ :=
      List.mem_flatMap.mp ((ClassSite.keptAfter_sublist _ _).mem kept)
    exact unit.classSites_standIn.named site inUnit
  · rw [declared]
    exact program.declarations.fqns_nodup

end Program

end TypeCatalog
