import TypeCatalog.Proofs.Sites

/-! # Classes of single modules

When no two modules declare a class of the same qualified name, a program declares what each of its
modules declares on its own, one after the other (`TypeCatalog.Declarations.classes_ofModules`).
-/

namespace TypeCatalog

open Syntax

namespace ClassSite

/-! ## Keeping the first of each name -/

/-- Names that no kept statement has make no difference to what is kept. -/
theorem keptAfter_append_seen {other seen : List String} {sites : List ClassSite}
    (apart : ∀ site ∈ keptAfter seen sites, site.fqn ∉ other) :
    keptAfter (other ++ seen) sites = keptAfter seen sites := by
  fun_induction keptAfter seen sites with
  | case1 => rw [keptAfter]
  | case2 seen site rest repeated ih =>
      rw [keptAfter, if_pos (List.mem_append_right other repeated), ih apart]
  | case3 seen site rest fresh ih =>
      have unseen : site.fqn ∉ other ++ seen := by
        rw [List.mem_append, not_or]
        exact ⟨apart site List.mem_cons_self, fresh⟩
      rw [keptAfter, if_neg unseen, List.append_assoc,
        ih fun later listed => apart later (List.mem_cons_of_mem _ listed)]

/-- Passing over the statements inside one of a piece stops within the piece, or behind it. -/
theorem Outside.dropWhile_append_eq {depth : Nat} {front rest : List ClassSite}
    (outside : Outside depth rest) :
    (front ++ rest).dropWhile (fun site => depth < site.depth) =
      front.dropWhile (fun site => depth < site.depth) ++ rest := by
  induction front with
  | nil =>
      simpa using outside.dropWhile_append fun site (inNone : site ∈ []) =>
        absurd inNone List.not_mem_nil
  | cons site front ih =>
      rw [List.cons_append, List.dropWhile_cons, List.dropWhile_cons, ih]
      split <;> rfl

/-- Of two pieces the first is kept as on its own, and what it keeps has been seen in the second. -/
theorem keptAfter_append {seen : List String} {front rest : List ClassSite}
    (outside : Outside 0 rest) :
    keptAfter seen (front ++ rest) =
      keptAfter seen front ++ keptAfter (seen ++ (keptAfter seen front).map fqn) rest := by
  fun_induction keptAfter seen front with
  | case1 => simp
  | case2 seen site front repeated ih =>
      have behind : Outside site.depth rest := fun other first =>
        Nat.le_trans (outside other first) (Nat.zero_le _)
      rw [List.cons_append, keptAfter, if_pos repeated, behind.dropWhile_append_eq, ih]
  | case3 seen site front fresh ih =>
      rw [List.cons_append, keptAfter, if_neg fresh, ih, List.map_cons, List.append_assoc,
        List.singleton_append, List.cons_append]

/-- What is kept depends on names and depths only. -/
theorem keptAfter_map (change : ClassSite → ClassSite)
    (named : ∀ site, (change site).fqn = site.fqn)
    (deep : ∀ site, (change site).depth = site.depth) (seen : List String)
    (sites : List ClassSite) :
    keptAfter seen (sites.map change) = (keptAfter seen sites).map change := by
  fun_induction keptAfter seen sites with
  | case1 => simp [keptAfter]
  | case2 seen site rest repeated ih =>
      rw [List.map_cons, keptAfter, named, if_pos repeated, deep, List.dropWhile_map, ← ih]
      simp only [Function.comp_def, deep]
  | case3 seen site rest fresh ih =>
      rw [List.map_cons, keptAfter, named, if_neg fresh, ih, List.map_cons]

/-! ## Statements of a unit -/

/-- A class statement as one of a given unit. -/
def inUnit (unit : SourceUnit) (site : ClassSite) : ClassSite := { site with unit := unit }

theorem keptAfter_inUnit (unit : SourceUnit) (seen : List String) (sites : List ClassSite) :
    keptAfter seen (sites.map (inUnit unit)) = (keptAfter seen sites).map (inUnit unit) :=
  keptAfter_map (inUnit unit) (fun _ => rfl) (fun _ => rfl) seen sites

mutual

theorem ofStatement_inUnit (unit other : SourceUnit) (around : List String) (depth : Nat) :
    ∀ statement, ofStatement unit around depth statement =
      (ofStatement other around depth statement).map (inUnit unit)
  | .line _ => by simp [ofStatement]
  | .classStatement header body => by
      rw [ofStatement, ofStatement, List.map_cons, ofSuite_inUnit unit other _ _ body]
      rfl
  | .functionStatement header body => by
      rw [ofStatement, ofStatement, ofSuite_inUnit unit other _ _ body]
  | .compound clauses => by
      rw [ofStatement, ofStatement, ofClauses_inUnit unit other around depth clauses]

theorem ofClauses_inUnit (unit other : SourceUnit) (around : List String) (depth : Nat) :
    ∀ clauses, ofClauses unit around depth clauses =
      (ofClauses other around depth clauses).map (inUnit unit)
  | [] => by simp [ofClauses]
  | .clause _ _ body :: rest => by
      rw [ofClauses, ofClauses, List.map_append, ofSuite_inUnit unit other around depth body,
        ofClauses_inUnit unit other around depth rest]

theorem ofSuite_inUnit (unit other : SourceUnit) (around : List String) (depth : Nat) :
    ∀ suite, ofSuite unit around depth suite =
      (ofSuite other around depth suite).map (inUnit unit)
  | .inline _ => by simp [ofSuite]
  | .indented body => by
      rw [ofSuite, ofSuite, ofStatements_inUnit unit other around depth body]

theorem ofStatements_inUnit (unit other : SourceUnit) (around : List String) (depth : Nat) :
    ∀ statements, ofStatements unit around depth statements =
      (ofStatements other around depth statements).map (inUnit unit)
  | [] => by simp [ofStatements]
  | statement :: rest => by
      rw [ofStatements, ofStatements, List.map_append,
        ofStatement_inUnit unit other around depth statement,
        ofStatements_inUnit unit other around depth rest]

end

end ClassSite

/-! ## Units without numbers -/

namespace SourceUnit

/-- A unit without its place among the modules. -/
def unnumbered (unit : SourceUnit) : SourceUnit := { unit with number := 0 }

/-- The only unit of a program of one module. -/
def alone (source : SourceModule) : SourceUnit := ⟨source, 0, true, source.imports⟩

/-- Units of different paths are those of their modules, but for their numbers. -/
theorem map_unnumbered_numberedFrom (number : Nat) {sources : List SourceModule}
    (distinct : (sources.map SourceModule.path).Nodup) :
    (numberedFrom number sources).map unnumbered = sources.map alone := by
  induction sources generalizing number with
  | nil => rfl
  | cons source rest ih =>
      rw [List.map_cons, List.nodup_cons] at distinct
      have last : (!(rest.map SourceModule.path).contains source.path) = true := by
        simpa using distinct.1
      rw [numberedFrom, List.map_cons, List.map_cons, ih _ distinct.2, unnumbered, last, alone]

/-- The class statements of a unit that declare a class when there is no other unit. -/
def ownSites (unit : SourceUnit) : List ClassSite := ClassSite.keptAfter [] unit.classSites

/-- The classes that a unit declares on its own. -/
def ownClasses (unit : SourceUnit) : List ClassEntry := unit.ownSites.map ClassSite.entry

/-- Behind other units a unit keeps what it keeps on its own, when none of it has been seen. -/
theorem keptAfter_eq_ownSites {unit : SourceUnit} {seen : List String}
    (unseen : ∀ site ∈ unit.ownSites, site.fqn ∉ seen) :
    ClassSite.keptAfter seen unit.classSites = unit.ownSites := by
  have kept : ClassSite.keptAfter (seen ++ []) unit.classSites =
      ClassSite.keptAfter [] unit.classSites := ClassSite.keptAfter_append_seen unseen
  rwa [List.append_nil] at kept

theorem mem_classSites_of_mem_ownSites {unit : SourceUnit} {site : ClassSite}
    (member : site ∈ unit.ownSites) : site ∈ unit.classSites :=
  (ClassSite.keptAfter_sublist _ _).mem member

theorem map_fqn_ownClasses (unit : SourceUnit) :
    unit.ownClasses.map ClassEntry.fqn = unit.ownSites.map ClassSite.fqn := by
  rw [ownClasses, List.map_map]
  apply List.map_congr_left
  intro site member
  exact unit.classSites_standIn.named site (mem_classSites_of_mem_ownSites member)

end SourceUnit

/-- A class as one of a unit without its place among the modules. -/
def ClassEntry.unnumbered (entry : ClassEntry) : ClassEntry :=
  { entry with unit := entry.unit.unnumbered }

namespace SourceUnit

theorem map_unnumbered_ownClasses (unit : SourceUnit) :
    unit.ownClasses.map ClassEntry.unnumbered = unit.unnumbered.ownClasses := by
  have sites : unit.unnumbered.classSites =
      unit.classSites.map (ClassSite.inUnit unit.unnumbered) :=
    ClassSite.ofStatements_inUnit unit.unnumbered unit _ 0 unit.module.body
  rw [ownClasses, ownClasses, ownSites, ownSites, sites, ClassSite.keptAfter_inUnit, List.map_map,
    List.map_map]
  apply List.map_congr_left
  intro site kept
  have ofUnit : site.unit = unit :=
    unit.classSites_standIn.ofUnit site (mem_classSites_of_mem_ownSites kept)
  simp only [Function.comp_apply, ClassEntry.unnumbered, ClassSite.entry, ClassSite.inUnit, ofUnit]

end SourceUnit

/-! ## Modules side by side -/

namespace SourceModule

/-- The qualified names of the classes that a module declares on its own. -/
def classNames (source : SourceModule) : List String :=
  (Declarations.ofUnits (SourceUnit.ofModules [source])).fqns

/-- The classes that a module declares on its own. -/
def classes (source : SourceModule) : List ClassEntry := (SourceUnit.alone source).ownClasses

theorem classNames_eq (source : SourceModule) :
    source.classNames = source.classes.map ClassEntry.fqn := by
  rw [classNames, Declarations.fqns, Declarations.classes_ofUnits]
  show ((ClassSite.keptAfter [] ((SourceUnit.alone source).classSites ++ [])).map
    ClassSite.entry).map ClassEntry.fqn = _
  rw [List.append_nil]
  rfl

end SourceModule

namespace ClassSite

theorem outside_flatMap_classSites (units : List SourceUnit) :
    Outside 0 (units.flatMap SourceUnit.classSites) := by
  induction units with
  | nil => simp [Outside]
  | cons unit rest ih => exact (Level.ofStatements unit _ 0 unit.module.body).first.append ih

/-- When no unit declares a name that has been seen or that another declares, every unit keeps what
it keeps on its own. -/
theorem keptAfter_flatMap_classSites {units : List SourceUnit} {seen : List String}
    (apart : ∀ unit ∈ units, ∀ site ∈ unit.ownSites, site.fqn ∉ seen)
    (disjoint : units.Pairwise fun unit other =>
      (unit.ownSites.map fqn).Disjoint (other.ownSites.map fqn)) :
    keptAfter seen (units.flatMap SourceUnit.classSites) =
      units.flatMap SourceUnit.ownSites := by
  induction units generalizing seen with
  | nil => simp [keptAfter]
  | cons unit rest ih =>
      rw [List.pairwise_cons] at disjoint
      have own : keptAfter seen unit.classSites = unit.ownSites :=
        SourceUnit.keptAfter_eq_ownSites (apart unit List.mem_cons_self)
      have later : ∀ other ∈ rest, ∀ site ∈ other.ownSites,
          site.fqn ∉ seen ++ unit.ownSites.map fqn := by
        intro other listed site inOther
        rw [List.mem_append, not_or]
        exact ⟨apart other (List.mem_cons_of_mem _ listed) site inOther,
          fun inUnit => disjoint.1 other listed inUnit (List.mem_map_of_mem inOther)⟩
      rw [List.flatMap_cons, keptAfter_append (outside_flatMap_classSites rest), own,
        ih later disjoint.2, List.flatMap_cons]

end ClassSite

namespace Declarations

/-- **Modules declare their classes side by side.** Modules of different paths, of which no two
declare a class of the same qualified name, declare together what each declares on its own. -/
theorem classes_ofModules {sources : List SourceModule}
    (paths : (sources.map SourceModule.path).Nodup)
    (disjoint : sources.Pairwise fun source other =>
      source.classNames.Disjoint other.classNames) :
    (ofUnits (SourceUnit.ofModules sources)).classes.map ClassEntry.unnumbered =
      sources.flatMap SourceModule.classes := by
  have units := SourceUnit.map_unnumbered_numberedFrom 0 paths
  have names : ∀ unit : SourceUnit, unit.ownSites.map ClassSite.fqn =
      unit.unnumbered.ownClasses.map ClassEntry.fqn := by
    intro unit
    rw [← unit.map_fqn_ownClasses, ← unit.map_unnumbered_ownClasses, List.map_map]
    rfl
  have apart : (SourceUnit.ofModules sources).Pairwise fun unit other =>
      (unit.ownSites.map ClassSite.fqn).Disjoint (other.ownSites.map ClassSite.fqn) := by
    have unnumbered : ((SourceUnit.ofModules sources).map SourceUnit.unnumbered).Pairwise
        fun unit other => (unit.ownClasses.map ClassEntry.fqn).Disjoint
          (other.ownClasses.map ClassEntry.fqn) := by
      rw [SourceUnit.ofModules, units, List.pairwise_map]
      exact disjoint.imp fun {_ _} separate => by
        rwa [SourceModule.classNames_eq, SourceModule.classNames_eq] at separate
    rw [List.pairwise_map] at unnumbered
    exact unnumbered.imp fun {_ _} separate => by rwa [names, names]
  calc (ofUnits (SourceUnit.ofModules sources)).classes.map ClassEntry.unnumbered
      = (SourceUnit.ofModules sources).flatMap fun unit => unit.unnumbered.ownClasses := by
        rw [classes_ofUnits, ClassSite.keptAfter_flatMap_classSites (by simp) apart,
          List.map_flatMap, List.map_flatMap]
        exact List.flatMap_congr fun unit _ => unit.map_unnumbered_ownClasses
    _ = ((SourceUnit.ofModules sources).map SourceUnit.unnumbered).flatMap
          SourceUnit.ownClasses := by rw [List.flatMap_map]
    _ = sources.flatMap SourceModule.classes := by
        rw [SourceUnit.ofModules, units, List.flatMap_map]
        rfl

/-- In another order the modules declare the same classes. -/
theorem classes_perm {left right : List SourceModule} (reordered : left.Perm right)
    (paths : (left.map SourceModule.path).Nodup)
    (disjoint : left.Pairwise fun source other =>
      source.classNames.Disjoint other.classNames) :
    ((ofUnits (SourceUnit.ofModules left)).classes.map ClassEntry.unnumbered).Perm
      ((ofUnits (SourceUnit.ofModules right)).classes.map ClassEntry.unnumbered) := by
  have rightPaths : (right.map SourceModule.path).Nodup := (reordered.map _).nodup_iff.mp paths
  have rightDisjoint : right.Pairwise fun source other =>
      source.classNames.Disjoint other.classNames := by
    refine (reordered.pairwise_iff ?_).mp disjoint
    intro source other separate name inOther inSource
    exact separate inSource inOther
  rw [classes_ofModules paths disjoint, classes_ofModules rightPaths rightDisjoint]
  exact reordered.flatMap_right _

end Declarations

end TypeCatalog
