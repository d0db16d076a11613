import TypeCatalog.Proofs.Enumeration
import TypeCatalog.Proofs.LoadedPrograms
import TypeCatalog.Proofs.ModuleClasses
import TypeCatalog.Proofs.ModuleTwins
import TypeCatalog.Proofs.RelativeImports

/-! # Hidden classes

Of all class statements with one qualified name a program keeps the first, whatever modules they
stand in. In a tree whose modules all have different names a class statement is hidden by one of
another module only when one of the two stands in a class or a function that is named like the
module of the other (`TypeCatalog.ClassSite.mem_scopeNames_of_fqn_eq`), so where no scope has the
name of a module every module declares what it declares on its own
(`TypeCatalog.Program.yields_ownSites`). A function and a module can share a name
(`TypeCatalog.Program.functions_can_hide_classes`).
-/

namespace TypeCatalog

open Syntax

/-! ## Names of scopes -/

namespace Text

theorem dottedParts_inj {left right : String} (same : dottedParts left = dottedParts right) :
    left = right := by
  have spelled : left.toList.splitOn '.' = right.toList.splitOn '.' :=
    List.map_injective_iff.mpr (fun _ _ => String.ofList_injective) same
  apply String.toList_inj.mp
  calc left.toList = ['.'].intercalate (left.toList.splitOn '.') :=
        (List.intercalate_splitOn '.').symm
    _ = right.toList := by rw [spelled, List.intercalate_splitOn]

end Text

/-- The scopes among enclosures are named by identifiers. -/
theorem Syntax.Enclosure.exists_filterMap_name?_eq (around : List Enclosure) :
    ∃ scopes : List Identifier,
      around.filterMap Enclosure.name? = scopes.map Identifier.text := by
  induction around with
  | nil => exact ⟨[], rfl⟩
  | cons outer around ih =>
      obtain ⟨scopes, named⟩ := ih
      cases outer with
      | classBody name | functionBody name =>
          exact ⟨name :: scopes, by rw [List.map_cons, ← named]; rfl⟩
      | oneLine => exact ⟨scopes, named⟩

namespace ClassSite

/-- The qualified names of the classes and functions around a class statement, the outermost
first. -/
def scopeNames (site : ClassSite) : List String := (site.around.inits.drop 2).map Text.dotted

theorem mem_scopeNames_of_around_eq {site : ClassSite} {module : String} {front back : List String}
    (around : site.around = module :: (front ++ back)) (some : front ≠ []) :
    Text.dotted (module :: front) ∈ site.scopeNames := by
  obtain ⟨first, rest, rfl⟩ := List.exists_cons_of_ne_nil some
  refine List.mem_map_of_mem ?_
  rw [around, List.cons_append, List.inits_cons, List.inits_cons]
  simp [List.mem_inits]

/-- Around a class statement are its module and scopes that are named by identifiers. -/
theorem exists_around_eq {unit : SourceUnit} {site : ClassSite} (inUnit : site ∈ unit.classSites) :
    ∃ scopes : List Identifier, site.around = unit.name :: scopes.map Identifier.text := by
  rw [SourceUnit.classSites_eq] at inUnit
  obtain ⟨⟨around, piece⟩, _, read⟩ := List.mem_filterMap.mp inUnit
  obtain ⟨scopes, named⟩ := Enclosure.exists_filterMap_name?_eq around
  cases piece with
  | simple statement => simp [ofPiece?] at read
  | classStatement header body =>
      refine ⟨scopes, ?_⟩
      rw [← Option.some.inj read, ← named]
      rfl

/-- The parts of the name of a class statement are those of its module, the scopes around it and
its own. -/
theorem dottedParts_fqn {unit : SourceUnit} {site : ClassSite} {scopes : List Identifier}
    (around : site.around = unit.name :: scopes.map Identifier.text) :
    Text.dottedParts site.fqn =
      Text.dottedParts unit.name ++ (scopes.map Identifier.text ++ [site.header.name.text]) := by
  rw [fqn, around, List.cons_append, Text.dottedParts_dotted]
  intro part listed
  rcases List.mem_append.mp listed with scope | own
  · obtain ⟨identifier, _, rfl⟩ := List.mem_map.mp scope
    exact identifier.dot_notMem
  · rw [List.mem_singleton.mp own]
    exact site.header.name.dot_notMem

/-- Where the name of a class statement leads through that of another module, a scope around the
statement has the name of that module. -/
theorem mem_scopeNames_of_extends {unit : SourceUnit} {site : ClassSite}
    (inUnit : site ∈ unit.classSites) {module : String} (apart : unit.name ≠ module)
    {inner : List String} {last : String}
    (through : Text.dottedParts site.fqn = Text.dottedParts module ++ (inner ++ [last]))
    (further : Text.dottedParts unit.name <+: Text.dottedParts module) :
    module ∈ site.scopeNames := by
  obtain ⟨scopes, around⟩ := exists_around_eq inUnit
  obtain ⟨between, parts⟩ := further
  rw [dottedParts_fqn around, ← parts, List.append_assoc, List.append_cancel_left_eq,
    ← List.append_assoc] at through
  have split : scopes.map Identifier.text = between ++ inner := (List.append_inj' through rfl).1
  have plain : ∀ part ∈ between, '.' ∉ part.toList := by
    intro part listed
    have scope : part ∈ scopes.map Identifier.text := split ▸ List.mem_append_left _ listed
    obtain ⟨identifier, _, rfl⟩ := List.mem_map.mp scope
    exact identifier.dot_notMem
  have named : Text.dotted (unit.name :: between) = module := by
    apply Text.dottedParts_inj
    rw [Text.dottedParts_dotted _ plain, parts]
  rw [← named]
  refine mem_scopeNames_of_around_eq (around.trans (by rw [split])) ?_
  rintro rfl
  rw [List.append_nil] at parts
  exact apart (Text.dottedParts_inj parts)

/-- **How names meet.** When class statements of two modules have one qualified name, one of them
stands in a class or a function that has the name of the other module. -/
theorem mem_scopeNames_of_fqn_eq {unit other : SourceUnit} {site rival : ClassSite}
    (inUnit : site ∈ unit.classSites) (inOther : rival ∈ other.classSites)
    (apart : unit.name ≠ other.name) (same : site.fqn = rival.fqn) :
    other.name ∈ site.scopeNames ∨ unit.name ∈ rival.scopeNames := by
  obtain ⟨scopes, around⟩ := exists_around_eq inUnit
  obtain ⟨others, rivalAround⟩ := exists_around_eq inOther
  have ofSite := dottedParts_fqn around
  have ofRival := dottedParts_fqn rivalAround
  -- both names begin with the name of their module, so one module name begins the other
  rcases List.prefix_or_prefix_of_prefix (ofSite ▸ List.prefix_append _ _)
      (same ▸ ofRival ▸ List.prefix_append _ _) with inSite | inRival
  · exact Or.inl (mem_scopeNames_of_extends inUnit apart (same ▸ ofRival) inSite)
  · exact Or.inr (mem_scopeNames_of_extends inOther apart.symm (same ▸ ofSite) inRival)

end ClassSite

/-! ## Yielded classes -/

namespace SourceUnit

/-- Where every module has its own path, all places are known for their paths. -/
theorem locate_of_mem_ofModules {sources : List SourceModule}
    (paths : (sources.map SourceModule.path).Nodup) {unit : SourceUnit}
    (listed : unit ∈ ofModules sources) (place : Place) :
    unit.locate place = some (unit.locationOf place) := by
  have inAlone : unit.unnumbered ∈ sources.map alone := by
    rw [← map_unnumbered_numberedFrom 0 paths]
    exact List.mem_map_of_mem listed
  obtain ⟨source, _, same⟩ := List.mem_map.mp inAlone
  have last : unit.isLastOfPath = true := (congrArg SourceUnit.isLastOfPath same).symm
  rw [locate, if_pos last]

/-- What units are given with, they take from their modules. -/
theorem map_ofModules {α : Type} (read : SourceModule → α) (sources : List SourceModule) :
    (ofModules sources).map (fun unit => read unit.toSourceModule) = sources.map read := by
  calc (ofModules sources).map (fun unit => read unit.toSourceModule)
      = ((ofModules sources).map toSourceModule).map read := by
        rw [List.map_map]
        rfl
    _ = sources.map read := by rw [ofModules, map_toSourceModule_numberedFrom]

/-- Units of different paths are told apart by them. -/
theorem eq_of_path_eq {sources : List SourceModule}
    (paths : (sources.map SourceModule.path).Nodup) {unit other : SourceUnit}
    (listed : unit ∈ ofModules sources) (otherListed : other ∈ ofModules sources)
    (same : unit.path = other.path) : unit = other :=
  List.inj_on_of_nodup_map ((map_ofModules SourceModule.path sources).symm ▸ paths) listed
    otherListed same

theorem locationOf_inj {unit other : SourceUnit} {place otherPlace : Place}
    (same : unit.locationOf place = other.locationOf otherPlace) :
    unit.path = other.path ∧ place = otherPlace := by
  rw [locationOf, locationOf, Location.mk.injEq, Place.line, Place.line] at same
  obtain ⟨path, line, column⟩ := same
  refine ⟨path, ?_⟩
  cases place
  cases otherPlace
  rw [Place.mk.injEq]
  exact ⟨Nat.succ.inj (Int.ofNat.inj line), Int.ofNat.inj column⟩

/-- A unit has one class statement at a place. -/
theorem eq_of_place_eq {unit : SourceUnit} {site other : ClassSite}
    (inUnit : site ∈ unit.classSites) (alsoInUnit : other ∈ unit.classSites)
    (same : site.header.place = other.header.place) : site = other := by
  have distinct : (unit.classSites.map fun site => site.header.place).Nodup := by
    rw [unit.classSites_standIn.places]
    refine unit.module.sites_nodup.sublist ?_
    rw [← unit.map_fst_marks]
    exact List.filter_sublist.map _
  exact List.inj_on_of_nodup_map distinct inUnit alsoInUnit same

end SourceUnit

namespace Program

/-- The enumeration of a program holds the type of a class statement, located where it stands. -/
def Yields (program : Program) (site : ClassSite) : Prop :=
  ∃ symbol ∈ program.index.namedTypes, symbol.fqn = site.fqn ∧
    symbol.location = some (site.unit.locationOf site.header.place)

instance (program : Program) (site : ClassSite) : Decidable (program.Yields site) :=
  inferInstanceAs (Decidable (∃ symbol ∈ program.index.namedTypes, _))

/-- The class statements of a program that are kept. -/
def keptSites (program : Program) : List ClassSite :=
  ClassSite.keptAfter [] (program.units.flatMap SourceUnit.classSites)

theorem exists_unit_of_mem_keptSites {program : Program} {site : ClassSite}
    (kept : site ∈ program.keptSites) : ∃ unit ∈ program.units, site ∈ unit.classSites :=
  List.mem_flatMap.mp ((ClassSite.keptAfter_sublist _ _).mem kept)

/-- The declared classes of a program are those of the class statements that are kept. -/
theorem classes_declarations (sources : List SourceModule) :
    (ofModules sources).declarations.classes =
      (ofModules sources).keptSites.map ClassSite.entry :=
  Declarations.classes_ofUnits _

/-- No two class statements that are kept have the same qualified name. -/
theorem nodup_keptSites (sources : List SourceModule) :
    ((ofModules sources).keptSites.map ClassSite.fqn).Nodup := by
  have names : (ofModules sources).keptSites.map ClassSite.fqn =
      (ofModules sources).declarations.fqns := by
    rw [Declarations.fqns, classes_declarations, List.map_map]
    apply List.map_congr_left
    intro site kept
    obtain ⟨unit, _, inUnit⟩ := exists_unit_of_mem_keptSites kept
    exact (unit.classSites_standIn.named site inUnit).symm
  rw [names]
  exact (ofModules sources).declarations.fqns_nodup

/-- A named type has the qualified name of a class statement. -/
theorem exists_site_of_mem_namedTypes {sources : List SourceModule} {symbol : TypeSymbol}
    (named : symbol ∈ (ofModules sources).index.namedTypes) :
    ∃ unit ∈ (ofModules sources).units, ∃ site ∈ unit.classSites, symbol.fqn = site.fqn := by
  rw [namedTypes_eq_map_declaredType, classes_declarations, List.map_map] at named
  obtain ⟨site, kept, rfl⟩ := List.mem_map.mp named
  obtain ⟨unit, listed, inUnit⟩ := exists_unit_of_mem_keptSites kept
  exact ⟨unit, listed, site, inUnit, unit.classSites_standIn.named site inUnit⟩

/-- The class statements that are kept, unit by unit: those of a unit are kept after those of the
units before. -/
theorem exists_keptSites_eq {program : Program} {before after : List SourceUnit}
    {unit : SourceUnit} (units : program.units = before ++ unit :: after) :
    let front := ClassSite.keptAfter [] (before.flatMap SourceUnit.classSites)
    ∃ later, program.keptSites =
      front ++ (ClassSite.keptAfter (front.map ClassSite.fqn) unit.classSites ++ later) := by
  intro front
  rw [keptSites, units, List.flatMap_append,
    ClassSite.keptAfter_append (ClassSite.outside_flatMap_classSites (unit :: after)),
    List.flatMap_cons, ClassSite.keptAfter_append (ClassSite.outside_flatMap_classSites after),
    List.nil_append]
  exact ⟨_, rfl⟩

/-- Of two class statements of different units that have one name, at most one is kept. -/
theorem fqn_ne_of_kept {sources : List SourceModule} {before after : List SourceUnit}
    {unit other : SourceUnit} (units : (ofModules sources).units = before ++ unit :: after)
    (member : other ∈ before) {site rival : ClassSite} (inUnit : site ∈ unit.classSites)
    (inOther : rival ∈ other.classSites) (kept : site ∈ (ofModules sources).keptSites)
    (rivalKept : rival ∈ (ofModules sources).keptSites) : rival.fqn ≠ site.fqn := by
  intro same
  obtain rfl := List.inj_on_of_nodup_map (nodup_keptSites sources) rivalKept kept same
  have sameUnit : other = unit := (other.classSites_standIn.ofUnit rival inOther).symm.trans
    (unit.classSites_standIn.ofUnit rival inUnit)
  have distinct := SourceUnit.nodup_numbers sources
  rw [show SourceUnit.ofModules sources = before ++ unit :: after from units, List.map_append,
    List.nodup_append] at distinct
  exact distinct.2.2 _ (List.mem_map_of_mem (sameUnit ▸ member)) _ List.mem_cons_self rfl

section

variable {sources : List SourceModule} (paths : (sources.map SourceModule.path).Nodup)

include paths

/-- The class statements whose types are enumerated are those that are kept. -/
theorem yields_iff {unit : SourceUnit} (listed : unit ∈ (ofModules sources).units)
    {site : ClassSite} (inUnit : site ∈ unit.classSites) :
    (ofModules sources).Yields site ↔ site ∈ (ofModules sources).keptSites := by
  have located : ∀ other ∈ (ofModules sources).units, ∀ kept ∈ other.classSites,
      ((ofModules sources).declarations.declaredType kept.entry).location =
        some (other.locationOf kept.header.place) := by
    intro other otherListed kept inOther
    rw [← SourceUnit.locate_of_mem_ofModules paths otherListed,
      ← other.classSites_standIn.ofUnit kept inOther]
    rfl
  rw [Yields, namedTypes_eq_map_declaredType, classes_declarations, List.map_map,
    unit.classSites_standIn.ofUnit site inUnit]
  constructor
  · -- the location tells the statement, since paths and places differ
    rintro ⟨symbol, enumerated, -, location⟩
    obtain ⟨kept, member, rfl⟩ := List.mem_map.mp enumerated
    obtain ⟨other, otherListed, inOther⟩ := exists_unit_of_mem_keptSites member
    rw [Function.comp_apply, located other otherListed kept inOther, Option.some_inj] at location
    obtain ⟨path, place⟩ := SourceUnit.locationOf_inj location
    obtain rfl := SourceUnit.eq_of_path_eq paths otherListed listed path
    rwa [← SourceUnit.eq_of_place_eq inOther inUnit place]
  · intro kept
    refine ⟨_, List.mem_map_of_mem kept, ?_, located unit listed site inUnit⟩
    exact unit.classSites_standIn.named site inUnit

/-- **Which modules lose classes.** The types of all class statements that a unit keeps on its own
are enumerated exactly when none of them has the name of one that an earlier unit gives. -/
theorem yields_ownSites_iff {before after : List SourceUnit} {unit : SourceUnit}
    (units : (ofModules sources).units = before ++ unit :: after) :
    (∀ site ∈ unit.ownSites, (ofModules sources).Yields site) ↔
      ∀ site ∈ unit.ownSites, ∀ other ∈ before, ∀ rival ∈ other.classSites,
        (ofModules sources).Yields rival → rival.fqn ≠ site.fqn := by
  have listed : unit ∈ (ofModules sources).units := by simp [units]
  have earlier : ∀ other ∈ before, other ∈ (ofModules sources).units := by
    intro other member
    rw [units]
    exact List.mem_append_left _ member
  constructor
  · intro yielded site own other member rival inOther rivalYielded
    have inUnit := SourceUnit.mem_classSites_of_mem_ownSites own
    exact fqn_ne_of_kept units member inUnit inOther
      ((yields_iff paths listed inUnit).mp (yielded site own))
      ((yields_iff paths (earlier other member) inOther).mp rivalYielded)
  · intro apart site own
    obtain ⟨later, keptSites⟩ := exists_keptSites_eq units
    set front := ClassSite.keptAfter [] (before.flatMap SourceUnit.classSites)
    have unseen : ∀ site ∈ unit.ownSites, site.fqn ∉ front.map ClassSite.fqn := by
      intro site own seen
      obtain ⟨rival, kept, same⟩ := List.mem_map.mp seen
      obtain ⟨other, member, inOther⟩ :=
        List.mem_flatMap.mp ((ClassSite.keptAfter_sublist _ _).mem kept)
      refine apart site own other member rival inOther ?_ same
      rw [yields_iff paths (earlier other member) inOther, keptSites]
      exact List.mem_append_left _ kept
    rw [yields_iff paths listed (SourceUnit.mem_classSites_of_mem_ownSites own), keptSites,
      SourceUnit.keptAfter_eq_ownSites unseen]
    exact List.mem_append_right _ (List.mem_append_left _ own)

end

end Program

/-! ## Trees without twins -/

namespace SourcePath

/-- The module of the package that is named like a module beside it. -/
def ofPackage (path : SourcePath) : SourcePath :=
  ⟨path.directories ++ [path.stem], ⟨packageModule, by decide +kernel⟩⟩

/-- The twin of a module is the module of the package that is named like it. -/
theorem names_eq_of_areTwins {first second : SourcePath}
    (twins : AreTwins first.names second.names) :
    first.stem.text ≠ packageModule ∧ second.names = first.ofPackage.names := by
  obtain ⟨ordinary, isPackage, directories⟩ :=
    (PlainSource.areTwins_iff first.toPlain second.toPlain).mp twins
  have ofDirectories : second.directories.map Identifier.text =
      first.directories.map Identifier.text ++ [first.stem.text] := directories
  have ofStem : second.stem.text = packageModule := isPackage
  refine ⟨ordinary, ?_⟩
  rw [names, names, fileName, ofStem, ofDirectories, ofPackage, List.map_append]
  rfl

end SourcePath

/-- A tree whose sources have paths made of identifiers, and in which no module stands beside a
package of its name. -/
structure FileNode.WellNamed (tree : FileNode) : Prop where
  proper : tree.Proper
  identifiers : ∀ found ∈ tree.discover, ∃ path : SourcePath, path.names = found.1
  untwinned : ∀ path : SourcePath, path.stem.text ≠ packageModule →
    path.names ∈ tree.discover.map Prod.fst → path.ofPackage.names ∉ tree.discover.map Prod.fst

/-- In a tree without twins modules have different names. -/
theorem FileNode.WellNamed.nodup_moduleNames {tree : FileNode} (wellNamed : tree.WellNamed)
    (package : String) : (tree.discover.map fun found => moduleName package found.1).Nodup := by
  refine (FileNode.nodup_moduleNames_iff wellNamed.proper ?_ package).mpr ?_
  · intro found listed
    obtain ⟨path, named⟩ := wellNamed.identifiers found listed
    exact ⟨path.toPlain, named⟩
  · intro module moduleListed twin twinListed twins
    obtain ⟨found, inTree, rfl⟩ := List.mem_map.mp moduleListed
    obtain ⟨other, alsoInTree, rfl⟩ := List.mem_map.mp twinListed
    obtain ⟨first, isFirst⟩ := wellNamed.identifiers found inTree
    obtain ⟨second, isSecond⟩ := wellNamed.identifiers other alsoInTree
    rw [← isFirst] at moduleListed twins
    rw [← isSecond] at twinListed twins
    obtain ⟨ordinary, named⟩ := SourcePath.names_eq_of_areTwins twins
    exact wellNamed.untwinned first ordinary moduleListed (named ▸ twinListed)

/-- What is loaded is built from modules with the paths and the names of the sources, in order. -/
theorem exists_modules_of_loaded {root : Path} {tree : FileNode} {package : String}
    {workers : Int} {program : Program}
    (loaded : loadProgram root tree package workers = .ok program) :
    ∃ modules notices, program = { Program.ofModules modules with notices := notices } ∧
      modules.map SourceModule.path = tree.discover.map (fun found =>
        (root.append found.1).text) ∧
      modules.map SourceModule.name = tree.discover.map fun found =>
        moduleName package found.1 := by
  have staffed := staffed_of_loadProgram loaded
  have flawless := (exists_loadProgram_iff root package staffed).mp ⟨program, loaded⟩
  obtain ⟨found, isFound, units⟩ := loadProgram_of_flawless root package staffed flawless
  obtain rfl := Except.ok.inj (isFound.symm.trans loaded)
  rw [loadProgram_eq root tree package staffed, programOf] at loaded
  split at loaded
  · contradiction
  · rename_i modules _
    obtain rfl := Except.ok.inj loaded
    have given : List.Forall₂ (fun module found => module.path = (root.append found.1).text ∧
        module.name = moduleName package found.1) modules tree.discover := by
      rw [← SourceUnit.map_toSourceModule_numberedFrom 0 modules, List.forall₂_map_left_iff]
      exact units.flip.imp fun _ _ facts => facts.2
    refine ⟨modules, _, rfl, ?_, ?_⟩
    · rw [← List.forall₂_eq_eq_eq, List.forall₂_map_left_iff, List.forall₂_map_right_iff]
      exact given.imp fun _ _ facts => facts.1
    · rw [← List.forall₂_eq_eq_eq, List.forall₂_map_left_iff, List.forall₂_map_right_iff]
      exact given.imp fun _ _ facts => facts.2

/-- The paths of sources differ. -/
theorem FileNode.nodup_pathTexts (root : Path) {tree : FileNode} (proper : tree.Proper) :
    (tree.discover.map fun found => (root.append found.1).text).Nodup := by
  refine List.Nodup.map_on ?_ ((FileNode.nodup_discover proper).of_map _)
  exact fun found listed other otherListed same =>
    FileNode.eq_of_text_eq root proper listed otherListed same

namespace Program

/-- **Classes of well-named trees.** In the program of a tree whose sources have paths made of
identifiers, without twins, all modules have different names. A module declares all classes that it
declares on its own exactly when none of them has the name of a class of a module before it, and it
does when no class or function around a class statement of another module is named like it, and none
around its own like another. -/
theorem yields_ownSites {root : Path} {tree : FileNode} {package : String} {workers : Int}
    {program : Program} (wellNamed : tree.WellNamed)
    (loaded : loadProgram root tree package workers = .ok program) :
    (program.units.map fun unit => unit.name).Nodup ∧
    (∀ before unit after, program.units = before ++ unit :: after →
      ((∀ site ∈ unit.ownSites, program.Yields site) ↔
        ∀ site ∈ unit.ownSites, ∀ other ∈ before, ∀ rival ∈ other.classSites,
          program.Yields rival → rival.fqn ≠ site.fqn)) ∧
    ∀ unit ∈ program.units,
      (∀ other ∈ program.units, (∀ site ∈ unit.classSites, other.name ∉ site.scopeNames) ∧
        ∀ rival ∈ other.classSites, unit.name ∉ rival.scopeNames) →
      ∀ site ∈ unit.ownSites, program.Yields site := by
  obtain ⟨modules, notices, rfl, pathTexts, names⟩ := exists_modules_of_loaded loaded
  have paths : (modules.map SourceModule.path).Nodup :=
    pathTexts ▸ FileNode.nodup_pathTexts root wellNamed.proper
  have distinct : ((ofModules modules).units.map fun unit => unit.name).Nodup := by
    rw [show (ofModules modules).units.map (fun unit => unit.name) = _ from
      SourceUnit.map_ofModules SourceModule.name modules, names]
    exact wellNamed.nodup_moduleNames package
  have eachUnit := fun before unit after => @yields_ownSites_iff modules paths before after unit
  refine ⟨distinct, eachUnit, ?_⟩
  intro unit listed scopes
  obtain ⟨before, after, units⟩ := List.append_of_mem listed
  refine (eachUnit before unit after units).mpr ?_
  intro site own other member rival inOther _ same
  have inUnit := SourceUnit.mem_classSites_of_mem_ownSites own
  have otherListed : other ∈ (ofModules modules).units :=
    units ▸ List.mem_append_left _ member
  have apart : unit.name ≠ other.name := by
    rw [units, List.map_append, List.nodup_append] at distinct
    exact fun equal => distinct.2.2 _ (List.mem_map_of_mem member) _ List.mem_cons_self equal.symm
  rcases ClassSite.mem_scopeNames_of_fqn_eq inUnit inOther apart same.symm with inSite | inRival
  · exact (scopes other otherListed).1 site inUnit inSite
  · exact (scopes other otherListed).2 rival inOther inRival

end Program

namespace Sample

/-- A package of two modules, with the texts of its own file and of a file `a`. -/
def pairTree (own other : String) : FileNode :=
  .directory [("__init__.py", sourceFile own), ("a.py", sourceFile other)]

theorem discover_pairTree (own other : String) : (pairTree own other).discover =
    [(["__init__.py"], sourceFile own), (["a.py"], sourceFile other)] :=
  List.mergeSort_of_pairwise (List.pairwise_pair.mpr <|
    show FileNode.noLater ["__init__.py"] ["a.py"] = true by decide +kernel)

theorem wellNamed_pairTree (own other : String) : (pairTree own other).WellNamed where
  proper := by simp [pairTree, sourceFile, FileNode.Proper, FileNode.ProperAmong]
  identifiers := by
    rw [discover_pairTree]
    simp only [List.forall_mem_cons]
    exact ⟨⟨⟨[], ⟨"__init__", by decide +kernel⟩⟩, rfl⟩, ⟨⟨[], ⟨"a", by decide +kernel⟩⟩, rfl⟩,
      fun _ inNone => absurd inNone List.not_mem_nil⟩
  untwinned := by
    intro path _ _ inTree
    have short : ∀ names ∈ (pairTree own other).discover.map Prod.fst, names.length = 1 := by
      rw [discover_pairTree]
      simp
    have long := short _ inTree
    simp [SourcePath.names, SourcePath.ofPackage] at long

/-- A function and a module of one name, each with a class `D`. -/
def hidingTree : FileNode := pairTree "def a():\n    class D: pass\n" "class D: pass\n"

/-- A function and a module of different names, each with a class `D`. -/
def separateTree : FileNode := pairTree "def b():\n    class D: pass\n" "class D: pass\n"

end Sample

namespace Program

/-- In the second sample no scope is named like a module, and both classes are enumerated. -/
theorem yields_separate_classes :
    ∃ program, loadProgram (Path.ofText "src") Sample.separateTree "p" 1 = .ok program ∧
      program.units.map (fun unit => unit.ownSites.map ClassSite.fqn) = [["p.b.D"], ["p.a.D"]] ∧
      ∀ unit ∈ program.units, ∀ site ∈ unit.ownSites, program.Yields site := by
  have evaluated : (Sample.loadedTree Sample.separateTree).map (fun program =>
      (program.units.map (fun unit => unit.ownSites.map ClassSite.fqn),
        decide (∀ unit ∈ program.units, ∀ other ∈ program.units,
          (∀ site ∈ unit.classSites, other.name ∉ site.scopeNames) ∧
            ∀ rival ∈ other.classSites, unit.name ∉ rival.scopeNames))) =
      some ([["p.b.D"], ["p.a.D"]], true) := by
    rw [Sample.loadedTree, loadProgram, loadModules, readSources, Sample.separateTree,
      Sample.discover_pairTree]
    decide +kernel
  obtain ⟨program, found, facts⟩ := Option.map_eq_some_iff.mp evaluated
  obtain ⟨own, scopes⟩ := Prod.mk.inj facts
  have loaded := Sample.loadProgram_of_loadedTree found
  refine ⟨program, loaded, own, fun unit listed => ?_⟩
  exact (yields_ownSites (Sample.wellNamed_pairTree _ _) loaded).2.2 unit listed
    (of_decide_eq_true scopes unit listed)

/-- A class statement that is the first of its name in its own module need not be enumerated: in the
first sample the class of the module is hidden by that of the function. -/
theorem functions_can_hide_classes :
    ¬ ∀ (root : Path) (tree : FileNode) (package : String) (workers : Int) (program : Program),
      tree.WellNamed → loadProgram root tree package workers = .ok program →
      ∀ unit ∈ program.units, ∀ site ∈ unit.ownSites, program.Yields site := by
  intro always
  have evaluated : (Sample.loadedTree Sample.hidingTree).map (fun program =>
      decide (∀ unit ∈ program.units, ∀ site ∈ unit.ownSites, program.Yields site)) =
      some false := by
    rw [Sample.loadedTree, loadProgram, loadModules, readSources, Sample.hidingTree,
      Sample.discover_pairTree]
    decide +kernel
  obtain ⟨program, found, hidden⟩ := Option.map_eq_some_iff.mp evaluated
  exact of_decide_eq_false hidden (always _ _ _ _ program (Sample.wellNamed_pairTree _ _)
    (Sample.loadProgram_of_loadedTree found))

end Program

end TypeCatalog
