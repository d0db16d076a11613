import TypeCatalog.Proofs.ClassBodies
import TypeCatalog.Proofs.Enumeration

/-! # Members and nodes

The nodes of a unit declare the members of its classes. Classes are nested and their members lie
mixed among the nodes, but every site stands in the body of one class at most
(`TypeCatalog.SourceUnit.owner_unique`). So the members of a class are met in order on a walk over
the nodes of its unit, and every member that is met belongs to a class of the unit. Over all units
the members are known by their identities (`TypeCatalog.Program.members_of_nodes`).
-/

namespace TypeCatalog

open Syntax

/-! ## Owned sites -/

namespace Syntax

mutual

/-- The sites of a statement, each with the place of the class statement in whose body it stands
itself. The statement may stand in the body of such an owner; what is inside of a function or of a
compound statement stands in no class body itself. -/
def Statement.owned (owner : Option Place) : Statement → List (Place × Option Place)
  | .line parts => (parts.filterMap SimpleStatement.site?).map fun place => (place, owner)
  | .classStatement header body => (header.place, owner) :: body.owned (some header.place)
  | .functionStatement header body => (header.place, owner) :: body.owned none
  | .compound clauses => ownedByClauses clauses

/-- The owned sites of a list of clauses. -/
def ownedByClauses : List Clause → List (Place × Option Place)
  | [] => []
  | .clause _ _ body :: rest => body.owned none ++ ownedByClauses rest

/-- The owned sites of a suite. -/
def Suite.owned (owner : Option Place) : Suite → List (Place × Option Place)
  | .inline parts => (parts.filterMap SimpleStatement.site?).map fun place => (place, owner)
  | .indented body => ownedByStatements owner body

/-- The owned sites of a list of statements. -/
def ownedByStatements (owner : Option Place) : List Statement → List (Place × Option Place)
  | [] => []
  | statement :: rest => statement.owned owner ++ ownedByStatements owner rest

end

mutual

theorem map_fst_owned (owner : Option Place) :
    ∀ statement : Statement, (statement.owned owner).map Prod.fst = statement.sites
  | .line parts => by simp [Statement.owned, Statement.sites, Function.comp_def]
  | .classStatement header body => by
      rw [Statement.owned, Statement.sites, List.map_cons, map_fst_suiteOwned _ body]
  | .functionStatement header body => by
      rw [Statement.owned, Statement.sites, List.map_cons, map_fst_suiteOwned _ body]
  | .compound clauses => by
      rw [Statement.owned, Statement.sites, map_fst_ownedByClauses clauses]

theorem map_fst_ownedByClauses :
    ∀ clauses, (ownedByClauses clauses).map Prod.fst = clauseSites clauses
  | [] => by simp [ownedByClauses, clauseSites]
  | .clause _ _ body :: rest => by
      rw [ownedByClauses, clauseSites, List.map_append, map_fst_suiteOwned _ body,
        map_fst_ownedByClauses rest]

theorem map_fst_suiteOwned (owner : Option Place) :
    ∀ suite : Suite, (suite.owned owner).map Prod.fst = suite.sites
  | .inline parts => by simp [Suite.owned, Suite.sites, Function.comp_def]
  | .indented body => by rw [Suite.owned, Suite.sites, map_fst_ownedByStatements owner body]

theorem map_fst_ownedByStatements (owner : Option Place) :
    ∀ statements, (ownedByStatements owner statements).map Prod.fst = statementSites statements
  | [] => by simp [ownedByStatements, statementSites]
  | statement :: rest => by
      rw [ownedByStatements, statementSites, List.map_append, map_fst_owned owner statement,
        map_fst_ownedByStatements owner rest]

end

end Syntax

namespace ClassSite

/-- What stands in the body of a class statement itself is owned by it, in order, among given owned
sites. -/
def OwnsAmong (owned : List (Place × Option Place)) (site : ClassSite) : Prop :=
  (site.body.owned (some site.header.place)).Sublist owned

variable (unit : SourceUnit)

mutual

theorem ownsAmong_ofStatement (owner : Option Place) (around : List String) (depth : Nat) :
    ∀ statement, ∀ site ∈ ofStatement unit around depth statement,
      site.OwnsAmong (statement.owned owner)
  | .line parts, site, listed => by simp [ofStatement] at listed
  | .classStatement header body, site, listed => by
      rw [ofStatement] at listed
      rw [Statement.owned]
      rcases List.mem_cons.mp listed with rfl | inside
      · exact List.sublist_cons_self _ _
      · exact (ownsAmong_ofSuite (some header.place) _ _ body site inside).cons _
  | .functionStatement header body, site, listed => by
      rw [ofStatement] at listed
      rw [Statement.owned]
      exact (ownsAmong_ofSuite none _ _ body site listed).cons _
  | .compound clauses, site, listed => by
      rw [ofStatement] at listed
      rw [Statement.owned]
      exact ownsAmong_ofClauses around depth clauses site listed

theorem ownsAmong_ofClauses (around : List String) (depth : Nat) :
    ∀ clauses, ∀ site ∈ ofClauses unit around depth clauses,
      site.OwnsAmong (ownedByClauses clauses)
  | [], site, listed => by simp [ofClauses] at listed
  | .clause _ _ body :: rest, site, listed => by
      rw [ofClauses] at listed
      rw [ownedByClauses]
      rcases List.mem_append.mp listed with first | later
      · exact (ownsAmong_ofSuite none around depth body site first).trans
          (List.sublist_append_left _ _)
      · exact (ownsAmong_ofClauses around depth rest site later).trans
          (List.sublist_append_right _ _)

theorem ownsAmong_ofSuite (owner : Option Place) (around : List String) (depth : Nat) :
    ∀ suite, ∀ site ∈ ofSuite unit around depth suite, site.OwnsAmong (suite.owned owner)
  | .inline parts, site, listed => by simp [ofSuite] at listed
  | .indented body, site, listed => by
      rw [ofSuite] at listed
      rw [Suite.owned]
      exact ownsAmong_ofStatements owner around depth body site listed

theorem ownsAmong_ofStatements (owner : Option Place) (around : List String) (depth : Nat) :
    ∀ statements, ∀ site ∈ ofStatements unit around depth statements,
      site.OwnsAmong (ownedByStatements owner statements)
  | [], site, listed => by simp [ofStatements] at listed
  | statement :: rest, site, listed => by
      rw [ofStatements] at listed
      rw [ownedByStatements]
      rcases List.mem_append.mp listed with first | later
      · exact (ownsAmong_ofStatement owner around depth statement site first).trans
          (List.sublist_append_left _ _)
      · exact (ownsAmong_ofStatements owner around depth rest site later).trans
          (List.sublist_append_right _ _)

end

end ClassSite

namespace SourceUnit

variable (unit : SourceUnit)

/-- The owned sites of a unit. -/
def owned : List (Place × Option Place) := ownedByStatements none unit.module.body

theorem map_fst_owned : unit.owned.map Prod.fst = statementSites unit.module.body :=
  map_fst_ownedByStatements none unit.module.body

/-- A site stands in the body of one class at most. -/
theorem owner_unique {place : Place} {left right : Option Place}
    (inLeft : (place, left) ∈ unit.owned) (inRight : (place, right) ∈ unit.owned) :
    left = right := by
  have distinct : (unit.owned.map Prod.fst).Nodup := by
    rw [map_fst_owned]
    exact unit.module.sites_nodup
  exact congrArg Prod.snd (List.inj_on_of_nodup_map distinct inLeft inRight rfl)

end SourceUnit

/-! ## Owned members -/

/-- A value is found under a key when it is listed there, and nothing else is. -/
theorem lookup_eq_some_of_unique {κ β : Type} [BEq κ] [LawfulBEq κ] {pairs : List (κ × β)}
    {key : κ} {value : β} (listed : (key, value) ∈ pairs)
    (only : ∀ other, (key, other) ∈ pairs → other = value) : pairs.lookup key = some value := by
  cases found : pairs.lookup key with
  | some other => rw [only other (mem_of_lookup found)]
  | none =>
      have absent := List.lookup_eq_none_iff.mp found _ listed
      simp at absent

/-- What a filter gives, seen in a way in which another filter shows more. -/
theorem map_filterMap_sublist {α β γ : Type} {few : α → Option β} {many : α → Option γ}
    {view : β → γ} (seen : ∀ item value, few item = some value → many item = some (view value))
    (items : List α) : ((items.filterMap few).map view).Sublist (items.filterMap many) := by
  induction items with
  | nil => exact List.Sublist.refl _
  | cons item rest ih =>
      cases given : few item with
      | some value =>
          rw [List.filterMap_cons_some given, List.filterMap_cons_some (seen item value given)]
          exact ih.cons_cons _
      | none =>
          rw [List.filterMap_cons_none given, List.filterMap_cons]
          cases many item with
          | some other => exact ih.cons _
          | none => exact ih

namespace ClassReading

variable (reading : ClassReading) (owner : Option Place)

theorem owned_statementSites (statement : Statement) :
    ((reading.statementSites statement).map fun site => (site.place, owner)).Sublist
      (statement.owned owner) := by
  cases statement with
  | line parts =>
      have places := map_filterMap_sublist reading.site?_of_simpleSite? parts
      have marked := places.map fun place => (place, owner)
      rw [List.map_map] at marked
      rw [statementSites, Statement.owned]
      exact marked
  | functionStatement header body =>
      rw [statementSites, Statement.owned, property?]
      split
      · exact (List.nil_sublist _).cons_cons _
      · exact List.nil_sublist _
  | _ => exact List.nil_sublist _

theorem owned_statements (statements : List Statement) :
    ((statements.flatMap reading.statementSites).map fun site => (site.place, owner)).Sublist
      (ownedByStatements owner statements) := by
  induction statements with
  | nil => exact List.nil_sublist _
  | cons statement rest ih =>
      rw [List.flatMap_cons, List.map_append, ownedByStatements]
      exact (reading.owned_statementSites owner statement).append ih

/-- The members of a class stand in its body, in order. -/
theorem owned_sites : (reading.sites.map fun site => (site.place, owner)).Sublist
    (reading.entry.body.owned owner) := by
  refine ((firstOfEachFrom_sublist _ _ _).map _).trans ?_
  cases reading.entry.body with
  | inline parts => exact List.nil_sublist _
  | indented statements =>
      rw [Suite.owned]
      exact reading.owned_statements owner statements

end ClassReading

/-! ## Members of the classes of a unit -/

namespace Declarations

variable {units : List SourceUnit} {unit : SourceUnit}

/-- The members of the classes of a unit are owned sites of the unit. -/
theorem owned_of_classesOf (distinct : (units.map SourceUnit.number).Nodup) (member : unit ∈ units)
    {entry : ClassEntry} (own : entry ∈ (ofUnits units).classesOf unit) :
    (((ofUnits units).reading entry).sites.map fun site =>
      (site.place, some entry.header.place)).Sublist unit.owned := by
  obtain ⟨sites, part, classes⟩ := (classesOf_ofUnits distinct).2 unit member
  rw [classes] at own
  obtain ⟨site, listed, rfl⟩ := List.mem_map.mp own
  have inside := ClassSite.ownsAmong_ofStatements unit none [unit.name] 0 unit.module.body site
    (part.mem listed)
  exact (((ofUnits units).reading site.entry).owned_sites (some site.header.place)).trans inside

/-- The members of a class stand at sites of its unit, in order. -/
theorem places_sites (distinct : (units.map SourceUnit.number).Nodup) (member : unit ∈ units)
    {entry : ClassEntry} (own : entry ∈ (ofUnits units).classesOf unit) :
    (((ofUnits units).reading entry).sites.map MemberSite.place).Sublist
      (statementSites unit.module.body) := by
  have places := (owned_of_classesOf distinct member own).map Prod.fst
  rwa [List.map_map, unit.map_fst_owned] at places

/-- Members of the classes of a unit stand at different places. -/
theorem site_unique (distinct : (units.map SourceUnit.number).Nodup) (member : unit ∈ units)
    {left right : ClassEntry} (leftOwn : left ∈ (ofUnits units).classesOf unit)
    (rightOwn : right ∈ (ofUnits units).classesOf unit) {first second : MemberSite}
    (firstListed : first ∈ ((ofUnits units).reading left).sites)
    (secondListed : second ∈ ((ofUnits units).reading right).sites)
    (same : first.place = second.place) : left = right ∧ first = second := by
  have inLeft := (owned_of_classesOf distinct member leftOwn).mem (List.mem_map_of_mem firstListed)
  have inRight :=
    (owned_of_classesOf distinct member rightOwn).mem (List.mem_map_of_mem secondListed)
  rw [← same] at inRight
  have headers := Option.some.inj (unit.owner_unique inLeft inRight)
  have places := (places_classesOf distinct member).1.nodup unit.module.sites_nodup
  obtain rfl : left = right := List.inj_on_of_nodup_map places leftOwn rightOwn headers
  have memberPlaces := (places_sites distinct member leftOwn).nodup unit.module.sites_nodup
  exact ⟨rfl, List.inj_on_of_nodup_map memberPlaces firstListed secondListed same⟩

end Declarations

/-- The members of a type among the symbols that the nodes of a unit declare, in pre-order. -/
def SymbolUnit.membersOf (unit : SymbolUnit) (fqn : String) : List Member :=
  (unit.symbols.filterMap Symbol.member?).filter fun member => member.declaringType = fqn

namespace Program

/-- The symbols that the nodes of a unit of a program declare, by place. -/
def unitSymbols (found : Declarations) (unit : SourceUnit) : List (Place × Symbol) :=
  siteSymbols found found.types (classMembers found found.types) unit

/-- The symbols of the members of the classes of a unit, by the places of their statements. -/
def memberSymbols (found : Declarations) (unit : SourceUnit) : List (Place × Symbol) :=
  (found.classesOf unit).flatMap fun entry =>
    (found.reading entry).sites.map fun site => (site.place, .member site.member)

theorem mem_memberSymbols {found : Declarations} {unit : SourceUnit} {pair : Place × Symbol} :
    pair ∈ memberSymbols found unit ↔ ∃ entry ∈ found.classesOf unit,
      ∃ site ∈ (found.reading entry).sites, (site.place, .member site.member) = pair := by
  simp only [memberSymbols, List.mem_flatMap, List.mem_map]

theorem flatMap_classMembers (found : Declarations) (unit : SourceUnit) :
    ((classMembers found found.types).flatMap fun (entry, sites) =>
      if entry.unit.number = unit.number then
        sites.map fun site => (site.place, Symbol.member site.member)
      else []) = memberSymbols found unit := by
  rw [memberSymbols, Declarations.classesOf, classMembers, List.flatMap_map,
    ← flatMap_filter_of_eq_nil fun entry _ foreign => if_neg (of_decide_eq_false foreign)]
  apply List.flatMap_congr
  intro entry own
  exact if_pos (of_decide_eq_true (List.mem_filter.mp own).2)

/-- What stands at a place of a unit is a member exactly when a member of a class stands there. -/
theorem member?_lookup_unitSymbols (found : Declarations) (unit : SourceUnit) (place : Place) :
    ((unitSymbols found unit).lookup place).bind Symbol.member? =
      ((memberSymbols found unit).lookup place).bind Symbol.member? := by
  rw [unitSymbols, siteSymbols, flatMap_classMembers, filterMap_classes, List.lookup_append,
    List.lookup_append]
  cases (memberSymbols found unit).lookup place with
  | some symbol => rfl
  | none =>
      rw [Option.none_or]
      cases typed : (classSymbols found unit).lookup place with
      | some symbol =>
          obtain ⟨entry, _, same⟩ := List.mem_map.mp (mem_of_lookup typed)
          rw [← (Prod.mk.inj same).2]
          rfl
      | none =>
          rw [Option.none_or, Option.bind_none, Option.bind_eq_none_iff]
          intro symbol declared
          obtain ⟨entry, _, given⟩ := List.mem_filterMap.mp (mem_of_lookup declared)
          split at given
          · rw [← (Prod.mk.inj (Option.some.inj given)).2]
            rfl
          · simp at given

section

variable {units : List SourceUnit} (distinct : (units.map SourceUnit.number).Nodup)
  {unit : SourceUnit} (member : unit ∈ units)

include distinct member

/-- The members that stand at the places of a unit are those of its classes. -/
theorem member?_lookup_unitSymbols_iff {place : Place} {listed : Member} :
    ((unitSymbols (.ofUnits units) unit).lookup place).bind Symbol.member? = some listed ↔
      ∃ entry ∈ (Declarations.ofUnits units).classesOf unit,
        ∃ site ∈ ((Declarations.ofUnits units).reading entry).sites,
          site.place = place ∧ site.member = listed := by
  rw [member?_lookup_unitSymbols]
  constructor
  · intro known
    obtain ⟨symbol, stands, isMember⟩ := Option.bind_eq_some_iff.mp known
    obtain ⟨entry, own, site, inEntry, same⟩ := mem_memberSymbols.mp (mem_of_lookup stands)
    obtain ⟨atPlace, rfl⟩ := Prod.mk.inj same
    exact ⟨entry, own, site, inEntry, atPlace, Option.some.inj isMember⟩
  · rintro ⟨entry, own, site, inEntry, rfl, rfl⟩
    refine Option.bind_eq_some_iff.mpr ⟨.member site.member, lookup_eq_some_of_unique
      (mem_memberSymbols.mpr ⟨entry, own, site, inEntry, rfl⟩) ?_, rfl⟩
    intro other otherListed
    obtain ⟨otherEntry, otherOwn, otherSite, inOther, same⟩ := mem_memberSymbols.mp otherListed
    obtain ⟨places, rfl⟩ := Prod.mk.inj same
    rw [(Declarations.site_unique distinct member otherOwn own inOther inEntry places).2]

/-- The members of a class of a unit are those of its type that the nodes of the unit declare. -/
theorem membersOf_symbolUnit {entry : ClassEntry}
    (own : entry ∈ (Declarations.ofUnits units).classesOf unit) :
    (symbolUnit unit (unitSymbols (.ofUnits units) unit)).membersOf entry.fqn =
      (Declarations.ofUnits units).membersOf entry := by
  let found := Declarations.ofUnits units
  have places := Declarations.places_sites distinct member own
  let pairs := (found.reading entry).sites.map fun site => (site.place, site.member)
  have keys : pairs.map Prod.fst = (found.reading entry).sites.map MemberSite.place :=
    List.map_map
  have seen : ∀ place ∈ statementSites unit.module.body,
      ((((unitSymbols found unit).lookup place).bind Symbol.member?).filter fun listed =>
        listed.declaringType = entry.fqn) = pairs.lookup place := by
    intro place _
    apply Option.ext
    intro listed
    rw [lookup_eq_some_iff_of_nodup (keys ▸ places.nodup unit.module.sites_nodup),
      Option.filter_eq_some_iff, member?_lookup_unitSymbols_iff distinct member]
    constructor
    · rintro ⟨⟨other, otherOwn, site, inOther, rfl, rfl⟩, ofType⟩
      have ofOther :=
        ((found.reading other).declares_of_mem_members (List.mem_map_of_mem inOther)).1
      rw [decide_eq_true_eq, ofOther] at ofType
      have same : other = entry := Declarations.entry_unique (List.mem_filter.mp otherOwn).1
        (List.mem_filter.mp own).1 ofType
      exact List.mem_map.mpr ⟨site, same ▸ inOther, rfl⟩
    · intro known
      obtain ⟨site, inEntry, same⟩ := List.mem_map.mp known
      obtain ⟨atPlace, rfl⟩ := Prod.mk.inj same
      have ofEntry :=
        ((found.reading entry).declares_of_mem_members (List.mem_map_of_mem inEntry)).1
      exact ⟨⟨entry, own, site, inEntry, atPlace, rfl⟩, decide_eq_true ofEntry⟩
  rw [SymbolUnit.membersOf, filterMap_symbols_symbolUnit fun _ => rfl, List.filter_filterMap,
    List.filterMap_congr seen, filterMap_lookup_of_sublist (keys ▸ places) unit.module.sites_nodup]
  exact List.map_map

end

end Program

/-! ## Members by identity -/

namespace Declarations

variable (found : Declarations)

/-- No two members of a program have one identity. -/
theorem nodup_ids : ((found.classes.flatMap found.membersOf).map Member.id).Nodup := by
  rw [List.map_flatMap, List.nodup_flatMap]
  refine ⟨?_, ?_⟩
  · intro entry declared
    refine List.Nodup.map_on ?_ (found.reading entry).nodup_names.of_map
    intro first firstListed second secondListed same
    exact (member_unique declared declared firstListed secondListed same).2
  · have distinct : found.classes.Pairwise (· ≠ ·) := found.fqns_nodup.of_map
    refine distinct.imp_of_mem fun {left right} leftDeclared rightDeclared differ => ?_
    intro id inLeft inRight
    obtain ⟨first, firstListed, rfl⟩ := List.mem_map.mp inLeft
    obtain ⟨second, secondListed, same⟩ := List.mem_map.mp inRight
    exact differ
      (member_unique leftDeclared rightDeclared firstListed secondListed same.symm).1

/-- The members are listed by identity class by class. -/
theorem entries_memberIds_classIndex : found.classIndex.memberIds.entries =
    (found.classes.flatMap found.membersOf).map fun member => (member.id, member) := by
  have distinct := found.nodup_ids
  rw [memberIds_classIndex, ← List.map_flatMap, Table.entries_foldl_insert]
  · rfl
  · rw [List.map_map]
    exact distinct

theorem values_types_classIndex :
    found.classIndex.types.values = found.classes.map found.declaredType := by
  rw [types_classIndex, Table.values, Table.entries_foldl_insert]
  · exact List.map_map
  · rw [List.map_map]
    exact found.fqns_nodup

end Declarations

/-! ## Programs -/

namespace Program

theorem mem_types_symbols {unit : SymbolUnit} {symbol : TypeSymbol} :
    .type symbol ∈ unit.symbols ↔ symbol ∈ unit.symbols.filterMap Symbol.type? := by
  rw [List.mem_filterMap]
  constructor
  · exact fun listed => ⟨_, listed, rfl⟩
  · rintro ⟨other, listed, isType⟩
    cases other with
    | type same => exact Option.some.inj isType ▸ listed
    | _ => simp [Symbol.type?] at isType

theorem mem_members_symbols {unit : SymbolUnit} {member : Member} :
    .member member ∈ unit.symbols ↔ member ∈ unit.symbols.filterMap Symbol.member? := by
  rw [List.mem_filterMap]
  constructor
  · exact fun listed => ⟨_, listed, rfl⟩
  · rintro ⟨other, listed, isMember⟩
    cases other with
    | member same => exact Option.some.inj isMember ▸ listed
    | _ => simp [Symbol.member?] at isMember

section

variable {units : List SourceUnit} (distinct : (units.map SourceUnit.number).Nodup)
  {unit : SourceUnit} (member : unit ∈ units)

include distinct member

/-- The types that the nodes of a unit declare are those of its classes. -/
theorem type_mem_symbols_iff {symbol : TypeSymbol} :
    .type symbol ∈ (symbolUnit unit (unitSymbols (.ofUnits units) unit)).symbols ↔
      ∃ entry ∈ (Declarations.ofUnits units).classesOf unit,
        (Declarations.ofUnits units).declaredType entry = symbol := by
  rw [mem_types_symbols, unitSymbols, types_symbolUnit_siteSymbols distinct member, List.mem_map]

/-- The members that the nodes of a unit declare are those of its classes. -/
theorem exists_entry_of_member_mem_symbols {listed : Member}
    (declared : .member listed ∈ (symbolUnit unit (unitSymbols (.ofUnits units) unit)).symbols) :
    ∃ entry ∈ (Declarations.ofUnits units).classesOf unit,
      listed ∈ (Declarations.ofUnits units).membersOf entry := by
  rw [mem_members_symbols, filterMap_symbols_symbolUnit fun _ => rfl] at declared
  obtain ⟨place, _, stands⟩ := List.mem_filterMap.mp declared
  obtain ⟨entry, own, site, inEntry, _, rfl⟩ :=
    (member?_lookup_unitSymbols_iff distinct member).mp stands
  exact ⟨entry, own, List.mem_map_of_mem inEntry⟩

end

/-- **Members and nodes.** A type is declared by a node of a unit. Those members of it that the nodes
of the unit declare are its members in pre-order, and they have different names. No node declares a
member of anything else than a type of its unit. The members of all types are listed by their
identities, which are different throughout the program. -/
theorem members_of_nodes (sources : List SourceModule) :
    let index := (ofModules sources).index
    let members := index.types.values.flatMap index.declaredMembers
    (∀ symbol ∈ index.types.values, ∃ unit ∈ index.units, .type symbol ∈ unit.symbols) ∧
    (∀ unit ∈ index.units, ∀ symbol, .type symbol ∈ unit.symbols →
      unit.membersOf symbol.fqn = index.declaredMembers symbol ∧
        ((index.declaredMembers symbol).map Member.name).Nodup) ∧
    (∀ unit ∈ index.units, ∀ member, .member member ∈ unit.symbols →
      ∃ symbol, .type symbol ∈ unit.symbols ∧ member ∈ index.declaredMembers symbol) ∧
    index.memberIds.entries = (members.map fun member => (member.id, member)) ∧
    (members.map Member.id).Nodup := by
  intro index members
  let units := (ofModules sources).units
  let found := (ofModules sources).declarations
  have distinct : (units.map SourceUnit.number).Nodup := SourceUnit.nodup_numbers sources
  have shown : index.units = units.map fun unit => symbolUnit unit (unitSymbols found unit) :=
    index_units_ofModules sources
  have together : units.flatMap found.classesOf = found.classes :=
    (Declarations.classesOf_ofUnits distinct).1
  have types : index.types.values = found.classes.map found.declaredType := by
    rw [types_ofModules]
    exact found.values_types_classIndex
  have declares : ∀ entry ∈ found.classes,
      index.declaredMembers (found.declaredType entry) = found.membersOf entry :=
    fun entry declared => declaredMembers_eq_members sources declared rfl
  have allMembers : members = found.classes.flatMap found.membersOf := by
    rw [show members = index.types.values.flatMap index.declaredMembers from rfl, types,
      List.flatMap_map]
    exact List.flatMap_congr declares
  refine ⟨?_, ?_, ?_, ?_, ?_⟩
  · intro symbol listed
    rw [types, ← together] at listed
    obtain ⟨entry, inUnits, rfl⟩ := List.mem_map.mp listed
    obtain ⟨unit, member, own⟩ := List.mem_flatMap.mp inUnits
    rw [shown]
    exact ⟨_, List.mem_map_of_mem member,
      (type_mem_symbols_iff distinct member).mpr ⟨entry, own, rfl⟩⟩
  · intro unit inUnits symbol declared
    rw [shown] at inUnits
    obtain ⟨unit, member, rfl⟩ := List.mem_map.mp inUnits
    obtain ⟨entry, own, rfl⟩ : ∃ entry ∈ found.classesOf unit,
        found.declaredType entry = symbol := (type_mem_symbols_iff distinct member).mp declared
    rw [declares entry (List.mem_filter.mp own).1]
    exact ⟨membersOf_symbolUnit distinct member own, (found.reading entry).nodup_names⟩
  · intro unit inUnits listed declared
    rw [shown] at inUnits
    obtain ⟨unit, member, rfl⟩ := List.mem_map.mp inUnits
    obtain ⟨entry, own, inEntry⟩ := exists_entry_of_member_mem_symbols distinct member declared
    refine ⟨found.declaredType entry,
      (type_mem_symbols_iff distinct member).mpr ⟨entry, own, rfl⟩, ?_⟩
    rw [declares entry (List.mem_filter.mp own).1]
    exact inEntry
  · rw [memberIds_ofModules, allMembers]
    exact found.entries_memberIds_classIndex
  · rw [allMembers]
    exact found.nodup_ids

end Program

namespace Sample

/-- A class with a field, with another class in its body that annotates the same name, and with a
property behind that, which repeats the name once more; in the module that declares the
decorator. -/
def nestedMembers : SourceModule where
  path := "builtins.py"
  name := "builtins"
  module := ⟨[classOn 1 property [] (.inline []),
    classOn 2 a [] (.indented [.line [.annotated (name 3 x) (name 3 a) none],
      classOn 4 b [] (.indented [.line [.annotated (name 5 x) (name 5 a) none]]),
      propertyOn 6 c, propertyOn 7 x])], by decide +kernel⟩

end Sample

namespace Program

/-- In the sample the nodes declare a member of the inner class between two of the outer one. -/
theorem members_of_nestedMembers :
    let index := (ofModules [Sample.nestedMembers]).index
    ∃ outer, index.types.values[1]? = some outer ∧ ∃ unit ∈ index.units,
      .type outer ∈ unit.symbols ∧
      (unit.symbols.filterMap Symbol.member?).map Member.id =
        ["builtins.A.x", "builtins.A.B.x", "builtins.A.C"] ∧
      unit.membersOf outer.fqn = index.declaredMembers outer ∧
      (index.declaredMembers outer).map Member.name = ["x", "C"] := by
  intro index
  obtain ⟨outer, second, named⟩ : ∃ outer, index.types.values[1]? = some outer ∧
      (index.declaredMembers outer).map Member.name = ["x", "C"] := ⟨_, rfl, by decide +kernel⟩
  obtain ⟨declared, ofUnit, _⟩ := members_of_nodes [Sample.nestedMembers]
  obtain ⟨unit, inUnits, declares⟩ := declared outer (List.mem_of_getElem? second)
  have ids : ∀ unit ∈ index.units, (unit.symbols.filterMap Symbol.member?).map Member.id =
      ["builtins.A.x", "builtins.A.B.x", "builtins.A.C"] := by decide +kernel
  exact ⟨outer, second, unit, inUnits, declares, ids unit inUnits,
    (ofUnit unit inUnits outer declares).1, named⟩

end Program

end TypeCatalog
