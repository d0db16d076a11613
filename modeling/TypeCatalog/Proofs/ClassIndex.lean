import Mathlib.Data.List.Nodup
import TypeCatalog.Program.Basic
import TypeCatalog.Proofs.BaseCuts
import TypeCatalog.Proofs.Collections
import TypeCatalog.Proofs.Names

/-! # The index of declared classes

What the index of a program holds: the type, the base and the members of every declared class, and
every declared member under its identity. Identities come apart
(`TypeCatalog.Declarations.member_unique`) because names of members hold no dot and qualified names
of classes are different. Recording overrides and listing units leaves these tables as they are.
-/

namespace TypeCatalog

theorem ClassEntry.fqn_ne_empty (entry : ClassEntry) : entry.fqn ≠ "" := by
  intro empty
  have spelled := congrArg String.toList empty
  simp [fqn] at spelled

/-! ## Members of a class body -/

namespace ClassReading

variable (reading : ClassReading)

/-- What a statement of a class body declares belongs to the class and has an identifier for a
name. -/
theorem declares_of_mem_statementSites {statement : Syntax.Statement} {site : MemberSite}
    (member : site ∈ reading.statementSites statement) :
    site.member.declaringType = reading.entry.fqn ∧
      ∃ name : Identifier, site.member.name = name.text := by
  cases statement with
  | line parts =>
      obtain ⟨part, _, declared⟩ := List.mem_filterMap.mp member
      cases part with
      | annotated target type value =>
          simp only [simpleSite?, field?] at declared
          split at declared
          · split at declared
            · simp at declared
            · rw [← Option.some.inj declared]
              exact ⟨rfl, _, rfl⟩
          · simp at declared
      | _ => simp [simpleSite?] at declared
  | functionStatement header body =>
      rw [statementSites, Option.mem_toList, property?] at member
      split at member
      · rw [← Option.some.inj member]
        exact ⟨rfl, header.name, rfl⟩
      · simp at member
  | _ => simp [statementSites] at member

/-- The members of a class belong to it and have identifiers for names. -/
theorem declares_of_mem_members {member : Member} (listed : member ∈ reading.members) :
    member.declaringType = reading.entry.fqn ∧ ∃ name : Identifier, member.name = name.text := by
  obtain ⟨site, declared, rfl⟩ := List.mem_map.mp listed
  obtain ⟨statement, _, inStatement⟩ :=
    List.mem_flatMap.mp ((firstOfEachFrom_sublist _ _ _).mem declared)
  exact reading.declares_of_mem_statementSites inStatement

theorem nodup_names : (reading.members.map Member.name).Nodup := by
  rw [members, List.map_map]
  exact nodup_map_firstOfEachFrom _ _ _

end ClassReading

namespace Declarations

variable (found : Declarations)

/-! ## Declared classes -/

/-- The body of a class as it is read in its program. -/
def reading (entry : ClassEntry) : ClassReading :=
  ⟨found.typeScope found.types entry.unit, entry⟩

/-- The members of a class in its program. -/
def membersOf (entry : ClassEntry) : List Member := (found.reading entry).members

/-- The index of the declared classes, before overrides are recorded. -/
def classIndex : Index :=
  Program.indexOf found.types (found.linkBases found.types).bases
    (Program.classMembers found found.types)

variable {found}

theorem entry_unique {left right : ClassEntry} (leftMember : left ∈ found.classes)
    (rightMember : right ∈ found.classes) (same : left.fqn = right.fqn) : left = right :=
  List.inj_on_of_nodup_map found.fqns_nodup leftMember rightMember same

/-- A qualified name is that of a class exactly when a type is declared under it. -/
theorem find?_types_iff {key : String} {symbol : TypeSymbol} :
    found.types.find? key = some symbol ↔
      ∃ entry ∈ found.classes, entry.fqn = key ∧ found.declaredType entry = symbol := by
  rw [Table.find?_eq_some_iff, types, List.mem_map]
  simp only [Prod.mk.injEq]

theorem find?_types {entry : ClassEntry} (member : entry ∈ found.classes) :
    found.types.find? entry.fqn = some (found.declaredType entry) :=
  find?_types_iff.mpr ⟨entry, member, rfl, rfl⟩

/-- The members of all classes are known by their identities. -/
theorem member_unique {left right : ClassEntry} (leftMember : left ∈ found.classes)
    (rightMember : right ∈ found.classes) {first second : Member}
    (firstListed : first ∈ found.membersOf left) (secondListed : second ∈ found.membersOf right)
    (same : first.id = second.id) : left = right ∧ first = second := by
  obtain ⟨firstOwner, firstName, firstIs⟩ :=
    (found.reading left).declares_of_mem_members firstListed
  obtain ⟨secondOwner, secondName, secondIs⟩ :=
    (found.reading right).declares_of_mem_members secondListed
  rw [Member.id, Member.id] at same
  obtain ⟨owners, names⟩ := Text.append_dot_inj same (firstIs ▸ firstName.dot_notMem)
    (secondIs ▸ secondName.dot_notMem)
  rw [firstOwner, secondOwner] at owners
  obtain rfl := entry_unique leftMember rightMember owners
  exact ⟨rfl, List.inj_on_of_nodup_map (found.reading left).nodup_names firstListed secondListed
    names⟩

/-! ## Bases -/

theorem mem_fqns_of_mem_writtenBases {key : String}
    (member : key ∈ (found.writtenBases found.types).keys) : key ∈ found.fqns := by
  by_contra unknown
  refine absurd (Table.isSome_find?_iff.mpr member) ?_
  rw [writtenBases, Table.ofList, Table.find?_foldl_insert_of_notMem, Table.find?_empty]
  · simp
  · intro pair listed same
    obtain ⟨entry, declared, written⟩ := List.mem_filterMap.mp listed
    obtain ⟨base, _, rfl⟩ := Option.map_eq_some_iff.mp written
    exact unknown (same ▸ List.mem_map_of_mem declared)

/-- The base that a class writes is found under its qualified name. -/
theorem find?_writtenBases {entry : ClassEntry} (declared : entry ∈ found.classes) :
    (found.writtenBases found.types).find? entry.fqn = found.writtenBase? found.types entry := by
  rw [writtenBases, Table.ofList]
  cases written : found.writtenBase? found.types entry with
  | some base =>
      refine Table.find?_foldl_insert _ _
        (List.mem_filterMap.mpr ⟨entry, declared, by rw [written]; rfl⟩) ?_
      intro other listed
      obtain ⟨again, againDeclared, againWritten⟩ := List.mem_filterMap.mp listed
      obtain ⟨symbol, symbolWritten, same⟩ := Option.map_eq_some_iff.mp againWritten
      rw [Prod.mk.injEq] at same
      rw [entry_unique againDeclared declared same.1, written] at symbolWritten
      exact same.2.symm.trans (Option.some.inj symbolWritten).symm
  | none =>
      rw [Table.find?_foldl_insert_of_notMem, Table.find?_empty]
      intro pair listed same
      obtain ⟨again, againDeclared, againWritten⟩ := List.mem_filterMap.mp listed
      obtain ⟨symbol, symbolWritten, rfl⟩ := Option.map_eq_some_iff.mp againWritten
      rw [entry_unique againDeclared declared same, written] at symbolWritten
      simp at symbolWritten

theorem find?_writtenBases_of_find?_linkBases {key : String} {base : TypeSymbol}
    (linked : (found.linkBases found.types).bases.find? key = some base) :
    (found.writtenBases found.types).find? key = some base :=
  (cutAll_cutSoFar _ _).find?_of_find? linked

theorem mem_fqns_of_find?_linkBases {key : String} {base : TypeSymbol}
    (linked : (found.linkBases found.types).bases.find? key = some base) : key ∈ found.fqns := by
  have written := find?_writtenBases_of_find?_linkBases linked
  exact mem_fqns_of_mem_writtenBases (Table.isSome_find?_iff.mp (by simp [written]))

theorem linkBases_acyclic (key : String) :
    ¬ OnCycle (baseKey? (found.linkBases found.types).bases) key :=
  cutAll_acyclic (fun _ member => mem_fqns_of_mem_writtenBases member) key

/-! ## The tables of the index -/

variable (found)

/-- The index is made class by class. -/
theorem classIndex_eq : found.classIndex =
    found.classes.foldl (fun index entry => index.addType (found.declaredType entry)
      ((found.linkBases found.types).bases.find? entry.fqn) (found.membersOf entry)) .empty := by
  rw [classIndex, Program.indexOf, Program.classMembers, List.foldl_map]
  apply List.foldl_ext
  intro index entry member
  simp only [find?_types member]
  rfl

theorem types_classIndex : found.classIndex.types =
    (found.classes.map fun entry => (entry.fqn, found.declaredType entry)).foldl
      (fun table pair => table.insert pair.1 pair.2) .empty := by
  rw [classIndex_eq, List.foldl_map]
  exact (List.foldl_hom Index.types fun _ _ => rfl).symm

theorem members_classIndex : found.classIndex.members =
    (found.classes.map fun entry => (entry.fqn, found.membersOf entry)).foldl
      (fun table pair => table.insert pair.1 pair.2) .empty := by
  rw [classIndex_eq, List.foldl_map]
  exact (List.foldl_hom Index.members fun _ _ => rfl).symm

theorem memberIds_classIndex : found.classIndex.memberIds =
    (found.classes.flatMap fun entry => (found.membersOf entry).map fun member =>
      (member.id, member)).foldl (fun table pair => table.insert pair.1 pair.2) .empty := by
  rw [classIndex_eq, List.foldl_flatMap]
  refine (List.foldl_hom Index.memberIds fun index entry => ?_).symm
  rw [List.foldl_map]
  rfl

theorem bases_classIndex : found.classIndex.bases =
    (found.classes.filterMap fun entry =>
      ((found.linkBases found.types).bases.find? entry.fqn).map fun base =>
        (entry.fqn, base)).foldl (fun table pair => table.insert pair.1 pair.2) .empty := by
  rw [classIndex_eq, List.foldl_filterMap]
  refine (List.foldl_hom Index.bases fun index entry => ?_).symm
  cases linked : (found.linkBases found.types).bases.find? entry.fqn <;> rfl

theorem keys_types_classIndex : found.classIndex.types.keys = found.fqns := by
  rw [types_classIndex, Table.keys_foldl_insert, List.map_map]
  · rfl
  · simpa [Function.comp_def] using found.fqns_nodup

theorem find?_types_classIndex (key : String) :
    found.classIndex.types.find? key = found.types.find? key := by
  rw [types_classIndex]
  cases declared : found.types.find? key with
  | some symbol =>
      obtain ⟨entry, member, rfl, rfl⟩ := find?_types_iff.mp declared
      refine Table.find?_foldl_insert _ _ (List.mem_map.mpr ⟨entry, member, rfl⟩) ?_
      intro other listed
      obtain ⟨again, againMember, same⟩ := List.mem_map.mp listed
      rw [Prod.mk.injEq] at same
      rw [← same.2, entry_unique againMember member same.1]
  | none =>
      rw [Table.find?_foldl_insert_of_notMem, Table.find?_empty]
      intro pair listed same
      obtain ⟨entry, member, rfl⟩ := List.mem_map.mp listed
      rw [← same, find?_types member] at declared
      exact absurd declared (by simp)

theorem find?_bases_classIndex (key : String) :
    found.classIndex.bases.find? key = (found.linkBases found.types).bases.find? key := by
  rw [bases_classIndex]
  cases linked : (found.linkBases found.types).bases.find? key with
  | some base =>
      obtain ⟨entry, member, rfl⟩ := List.mem_map.mp (mem_fqns_of_find?_linkBases linked)
      refine Table.find?_foldl_insert _ _
        (List.mem_filterMap.mpr ⟨entry, member, by rw [linked]; rfl⟩) ?_
      intro other listed
      obtain ⟨again, againMember, written⟩ := List.mem_filterMap.mp listed
      obtain ⟨symbol, symbolLinked, same⟩ := Option.map_eq_some_iff.mp written
      rw [Prod.mk.injEq] at same
      rw [same.1, linked] at symbolLinked
      exact same.2.symm.trans (Option.some.inj symbolLinked).symm
  | none =>
      rw [Table.find?_foldl_insert_of_notMem, Table.find?_empty]
      intro pair listed same
      obtain ⟨entry, member, written⟩ := List.mem_filterMap.mp listed
      obtain ⟨symbol, symbolLinked, rfl⟩ := Option.map_eq_some_iff.mp written
      rw [show entry.fqn = key from same, linked] at symbolLinked
      simp at symbolLinked

/-- No overrides are recorded before all members are. -/
theorem overrides_classIndex : found.classIndex.overrides = .empty := by
  rw [classIndex_eq]
  exact view_foldl Index.overrides _ (by intros; rfl) found.classes .empty

variable {found}

theorem find?_members_classIndex {entry : ClassEntry} (member : entry ∈ found.classes) :
    found.classIndex.members.find? entry.fqn = some (found.membersOf entry) := by
  rw [members_classIndex]
  refine Table.find?_foldl_insert _ _ (List.mem_map.mpr ⟨entry, member, rfl⟩) ?_
  intro other listed
  obtain ⟨again, againMember, same⟩ := List.mem_map.mp listed
  rw [Prod.mk.injEq] at same
  rw [← same.2, entry_unique againMember member same.1]

theorem find?_members_classIndex_of_notMem {key : String} (unknown : key ∉ found.fqns) :
    found.classIndex.members.find? key = none := by
  rw [members_classIndex, Table.find?_foldl_insert_of_notMem, Table.find?_empty]
  intro pair listed same
  obtain ⟨entry, member, rfl⟩ := List.mem_map.mp listed
  exact unknown (same ▸ List.mem_map_of_mem member)

/-- The members that are found by identity are those that classes declare. -/
theorem find?_memberIds_classIndex {entry : ClassEntry} (declared : entry ∈ found.classes)
    {member : Member} (listed : member ∈ found.membersOf entry) :
    found.classIndex.memberIds.find? member.id = some member := by
  rw [memberIds_classIndex]
  refine Table.find?_foldl_insert _ _
    (List.mem_flatMap.mpr ⟨entry, declared, List.mem_map.mpr ⟨member, listed, rfl⟩⟩) ?_
  intro other pairListed
  obtain ⟨again, againDeclared, inAgain⟩ := List.mem_flatMap.mp pairListed
  obtain ⟨same, sameListed, equal⟩ := List.mem_map.mp inAgain
  rw [Prod.mk.injEq] at equal
  rw [← equal.2]
  exact (member_unique againDeclared declared sameListed listed equal.1).2

/-- Every member that is found by an identity is declared by a class and has that identity. -/
theorem mem_membersOf_of_find?_memberIds {key : String} {member : Member}
    (listed : found.classIndex.memberIds.find? key = some member) :
    member.id = key ∧ ∃ entry ∈ found.classes, member ∈ found.membersOf entry := by
  rw [memberIds_classIndex] at listed
  rcases Table.mem_of_find?_foldl_insert _ _ listed with stored | before
  · obtain ⟨entry, declared, inEntry⟩ := List.mem_flatMap.mp stored
    obtain ⟨same, inMembers, equal⟩ := List.mem_map.mp inEntry
    rw [Prod.mk.injEq] at equal
    exact ⟨equal.2 ▸ equal.1, entry, declared, equal.2 ▸ inMembers⟩
  · simp at before

theorem declaredMembers_classIndex {entry : ClassEntry} (declared : entry ∈ found.classes)
    {symbol : TypeSymbol} (named : symbol.key? = some entry.fqn) :
    found.classIndex.declaredMembers symbol = found.membersOf entry := by
  rw [Index.declaredMembers, named, Option.bind_some, find?_members_classIndex declared,
    Option.getD_some]

theorem exists_entry_of_mem_declaredMembers {symbol : TypeSymbol} {member : Member}
    (listed : member ∈ found.classIndex.declaredMembers symbol) :
    ∃ entry ∈ found.classes, symbol.key? = some entry.fqn ∧ member ∈ found.membersOf entry := by
  cases named : symbol.key? with
  | none => simp [Index.declaredMembers, named] at listed
  | some key =>
      by_cases known : key ∈ found.fqns
      · obtain ⟨entry, declared, rfl⟩ := List.mem_map.mp known
        rw [declaredMembers_classIndex declared named] at listed
        exact ⟨entry, declared, rfl, listed⟩
      · rw [Index.declaredMembers, named, Option.bind_some,
          find?_members_classIndex_of_notMem known] at listed
        simp at listed

end Declarations

/-! ## Overrides and units -/

namespace Program

variable (sources : List SourceModule)

/-- Units leave every view of an index alone that does not look at them. -/
theorem view_linkOverrides {β : Type} (view : Index → β)
    (units : ∀ index unit, view (index.addUnit unit) = view index) :
    view (ofModules sources).index =
      view (linkOverrides (ofModules sources).declarations.classIndex) := by
  refine (view_foldl view _ (fun _ _ => units _ _) _ _).trans ?_
  rfl

/-- Overrides and units leave every view of an index alone that does not look at them. -/
theorem view_ofModules {β : Type} (view : Index → β)
    (overrides : ∀ index member overridden, view (index.addOverride member overridden) = view index)
    (units : ∀ index unit, view (index.addUnit unit) = view index) :
    view (ofModules sources).index = view (ofModules sources).declarations.classIndex := by
  refine (view_linkOverrides sources view units).trans ?_
  exact view_foldl view _ (fun _ _ => overrides _ _ _) _ _

theorem types_ofModules :
    (ofModules sources).index.types = (ofModules sources).declarations.classIndex.types :=
  view_ofModules sources Index.types (fun _ _ _ => rfl) fun _ _ => rfl

theorem bases_ofModules :
    (ofModules sources).index.bases = (ofModules sources).declarations.classIndex.bases :=
  view_ofModules sources Index.bases (fun _ _ _ => rfl) fun _ _ => rfl

theorem members_ofModules :
    (ofModules sources).index.members = (ofModules sources).declarations.classIndex.members :=
  view_ofModules sources Index.members (fun _ _ _ => rfl) fun _ _ => rfl

theorem memberIds_ofModules :
    (ofModules sources).index.memberIds =
      (ofModules sources).declarations.classIndex.memberIds :=
  view_ofModules sources Index.memberIds (fun _ _ _ => rfl) fun _ _ => rfl

theorem overrides_ofModules :
    (ofModules sources).index.overrides =
      (linkOverrides (ofModules sources).declarations.classIndex).overrides :=
  view_linkOverrides sources Index.overrides fun _ _ => rfl

end Program

end TypeCatalog
