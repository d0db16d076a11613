import TypeCatalog.Proofs.Enumeration
import TypeCatalog.Proofs.InheritedAttributes
import TypeCatalog.Proofs.LiteralRecords
import TypeCatalog.Proofs.Overrides
import TypeCatalog.Proofs.RecordSchema
import TypeCatalog.Record.Validate

/-! # Validation of described types

The records of well-formed types with different names are valid, each read back from its text as the
same value (`TypeCatalog.validate_of_wellFormed`). What a program describes is well-formed, whatever
its modules say, so it is always valid (`TypeCatalog.Program.validate_describe`).
-/

namespace TypeCatalog

open Syntax

/-! ## Validation of well-formed records -/

theorem recordKey_toJson (record : TypeRecord) : recordKey record.toJson = record.fqn := by
  simp [recordKey, TypeRecord.toJson, Json.member?, Json.members, List.lookup_cons, Json.plainText,
    Json.toLiteral, Literal.plainText]

/-- A well-formed record conforms as it is read back. -/
theorem TypeRecord.WellFormed.conformingCopy?_toJson {record : TypeRecord}
    (wellFormed : record.WellFormed) :
    conformingCopy? record.toJson = some record.toJson.sorted := by
  have proper := wellFormed.proper_toJson
  have conforms : Schema.typeRecord.conforms record.toJson.sorted = true :=
    (Schema.conforms_of_same _ (Json.same_sorted proper)).trans wellFormed.conforms_toJson
  rw [conformingCopy?, Json.read?_write proper, Option.filter_some_pos conforms]

/-- Records with keys that were not seen and differ are all kept, if each is read back and
conforms. -/
theorem outcomesAfter_of_copied {seen : List String} {records : List Json}
    (unseen : ∀ record ∈ records, recordKey record ∉ seen)
    (distinct : (records.map recordKey).Nodup)
    (copied : ∀ record ∈ records, conformingCopy? record = some record.sorted) :
    outcomesAfter seen records = records.map fun record => .ok (some record.sorted) := by
  induction records generalizing seen with
  | nil => rfl
  | cons record rest ih =>
      rw [List.map_cons, List.nodup_cons] at distinct
      rw [List.forall_mem_cons] at unseen copied
      have fresh : seen.contains (recordKey record) = false := by
        simpa using unseen.1
      have later : ∀ other ∈ rest, recordKey other ∉ recordKey record :: seen := by
        intro other listed again
        rcases List.mem_cons.mp again with same | old
        · exact distinct.1 (same ▸ List.mem_map_of_mem listed)
        · exact unseen.2 other listed old
      rw [outcomesAfter]
      simp only [fresh, copied.1, Bool.false_eq_true, if_false]
      rw [ih later distinct.2 copied.2, List.map_cons]

theorem gather_map_ok {ε α β : Type} (value : α → β) (items : List α) :
    gather (items.map fun item => (.ok (some (value item)) : Except (Option ε) (Option β))) =
      .ok (items.map value) := by
  have errors : errorsOf (items.map fun item =>
      (.ok (some (value item)) : Except (Option ε) (Option β))) = [] := by
    rw [errorsOf, List.filterMap_map, List.filterMap_eq_nil_iff]
    exact fun _ _ => rfl
  rw [gather, errors, valuesOf, List.filterMap_map]
  exact congrArg _ (congrFun List.filterMap_eq_map' items)

/-- Records with different keys are valid if each is read back and conforms. -/
theorem validate_of_copied {records : List Json} (distinct : (records.map recordKey).Nodup)
    (copied : ∀ record ∈ records, conformingCopy? record = some record.sorted) :
    validate records = .ok (records.map Json.sorted) := by
  rw [validate, outcomesAfter_of_copied (fun _ _ => List.not_mem_nil) distinct copied,
    gather_map_ok]

/-- Well-formed records with different names are valid. -/
theorem validate_of_wellFormed {records : List TypeRecord}
    (distinct : (records.map TypeRecord.fqn).Nodup)
    (wellFormed : ∀ record ∈ records, record.WellFormed) :
    validate (records.map TypeRecord.toJson) =
      .ok (records.map fun record => record.toJson.sorted) := by
  have keys : (records.map TypeRecord.toJson).map recordKey = records.map TypeRecord.fqn := by
    rw [List.map_map]
    exact List.map_congr_left fun record _ => recordKey_toJson record
  have copied : ∀ record ∈ records.map TypeRecord.toJson,
      conformingCopy? record = some record.sorted :=
    List.forall_mem_map.mpr fun record listed => (wellFormed record listed).conformingCopy?_toJson
  rw [validate_of_copied (keys ▸ distinct) copied, List.map_map]
  rfl

/-! ## Attributes of members -/

theorem Attribute.Proper.wellFormed {marker : Attribute} (proper : marker.Proper) :
    (AttributeRecord.ofAttribute marker).WellFormed where
  arguments := List.forall_mem_map.mpr proper.arguments
  distinct := AttributeRecord.nodup_named marker
  named := fun entry shown => by
    obtain ⟨given, listed, rfl⟩ := List.mem_map.mp ((firstOfEachFrom_sublist _ _ _).mem shown)
    exact proper.named given listed

namespace ClassReading

variable (reading : ClassReading)

theorem proper_of_mem_statementSites {statement : Statement} {site : MemberSite}
    (listed : site ∈ reading.statementSites statement) :
    ∀ marker ∈ site.member.attributes, marker.Proper := by
  cases statement with
  | line parts =>
      obtain ⟨part, _, declared⟩ := List.mem_filterMap.mp listed
      cases part with
      | annotated target type value =>
          simp only [simpleSite?, field?] at declared
          split at declared
          · split at declared
            · simp at declared
            · rw [← Option.some.inj declared]
              exact fun _ => NameScope.proper_of_mem_filterMap
          · simp at declared
      | _ => simp [simpleSite?] at declared
  | functionStatement header body =>
      rw [statementSites, Option.mem_toList, property?] at listed
      split at listed
      · rw [← Option.some.inj listed]
        exact fun _ => NameScope.proper_of_mem_decoratorAttributes
      · simp at listed
  | _ => simp [statementSites] at listed

theorem proper_of_mem_members {member : Member} (listed : member ∈ reading.members) :
    ∀ marker ∈ member.attributes, marker.Proper := by
  obtain ⟨site, declared, rfl⟩ := List.mem_map.mp listed
  obtain ⟨statement, _, inStatement⟩ :=
    List.mem_flatMap.mp ((firstOfEachFrom_sublist _ _ _).mem declared)
  exact reading.proper_of_mem_statementSites inStatement

end ClassReading

namespace Index

theorem exists_overridden?_of_mem_overrideChainUpTo {index : Index} {count : Nat}
    {member overridden : Member} (listed : overridden ∈ index.overrideChainUpTo count member) :
    ∃ nearer, index.overridden? nearer = some overridden := by
  induction count generalizing member with
  | zero => exact absurd listed List.not_mem_nil
  | succ count ih =>
      rw [overrideChainUpTo] at listed
      split at listed
      · exact absurd listed List.not_mem_nil
      · rename_i next overrides
        rcases List.mem_cons.mp listed with rfl | further
        · exact ⟨member, overrides⟩
        · exact ih further

end Index

namespace Program

variable (sources : List SourceModule)

/-! ## Well-formed records of a program -/

theorem exists_entry_of_mem_allMembers {symbol : TypeSymbol} {member : Member}
    (listed : member ∈ (ofModules sources).index.allMembers symbol) :
    ∃ entry, member ∈ (ofModules sources).declarations.membersOf entry := by
  have declared : ∃ owner, member ∈ (ofModules sources).index.declaredMembers owner := by
    rcases List.mem_append.mp listed with own | inherited
    · exact ⟨symbol, own⟩
    · obtain ⟨ancestor, _, listed⟩ := List.mem_flatMap.mp inherited
      exact ⟨ancestor, listed⟩
  obtain ⟨owner, listed⟩ := declared
  rw [declaredMembers_ofModules] at listed
  obtain ⟨entry, _, _, inEntry⟩ := Declarations.exists_entry_of_mem_declaredMembers listed
  exact ⟨entry, inEntry⟩

theorem proper_of_mem_allMembers {symbol : TypeSymbol} {member : Member}
    (listed : member ∈ (ofModules sources).index.allMembers symbol) :
    ∀ marker ∈ member.attributes, marker.Proper := by
  obtain ⟨entry, inEntry⟩ := exists_entry_of_mem_allMembers sources listed
  exact ClassReading.proper_of_mem_members _ inEntry

/-- What a member inherits stands on the members that it overrides. -/
theorem proper_of_mem_inheritedAttributes {symbol : TypeSymbol} {member : Member}
    (listed : member ∈ (ofModules sources).index.allMembers symbol) :
    ∀ marker ∈ (ofModules sources).index.inheritedAttributes member, marker.Proper := by
  intro marker inherited
  obtain ⟨name, _, found⟩ := List.mem_filterMap.mp inherited
  obtain ⟨current, inChain, found⟩ := List.exists_of_findSome?_eq_some found
  have onCurrent := List.mem_of_find?_eq_some found
  rcases List.mem_cons.mp inChain with rfl | overridden
  · exact proper_of_mem_allMembers sources listed marker onCurrent
  · obtain ⟨nearer, overrides⟩ := Index.exists_overridden?_of_mem_overrideChainUpTo overridden
    obtain ⟨owner, listed⟩ := exists_symbol_of_overridden? sources overrides
    exact proper_of_mem_allMembers sources listed marker onCurrent

theorem wellFormed_describeMember (settings : Settings) (owner : TypeSymbol) {symbol : TypeSymbol}
    {member : Member} (listed : member ∈ (ofModules sources).index.allMembers symbol) :
    ((ofModules sources).index.describeMember settings owner member).WellFormed where
  named := by
    obtain ⟨entry, inEntry⟩ := exists_entry_of_mem_allMembers sources listed
    obtain ⟨_, name, named⟩ := ClassReading.declares_of_mem_members _ inEntry
    rw [Index.describeMember, named]
    exact name.text_ne_empty
  attributes := List.forall_mem_map.mpr fun marker given =>
    (proper_of_mem_allMembers sources listed marker given).wellFormed
  inheritedAttributes := List.forall_mem_map.mpr fun marker given =>
    (proper_of_mem_inheritedAttributes sources listed marker given).wellFormed

theorem wellFormed_locate (unit : SourceUnit) (place : Place) :
    ∀ location ∈ unit.locate place, location.WellFormed := by
  intro location located
  rw [SourceUnit.locate] at located
  split at located
  · rw [← Option.some.inj located]
    constructor
    · simp [SourceUnit.locationOf, Place.line]
    · simp [SourceUnit.locationOf]
  · contradiction

theorem wellFormed_describeType (settings : Settings) (entry : ClassEntry) :
    ((ofModules sources).index.describeType settings
      ((ofModules sources).declarations.declaredType entry)).WellFormed where
  named := entry.fqn_ne_empty
  placed := wellFormed_locate entry.unit entry.header.place
  attributes := List.forall_mem_map.mpr fun _ given =>
    (NameScope.proper_of_mem_decoratorAttributes given).wellFormed
  members := List.forall_mem_map.mpr fun _ listed =>
    wellFormed_describeMember sources settings _ listed

theorem wellFormed_describe (settings : Settings) (serializableOnly : Bool) :
    ∀ record ∈ (ofModules sources).index.describe settings serializableOnly,
      record.WellFormed := by
  refine List.forall_mem_map.mpr fun symbol described => ?_
  have named := (List.mem_filter.mp described).1
  rw [namedTypes_eq_map_declaredType] at named
  obtain ⟨entry, _, rfl⟩ := List.mem_map.mp named
  exact wellFormed_describeType sources settings entry

theorem nodup_fqns_describe (settings : Settings) (serializableOnly : Bool) :
    (((ofModules sources).index.describe settings serializableOnly).map TypeRecord.fqn).Nodup := by
  have distinct : ((ofModules sources).index.namedTypes.map TypeSymbol.fqn).Nodup := by
    rw [namedTypes_eq_map_declaredType, List.map_map]
    exact (ofModules sources).declarations.fqns_nodup
  rw [Index.describe, List.map_map]
  exact distinct.sublist (List.filter_sublist.map _)

/-- **Described types are valid.** Whatever the modules of a program say, the records of its types
are valid under every settings, and read back they are the same values in the same order. -/
theorem validate_describe (sources : List SourceModule) (settings : Settings)
    (serializableOnly : Bool) :
    let records :=
      ((ofModules sources).index.describe settings serializableOnly).map TypeRecord.toJson
    ∃ copies, validate records = .ok copies ∧ List.Forall₂ Json.Same copies records := by
  intro records
  have wellFormed := wellFormed_describe sources settings serializableOnly
  refine ⟨_, validate_of_wellFormed (nodup_fqns_describe sources settings serializableOnly)
    wellFormed, ?_⟩
  rw [List.forall₂_map_left_iff, List.forall₂_map_right_iff, List.forall₂_same]
  exact fun record listed => Json.same_sorted (wellFormed record listed).proper_toJson

end Program

end TypeCatalog
