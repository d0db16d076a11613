import TypeCatalog.Proofs.SameValues
import TypeCatalog.Record.Basic

/-! # Records and their schema

Records need little to be valid: a name and members with names, lines and columns that count from
where they do in a source text, and arguments of attributes that can be written and read back
(`TypeCatalog.TypeRecord.WellFormed`). Then the JSON value of a record conforms to the schema
(`TypeCatalog.TypeRecord.WellFormed.conforms_toJson`) and can itself be written and read back.
-/

namespace TypeCatalog

open Json (Proper)

theorem Json.proper_ofString? (text : Option String) : (Json.ofString? text).Proper := by
  cases text with
  | none => exact .null
  | some text => exact .string text

theorem Schema.conforms_ofString? (text : Option String) :
    Schema.textOrNull.conforms (Json.ofString? text) = true := by
  cases text <;> rfl

theorem Schema.conforms_array {α : Type} {schema : Schema} {toJson : α → Json} {items : List α}
    (each : ∀ item ∈ items, schema.conforms (toJson item) = true) :
    (Schema.array schema).conforms (.array (items.map toJson)) = true := by
  rw [conforms, itemsConform, List.all_map, List.all_eq_true]
  exact each

/-! ## Attributes -/

/-- Attributes in records whose arguments can be written and read back. -/
structure AttributeRecord.WellFormed (record : AttributeRecord) : Prop where
  arguments : ∀ value ∈ record.arguments, value.Proper
  distinct : (record.named.map Prod.fst).Nodup
  named : ∀ entry ∈ record.named, entry.2.Proper

namespace AttributeRecord

theorem conforms_toJson (record : AttributeRecord) :
    Schema.attributeRecord.conforms record.toJson = true := by
  simp [Schema.attributeRecord, toJson, Schema.conforms, Schema.membersConform,
    Schema.keysAreAmong, Schema.itemsConform, Json.member?, Json.members, List.lookup_cons]

theorem WellFormed.proper_toJson {record : AttributeRecord} (wellFormed : record.WellFormed) :
    record.toJson.Proper := by
  refine .object (by simp) ?_
  simp only [List.forall_mem_cons]
  exact ⟨.string _, .string _, .array wellFormed.arguments,
    .object wellFormed.distinct wellFormed.named, List.forall_mem_nil _⟩

end AttributeRecord

/-! ## Members -/

/-- Members in records with a name and attributes that can be written and read back. -/
structure MemberRecord.WellFormed (record : MemberRecord) : Prop where
  named : record.name ≠ ""
  attributes : ∀ marker ∈ record.attributes, marker.WellFormed
  inheritedAttributes : ∀ marker ∈ record.inheritedAttributes, marker.WellFormed

theorem proper_attributes {markers : List AttributeRecord}
    (each : ∀ marker ∈ markers, marker.WellFormed) :
    (Json.array (markers.map AttributeRecord.toJson)).Proper :=
  .array (List.forall_mem_map.mpr fun marker listed => (each marker listed).proper_toJson)

theorem conforms_attributes (markers : List AttributeRecord) :
    (Schema.array Schema.attributeRecord).conforms
      (.array (markers.map AttributeRecord.toJson)) = true :=
  Schema.conforms_array fun marker _ => marker.conforms_toJson

namespace MemberRecord

theorem WellFormed.conforms_toJson {record : MemberRecord} (wellFormed : record.WellFormed) :
    Schema.memberRecord.conforms record.toJson = true := by
  have named : 1 ≤ record.name.length := by
    rw [Nat.one_le_iff_ne_zero, Ne, String.length_eq_zero_iff]
    exact wellFormed.named
  have kind : record.kind.word = "field" ∨ record.kind.word = "property" := by
    cases record.kind <;> simp [MemberKind.word]
  have text := Schema.conforms_ofString?
  have attributes := conforms_attributes
  simp only [Schema.conforms] at text attributes
  simp [Schema.memberRecord, toJson, Schema.conforms, Schema.membersConform,
    Schema.keysAreAmong, Json.member?, Json.members, List.lookup_cons, named, kind, text, attributes]

theorem WellFormed.proper_toJson {record : MemberRecord} (wellFormed : record.WellFormed) :
    record.toJson.Proper := by
  refine .object (by simp) ?_
  simp only [List.forall_mem_cons]
  exact ⟨.string _, .string _, .string _, Json.proper_ofString? _, .bool _,
    Json.proper_ofString? _, .bool _, Json.proper_ofString? _,
    proper_attributes wellFormed.attributes, proper_attributes wellFormed.inheritedAttributes,
    List.forall_mem_nil _⟩

end MemberRecord

/-! ## Types -/

/-- Places as they come from a source text. -/
structure Location.WellFormed (location : Location) : Prop where
  line : 1 ≤ location.line
  column : 0 ≤ location.column

/-- Records of types with a name, whose parts are well-formed. -/
structure TypeRecord.WellFormed (record : TypeRecord) : Prop where
  named : record.fqn ≠ ""
  placed : ∀ location ∈ record.location, location.WellFormed
  attributes : ∀ marker ∈ record.attributes, marker.WellFormed
  members : ∀ member ∈ record.members, member.WellFormed

namespace TypeRecord

theorem conforms_location {location : Option Location}
    (placed : ∀ given ∈ location, given.WellFormed) :
    Schema.location.conforms ((location.map Location.toJson).getD .null) = true := by
  cases location with
  | none => rfl
  | some location =>
      have wellFormed := placed location rfl
      simp [Schema.location, Location.toJson, Schema.conforms, Schema.membersConform,
        Schema.keysAreAmong, Json.member?, Json.members, List.lookup_cons, Json.integer?,
        wellFormed.line, wellFormed.column]

theorem proper_location (location : Option Location) :
    ((location.map Location.toJson).getD .null).Proper := by
  cases location with
  | none => exact .null
  | some location =>
      refine .object (by simp) ?_
      simp only [List.forall_mem_cons]
      exact ⟨.string _, .int _, .int _, List.forall_mem_nil _⟩

theorem WellFormed.conforms_toJson {record : TypeRecord} (wellFormed : record.WellFormed) :
    Schema.typeRecord.conforms record.toJson = true := by
  have named : 1 ≤ record.fqn.length := by
    rw [Nat.one_le_iff_ne_zero, Ne, String.length_eq_zero_iff]
    exact wellFormed.named
  have location := conforms_location wellFormed.placed
  have ancestors : (Schema.array (.text 0)).conforms
      (.array (record.ancestors.map Json.string)) = true :=
    Schema.conforms_array fun _ _ => by simp [Schema.conforms]
  have attributes := conforms_attributes record.attributes
  have members : (Schema.array Schema.memberRecord).conforms
      (.array (record.members.map MemberRecord.toJson)) = true :=
    Schema.conforms_array fun member listed => (wellFormed.members member listed).conforms_toJson
  simp only [Schema.conforms] at ancestors attributes members
  simp [Schema.typeRecord, toJson, Schema.conforms, Schema.membersConform,
    Schema.keysAreAmong, Json.member?, Json.members, List.lookup_cons, named, location, ancestors,
    attributes, members]

theorem WellFormed.proper_toJson {record : TypeRecord} (wellFormed : record.WellFormed) :
    record.toJson.Proper := by
  refine .object (by simp) ?_
  simp only [List.forall_mem_cons]
  exact ⟨.string _, .string _, proper_location _, .bool _,
    .array (List.forall_mem_map.mpr fun _ _ => .string _), .bool _,
    proper_attributes wellFormed.attributes,
    .array (List.forall_mem_map.mpr fun member listed =>
      (wellFormed.members member listed).proper_toJson),
    List.forall_mem_nil _⟩

end TypeRecord

end TypeCatalog
