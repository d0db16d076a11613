import TypeCatalog.Proofs.Extractions
import TypeCatalog.Proofs.RecordValidation
import TypeCatalog.Proofs.StandardJson

/-! # Standard lines

Nothing but the values of attributes can put a number into a record that is not finite
(`TypeCatalog.TypeRecord.isFinite_toJson_iff`), so the line of a record is a text of the standard
grammar exactly when these are finite (`TypeCatalog.Environment.extracted_lines`), which they are
where all numbers of the literals are.
-/

namespace TypeCatalog

open FileNode

/-! ## Finite records -/

namespace Json

theorem isFinite_sorted (value : Json) : value.sorted.IsFinite ↔ value.IsFinite := by
  induction value using induct with
  | array items each =>
      rw [sorted, sortedItems_eq_map, isFinite_array_iff, isFinite_array_iff,
        List.forall_mem_map]
      exact forall₂_congr each
  | object members each =>
      rw [sorted_object, isFinite_object_iff, isFinite_object_iff, List.forall_mem_map]
      simp only [(sortMembers_perm members).mem_iff]
      exact forall₂_congr each
  | _ => rfl

theorem isFinite_ofString? (text : Option String) : (ofString? text).IsFinite := by
  cases text with
  | none => exact .null
  | some text => exact .string text

end Json

/-- Attributes in records that show finite numbers alone. -/
def AttributeRecord.IsFinite (record : AttributeRecord) : Prop :=
  (∀ value ∈ record.arguments, value.IsFinite) ∧ ∀ entry ∈ record.named, entry.2.IsFinite

theorem AttributeRecord.isFinite_toJson_iff (record : AttributeRecord) :
    record.toJson.IsFinite ↔ record.IsFinite := by
  simp [toJson, IsFinite, Json.isFinite_object_iff, Json.isFinite_array_iff, Json.IsFinite.string]

/-- All attributes that a record shows: those of the type, and those that its members carry or
inherit. -/
def TypeRecord.allAttributes (record : TypeRecord) : List AttributeRecord :=
  record.attributes ++
    record.members.flatMap fun member => member.attributes ++ member.inheritedAttributes

theorem MemberRecord.isFinite_toJson_iff (record : MemberRecord) :
    record.toJson.IsFinite ↔
      ∀ marker ∈ record.attributes ++ record.inheritedAttributes, marker.IsFinite := by
  simp [toJson, Json.isFinite_object_iff, Json.isFinite_array_iff, Json.IsFinite.string,
    Json.IsFinite.bool, Json.isFinite_ofString?, AttributeRecord.isFinite_toJson_iff, or_imp,
    forall_and]

theorem TypeRecord.isFinite_toJson_iff (record : TypeRecord) :
    record.toJson.IsFinite ↔ ∀ marker ∈ record.allAttributes, marker.IsFinite := by
  have location : ((record.location.map Location.toJson).getD .null).IsFinite := by
    cases record.location with
    | none => exact .null
    | some location =>
        simp [Location.toJson, Json.isFinite_object_iff, Json.IsFinite.string, Json.IsFinite.int]
  have members : (∀ member ∈ record.members, member.toJson.IsFinite) ↔
      ∀ marker ∈ record.members.flatMap fun member =>
        member.attributes ++ member.inheritedAttributes, marker.IsFinite := by
    simp only [MemberRecord.isFinite_toJson_iff, List.forall_mem_flatMap]
  rw [allAttributes, List.forall_mem_append, ← members]
  simp [toJson, Json.isFinite_object_iff, Json.isFinite_array_iff, Json.IsFinite.string,
    Json.IsFinite.bool, location, AttributeRecord.isFinite_toJson_iff]

/-! ## Finite literals -/

/-- Literals without infinite numbers. The keys of dictionaries and the parts of complex numbers are
shown as text, so they do not count. -/
inductive Literal.IsFinite : Literal → Prop
  | null : IsFinite .null
  | bool (value : Bool) : IsFinite (.bool value)
  | int (value : Int) : IsFinite (.int value)
  | float {value : Binary64} (finite : value.isFinite = true) : IsFinite (.float value)
  | complex (real imaginary : Binary64) : IsFinite (.complex real imaginary)
  | string (value : String) : IsFinite (.string value)
  | bytes (value : List UInt8) : IsFinite (.bytes value)
  | ellipsis : IsFinite .ellipsis
  | list {items : List Literal} (each : ∀ item ∈ items, IsFinite item) : IsFinite (.list items)
  | tuple {items : List Literal} (each : ∀ item ∈ items, IsFinite item) : IsFinite (.tuple items)
  | set {elements : List Literal} (each : ∀ element ∈ elements, IsFinite element) :
      IsFinite (.set elements)
  | dict {entries : List (Literal × Literal)} (each : ∀ entry ∈ entries, IsFinite entry.2) :
      IsFinite (.dict entries)

theorem Literal.IsFinite.isFinite_toJson {value : Literal} (finite : value.IsFinite) :
    value.toJson.IsFinite := by
  induction finite with
  | null => exact .null
  | bool value => exact .bool value
  | int value => exact .int value
  | float finite => exact .float finite
  | complex _ _ => exact .string _
  | string value => exact .string value
  | bytes _ => exact .string _
  | ellipsis => exact .string _
  | list _ shown =>
      rw [toJson, toJsonItems_eq_map]
      exact .array (List.forall_mem_map.mpr shown)
  | tuple _ shown =>
      rw [toJson, toJsonItems_eq_map]
      exact .array (List.forall_mem_map.mpr shown)
  | set _ shown =>
      refine .array fun item listed => ?_
      obtain ⟨element, member, rfl⟩ := exists_element_of_mem_sortByDisplay listed
      exact shown element member
  | dict _ shown =>
      refine .object fun member kept => ?_
      obtain ⟨entry, inEntries, rfl⟩ := exists_entry_of_mem_uniqueMembers kept
      exact shown entry inEntries

/-- Attributes whose arguments are literals without infinite numbers. -/
def Attribute.IsFinite (marker : Attribute) : Prop :=
  (∀ value ∈ marker.arguments, value.IsFinite) ∧ ∀ entry ∈ marker.named, entry.2.IsFinite

theorem Attribute.IsFinite.isFinite_ofAttribute {marker : Attribute} (finite : marker.IsFinite) :
    (AttributeRecord.ofAttribute marker).IsFinite := by
  refine ⟨List.forall_mem_map.mpr fun value given => (finite.1 value given).isFinite_toJson, ?_⟩
  intro entry shown
  obtain ⟨given, listed, rfl⟩ := List.mem_map.mp ((firstOfEachFrom_sublist _ _ _).mem shown)
  exact (finite.2 given listed).isFinite_toJson

/-- All attributes that the record of a type shows. -/
def Index.allAttributes (index : Index) (symbol : TypeSymbol) : List Attribute :=
  symbol.attributes ++
    (index.allMembers symbol).flatMap fun member =>
      member.attributes ++ index.inheritedAttributes member

theorem Index.allAttributes_describeType (index : Index) (settings : Settings)
    (symbol : TypeSymbol) : (index.describeType settings symbol).allAttributes =
      (index.allAttributes symbol).map AttributeRecord.ofAttribute := by
  simp [TypeRecord.allAttributes, allAttributes, describeType, describeMember, List.map_flatMap,
    List.flatMap_map]

namespace Environment

variable (environment : Environment) (prepared : Prepared) (workers : Int)
  (serializableOnly : Bool) (out : Path)

/-! ## Extracted lines -/

variable {environment prepared workers} in
theorem exists_modules_of_load {program : Program}
    (loaded : environment.load prepared workers = .ok program) :
    ∃ modules, program.index = (Program.ofModules modules).index := by
  rw [load, loadProgram] at loaded
  cases given : loadModules (.absolute prepared.root)
      ((environment.root.at? prepared.root).getD (.directory [])) prepared.package workers with
  | error failure => simp [given, Except.map] at loaded
  | ok modules =>
      rw [given] at loaded
      exact ⟨modules, by rw [← Except.ok.inj loaded]⟩

variable {environment prepared workers} in
/-- What a program describes is always valid. -/
theorem records_of_load {program : Program}
    (loaded : environment.load prepared workers = .ok program) :
    environment.records prepared workers serializableOnly =
      .ok ((program.index.describe prepared.settings serializableOnly).map
        fun record => record.toJson.sorted, program.notices) := by
  obtain ⟨modules, index⟩ := exists_modules_of_load loaded
  have valid := validate_of_wellFormed
    (Program.nodup_fqns_describe modules prepared.settings serializableOnly)
    (Program.wellFormed_describe modules prepared.settings serializableOnly)
  rw [← index] at valid
  rw [records_eq, loaded]
  simp only [valid]

variable {environment prepared workers serializableOnly} in
/-- Records are those of a program that is loaded. -/
theorem exists_program_of_records {records : List Json} {notices : List Notice}
    (given : environment.records prepared workers serializableOnly = .ok (records, notices)) :
    ∃ program, environment.load prepared workers = .ok program ∧
      records = (program.index.describe prepared.settings serializableOnly).map
        fun record => record.toJson.sorted := by
  cases loaded : environment.load prepared workers with
  | error failure =>
      rw [records_eq, loaded] at given
      contradiction
  | ok program =>
      rw [records_of_load serializableOnly loaded] at given
      exact ⟨program, rfl, (Prod.mk.inj (Except.ok.inj given)).1.symm⟩

/-- The file of an extraction that does not fail holds one line for each described type. -/
theorem lines_of_extract {notices : List Notice}
    (inside : environment.root.standing environment.current = .directory)
    (success : (environment.extract prepared workers serializableOnly out).outcome =
      .ok notices) :
    ∃ program text, environment.load prepared workers = .ok program ∧
      (environment.extract prepared workers serializableOnly out).root.standing
        (environment.recordsPlace out) = .file text.toUTF8 ∧
      Text.splitAt '\n' text =
        (program.index.describedTypes prepared.settings serializableOnly).map (fun symbol =>
          (program.index.describeType prepared.settings symbol).toJson.sorted.write) ++ [""] := by
  rcases environment.extract_cases prepared workers serializableOnly out inside with
    ⟨fault, _, ended⟩ | ⟨records, found, written, given, emission, ended⟩
  · rw [ended] at success
    contradiction
  · rw [ended] at success ⊢
    have complete : written.complete = true := by
      by_contra incomplete
      simp [incomplete] at success
    obtain ⟨recordsWritten, -⟩ := emission.of_complete complete
    obtain ⟨program, loaded, same⟩ := exists_program_of_records given
    rw [same] at recordsWritten
    refine ⟨program, _, loaded, recordsWritten, ?_⟩
    rw [splitAt_linesOf, Index.describe, List.map_map, List.map_map]
    rfl

/-- **Which lines are standard.** After an extraction that does not fail, the line of a type is a
text of the standard grammar exactly when its record shows finite numbers alone, which it does when
the literals of its attributes have no others. -/
theorem extracted_lines {notices : List Notice}
    (inside : environment.root.standing environment.current = .directory)
    (success : (environment.extract prepared workers serializableOnly out).outcome =
      .ok notices) :
    ∃ program text lines, environment.load prepared workers = .ok program ∧
      (environment.extract prepared workers serializableOnly out).root.standing
        (environment.recordsPlace out) = .file text.toUTF8 ∧
      Text.splitAt '\n' text = lines ++ [""] ∧
      List.Forall₂ (fun line symbol =>
        (Json.IsStandard line ↔
          ∀ marker ∈ (program.index.describeType prepared.settings symbol).allAttributes,
            marker.IsFinite) ∧
        ((∀ marker ∈ program.index.allAttributes symbol, marker.IsFinite) →
          Json.IsStandard line)) lines
        (program.index.describedTypes prepared.settings serializableOnly) := by
  obtain ⟨program, text, loaded, stands, split⟩ :=
    environment.lines_of_extract prepared workers serializableOnly out inside success
  refine ⟨program, text, _, loaded, stands, split, ?_⟩
  rw [List.forall₂_map_left_iff, List.forall₂_same]
  intro symbol _
  have standard := (Json.isStandard_write_iff _).trans ((Json.isFinite_sorted _).trans
    (program.index.describeType prepared.settings symbol).isFinite_toJson_iff)
  refine ⟨standard, fun finite => standard.mpr ?_⟩
  rw [Index.allAttributes_describeType, List.forall_mem_map]
  exact fun marker shown => (finite marker shown).isFinite_ofAttribute

namespace Sample

/-- A package of one module with a text. -/
def packageOf (text : String) : Environment where
  root := .directory [("e", .directory [("__init__.py", textFile text)])]
  current := []
  searchPath := []
  time := "2024-01-01T00:00:00+00:00"

/-- What is loaded from a package of one module. -/
def loaded (text : String) : Option Program := ((packageOf text).load target 1).toOption

theorem loaded_eq (text : String) : loaded text =
    (loadProgram (.absolute ["e"]) (.directory [("__init__.py", textFile text)]) "e" 1).toOption :=
  rfl

theorem discover_packageOf (text : String) :
    (FileNode.directory [("__init__.py", textFile text)]).discover =
      [(["__init__.py"], textFile text)] := List.mergeSort_singleton _

theorem load_of_loaded {text : String} {program : Program} (found : loaded text = some program) :
    (packageOf text).load target 1 = .ok program :=
  eq_ok_of_toOption found

/-- The extraction of a package that is loaded does not fail. -/
theorem exists_notices_of_loaded {text : String} {program : Program}
    (found : loaded text = some program) :
    ∃ notices, ((packageOf text).extract target 1 false build).outcome = .ok notices := by
  rw [extract, records_of_load false (load_of_loaded found)]
  exact ⟨_, rfl⟩

/-- A class with an attribute that has arguments of many kinds. -/
def manyArguments : String :=
  "@f(1, -2.5, 'é', b'x', 2j, {1: [None, (True, ...)]}, k={3})\nclass A: pass\n"

/-- A class with an attribute that has an argument out of the range of floating-point numbers. -/
def infiniteArgument : String := "@f(1e999)\nclass A: pass\n"

end Sample

theorem extracted_lines_of_package :
    ∃ notices,
      (Sample.packageOf Sample.manyArguments).root.standing [] = .directory ∧
      ((Sample.packageOf Sample.manyArguments).extract Sample.target 1 false
        Sample.build).outcome = .ok notices ∧
      ∃ program text lines,
        (Sample.packageOf Sample.manyArguments).load Sample.target 1 = .ok program ∧
        ((Sample.packageOf Sample.manyArguments).extract Sample.target 1 false
          Sample.build).root.standing ["build", "types.jsonl"] = .file text.toUTF8 ∧
        Text.splitAt '\n' text = lines ++ [""] ∧
        lines.length = (program.index.describedTypes {} false).length := by
  have evaluated : (Sample.loaded Sample.manyArguments).isSome = true := by
    rw [Sample.loaded_eq, loadProgram, loadModules, readSources, Sample.discover_packageOf]
    decide +kernel
  obtain ⟨program, found⟩ := Option.isSome_iff_exists.mp evaluated
  obtain ⟨notices, success⟩ := Sample.exists_notices_of_loaded found
  obtain ⟨program, text, lines, loaded, stands, split, standard⟩ :=
    extracted_lines _ Sample.target 1 false Sample.build rfl success
  exact ⟨notices, rfl, success, program, text, lines, loaded, stands, split, standard.length_eq⟩

/-- An attribute with an infinite argument gives a line that is not standard. -/
theorem infinite_arguments_are_not_standard :
    ¬ ∀ (environment : Environment) (prepared : Prepared) (workers : Int)
      (serializableOnly : Bool) (out : Path) (notices : List Notice) (text : String)
      (lines : List String),
      environment.root.standing environment.current = .directory →
      (environment.extract prepared workers serializableOnly out).outcome = .ok notices →
      (environment.extract prepared workers serializableOnly out).root.standing
        (environment.recordsPlace out) = .file text.toUTF8 →
      Text.splitAt '\n' text = lines ++ [""] → ∀ line ∈ lines, Json.IsStandard line := by
  intro always
  have evaluated : (Sample.loaded Sample.infiniteArgument).map (fun program =>
      (program.index.describedTypes {} false).any fun symbol =>
        (program.index.describeType {} symbol).allAttributes.any fun marker =>
          marker.arguments.any fun value =>
            match value with
            | .float number => !number.isFinite
            | _ => false) = some true := by
    rw [Sample.loaded_eq, loadProgram, loadModules, readSources, Sample.discover_packageOf]
    decide +kernel
  obtain ⟨program, found, infinite⟩ := Option.map_eq_some_iff.mp evaluated
  obtain ⟨notices, success⟩ := Sample.exists_notices_of_loaded found
  obtain ⟨other, text, loaded, stands, split⟩ :=
    lines_of_extract _ Sample.target 1 false Sample.build rfl success
  obtain rfl := Except.ok.inj ((Sample.load_of_loaded found).symm.trans loaded)
  simp only [List.any_eq_true] at infinite
  obtain ⟨symbol, described, marker, shown, value, given, infinite⟩ := infinite
  have standard := always _ _ _ _ _ notices text _ rfl success stands split _
    (List.mem_map_of_mem described)
  have finite := (Json.isFinite_sorted _).mp ((Json.isStandard_write_iff _).mp standard)
  have isFinite := (((TypeRecord.isFinite_toJson_iff _).mp finite) marker shown).1 value given
  cases isFinite with
  | float isFinite => simp [isFinite] at infinite
  | _ => simp at infinite

end Environment

end TypeCatalog
