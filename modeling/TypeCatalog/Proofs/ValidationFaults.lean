import Mathlib.Data.List.ReduceOption
import TypeCatalog.Proofs.RecordValidation
import TypeCatalog.Proofs.SchemaKeywords

/-! # Faults of records

Validation reports each record that repeats the key of an earlier one, and of the others each record
that does not meet the document of records, in their order and with their keys. Where there is
nothing to report all records are valid, and each is read back as the same value
(`TypeCatalog.validate_reports`).
-/

namespace TypeCatalog

instance : DecidablePred RecordDocument.typeRecord := fun record =>
  decidable_of_iff _ (Schema.expresses_typeRecord record)

/-- A record that meets the document is read back from its text with sorted members. -/
theorem conformingCopy?_of_proper {record : Json} (proper : record.Proper) :
    conformingCopy? record =
      if RecordDocument.typeRecord record then some record.sorted else none := by
  have alike := Schema.conforms_of_same Schema.typeRecord (Json.same_sorted proper)
  rw [conformingCopy?, Json.read?_write proper, Option.filter_some, alike]
  simp only [Schema.expresses_typeRecord record]

/-! ## Faults behind other records -/

/-- What is wrong with a record behind earlier ones. -/
def faultBehind? (earlier : List Json) (record : Json) : Option RecordFault :=
  if recordKey record ∈ earlier.map recordKey then some (.duplicate (recordKey record))
  else if RecordDocument.typeRecord record then none
  else some (.nonconforming (recordKey record))

/-- The faults of records behind earlier ones, in the order of the records. -/
def faultsBehind (earlier records : List Json) : List RecordFault :=
  (records.mapIdx fun place record =>
    faultBehind? (earlier ++ records.take place) record).reduceOption

theorem faultsBehind_cons (earlier : List Json) (record : Json) (rest : List Json) :
    faultsBehind earlier (record :: rest) =
      (faultBehind? earlier record).toList ++ faultsBehind (earlier ++ [record]) rest := by
  have later : (rest.mapIdx fun place other =>
      faultBehind? (earlier ++ (record :: rest).take (place + 1)) other) =
        rest.mapIdx fun place other =>
          faultBehind? (earlier ++ [record] ++ rest.take place) other := by
    simp only [List.take_succ_cons, List.append_assoc, List.singleton_append]
  rw [faultsBehind, List.mapIdx_cons, List.take_zero, List.append_nil, later, faultsBehind]
  cases faultBehind? earlier record with
  | none => rw [List.reduceOption_cons_of_none, Option.toList_none, List.nil_append]
  | some fault => rw [List.reduceOption_cons_of_some, Option.toList_some, List.singleton_append]

theorem faultBehind?_eq_none_iff (earlier : List Json) (record : Json) :
    faultBehind? earlier record = none ↔
      recordKey record ∉ earlier.map recordKey ∧ RecordDocument.typeRecord record := by
  rw [faultBehind?]
  split_ifs with repeated meets
  · simp [repeated]
  · simp [repeated, meets]
  · simp [meets]

/-- Nothing is reported exactly when no key repeats and each record meets the document. -/
theorem faultsBehind_eq_nil_iff (earlier records : List Json) :
    faultsBehind earlier records = [] ↔
      (∀ record ∈ records, recordKey record ∉ earlier.map recordKey) ∧
        (records.map recordKey).Nodup ∧
          ∀ record ∈ records, RecordDocument.typeRecord record := by
  induction records generalizing earlier with
  | nil => simp [faultsBehind, List.reduceOption]
  | cons record rest ih =>
      have unseen : (∀ other ∈ rest, recordKey other ∉ (earlier ++ [record]).map recordKey) ↔
          (∀ other ∈ rest, recordKey other ∉ earlier.map recordKey) ∧
            recordKey record ∉ rest.map recordKey := by
        simp only [List.map_append, List.mem_append, not_or, forall₂_and, List.map_cons,
          List.map_nil, List.mem_singleton]
        refine and_congr_right fun _ => ?_
        simp only [List.mem_map, not_exists, not_and]
      rw [faultsBehind_cons, List.append_eq_nil_iff, Option.toList_eq_nil_iff,
        faultBehind?_eq_none_iff, ih, unseen, List.forall_mem_cons, List.map_cons,
        List.nodup_cons, List.forall_mem_cons]
      tauto

/-! ## Outcomes of a run -/

/-- A run over records behind earlier ones, whose keys it has seen, has their faults as errors. -/
theorem errorsOf_outcomesAfter {seen : List String} {earlier records : List Json}
    (sees : ∀ key, key ∈ seen ↔ key ∈ earlier.map recordKey)
    (proper : ∀ record ∈ records, record.Proper) :
    errorsOf (outcomesAfter seen records) = faultsBehind earlier records := by
  induction records generalizing seen earlier with
  | nil => rfl
  | cons record rest ih =>
      rw [List.forall_mem_cons] at proper
      have copy := conformingCopy?_of_proper proper.1
      rw [outcomesAfter, faultsBehind_cons, faultBehind?]
      by_cases repeated : recordKey record ∈ earlier.map recordKey
      · -- a repeated key is not noted again
        have sees : ∀ key, key ∈ seen ↔ key ∈ (earlier ++ [record]).map recordKey := by
          intro key
          rw [sees, List.map_append, List.mem_append, List.map_singleton, List.mem_singleton]
          exact ⟨.inl, fun known => known.elim id fun same => same ▸ repeated⟩
        have known : seen.contains (recordKey record) = true := by
          simpa using (sees _).mpr (by simp)
        rw [if_pos repeated]
        simp only [known, if_true]
        exact congrArg _ (ih sees proper.2)
      · have unknown : seen.contains (recordKey record) = false := by
          simpa [sees] using repeated
        have sees : ∀ key, key ∈ recordKey record :: seen ↔
            key ∈ (earlier ++ [record]).map recordKey := by
          intro key
          simp [sees, or_comm]
        rw [if_neg repeated, ← ih sees proper.2]
        simp only [unknown, copy, Bool.false_eq_true, if_false]
        split_ifs <;> rfl

/-- Records with nothing to report are all read back, and what there is to report is all that is
given otherwise. -/
theorem validate_of_proper {records : List Json} (proper : ∀ record ∈ records, record.Proper) :
    validate records =
      if faultsBehind [] records = [] then .ok (records.map Json.sorted)
      else .error (faultsBehind [] records) := by
  split_ifs with faultless
  · obtain ⟨_, distinct, meet⟩ := (faultsBehind_eq_nil_iff [] records).mp faultless
    refine validate_of_copied distinct fun record listed => ?_
    rw [conformingCopy?_of_proper (proper record listed), if_pos (meet record listed)]
  · have errors : errorsOf (outcomesAfter [] records) = faultsBehind [] records :=
      errorsOf_outcomesAfter (fun _ => Iff.rfl) proper
    rw [validate, gather, errors]
    split
    · exact absurd ‹_› faultless
    · rfl

namespace Sample

/-- A record without a name, a record of a type whose name is the text of having none, and one that
has nothing but a name. -/
def faultyRecords : List Json :=
  [.object [],
    .object [("kind", .string "type"), ("fqn", .string "None"), ("location", .null),
      ("generic", .bool false), ("ancestors", .array []), ("serializable", .bool true),
      ("attributes", .array []), ("members", .array [])],
    .object [("fqn", .string "m.A")]]

end Sample

end TypeCatalog
