import TypeCatalog.Program.Members
import TypeCatalog.Proofs.LiteralValues
import TypeCatalog.Proofs.SameValues
import TypeCatalog.Record.Describe

/-! # Literal values as JSON

Whatever literal value is read from a source text, a record shows it by a value that can be written
and read back (`TypeCatalog.Literal.proper_toJson`): numbers that are read from digits are numbers,
and of the keys of a dictionary that are written alike one is kept. So it is with the arguments of
every attribute that the decorators or the metadata of a class body give
(`TypeCatalog.NameScope.proper_of_attributeOf?`).
-/

namespace TypeCatalog

open Syntax

namespace Literal

open Json (Proper)

/-! ## Values of values -/

theorem toJsonItems_eq_map (items : List Literal) : toJsonItems items = items.map toJson := by
  induction items with
  | nil => rfl
  | cons item rest ih => rw [toJsonItems, ih, List.map_cons]

theorem toJsonElements_eq_map (elements : List Literal) :
    toJsonElements elements = elements.map fun element => (display element, toJson element) := by
  induction elements with
  | nil => rfl
  | cons element rest ih => rw [toJsonElements, ih, List.map_cons]

theorem toJsonEntries_eq_map (entries : List (Literal × Literal)) :
    toJsonEntries entries = entries.map fun entry => (plainText entry.1, toJson entry.2) := by
  induction entries with
  | nil => rfl
  | cons entry rest ih => rw [toJsonEntries, ih, List.map_cons]

theorem proper_items {items : List Literal} (each : ∀ item ∈ items, (toJson item).Proper) :
    (Json.array (toJsonItems items)).Proper := by
  rw [toJsonItems_eq_map]
  exact .array (List.forall_mem_map.mpr each)

/-- The elements of a set are shown in another order. -/
theorem exists_element_of_mem_sortByDisplay {elements : List Literal} {item : Json}
    (listed : item ∈ sortByDisplay (toJsonElements elements)) :
    ∃ element ∈ elements, toJson element = item := by
  obtain ⟨pair, inOrder, rfl⟩ := List.mem_map.mp listed
  rw [List.mem_mergeSort, toJsonElements_eq_map] at inOrder
  obtain ⟨element, member, rfl⟩ := List.mem_map.mp inOrder
  exact ⟨element, member, rfl⟩

/-- Not all entries of a dictionary are shown. -/
theorem exists_entry_of_mem_uniqueMembers {entries : List (Literal × Literal)}
    {member : String × Json} (kept : member ∈ Json.uniqueMembers (toJsonEntries entries)) :
    ∃ entry ∈ entries, (plainText entry.1, toJson entry.2) = member := by
  have listed := Json.mem_of_mem_uniqueMembers kept
  rw [toJsonEntries_eq_map] at listed
  exact List.mem_map.mp listed

theorem proper_elements {elements : List Literal}
    (each : ∀ element ∈ elements, (toJson element).Proper) : (toJson (.set elements)).Proper := by
  refine .array fun item listed => ?_
  obtain ⟨element, member, rfl⟩ := exists_element_of_mem_sortByDisplay listed
  exact each element member

theorem proper_entries {entries : List (Literal × Literal)}
    (each : ∀ entry ∈ entries, (toJson entry.2).Proper) : (toJson (.dict entries)).Proper := by
  refine .object (Json.nodup_uniqueMembers _) fun member kept => ?_
  obtain ⟨entry, inEntries, rfl⟩ := exists_entry_of_mem_uniqueMembers kept
  exact each entry inEntries

theorem IsKey.proper_toJson {value : Literal} (isKey : IsKey value) : value.toJson.Proper := by
  induction isKey with
  | null => exact .null
  | bool value => exact .bool value
  | int value => exact .int value
  | float isNumber => exact .float isNumber
  | complex _ => exact .string _
  | string value => exact .string value
  | bytes _ => exact .string _
  | ellipsis => exact .string _
  | tuple _ proper => exact proper_items proper

theorem IsValue.proper_toJson {value : Literal} (isValue : IsValue value) :
    value.toJson.Proper := by
  induction isValue with
  | key isKey => exact isKey.proper_toJson
  | list _ proper => exact proper_items proper
  | tuple _ proper => exact proper_items proper
  | set keys => exact proper_elements fun element member => (keys element member).proper_toJson
  | dict _ _ proper => exact proper_entries proper

/-- What a record shows of a literal value can be written and read back. -/
theorem proper_toJson {text : String} {value : Literal} (read : read? text = some value) :
    value.toJson.Proper :=
  (isValue_of_read? read).proper_toJson

end Literal

/-! ## Attributes -/

/-- Attributes whose arguments a record shows by values that can be written and read back. -/
structure Attribute.Proper (marker : Attribute) : Prop where
  arguments : ∀ value ∈ marker.arguments, value.toJson.Proper
  named : ∀ entry ∈ marker.named, entry.2.toJson.Proper

namespace ArgumentReading

/-- What an argument gives is shown by a value that can be written and read back. -/
def Proper : ArgumentReading → Prop
  | .positional value => value.toJson.Proper
  | .named _ value => value.toJson.Proper
  | .skipped => True

theorem proper_of_ofArgument? {argument : Argument Expr} {reading : ArgumentReading}
    (read : ofArgument? argument = some reading) : reading.Proper := by
  cases argument with
  | positional expr =>
      rw [ofArgument?] at read
      split at read
      · rename_i literal value
        rw [← Option.some.inj read]
        exact Literal.proper_toJson value
      · rw [← Option.some.inj read]
        trivial
  | keyword name expr =>
      rw [ofArgument?] at read
      split at read
      · rename_i literal value
        rw [← Option.some.inj read]
        exact Literal.proper_toJson value
      · rw [← Option.some.inj read]
        trivial
  | starred _ => contradiction
  | doubleStarred _ => contradiction

theorem Proper.positional? {reading : ArgumentReading} (proper : reading.Proper)
    {value : Literal} (given : reading.positional? = some value) : value.toJson.Proper := by
  cases reading with
  | positional => exact Option.some.inj given ▸ proper
  | _ => contradiction

theorem Proper.named? {reading : ArgumentReading} (proper : reading.Proper)
    {entry : String × Literal} (given : reading.named? = some entry) : entry.2.toJson.Proper := by
  cases reading with
  | named => exact Option.some.inj given ▸ proper
  | _ => contradiction

end ArgumentReading

theorem proper_of_mem_argumentReadings {expr : Expr} {reading : ArgumentReading}
    (listed : reading ∈ argumentReadings expr) : reading.Proper := by
  rw [argumentReadings.eq_def] at listed
  split at listed
  · obtain ⟨argument, _, read⟩ := List.mem_filterMap.mp listed
    exact ArgumentReading.proper_of_ofArgument? read
  · exact absurd listed List.not_mem_nil

namespace NameScope

variable {scope : NameScope} {enclosing : List String} {locate : Place → Option Location}

theorem proper_of_attributeOf? {expr : Expr} {marker : Attribute}
    (read : scope.attributeOf? enclosing locate expr = some marker) : marker.Proper := by
  obtain ⟨fullName, _, rfl⟩ := Option.map_eq_some_iff.mp read
  constructor
  · intro value listed
    obtain ⟨reading, inReadings, given⟩ := List.mem_filterMap.mp listed
    exact (proper_of_mem_argumentReadings inReadings).positional? given
  · intro entry listed
    obtain ⟨reading, inReadings, given⟩ := List.mem_filterMap.mp listed
    exact (proper_of_mem_argumentReadings inReadings).named? given

theorem proper_of_mem_filterMap {exprs : List Expr} {marker : Attribute}
    (listed : marker ∈ exprs.filterMap (scope.attributeOf? enclosing locate)) : marker.Proper := by
  obtain ⟨expr, _, read⟩ := List.mem_filterMap.mp listed
  exact proper_of_attributeOf? read

theorem proper_of_mem_decoratorAttributes {decorators : List Expr} {marker : Attribute}
    (listed : marker ∈ scope.decoratorAttributes enclosing locate decorators) : marker.Proper :=
  proper_of_mem_filterMap (List.mem_filter.mp listed).1

end NameScope

end TypeCatalog
