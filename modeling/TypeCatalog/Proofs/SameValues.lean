import Mathlib.Data.List.Forall2
import TypeCatalog.Proofs.JsonText
import TypeCatalog.Schema.TypeDescription

/-! # Equal JSON values

Objects are maps: two of them are the same value when they have the same value under every key
(`TypeCatalog.Json.Same`), in whatever order they list their members. What is read back from a text
is the same value as the one that was written (`TypeCatalog.Json.same_sorted`), and a schema judges
both alike (`TypeCatalog.Schema.conforms_of_same`).
-/

namespace TypeCatalog

namespace Json

/-- Being the same value. Numbers are the same only when they are written alike, with a fraction or
without, and what is no number is the same as nothing. -/
inductive Same : Json → Json → Prop
  | null : Same .null .null
  | bool (value : Bool) : Same (.bool value) (.bool value)
  | int (value : Int) : Same (.int value) (.int value)
  | float {value : Binary64} (isNumber : value.isNotANumber = false) :
      Same (.float value) (.float value)
  | string (value : String) : Same (.string value) (.string value)
  | array {left right : List Json} (items : List.Forall₂ Same left right) :
      Same (.array left) (.array right)
  | object {left right : List (String × Json)}
      (members : ∀ key,
        Option.Rel Same (member? (.object left) key) (member? (.object right) key)) :
      Same (.object left) (.object right)

theorem member?_of_perm {left right : List (String × Json)} (order : left.Perm right)
    (distinct : (left.map Prod.fst).Nodup) (key : String) :
    (Json.object left).member? key = right.lookup key := by
  have reversed : ((left.reverse).map Prod.fst).Nodup :=
    (left.reverse_perm.map Prod.fst).nodup_iff.mpr distinct
  exact lookup_of_perm (left.reverse_perm.trans order) reversed key

/-- Sorting does not change which value stands under a key. -/
theorem member?_sorted {members : List (String × Json)} (distinct : (members.map Prod.fst).Nodup)
    (key : String) :
    (sorted (.object members)).member? key = (members.lookup key).map sorted := by
  have keys : ((sortMembers (members.map fun entry => (entry.1, entry.2.sorted))).map
      Prod.fst).Nodup := by
    rw [((sortMembers_perm _).map Prod.fst).nodup_iff, List.map_map]
    exact distinct
  rw [sorted, sortedMembers_eq_map, member?_of_perm (sortMembers_perm _) keys, lookup_map_values]

theorem same_sorted_object {members : List (String × Json)}
    (distinct : (members.map Prod.fst).Nodup)
    (each : ∀ member ∈ members, Same member.2.sorted member.2) :
    Same (sorted (.object members)) (.object members) := by
  constructor
  intro key
  rw [← sorted, member?_sorted distinct, member?_of_perm (List.Perm.refl _) distinct]
  cases found : members.lookup key with
  | none => exact Option.Rel.none
  | some value => exact Option.Rel.some (each _ (mem_of_lookup found))

/-- Sorting the members of objects does not change a value. -/
theorem same_sorted {value : Json} (proper : Proper value) : Same value.sorted value := by
  induction proper with
  | null => exact .null
  | bool value => exact .bool value
  | int value => exact .int value
  | float isNumber => exact .float isNumber
  | string value => exact .string value
  | array _ same =>
      rw [sorted, sortedItems_eq_map]
      exact .array (List.forall₂_map_left_iff.mpr (List.forall₂_same.mpr same))
  | object distinct _ same => exact same_sorted_object distinct same

theorem Same.member? {left right : Json} (same : Same left right) (key : String) :
    Option.Rel Same (left.member? key) (right.member? key) := by
  cases same with
  | object members => exact members key
  | _ => exact Option.Rel.none

theorem isSome_eq_of_rel {first second : Option Json} (same : Option.Rel Same first second) :
    first.isSome = second.isSome := by
  cases same <;> rfl

theorem mem_keys_iff {members : List (String × Json)} {key : String} :
    key ∈ members.map Prod.fst ↔ ((Json.object members).member? key).isSome = true := by
  rw [member?, Json.members, ← List.mem_reverse, ← List.map_reverse]
  induction members.reverse with
  | nil => simp
  | cons entry rest ih =>
      rw [List.map_cons, List.mem_cons, List.lookup_cons, ih]
      by_cases first : key = entry.1
      · simp [first]
      · have differ : (key == entry.1) = false := by simpa using first
        simp [first, differ]

end Json

namespace Schema

open Json

theorem itemsConform_of_same {test : Json → Bool} {left right : Json} (same : Same left right)
    (each : ∀ {left right}, Same left right → test left = test right) :
    itemsConform test left = itemsConform test right := by
  cases same with
  | array items =>
      simp only [itemsConform]
      induction items with
      | nil => rfl
      | cons first _ ih => rw [List.all_cons, List.all_cons, each first, ih]
  | _ => rfl

theorem keysAreAmong_object (keys : List String) (members : List (String × Json)) :
    keysAreAmong keys (.object members) = true ↔
      ∀ key, ((Json.object members).member? key).isSome = true → key ∈ keys := by
  simp only [← mem_keys_iff, keysAreAmong, List.all_eq_true, List.contains_iff_mem, List.mem_map]
  constructor
  · rintro all key ⟨entry, listed, rfl⟩
    exact all entry listed
  · exact fun all entry listed => all entry.1 ⟨entry, listed, rfl⟩

theorem keysAreAmong_of_same (keys : List String) {left right : Json} (same : Same left right) :
    keysAreAmong keys left = keysAreAmong keys right := by
  cases same with
  | object members =>
      rw [Bool.eq_iff_iff, keysAreAmong_object, keysAreAmong_object]
      simp only [isSome_eq_of_rel (members _)]
  | _ => rfl

mutual

/-- A schema does not tell values apart that are the same. -/
theorem conforms_of_same : ∀ (schema : Schema) {left right : Json}, Same left right →
    schema.conforms left = schema.conforms right
  | .anyArray, _, _, same => itemsConform_of_same same fun _ => rfl
  | .anyObject, _, _, same => by cases same <;> rfl
  | .null, _, _, same => by cases same <;> rfl
  | .bool, _, _, same => by cases same <;> rfl
  | .text _, _, _, same => by cases same <;> rfl
  | .oneOfTexts _, _, _, same => by cases same <;> rfl
  | .integer _, _, _, same => by cases same <;> rfl
  | .textOrNull, _, _, same => by cases same <;> rfl
  | .array items, _, _, same => itemsConform_of_same same (conforms_of_same items)
  | .object members, _, _, same => by
      rw [conforms, conforms, keysAreAmong_of_same _ same, membersConform_of_same members same]
  | .exactlyOne first second, _, _, same => by
      rw [conforms, conforms, conforms_of_same first same, conforms_of_same second same]

theorem membersConform_of_same : ∀ (members : List (String × Schema)) {left right : Json},
    Same left right → membersConform members left = membersConform members right
  | [], _, _, _ => rfl
  | (key, schema) :: rest, left, right, same => by
      have value : (left.member? key).any schema.conforms =
          (right.member? key).any schema.conforms := by
        have members := same.member? key
        generalize left.member? key = first, right.member? key = second at members
        cases members with
        | none => rfl
        | some same => exact conforms_of_same schema same
      rw [membersConform, membersConform, value, membersConform_of_same rest same]

end

end Schema

end TypeCatalog
