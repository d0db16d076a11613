import TypeCatalog.Proofs.DistinctDisplays
import TypeCatalog.Proofs.LiteralRecords

/-! # Stable renderings of literal values

The elements of a set are shown in the order of their displays. Since different elements have
different displays, that order does not depend on the one in which the set lists them, and so a
record does not depend on the order of any set in its values
(`TypeCatalog.Literal.Reordered.toJson_eq`). What a record shows of a value is itself a value, and
shown as it is (`TypeCatalog.Literal.toJson_ofJson`).
-/

namespace TypeCatalog

namespace Literal

open Json (Proper)

/-! ## Orders of sets -/

theorem pairwise_mergeSort_fst (pairs : List (String × Json)) :
    (pairs.mergeSort fun left right => decide (left.1 ≤ right.1)).Pairwise
      fun left right => left.1 ≤ right.1 := by
  have ordered : (pairs.mergeSort fun left right => decide (left.1 ≤ right.1)).Pairwise
      fun left right => decide (left.1 ≤ right.1) = true := by
    apply List.pairwise_mergeSort
    · exact fun _ _ _ before after =>
        decide_eq_true (String.le_trans (of_decide_eq_true before) (of_decide_eq_true after))
    · intro left right
      simpa using String.le_total left.1 right.1
  exact ordered.imp of_decide_eq_true

/-- The elements of a set are shown in one order, however the set lists them. -/
theorem sortByDisplay_of_perm {elements others : List Literal}
    (keys : ∀ element ∈ elements, IsKey element) (order : elements.Perm others) :
    sortByDisplay (toJsonElements elements) = sortByDisplay (toJsonElements others) := by
  rw [toJsonElements_eq_map, toJsonElements_eq_map, sortByDisplay, sortByDisplay]
  refine congrArg _ (List.Perm.eq_of_pairwise ?_ (pairwise_mergeSort_fst _)
    (pairwise_mergeSort_fst _) ?_)
  · -- pairs with one display show one element
    intro left right inLeft inRight forth back
    obtain ⟨element, member, rfl⟩ := List.mem_map.mp (List.mem_mergeSort.mp inLeft)
    obtain ⟨other, otherMember, rfl⟩ := List.mem_map.mp (List.mem_mergeSort.mp inRight)
    have otherKey := keys other (order.mem_iff.mpr otherMember)
    rw [(keys element member).display_inj otherKey (String.le_antisymm forth back)]
  · exact (List.mergeSort_perm _ _).trans ((order.map _).trans (List.mergeSort_perm _ _).symm)

/-- Values that differ in the order of their sets only: one comes from the other by listing one of
its sets in another order, any number of times. -/
inductive Reordered : Literal → Literal → Prop
  | refl (value : Literal) : Reordered value value
  | trans {first second third : Literal} (front : Reordered first second)
      (back : Reordered second third) : Reordered first third
  | set {elements others : List Literal} (order : elements.Perm others) :
      Reordered (.set elements) (.set others)
  | list (front back : List Literal) {item other : Literal} (inner : Reordered item other) :
      Reordered (.list (front ++ item :: back)) (.list (front ++ other :: back))
  | tuple (front back : List Literal) {item other : Literal} (inner : Reordered item other) :
      Reordered (.tuple (front ++ item :: back)) (.tuple (front ++ other :: back))
  | dict (front back : List (Literal × Literal)) (key : Literal) {value other : Literal}
      (inner : Reordered value other) :
      Reordered (.dict (front ++ (key, value) :: back)) (.dict (front ++ (key, other) :: back))

namespace Reordered

variable {value other : Literal}

/-- A value stays one. -/
theorem isValue (reordered : Reordered value other) (isValue : IsValue value) : IsValue other := by
  induction reordered with
  | refl _ => exact isValue
  | trans _ _ front back => exact back (front isValue)
  | set order =>
      exact .set fun element member => isValue.elements element (order.mem_iff.mpr member)
  | list front back _ ih =>
      have each := isValue.items
      simp only [List.forall_mem_append, List.forall_mem_cons] at each
      refine .list ?_
      simp only [List.forall_mem_append, List.forall_mem_cons]
      exact ⟨each.1, ih each.2.1, each.2.2⟩
  | tuple front back _ ih =>
      have each := isValue.tupleItems
      simp only [List.forall_mem_append, List.forall_mem_cons] at each
      refine .tuple ?_
      simp only [List.forall_mem_append, List.forall_mem_cons]
      exact ⟨each.1, ih each.2.1, each.2.2⟩
  | dict front back key _ ih =>
      obtain ⟨keys, values⟩ := isValue.entries
      simp only [List.forall_mem_append, List.forall_mem_cons] at keys values
      refine .dict ?_ ?_ <;> simp only [List.forall_mem_append, List.forall_mem_cons]
      · exact keys
      · exact ⟨values.1, ih values.2.1, values.2.2⟩

/-- A record shows a value alike, in whatever order its sets list their elements. -/
theorem toJson_eq (reordered : Reordered value other) (isValue : IsValue value) :
    value.toJson = other.toJson := by
  induction reordered with
  | refl _ => rfl
  | trans front _ first second =>
      exact (first isValue).trans (second (front.isValue isValue))
  | set order =>
      rw [toJson, toJson, sortByDisplay_of_perm isValue.elements order]
  | list front back _ ih =>
      have inner := ih (isValue.items _ (List.mem_append_right _ List.mem_cons_self))
      simp only [toJson, toJsonItems_eq_map, List.map_append, List.map_cons, inner]
  | tuple front back _ ih =>
      have inner := ih (isValue.tupleItems _ (List.mem_append_right _ List.mem_cons_self))
      simp only [toJson, toJsonItems_eq_map, List.map_append, List.map_cons, inner]
  | dict front back key _ ih =>
      have inner := ih (isValue.entries.2 _ (List.mem_append_right _ List.mem_cons_self))
      simp only [toJson, toJsonEntries_eq_map, List.map_append, List.map_cons, inner]

end Reordered

/-! ## Rendering twice -/

mutual

/-- A JSON value as a literal value: arrays are lists, objects are dictionaries with texts as keys.
-/
def ofJson : Json → Literal
  | .null => .null
  | .bool value => .bool value
  | .int value => .int value
  | .float value => .float value
  | .string value => .string value
  | .array items => .list (ofJsonItems items)
  | .object members => .dict (ofJsonMembers members)

def ofJsonItems : List Json → List Literal
  | [] => []
  | item :: rest => ofJson item :: ofJsonItems rest

def ofJsonMembers : List (String × Json) → List (Literal × Literal)
  | [] => []
  | (key, value) :: rest => (.string key, ofJson value) :: ofJsonMembers rest

end

theorem ofJsonItems_eq_map (items : List Json) : ofJsonItems items = items.map ofJson := by
  induction items with
  | nil => rfl
  | cons item rest ih => rw [ofJsonItems, ih, List.map_cons]

theorem ofJsonMembers_eq_map (members : List (String × Json)) :
    ofJsonMembers members = members.map fun entry => (.string entry.1, ofJson entry.2) := by
  induction members with
  | nil => rfl
  | cons entry rest ih => rw [ofJsonMembers, ih, List.map_cons]

/-- A JSON value is shown as it is. -/
theorem toJson_ofJson {value : Json} (proper : Proper value) : (ofJson value).toJson = value := by
  induction proper with
  | null => rfl
  | bool value => rfl
  | int value => rfl
  | float _ => rfl
  | string value => rfl
  | @array items _ ih =>
      rw [ofJson, toJson, toJsonItems_eq_map, ofJsonItems_eq_map, List.map_map]
      exact congrArg _ ((List.map_congr_left ih).trans (List.map_id _))
  | @object members distinct _ ih =>
      rw [ofJson, toJson, toJsonEntries_eq_map, ofJsonMembers_eq_map, List.map_map]
      have same : ∀ member ∈ members, ((fun entry => (plainText entry.1, toJson entry.2)) ∘
          fun entry => (.string entry.1, ofJson entry.2)) member = member := fun member listed =>
        Prod.ext rfl (ih member listed)
      rw [(List.map_congr_left same).trans (List.map_id _), Json.uniqueMembers_of_nodup distinct]

end Literal

/-! ## Attributes -/

namespace Attribute

/-- Every argument of an attribute is a value. -/
def HoldsValues (marker : Attribute) : Prop :=
  (∀ value ∈ marker.arguments, value.IsValue) ∧ ∀ entry ∈ marker.named, entry.2.IsValue

/-- Attributes that differ in the order of sets in their arguments, and in where they stand. -/
structure Reordered (marker other : Attribute) : Prop where
  fullName : marker.fullName = other.fullName
  shortName : marker.shortName = other.shortName
  arguments : List.Forall₂ Literal.Reordered marker.arguments other.arguments
  named : List.Forall₂ (fun entry changed => entry.1 = changed.1 ∧
    Literal.Reordered entry.2 changed.2) marker.named other.named

theorem map_eq_of_forall₂ {α β : Type} {related : α → α → Prop} {shown : α → β}
    {lefts rights : List α} (lists : List.Forall₂ related lefts rights)
    (each : ∀ left ∈ lefts, ∀ right, related left right → shown left = shown right) :
    lefts.map shown = rights.map shown := by
  induction lists with
  | nil => rfl
  | cons first _ ih =>
      rw [List.map_cons, List.map_cons, each _ List.mem_cons_self _ first,
        ih fun left member => each left (List.mem_cons_of_mem _ member)]

/-- A record shows such attributes alike. -/
theorem Reordered.ofAttribute_eq {marker other : Attribute} (reordered : marker.Reordered other)
    (holds : marker.HoldsValues) :
    AttributeRecord.ofAttribute marker = AttributeRecord.ofAttribute other := by
  have arguments : marker.arguments.map Literal.toJson = other.arguments.map Literal.toJson :=
    map_eq_of_forall₂ reordered.arguments fun value member _ same =>
      same.toJson_eq (holds.1 value member)
  have named : (marker.named.map fun entry => (entry.1, entry.2.toJson)) =
      other.named.map fun entry => (entry.1, entry.2.toJson) :=
    map_eq_of_forall₂ reordered.named fun entry member _ same =>
      Prod.ext same.1 (same.2.toJson_eq (holds.2 entry member))
  simp only [AttributeRecord.ofAttribute, reordered.fullName, reordered.shortName, arguments, named]

end Attribute

namespace Literal

/-- An integer, a text and a tuple with an imaginary number, as a set lists them. -/
def someElements : List Literal :=
  [.int 2, .string "a'", .tuple [.bool true, .complex .zero .zero]]

/-- A list with a set in a dictionary. -/
def holdingSet (elements : List Literal) : Literal :=
  .list [.null, .dict [(.int 1, .set elements)]]

end Literal

end TypeCatalog
