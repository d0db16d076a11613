import Mathlib.Tactic.SplitIfs
import TypeCatalog.Literal.Reader

/-! # Values of literals

A set or dictionary that is read holds elements or keys that may be compared: numbers, texts, the
constants, and tuples of these. Whatever literal value is read from a source text is put together
from such values by lists, tuples, sets and dictionaries (`TypeCatalog.Literal.isValue_of_read?`),
and all of its numbers are numbers.
-/

namespace TypeCatalog

open Syntax

namespace Binary64

theorem isNotANumber_ofRank (negative : Bool) (rank : Nat) :
    (ofRank negative rank).isNotANumber = false := by
  rw [isNotANumber, decide_eq_false_iff_not, Nat.not_lt]
  exact Nat.min_le_right rank infiniteRank

theorem isNotANumber_ofDecimal (negative : Bool) (digits : Nat) (exponent : Int) :
    (ofDecimal negative digits exponent).isNotANumber = false := by
  rw [ofDecimal]
  split_ifs <;> exact isNotANumber_ofRank _ _

end Binary64

namespace Literal

/-! ## Elements and values -/

/-- The values that may be elements of a set or keys of a dictionary, and hold numbers only. -/
inductive IsKey : Literal → Prop
  | null : IsKey .null
  | bool (value : Bool) : IsKey (.bool value)
  | int (value : Int) : IsKey (.int value)
  | float {value : Binary64} (isNumber : value.isNotANumber = false) : IsKey (.float value)
  | complex {real imaginary : Binary64}
      (areNumbers : real.isNotANumber = false ∧ imaginary.isNotANumber = false) :
      IsKey (.complex real imaginary)
  | string (value : String) : IsKey (.string value)
  | bytes (value : List UInt8) : IsKey (.bytes value)
  | ellipsis : IsKey .ellipsis
  | tuple {items : List Literal} (each : ∀ item ∈ items, IsKey item) : IsKey (.tuple items)

/-- The values that literals have: sequences of any values, sets of elements, and dictionaries from
keys to any values. -/
inductive IsValue : Literal → Prop
  | key {value : Literal} (isKey : IsKey value) : IsValue value
  | list {items : List Literal} (each : ∀ item ∈ items, IsValue item) : IsValue (.list items)
  | tuple {items : List Literal} (each : ∀ item ∈ items, IsValue item) : IsValue (.tuple items)
  | set {elements : List Literal} (keys : ∀ element ∈ elements, IsKey element) :
      IsValue (.set elements)
  | dict {entries : List (Literal × Literal)} (keys : ∀ entry ∈ entries, IsKey entry.1)
      (values : ∀ entry ∈ entries, IsValue entry.2) : IsValue (.dict entries)

theorem IsValue.items {items : List Literal} (isValue : IsValue (.list items)) :
    ∀ item ∈ items, IsValue item := by
  cases isValue with
  | key isKey => exact nomatch isKey
  | list each => exact each

theorem IsValue.tupleItems {items : List Literal} (isValue : IsValue (.tuple items)) :
    ∀ item ∈ items, IsValue item := by
  cases isValue with
  | key isKey =>
      cases isKey with
      | tuple each => exact fun item member => .key (each item member)
  | tuple each => exact each

theorem IsValue.elements {elements : List Literal} (isValue : IsValue (.set elements)) :
    ∀ element ∈ elements, IsKey element := by
  cases isValue with
  | key isKey => exact nomatch isKey
  | set keys => exact keys

theorem IsValue.entries {entries : List (Literal × Literal)} (isValue : IsValue (.dict entries)) :
    (∀ entry ∈ entries, IsKey entry.1) ∧ ∀ entry ∈ entries, IsValue entry.2 := by
  cases isValue with
  | key isKey => exact nomatch isKey
  | dict keys values => exact ⟨keys, values⟩

theorem areHashable_iff {items : List Literal} :
    areHashable items = true ↔ ∀ item ∈ items, isHashable item = true := by
  induction items with
  | nil => simp [areHashable]
  | cons item rest ih => rw [areHashable, Bool.and_eq_true, ih, List.forall_mem_cons]

/-- Of the values of literals, those that may be elements hold no lists, sets and dictionaries. -/
theorem IsValue.isKey {value : Literal} (isValue : IsValue value)
    (hashable : isHashable value = true) : IsKey value := by
  induction isValue with
  | key isKey => exact isKey
  | tuple each ih =>
      exact .tuple fun item member => ih item member (areHashable_iff.mp hashable item member)
  | _ => exact nomatch hashable

/-! ## Sets and dictionaries -/

theorem mem_of_mem_insertElement {elements : List Literal} {element other : Literal}
    (listed : other ∈ insertElement elements element) : other ∈ elements ∨ other = element := by
  rw [insertElement] at listed
  split at listed
  · exact Or.inl listed
  · simpa using listed

theorem mem_of_mem_foldl_insertElement {elements known : List Literal} {other : Literal}
    (listed : other ∈ elements.foldl insertElement known) : other ∈ known ∨ other ∈ elements := by
  induction elements generalizing known with
  | nil => exact Or.inl listed
  | cons element rest ih =>
      rcases ih listed with inserted | later
      · rcases mem_of_mem_insertElement inserted with earlier | rfl
        · exact Or.inl earlier
        · exact Or.inr List.mem_cons_self
      · exact Or.inr (List.mem_cons_of_mem _ later)

/-- The values of a dictionary are those that were stored in it. -/
theorem values_insertEntry (holds : Literal → Prop) {entries : List (Literal × Literal)}
    {key value : Literal} (known : ∀ entry ∈ entries, holds entry.2) (stored : holds value) :
    ∀ entry ∈ insertEntry entries key value, holds entry.2 := by
  intro entry listed
  rw [insertEntry] at listed
  split at listed
  · obtain ⟨earlier, inEntries, rfl⟩ := List.mem_map.mp listed
    split
    · exact stored
    · exact known earlier inEntries
  · rcases List.mem_append.mp listed with earlier | last
    · exact known entry earlier
    · rw [List.mem_singleton.mp last]
      exact stored

theorem values_foldl_insertEntry (holds : Literal → Prop)
    {entries known : List (Literal × Literal)}
    (before : ∀ entry ∈ known, holds entry.2) (each : ∀ entry ∈ entries, holds entry.2) :
    ∀ entry ∈ entries.foldl (fun known entry => insertEntry known entry.1 entry.2) known,
      holds entry.2 := by
  induction entries generalizing known with
  | nil => exact before
  | cons entry rest ih =>
      exact ih (values_insertEntry holds before (each entry List.mem_cons_self))
        fun other listed => each other (List.mem_cons_of_mem _ listed)

theorem keys_insertEntry {entries : List (Literal × Literal)} {key value : Literal}
    (known : ∀ entry ∈ entries, IsKey entry.1) (isKey : IsKey key) :
    ∀ entry ∈ insertEntry entries key value, IsKey entry.1 := by
  intro entry listed
  rw [insertEntry] at listed
  split at listed
  · obtain ⟨earlier, inEntries, rfl⟩ := List.mem_map.mp listed
    split <;> exact known earlier inEntries
  · rcases List.mem_append.mp listed with earlier | last
    · exact known entry earlier
    · rw [List.mem_singleton.mp last]
      exact isKey

theorem keys_foldl_insertEntry {entries known : List (Literal × Literal)}
    (before : ∀ entry ∈ known, IsKey entry.1) (each : ∀ entry ∈ entries, IsKey entry.1) :
    ∀ entry ∈ entries.foldl (fun known entry => insertEntry known entry.1 entry.2) known,
      IsKey entry.1 := by
  induction entries generalizing known with
  | nil => exact before
  | cons entry rest ih =>
      exact ih (keys_insertEntry before (each entry List.mem_cons_self))
        fun other listed => each other (List.mem_cons_of_mem _ listed)

theorem isValue_of_checkedSet? {elements : List Literal} {value : Literal}
    (read : checkedSet? elements = some value) (each : ∀ element ∈ elements, IsValue element) :
    IsValue value := by
  rw [checkedSet?] at read
  split at read
  · rename_i hashable
    rw [← Option.some.inj read, setOf]
    refine .set fun element listed => ?_
    rcases mem_of_mem_foldl_insertElement listed with none | member
    · exact absurd none List.not_mem_nil
    · exact (each element member).isKey (areHashable_iff.mp hashable element member)
  · exact nomatch read

theorem isValue_of_checkedDict? {entries : List (Literal × Literal)} {value : Literal}
    (read : checkedDict? entries = some value)
    (each : ∀ entry ∈ entries, IsValue entry.1 ∧ IsValue entry.2) : IsValue value := by
  rw [checkedDict?] at read
  split at read
  · rename_i hashable
    rw [← Option.some.inj read, dictOf]
    refine .dict (keys_foldl_insertEntry (List.forall_mem_nil _) fun entry member => ?_)
      (values_foldl_insertEntry IsValue (List.forall_mem_nil _) fun entry member =>
        (each entry member).2)
    have inKeys : entry.1 ∈ entries.map Prod.fst := List.mem_map_of_mem member
    exact (each entry member).1.isKey (areHashable_iff.mp hashable entry.1 inKeys)
  · exact nomatch read

/-! ## Values that are read -/

theorem isKey_of_ofNumber? {spelling : String} {value : Literal}
    (read : ofNumber? spelling = some value) : IsKey value := by
  rw [ofNumber?] at read
  have isNumber : Binary64.zero.isNotANumber = false := Binary64.isNotANumber_ofRank false 0
  split at read
  iterate 6
    · rw [← Option.some.inj read]
      exact .int _
  · split_ifs at read
    · rw [← Option.some.inj read]
      exact .int _
    · split at read
      iterate 2
        · rw [← Option.some.inj read]
          exact .complex ⟨isNumber, Binary64.isNotANumber_ofDecimal _ _ _⟩
      · rw [← Option.some.inj read]
        exact .float (Binary64.isNotANumber_ofDecimal _ _ _)

theorem isKey_of_negate? {number value : Literal} (negated : negate? number = some value)
    (isKey : IsKey number) : IsKey value := by
  cases isKey with
  | int number =>
      rw [← Option.some.inj negated]
      exact .int _
  | float isNumber =>
      rw [← Option.some.inj negated]
      exact .float isNumber
  | complex areNumbers =>
      rw [← Option.some.inj negated]
      exact .complex areNumbers
  | _ => exact nomatch negated

theorem isKey_of_signedNumber? {expr : Expr} {value : Literal}
    (read : signedNumber? expr = some value) : IsKey value := by
  rw [signedNumber?.eq_def] at read
  split at read
  · exact isKey_of_ofNumber? read
  · exact isKey_of_ofNumber? read
  · obtain ⟨number, readNumber, negated⟩ := Option.bind_eq_some_iff.mp read
    exact isKey_of_negate? negated (isKey_of_ofNumber? readNumber)
  · exact nomatch read

theorem isNotANumber_addZero {number zeroTerm : Binary64} (isNumber : number.isNotANumber = false) :
    (number.addZero zeroTerm).isNotANumber = false := by
  unfold Binary64.addZero
  split <;> exact isNumber

theorem isNotANumber_of_realPart? {value : Literal} {real : Binary64} (isKey : IsKey value)
    (part : realPart? value = some real) : real.isNotANumber = false := by
  cases isKey with
  | int value =>
      rw [realPart?] at part
      split at part
      · rw [← Option.some.inj part]
        exact Binary64.isNotANumber_ofDecimal _ _ _
      · exact nomatch part
  | float isNumber => exact Option.some.inj part ▸ isNumber
  | _ => exact nomatch part

theorem isKey_of_complexSum? {operator : BinaryOperator} {left right : Expr} {value : Literal}
    (read : complexSum? operator left right = some value) : IsKey value := by
  rw [complexSum?] at read
  obtain ⟨number, readNumber, read⟩ := Option.bind_eq_some_iff.mp read
  obtain ⟨real, part, read⟩ := Option.bind_eq_some_iff.mp read
  have isNumber := isNotANumber_of_realPart? (isKey_of_signedNumber? readNumber) part
  split at read
  · obtain ⟨summand, readSummand, read⟩ := Option.bind_eq_some_iff.mp read
    have summandKey := isKey_of_ofNumber? readSummand
    split at read
    · cases summandKey with
      | complex areNumbers =>
          split at read
          · rw [← Option.some.inj read]
            exact .complex ⟨isNotANumber_addZero isNumber, areNumbers.2⟩
          · rw [← Option.some.inj read]
            exact .complex ⟨isNumber, isNotANumber_addZero areNumbers.2⟩
          · exact nomatch read
    · exact nomatch read
  · exact nomatch read

theorem isKey_of_constant? {identifier : Identifier} {value : Literal}
    (read : constant? identifier = some value) : IsKey value := by
  rw [constant?] at read
  split at read
  · exact Option.some.inj read ▸ .null
  · exact Option.some.inj read ▸ .bool true
  · exact Option.some.inj read ▸ .bool false
  · exact nomatch read

/-- Whether a value is a text, of characters or of bytes. -/
def IsText (value : Literal) : Prop :=
  (∃ text, value = .string text) ∨ ∃ bytes, value = .bytes bytes

theorem IsText.isKey {value : Literal} (isText : IsText value) : IsKey value := by
  rcases isText with ⟨text, rfl⟩ | ⟨bytes, rfl⟩
  · exact .string text
  · exact .bytes bytes

theorem isText_of_ofString? {spelling : String} {value : Literal}
    (read : ofString? spelling = some value) : IsText value := by
  have ofCodes : ∀ codes : List Nat, (if (partsOf spelling).isBytes then
      some (.bytes (codes.map Nat.toUInt8))
      else (codes.mapM Text.charOfCode?).bind fun characters =>
        some (.string (String.ofList characters))) = some value → IsText value := by
    intro codes read
    split at read
    · exact Or.inr ⟨_, (Option.some.inj read).symm⟩
    · obtain ⟨characters, _, read⟩ := Option.bind_eq_some_iff.mp read
      exact Or.inl ⟨_, (Option.some.inj read).symm⟩
  simp only [ofString?, Option.bind_eq_bind] at read
  split at read
  · contradiction
  · split at read
    all_goals
      obtain ⟨codes, _, read⟩ := Option.bind_eq_some_iff.mp read
      exact ofCodes codes read

theorem isText_of_concatenate? {left right value : Literal}
    (read : concatenate? left right = some value) : IsText value := by
  rw [concatenate?.eq_def] at read
  split at read
  · exact Or.inl ⟨_, (Option.some.inj read).symm⟩
  · exact Or.inr ⟨_, (Option.some.inj read).symm⟩
  · contradiction

theorem isText_of_foldlM_concatenate? {values : List Literal} {first value : Literal}
    (isText : IsText first) (read : values.foldlM concatenate? first = some value) :
    IsText value := by
  induction values generalizing first with
  | nil => exact Option.some.inj read ▸ isText
  | cons next rest ih =>
      rw [List.foldlM_cons] at read
      obtain ⟨both, joined, read⟩ := Option.bind_eq_some_iff.mp read
      exact ih (isText_of_concatenate? joined) read

theorem isText_of_joined? {parts : List Expr} {value : Literal}
    (read : joined? parts = some value) : IsText value := by
  rw [joined?] at read
  cases parts with
  | nil => contradiction
  | cons part parts =>
      obtain ⟨values, readParts, joined⟩ := Option.bind_eq_some_iff.mp read
      rw [List.mapM_cons] at readParts
      obtain ⟨first, readFirst, others⟩ := Option.bind_eq_some_iff.mp readParts
      obtain ⟨rest, _, same⟩ := Option.bind_eq_some_iff.mp others
      rw [← Option.some.inj same] at joined
      -- joining keeps to texts, so only the first part has to be one
      refine isText_of_foldlM_concatenate? ?_ joined
      split at readFirst
      · exact isText_of_ofString? readFirst
      · contradiction

-- One case for each form of expression that has a value; the others are closed by their equations.
mutual

theorem isValue_of_ofExpr? : ∀ {expr : Expr} {value : Literal}, ofExpr? expr = some value →
    IsValue value
  | .name _ _, _, read => .key (isKey_of_constant? read)
  | .ellipsis _, _, read => by
      rw [ofExpr?] at read
      exact Option.some.inj read ▸ .key .ellipsis
  | .number _ _, _, read => by
      rw [ofExpr?] at read
      exact .key (isKey_of_signedNumber? read)
  | .string _ _, _, read => .key (isText_of_ofString? read).isKey
  | .joined _ _, _, read => .key (isText_of_joined? read).isKey
  | .unary _ _ _, _, read => .key (isKey_of_signedNumber? read)
  | .binary _ _ _ _, _, read => .key (isKey_of_complexSum? read)
  | .tuple _ items, _, read => by
      obtain ⟨values, readItems, rfl⟩ := Option.map_eq_some_iff.mp read
      exact .tuple (isValue_of_ofExprs? readItems)
  | .list _ items, _, read => by
      obtain ⟨values, readItems, rfl⟩ := Option.map_eq_some_iff.mp read
      exact .list (isValue_of_ofExprs? readItems)
  | .set _ items, _, read => by
      obtain ⟨values, readItems, read⟩ := Option.bind_eq_some_iff.mp read
      exact isValue_of_checkedSet? read (isValue_of_ofExprs? readItems)
  | .dict _ entries, _, read => by
      obtain ⟨values, readEntries, read⟩ := Option.bind_eq_some_iff.mp read
      exact isValue_of_checkedDict? read (isValue_of_ofEntries? readEntries)
  | .call _ _ _, _, read => by
      rw [ofExpr?.eq_def] at read
      split at read
      all_goals try contradiction
      split at read
      · exact Option.some.inj read ▸ .set (List.forall_mem_nil _)
      · contradiction

theorem isValue_of_ofExprs? : ∀ {items : List Expr} {values : List Literal},
    ofExprs? items = some values → ∀ value ∈ values, IsValue value
  | [], _, read => by
      rw [← Option.some.inj read]
      exact List.forall_mem_nil _
  | item :: rest, _, read => by
      rw [ofExprs?] at read
      obtain ⟨first, readFirst, read⟩ := Option.bind_eq_some_iff.mp read
      obtain ⟨others, readOthers, read⟩ := Option.bind_eq_some_iff.mp read
      rw [← Option.some.inj read]
      exact List.forall_mem_cons.mpr ⟨isValue_of_ofExpr? readFirst, isValue_of_ofExprs? readOthers⟩

theorem isValue_of_ofEntries? : ∀ {entries : List (Entry Expr)} {values : List (Literal × Literal)},
    ofEntries? entries = some values → ∀ entry ∈ values, IsValue entry.1 ∧ IsValue entry.2
  | [], _, read => by
      rw [← Option.some.inj read]
      exact List.forall_mem_nil _
  | .pair key value :: rest, _, read => by
      rw [ofEntries?] at read
      obtain ⟨_, readKey, read⟩ := Option.bind_eq_some_iff.mp read
      obtain ⟨first, readFirst, read⟩ := Option.bind_eq_some_iff.mp read
      obtain ⟨others, readOthers, read⟩ := Option.bind_eq_some_iff.mp read
      rw [← Option.some.inj read]
      exact List.forall_mem_cons.mpr
        ⟨⟨isValue_of_ofExpr? readKey, isValue_of_ofExpr? readFirst⟩,
          isValue_of_ofEntries? readOthers⟩

end

theorem isValue_of_read? {text : String} {value : Literal} (read : read? text = some value) :
    IsValue value := by
  rw [read?] at read
  obtain ⟨_, _, read⟩ := Option.bind_eq_some_iff.mp read
  split at read
  · obtain ⟨expr, _, read⟩ := Option.bind_eq_some_iff.mp read
    exact isValue_of_ofExpr? read
  · exact nomatch read

end Literal

end TypeCatalog
