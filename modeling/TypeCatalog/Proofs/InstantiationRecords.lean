import TypeCatalog.Proofs.RecordComposition

/-! # Records of instantiations

An instantiation of a declared class shares the base and the members of the class, so their records
show the same ancestors and the same members, inherited or not. Attributes are not shared: where an
attribute tells which types are serializable, an instantiation is not, whatever its class carries
(`TypeCatalog.Program.describeType_of_instantiation`).
-/

namespace TypeCatalog

namespace Index

variable {index : Index}

/-- What a type derives from is read off the chain of its bases. -/
theorem derivesFrom_congr {left right : TypeSymbol} (same : left.key? = right.key?)
    (definition : String) : index.derivesFrom left definition = index.derivesFrom right definition := by
  rw [derivesFrom, derivesFrom, findAncestor?, findAncestor?, ancestors_congr same]

/-- The record of a member shows of the type that is described only the name under which members
are declared. -/
theorem describeMember_congr (settings : Settings) {left right : TypeSymbol}
    (same : left.declaringName = right.declaringName) :
    index.describeMember settings left = index.describeMember settings right := by
  funext member
  rw [describeMember, describeMember, same]

/-! ## Serializable types -/

theorem serializable_describeType (settings : Settings) (symbol : TypeSymbol) :
    (index.describeType settings symbol).serializable = index.isSerializable settings symbol := rfl

theorem isSerializable_of_typeAttribute {settings : Settings} {name : String}
    (rootless : settings.rootBase = none) (marking : settings.typeAttribute = some name)
    (symbol : TypeSymbol) :
    index.isSerializable settings symbol = (symbol.findAttribute? name).isSome := by
  rw [isSerializable, rootless, marking]

/-- Types with one key are serializable alike, unless an attribute decides and one of them carries it
and the other does not. -/
theorem isSerializable_congr {settings : Settings} {left right : TypeSymbol}
    (same : left.key? = right.key?)
    (marked : settings.rootBase = none → ∀ name ∈ settings.typeAttribute,
      (left.findAttribute? name).isSome = (right.findAttribute? name).isSome) :
    index.isSerializable settings left = index.isSerializable settings right := by
  rw [isSerializable, isSerializable]
  cases rooted : settings.rootBase with
  | some root => exact derivesFrom_congr same root
  | none =>
      cases marking : settings.typeAttribute with
      | some name => exact marked rooted name marking
      | none => rfl

end Index

namespace TypeSymbol

/-- Instantiations carry no attributes. -/
theorem findAttribute?_instantiation (definition : Option String) (arguments : List TypeSymbol)
    (external : Bool) (name : String) :
    (instantiation definition arguments external).findAttribute? name = none := by
  rw [findAttribute?]
  split <;> rfl

end TypeSymbol

namespace Program

/-- **Records of instantiations.** In the program of any modules an instantiation of a declared class
has the ancestors and the members of the class in its record, whatever its arguments are. It counts
as serializable when the class does, unless an attribute decides and the class carries it. -/
theorem describeType_of_instantiation (sources : List SourceModule) (settings : Settings) :
    let index := (ofModules sources).index
    let record := index.describeType settings
    ∀ fqn symbol, index.lookupType? fqn = some symbol → ∀ arguments external,
      let constructed := TypeSymbol.instantiation (some fqn) arguments external
      (record constructed).ancestors = (record symbol).ancestors ∧
      (record constructed).members = (record symbol).members ∧
      ((record constructed).serializable = (record symbol).serializable ↔
        (settings.rootBase = none → ∀ name ∈ settings.typeAttribute,
          symbol.findAttribute? name = none)) ∧
      (settings.rootBase = none → ∀ name ∈ settings.typeAttribute,
        (record constructed).serializable = false ∧
          (record symbol).serializable = (symbol.findAttribute? name).isSome) := by
  intro index record fqn symbol declared arguments external constructed
  obtain ⟨named, declaring⟩ := key?_of_lookupType? sources declared
  have nonempty : fqn ≠ "" := by
    obtain ⟨entry, _, rfl, _⟩ := exists_entry_of_lookupType? sources declared
    exact entry.fqn_ne_empty
  have same : constructed.key? = symbol.key? := named.symm
  have owner : constructed.declaringName = symbol.declaringName :=
    (TypeSymbol.declaringName_of_definition rfl nonempty).trans declaring.symm
  have byAttribute : settings.rootBase = none → ∀ name ∈ settings.typeAttribute,
      (record constructed).serializable = false ∧
        (record symbol).serializable = (symbol.findAttribute? name).isSome := by
    intro rootless name marking
    refine ⟨?_, Index.isSerializable_of_typeAttribute rootless marking symbol⟩
    rw [Index.serializable_describeType,
      Index.isSerializable_of_typeAttribute rootless marking, TypeSymbol.findAttribute?_instantiation,
      Option.isSome_none]
  refine ⟨?_, ?_, ?_, ?_⟩
  · rw [Index.ancestors_describeType, Index.ancestors_describeType, Index.ancestors_congr same]
  · rw [Index.members_describeType, Index.members_describeType, Index.allMembers_congr same,
      Index.describeMember_congr settings owner]
  · constructor
    · intro alike rootless name marking
      obtain ⟨unmarked, marked⟩ := byAttribute rootless name marking
      rw [← Option.not_isSome_iff_eq_none, ← marked, ← alike, unmarked]
      exact Bool.false_ne_true
    · intro unmarked
      refine Index.isSerializable_congr same fun rootless name marking => ?_
      rw [TypeSymbol.findAttribute?_instantiation, unmarked rootless name marking]
  · exact byAttribute

end Program

/-! ## A decorated class -/

namespace Sample

open Syntax

/-- A class with a decorator and a field, and a class that derives from it. -/
def decorated : SourceModule where
  path := "m.py"
  name := "m"
  module := ⟨[
    .classStatement ⟨⟨2, 0⟩, a, [name 1 x], []⟩
      (.indented [.line [.annotated (name 3 x) (name 3 b) none]]),
    classOn 4 b [name 4 a] (.inline [])], by decide +kernel⟩

end Sample

namespace Program

/-- An instantiation of the class that derives from the decorated one inherits its field and derives
from it as well. -/
theorem describeType_of_decorated :
    let index := (ofModules [Sample.decorated]).index
    let record := index.describeType { rootBase := some "m.A" }
    let constructed := TypeSymbol.instantiation (some "m.B") [.externalType "builtins.int"] false
    ∃ symbol, index.lookupType? "m.B" = some symbol ∧
      (record constructed).ancestors = (record symbol).ancestors ∧
      (record symbol).ancestors = ["m.A"] ∧
      (record constructed).members = (record symbol).members ∧
      (record symbol).members.map MemberRecord.inherited = [true] ∧
      (record constructed).serializable = (record symbol).serializable ∧
      (record constructed).serializable = true := by
  intro index record constructed
  have shown : ((index.lookupType? "m.B").map fun symbol =>
      ((record symbol).ancestors, (record symbol).members.map MemberRecord.inherited)) =
        some (["m.A"], [true]) := by decide +kernel
  obtain ⟨symbol, looked, parts⟩ := Option.map_eq_some_iff.mp shown
  obtain ⟨ancestors, inherited⟩ := Prod.mk.inj parts
  obtain ⟨sameAncestors, sameMembers, alike, _⟩ :=
    describeType_of_instantiation [Sample.decorated] { rootBase := some "m.A" } _ symbol looked
      [.externalType "builtins.int"] false
  have rooted : (record constructed).serializable = (record symbol).serializable :=
    alike.mpr fun rootless => absurd rootless (Option.some_ne_none _)
  exact ⟨symbol, looked, sameAncestors, ancestors, sameMembers, inherited, rooted,
    by decide +kernel⟩

/-- Where an attribute tells which types are serializable, an instantiation of a class that carries
it is not one of them. -/
theorem instantiations_carry_no_attributes :
    ¬ ∀ (sources : List SourceModule) (settings : Settings) (fqn : String) (symbol : TypeSymbol),
      (ofModules sources).index.lookupType? fqn = some symbol → ∀ arguments external,
        let record := (ofModules sources).index.describeType settings
        let constructed := TypeSymbol.instantiation (some fqn) arguments external
        (record constructed).ancestors = (record symbol).ancestors ∧
        (record constructed).members = (record symbol).members ∧
        (record constructed).serializable = (record symbol).serializable := by
  intro shared
  have marked : (((ofModules [Sample.decorated]).index.lookupType? "m.A").map fun symbol =>
      ((ofModules [Sample.decorated]).index.describeType { typeAttribute := some "x" }
        symbol).serializable) = some true := by decide +kernel
  obtain ⟨symbol, looked, serializable⟩ := Option.map_eq_some_iff.mp marked
  obtain ⟨_, _, alike⟩ :=
    shared [Sample.decorated] { typeAttribute := some "x" } "m.A" symbol looked [] false
  rw [serializable] at alike
  exact absurd alike (by decide +kernel)

end Program

end TypeCatalog
