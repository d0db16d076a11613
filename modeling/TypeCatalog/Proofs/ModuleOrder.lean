import TypeCatalog.Proofs.IndexAgreement
import TypeCatalog.Proofs.ModuleClasses
import TypeCatalog.Proofs.Overrides
import TypeCatalog.Proofs.ScopeAgreement

/-! # The order of modules

Declarations of the same classes give every class the same type, written base and members, since
each of these is read against tables that are complete. Where no written bases run in a cycle, the
indexes agree, so programs of the same modules in two orders describe every class alike
(`TypeCatalog.Program.agrees_of_perm`). Cycles are left out because they are cut where the first
class enters them, which depends on the order.
-/

namespace TypeCatalog

namespace Declarations

/-- Declarations of the same classes, in any order and whatever the numbers of their units. -/
def SameClasses (left right : Declarations) : Prop :=
  (left.classes.map ClassEntry.unnumbered).Perm (right.classes.map ClassEntry.unnumbered)

namespace SameClasses

variable {left right : Declarations}

/-- What does not depend on the numbers of units is the same for the classes of both. -/
theorem map_perm {β : Type} (same : left.SameClasses right) (view : ClassEntry → β)
    (unnumbered : ∀ entry, view entry.unnumbered = view entry) :
    (left.classes.map view).Perm (right.classes.map view) := by
  have through : ∀ entries : List ClassEntry,
      entries.map view = (entries.map ClassEntry.unnumbered).map view := by
    intro entries
    rw [List.map_map]
    exact List.map_congr_left fun entry _ => (unnumbered entry).symm
  rw [through left.classes, through right.classes]
  exact List.Perm.map view same

theorem fqns (same : left.SameClasses right) : left.fqns.Perm right.fqns :=
  same.map_perm ClassEntry.fqn fun _ => rfl

theorem nameScope (same : left.SameClasses right) (unit : SourceUnit) :
    (left.nameScope unit).Agrees (right.nameScope unit) :=
  ⟨fun _ => same.fqns.mem_iff, rfl, rfl⟩

/-! ## Types -/

theorem declaredType (same : left.SameClasses right) :
    left.declaredType = right.declaredType := by
  funext entry
  rw [Declarations.declaredType, Declarations.declaredType,
    (same.nameScope entry.unit).decoratorAttributes]

theorem types (same : left.SameClasses right) : left.types.Same right.types := by
  have entries := same.map_perm (fun entry => (entry.fqn, left.declaredType entry)) fun _ => rfl
  have rightEntries : right.types.entries =
      right.classes.map fun entry => (entry.fqn, left.declaredType entry) := by
    rw [same.declaredType]
    rfl
  intro key
  ext symbol
  rw [Table.find?_eq_some_iff, Table.find?_eq_some_iff, rightEntries]
  exact entries.mem_iff

theorem typeScope (same : left.SameClasses right) (unit : SourceUnit) :
    (left.typeScope left.types unit).Agrees (right.typeScope right.types unit) :=
  ⟨same.nameScope unit, same.types⟩

/-! ## Bases -/

theorem writtenBase? (same : left.SameClasses right) :
    left.writtenBase? left.types = right.writtenBase? right.types := by
  funext entry
  rw [Declarations.writtenBase?, Declarations.writtenBase?, (same.typeScope entry.unit).typeOf]

theorem writtenBases (same : left.SameClasses right) :
    (left.writtenBases left.types).Same (right.writtenBases right.types) := by
  have written := (same.map_perm
    (fun entry => (left.writtenBase? left.types entry).map fun base => (entry.fqn, base))
    fun _ => rfl).filterMap id
  rw [List.filterMap_map, List.filterMap_map] at written
  rw [Declarations.writtenBases, Declarations.writtenBases, ← same.writtenBase?]
  refine Table.same_ofList_of_perm written ?_
  intro key first second firstListed secondListed
  obtain ⟨entry, declared, firstIs⟩ := List.mem_filterMap.mp firstListed
  obtain ⟨other, otherDeclared, secondIs⟩ := List.mem_filterMap.mp secondListed
  obtain ⟨base, link, firstPair⟩ := Option.map_eq_some_iff.mp firstIs
  obtain ⟨otherBase, otherLink, secondPair⟩ := Option.map_eq_some_iff.mp secondIs
  rw [Prod.mk.injEq] at firstPair secondPair
  obtain rfl := entry_unique declared otherDeclared (firstPair.1.trans secondPair.1.symm)
  rw [← firstPair.2, ← secondPair.2, Option.some.inj (link.symm.trans otherLink)]

/-- Where written bases run in no cycle, the first linked bases stay, whatever the order. -/
theorem linkBases (same : left.SameClasses right)
    (acyclic : ∀ key, ¬ OnCycle (baseKey? (left.writtenBases left.types)) key) :
    (left.linkBases left.types).bases.Same (right.linkBases right.types).bases := by
  have sameBases : baseKey? (left.writtenBases left.types) =
      baseKey? (right.writtenBases right.types) := by
    funext key
    exact baseKey?_congr (same.writtenBases key)
  intro key
  calc (left.linkBases left.types).bases.find? key
      = (left.writtenBases left.types).find? key := (cutAll_cutSoFar _ _).kept key (acyclic key)
    _ = (right.writtenBases right.types).find? key := same.writtenBases key
    _ = (right.linkBases right.types).bases.find? key :=
        ((cutAll_cutSoFar _ _).kept key (sameBases ▸ acyclic key)).symm

/-! ## Members -/

theorem membersOf (same : left.SameClasses right) : left.membersOf = right.membersOf := by
  funext entry
  rw [Declarations.membersOf, Declarations.membersOf, ClassReading.members, ClassReading.members,
    reading, reading, (same.typeScope entry.unit).sites]

theorem members (same : left.SameClasses right) :
    left.classIndex.members.Same right.classIndex.members := by
  have listed := same.map_perm (fun entry => (entry.fqn, left.membersOf entry)) fun _ => rfl
  rw [members_classIndex, members_classIndex, ← same.membersOf]
  refine Table.same_ofList_of_perm listed ?_
  intro key first second firstListed secondListed
  obtain ⟨entry, declared, firstPair⟩ := List.mem_map.mp firstListed
  obtain ⟨other, otherDeclared, secondPair⟩ := List.mem_map.mp secondListed
  rw [Prod.mk.injEq] at firstPair secondPair
  obtain rfl := entry_unique declared otherDeclared (firstPair.1.trans secondPair.1.symm)
  rw [← firstPair.2, ← secondPair.2]

theorem memberIds (same : left.SameClasses right) :
    left.classIndex.memberIds.Same right.classIndex.memberIds := by
  have listed := (same.map_perm (fun entry => (left.membersOf entry).map fun member =>
    (member.id, member)) fun _ => rfl).flatten
  rw [← List.flatMap_def, ← List.flatMap_def] at listed
  rw [memberIds_classIndex, memberIds_classIndex, ← same.membersOf]
  refine Table.same_ofList_of_perm listed ?_
  intro key first second firstListed secondListed
  obtain ⟨entry, declared, inEntry⟩ := List.mem_flatMap.mp firstListed
  obtain ⟨other, otherDeclared, inOther⟩ := List.mem_flatMap.mp secondListed
  obtain ⟨firstMember, firstDeclared, firstPair⟩ := List.mem_map.mp inEntry
  obtain ⟨secondMember, secondDeclared, secondPair⟩ := List.mem_map.mp inOther
  rw [Prod.mk.injEq] at firstPair secondPair
  rw [← firstPair.2, ← secondPair.2]
  exact (member_unique declared otherDeclared firstDeclared secondDeclared
    (firstPair.1.trans secondPair.1.symm)).2

/-! ## The index -/

theorem classIndex (same : left.SameClasses right)
    (acyclic : ∀ key, ¬ OnCycle (baseKey? (left.writtenBases left.types)) key) :
    left.classIndex.Agrees right.classIndex where
  types key := by rw [find?_types_classIndex, find?_types_classIndex, same.types]
  bases key := by rw [find?_bases_classIndex, find?_bases_classIndex, same.linkBases acyclic]
  members := same.members
  memberIds := same.memberIds
  overrides key := by rw [overrides_classIndex, overrides_classIndex]

/-- Overrides are recorded type by type, but every identity is that of one property, so the order
of types makes no difference. -/
theorem overrides (same : left.SameClasses right)
    (acyclic : ∀ key, ¬ OnCycle (baseKey? (left.writtenBases left.types)) key) :
    (Program.linkOverrides left.classIndex).overrides.Same
      (Program.linkOverrides right.classIndex).overrides := by
  have agrees := same.classIndex acyclic
  have found : Program.overridesOf left.classIndex = Program.overridesOf right.classIndex := by
    funext symbol
    rw [Program.overridesOf, Program.overridesOf, agrees.declaredMembers]
    unfold Program.overriddenProperty?
    rw [agrees.ancestors, agrees.declaredMembers]
  have listed := ((agrees.types.values_perm.flatMap_right
    (Program.overridesOf left.classIndex)).map fun pair => (pair.1.id, pair.2.id))
  rw [overrides_linkOverrides, overrides_linkOverrides, overrides_classIndex, overrides_classIndex,
    ← found]
  refine Table.same_ofList_of_perm listed ?_
  intro key first second firstListed secondListed
  obtain ⟨firstPair, inFirst, firstIs⟩ := List.mem_map.mp firstListed
  obtain ⟨secondPair, inSecond, secondIs⟩ := List.mem_map.mp secondListed
  obtain ⟨entry, declared, firstMember, _, firstOverrides⟩ := mem_overridesOf_classIndex.mp inFirst
  obtain ⟨other, otherDeclared, secondMember, _, secondOverrides⟩ :=
    mem_overridesOf_classIndex.mp inSecond
  rw [Prod.mk.injEq] at firstIs secondIs
  obtain ⟨rfl, members⟩ := member_unique declared otherDeclared firstMember secondMember
    (firstIs.1.trans secondIs.1.symm)
  rw [members] at firstOverrides
  rw [← firstIs.2, ← secondIs.2, Option.some.inj (firstOverrides.symm.trans secondOverrides)]

end SameClasses

end Declarations

namespace Program

/-- **The order of modules does not matter.** Two orders of modules with different paths, of which
no two declare a class of the same qualified name, give programs whose types, bases, members, member
identities and overrides are equal as finite maps, and every declared class has the same record
under all settings, provided that no bases run in a cycle before cycles are cut. -/
theorem agrees_of_perm {left right : List SourceModule} (reordered : left.Perm right)
    (paths : (left.map SourceModule.path).Nodup)
    (disjoint : left.Pairwise fun source other => source.classNames.Disjoint other.classNames)
    (acyclic : ∀ key, ¬ OnCycle (baseKey? ((ofModules left).declarations.writtenBases
      (ofModules left).declarations.types)) key) :
    (ofModules left).index.Agrees (ofModules right).index ∧
    ∀ fqn ∈ (ofModules left).declarations.fqns, ∃ symbol,
      (ofModules left).index.lookupType? fqn = some symbol ∧
      (ofModules right).index.lookupType? fqn = some symbol ∧
      ∀ settings, (ofModules left).index.describeType settings symbol =
        (ofModules right).index.describeType settings symbol := by
  have same : (ofModules left).declarations.SameClasses (ofModules right).declarations :=
    Declarations.classes_perm reordered paths disjoint
  have classes := same.classIndex acyclic
  have agrees : (ofModules left).index.Agrees (ofModules right).index := {
    types := by simpa only [types_ofModules] using classes.types
    bases := by simpa only [bases_ofModules] using classes.bases
    members := by simpa only [members_ofModules] using classes.members
    memberIds := by simpa only [memberIds_ofModules] using classes.memberIds
    overrides := by simpa only [overrides_ofModules] using same.overrides acyclic }
  refine ⟨agrees, ?_⟩
  intro fqn declared
  obtain ⟨entry, member, rfl⟩ := List.mem_map.mp declared
  have known : (ofModules left).index.lookupType? entry.fqn =
      some ((ofModules left).declarations.declaredType entry) := by
    rw [Index.lookupType?, types_ofModules, Declarations.find?_types_classIndex,
      Declarations.find?_types member]
  refine ⟨_, known, (agrees.types entry.fqn).symm.trans known, fun settings => ?_⟩
  rw [agrees.describeType]

end Program

/-! ## Two modules of a package -/

namespace Sample

open Syntax

theorem isIdentifier_q : Text.isIdentifier "q" = true := by decide +kernel

def q : Identifier := ⟨"q", isIdentifier_q⟩

/-- A package with a class whose base a module of the package declares. -/
def package : SourceModule where
  path := "p/__init__.py"
  name := "p"
  module := ⟨[classOn 1 b [.attribute ⟨"q.A", ⟨1, 8⟩⟩ (name 1 q) a] (.inline [])],
    by decide +kernel⟩

/-- The module of the package that declares the base, with a field. -/
def inner : SourceModule where
  path := "p/q.py"
  name := "p.q"
  module := ⟨[classOn 1 a [] (.indented [.line [.annotated (name 2 x) (name 2 a) none]])],
    by decide +kernel⟩

end Sample

namespace Program

/-- The class of the package inherits the field of the module that comes after it, and its record is
the same when that module comes first. -/
theorem agrees_of_package :
    let program := ofModules [Sample.package, Sample.inner]
    let other := ofModules [Sample.inner, Sample.package]
    (program.index.bases.find? "p.B").map TypeSymbol.fqn = some "p.q.A" ∧
    program.index.Agrees other.index ∧
    ∃ symbol, program.index.lookupType? "p.B" = some symbol ∧
      (program.index.allMembers symbol).map Member.id = ["p.q.A.x"] ∧
      ∀ settings, program.index.describeType settings symbol =
        other.index.describeType settings symbol := by
  intro program other
  have fromB : baseKey? (program.declarations.writtenBases program.declarations.types) "p.B" =
      some "p.q.A" := by decide +kernel
  have fromA : baseKey? (program.declarations.writtenBases program.declarations.types) "p.q.A" =
      none := by decide +kernel
  have keys : (program.declarations.writtenBases program.declarations.types).keys = ["p.B"] := by
    decide +kernel
  have acyclic : ∀ key,
      ¬ OnCycle (baseKey? (program.declarations.writtenBases program.declarations.types)) key := by
    intro key on
    obtain ⟨next, link, back⟩ := on
    have only : key = "p.B" := by simpa [keys] using mem_keys_of_baseKey? link
    rw [only, fromB] at link
    rw [only, ← Option.some.inj link] at back
    rcases back.eq_or_next with same | ⟨after, further, _⟩
    · exact absurd same (by decide)
    · simp [fromA] at further
  have disjoint : [Sample.package, Sample.inner].Pairwise fun source other =>
      source.classNames.Disjoint other.classNames := by
    have names : Sample.package.classNames = ["p.B"] ∧ Sample.inner.classNames = ["p.q.A"] := by
      decide +kernel
    simp [names]
  obtain ⟨agrees, records⟩ := agrees_of_perm (List.Perm.swap Sample.inner Sample.package [])
    (by decide) disjoint acyclic
  obtain ⟨symbol, known, _, same⟩ := records "p.B" (by decide +kernel)
  refine ⟨by decide +kernel, agrees, symbol, known, ?_, same⟩
  have members : ((program.index.lookupType? "p.B").map fun symbol =>
      (program.index.allMembers symbol).map Member.id) = some ["p.q.A.x"] := by decide +kernel
  rw [show program.index.lookupType? "p.B" = some symbol from known] at members
  exact Option.some.inj members

end Program

end TypeCatalog
