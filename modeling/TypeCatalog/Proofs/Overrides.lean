import TypeCatalog.Proofs.Lineages

/-! # Overrides of programs

Overrides are recorded class by class, each property with the first member of its name in the
lineage of its class. Read along the members of any type and of its ancestors, a property overrides
the next member of its name if that is a property, and nothing else overrides anything
(`TypeCatalog.Program.overridden?_of_allMembers`).
-/

namespace TypeCatalog

namespace Index

theorem ancestors_eq_of_bases_eq {left right : Index} (same : left.bases = right.bases)
    (symbol : TypeSymbol) : left.ancestors symbol = right.ancestors symbol := by
  have bases : left.base? = right.base? := by
    funext value
    rw [base?, base?, same]
  rw [ancestors, ancestors, ancestorsUpTo_eq, ancestorsUpTo_eq, bases, same]

theorem declaredMembers_eq_of_members_eq {left right : Index} (same : left.members = right.members)
    (symbol : TypeSymbol) : left.declaredMembers symbol = right.declaredMembers symbol := by
  rw [declaredMembers, declaredMembers, same]

end Index

namespace Declarations

variable {found : Declarations}

theorem key?_declaredType (entry : ClassEntry) :
    (found.declaredType entry).key? = some entry.fqn := rfl

theorem mem_types_classIndex {symbol : TypeSymbol} :
    symbol ∈ found.classIndex.types.values ↔
      ∃ entry ∈ found.classes, found.declaredType entry = symbol := by
  rw [Table.values, List.mem_map]
  constructor
  · rintro ⟨⟨key, value⟩, listed, rfl⟩
    rw [← Table.find?_eq_some_iff, find?_types_classIndex, find?_types_iff] at listed
    obtain ⟨entry, declared, _, same⟩ := listed
    exact ⟨entry, declared, same⟩
  · rintro ⟨entry, declared, rfl⟩
    refine ⟨(entry.fqn, found.declaredType entry), ?_, rfl⟩
    rw [← Table.find?_eq_some_iff, find?_types_classIndex]
    exact find?_types declared

/-- Overrides are recorded for the properties of classes. -/
theorem mem_overridesOf_classIndex {pair : Member × Member} :
    pair ∈ found.classIndex.types.values.flatMap (Program.overridesOf found.classIndex) ↔
      ∃ entry ∈ found.classes, pair.1 ∈ found.membersOf entry ∧ pair.1.kind = .property ∧
        Program.overriddenProperty? found.classIndex (found.declaredType entry) pair.1 =
          some pair.2 := by
  rw [List.mem_flatMap]
  constructor
  · rintro ⟨symbol, declaredSymbol, listed⟩
    obtain ⟨entry, declared, rfl⟩ := mem_types_classIndex.mp declaredSymbol
    obtain ⟨member, kept, overrides⟩ := List.mem_filterMap.mp listed
    obtain ⟨overridden, found_, rfl⟩ := Option.map_eq_some_iff.mp overrides
    obtain ⟨inMembers, property⟩ := List.mem_filter.mp kept
    rw [declaredMembers_classIndex declared (key?_declaredType entry)] at inMembers
    exact ⟨entry, declared, inMembers, of_decide_eq_true property, found_⟩
  · rintro ⟨entry, declared, inMembers, property, overrides⟩
    refine ⟨found.declaredType entry, mem_types_classIndex.mpr ⟨entry, declared, rfl⟩, ?_⟩
    refine List.mem_filterMap.mpr ⟨pair.1, List.mem_filter.mpr ⟨?_, by simpa using property⟩, ?_⟩
    · rw [declaredMembers_classIndex declared (key?_declaredType entry)]
      exact inMembers
    · rw [overrides, Option.map_some]

theorem overrides_linkOverrides :
    (Program.linkOverrides found.classIndex).overrides =
      ((found.classIndex.types.values.flatMap (Program.overridesOf found.classIndex)).map
        fun pair => (pair.1.id, pair.2.id)).foldl
          (fun table pair => table.insert pair.1 pair.2) found.classIndex.overrides := by
  rw [Program.linkOverrides, List.foldl_map]
  exact (List.foldl_hom Index.overrides fun _ _ => rfl).symm

/-- What is recorded for a member of a class. -/
theorem find?_overrides_linkOverrides {entry : ClassEntry} (declared : entry ∈ found.classes)
    {member : Member} (listed : member ∈ found.membersOf entry) :
    (Program.linkOverrides found.classIndex).overrides.find? member.id =
      if member.kind = .property then
        (Program.overriddenProperty? found.classIndex (found.declaredType entry) member).map
          Member.id
      else none := by
  rw [overrides_linkOverrides, overrides_classIndex]
  -- identities are those of one member each, so every record under this one is of this member
  have recorded : ∀ target, (member.id, target) ∈
      ((found.classIndex.types.values.flatMap (Program.overridesOf found.classIndex)).map
        fun pair => (pair.1.id, pair.2.id)) →
      member.kind = .property ∧ ∃ overridden, overridden.id = target ∧
        Program.overriddenProperty? found.classIndex (found.declaredType entry) member =
          some overridden := by
    intro target stored
    obtain ⟨pair, inPairs, same⟩ := List.mem_map.mp stored
    rw [Prod.mk.injEq] at same
    obtain ⟨other, otherDeclared, otherListed, property, overrides⟩ :=
      mem_overridesOf_classIndex.mp inPairs
    obtain ⟨rfl, rfl⟩ := member_unique otherDeclared declared otherListed listed same.1
    exact ⟨property, pair.2, same.2, overrides⟩
  cases overrides :
      Program.overriddenProperty? found.classIndex (found.declaredType entry) member with
  | some overridden =>
      split
      · rename_i property
        refine Table.find?_foldl_insert _ _ (List.mem_map.mpr ⟨(member, overridden), ?_, rfl⟩) ?_
        · exact mem_overridesOf_classIndex.mpr ⟨entry, declared, listed, property, overrides⟩
        · intro target stored
          obtain ⟨_, again, same, repeated⟩ := recorded target stored
          rw [← same, Option.some.inj (repeated.symm.trans overrides)]
      · rename_i field
        rw [Table.find?_foldl_insert_of_notMem, Table.find?_empty]
        exact fun pair stored same => field (recorded pair.2 (same ▸ stored)).1
  | none =>
      rw [Option.map_none, ite_self, Table.find?_foldl_insert_of_notMem, Table.find?_empty]
      intro pair stored same
      obtain ⟨_, overridden, _, found_⟩ := recorded pair.2 (same ▸ stored)
      exact absurd (overrides.symm.trans found_) (by simp)

end Declarations

/-- The first of other members that has the name of a member, when both are properties. -/
def Member.overriddenAmong? (member : Member) (others : List Member) : Option Member :=
  (others.find? fun other => other.name == member.name).filter fun other =>
    member.kind = .property ∧ other.kind = .property

namespace Program

variable (sources : List SourceModule)

theorem ancestors_ofModules (symbol : TypeSymbol) :
    (ofModules sources).index.ancestors symbol =
      (ofModules sources).declarations.classIndex.ancestors symbol :=
  Index.ancestors_eq_of_bases_eq (bases_ofModules sources) symbol

theorem declaredMembers_ofModules (symbol : TypeSymbol) :
    (ofModules sources).index.declaredMembers symbol =
      (ofModules sources).declarations.classIndex.declaredMembers symbol :=
  Index.declaredMembers_eq_of_members_eq (members_ofModules sources) symbol

/-- A property overrides the first member of its name in the lineage of its class, if that is a
property; a field overrides nothing. -/
theorem overridden?_ofModules {symbol : TypeSymbol} {member : Member}
    (listed : member ∈ (ofModules sources).index.declaredMembers symbol) :
    (ofModules sources).index.overridden? member =
      member.overriddenAmong? (((ofModules sources).index.ancestors symbol).flatMap
        (ofModules sources).index.declaredMembers) := by
  rw [declaredMembers_ofModules] at listed
  obtain ⟨entry, declared, named, inMembers⟩ :=
    Declarations.exists_entry_of_mem_declaredMembers listed
  rw [Index.overridden?, overrides_ofModules, memberIds_ofModules,
    Declarations.find?_overrides_linkOverrides declared inMembers, Member.overriddenAmong?,
    List.find?_flatMap, ancestors_ofModules, funext (declaredMembers_ofModules sources),
    Index.ancestors_congr (named.trans (Declarations.key?_declaredType entry).symm)]
  rw [overriddenProperty?]
  cases nearest : ((ofModules sources).declarations.classIndex.ancestors
      ((ofModules sources).declarations.declaredType entry)).findSome? fun ancestor =>
        ((ofModules sources).declarations.classIndex.declaredMembers ancestor).find?
          fun later => later.name == member.name with
  | none => simp
  | some later =>
      obtain ⟨ancestor, _, inAncestor⟩ := List.exists_of_findSome?_eq_some nearest
      obtain ⟨other, otherDeclared, _, laterListed⟩ :=
        Declarations.exists_entry_of_mem_declaredMembers (List.mem_of_find?_eq_some inAncestor)
      have stored := Declarations.find?_memberIds_classIndex otherDeclared laterListed
      by_cases property : member.kind = .property <;>
        by_cases laterProperty : later.kind = .property <;>
          simp [property, laterProperty, stored, Option.filter]

theorem nodup_names_declaredMembers (symbol : TypeSymbol) :
    (((ofModules sources).index.declaredMembers symbol).map Member.name).Nodup := by
  rw [declaredMembers_ofModules]
  cases own : (ofModules sources).declarations.classIndex.declaredMembers symbol with
  | nil => simp
  | cons first rest =>
      obtain ⟨entry, declared, named, _⟩ :=
        Declarations.exists_entry_of_mem_declaredMembers (own ▸ List.mem_cons_self)
      rw [← own, Declarations.declaredMembers_classIndex declared named]
      exact ClassReading.nodup_names _

/-- A member looks for what it overrides behind itself: the members of one type have different
names. -/
theorem overridden?_of_declaredMembers {symbol : TypeSymbol} {before later : List Member}
    {member : Member}
    (split : (ofModules sources).index.declaredMembers symbol = before ++ member :: later) :
    (ofModules sources).index.overridden? member =
      member.overriddenAmong? (later ++ ((ofModules sources).index.ancestors symbol).flatMap
        (ofModules sources).index.declaredMembers) := by
  have listed : member ∈ (ofModules sources).index.declaredMembers symbol := by simp [split]
  have distinct := nodup_names_declaredMembers sources symbol
  rw [split, List.map_append, List.map_cons, List.nodup_append, List.nodup_cons] at distinct
  have unnamed : later.find? (fun other => other.name == member.name) = none := by
    rw [List.find?_eq_none]
    intro other inLater same
    exact distinct.2.1.1 (List.mem_map.mpr ⟨other, inLater, eq_of_beq same⟩)
  rw [overridden?_ofModules sources listed, Member.overriddenAmong?, Member.overriddenAmong?,
    List.find?_append, unnamed, Option.none_or]

/-- Along a chain of types a property overrides the next member of its name. -/
theorem overridden?_of_run {symbol : TypeSymbol} {chain : List TypeSymbol}
    (run : Run (ofModules sources).index.base? symbol chain) {before after : List Member}
    {member : Member}
    (split : (ofModules sources).index.declaredMembers symbol ++
      chain.flatMap (ofModules sources).index.declaredMembers = before ++ member :: after) :
    (ofModules sources).index.overridden? member = member.overriddenAmong? after := by
  induction run generalizing before with
  | stop ended =>
      rw [List.flatMap_nil, List.append_nil] at split
      rw [overridden?_of_declaredMembers sources split, Index.ancestors_eq_nil ended,
        List.flatMap_nil, List.append_nil]
  | @step symbol base rest link run ih =>
      rw [List.flatMap_cons] at split
      rcases List.append_eq_append_iff.mp split with
        ⟨between, _, inherited⟩ | ⟨from_, own, others⟩
      · exact ih inherited
      · cases from_ with
        | nil => exact ih (show _ = [] ++ member :: after from others.symm)
        | cons first later =>
            rw [List.cons_append, List.cons.injEq] at others
            obtain ⟨rfl, rfl⟩ := others
            rw [overridden?_of_declaredMembers sources own,
              Index.ancestors_of_run (.step link run), List.flatMap_cons]

/-- Every member that is overridden is declared by a class. -/
theorem exists_symbol_of_overridden? {member overridden : Member}
    (overrides : (ofModules sources).index.overridden? member = some overridden) :
    ∃ symbol, overridden ∈ (ofModules sources).index.allMembers symbol := by
  obtain ⟨key, _, stored⟩ := Option.bind_eq_some_iff.mp overrides
  rw [memberIds_ofModules] at stored
  obtain ⟨_, entry, declared, listed⟩ := Declarations.mem_membersOf_of_find?_memberIds stored
  refine ⟨(ofModules sources).declarations.declaredType entry, List.mem_append_left _ ?_⟩
  rw [declaredMembers_ofModules,
    Declarations.declaredMembers_classIndex declared (Declarations.key?_declaredType entry)]
  exact listed

/-- Among the members of a type and of its ancestors, a property overrides the next of its name. -/
theorem overridden?_of_append {symbol : TypeSymbol} {before after : List Member} {member : Member}
    (split : (ofModules sources).index.allMembers symbol = before ++ member :: after) :
    (ofModules sources).index.overridden? member = member.overriddenAmong? after :=
  overridden?_of_run sources ((acyclic_ofModules sources).run_ancestors symbol) split

/-- What a member overrides stands further behind among the members of the same type. -/
theorem append_of_overridden? {symbol : TypeSymbol} {before after : List Member}
    {member overridden : Member}
    (split : (ofModules sources).index.allMembers symbol = before ++ member :: after)
    (overrides : (ofModules sources).index.overridden? member = some overridden) :
    ∃ between rest, after = between ++ overridden :: rest := by
  rw [overridden?_of_append sources split, Member.overriddenAmong?,
    Option.filter_eq_some_iff] at overrides
  obtain ⟨_, between, rest, afterSplit, _⟩ := List.find?_eq_some_iff_append.mp overrides.1
  exact ⟨between, rest, afterSplit⟩

/-- From a member of a type the chain of overridden members ends. -/
theorem exists_run_overridden?_of_append {symbol : TypeSymbol} (count : Nat)
    {before after : List Member} {member : Member}
    (split : (ofModules sources).index.allMembers symbol = before ++ member :: after)
    (short : after.length ≤ count) :
    ∃ chain, Run (ofModules sources).index.overridden? member chain := by
  induction count generalizing before after member with
  | zero =>
      rw [List.length_eq_zero_iff.mp (Nat.le_zero.mp short)] at split
      exact ⟨[], .stop (overridden?_of_append sources split)⟩
  | succ count ih =>
      cases overrides : (ofModules sources).index.overridden? member with
      | none => exact ⟨[], .stop overrides⟩
      | some overridden =>
          obtain ⟨between, rest, rfl⟩ := append_of_overridden? sources split overrides
          have shorter : rest.length ≤ count := by
            rw [List.length_append, List.length_cons] at short
            omega
          have later : (ofModules sources).index.allMembers symbol =
              (before ++ member :: between) ++ overridden :: rest := by simp [split]
          obtain ⟨chain, run⟩ := ih later shorter
          exact ⟨overridden :: chain, .step overrides run⟩

/-- **Overrides along lineages.** In the program of any modules, the members of a type and of its
ancestors are those of its whole chain of bases; each overrides the next of them with its name, if
there is one and both are properties, and nothing otherwise. From every member the chain of
overridden members ends. -/
theorem overridden?_of_allMembers (sources : List SourceModule) :
    let index := (ofModules sources).index
    (∀ symbol, ∃ chain, Run index.base? symbol chain ∧
      index.allMembers symbol = (symbol :: chain).flatMap index.declaredMembers) ∧
    (∀ symbol before member after, index.allMembers symbol = before ++ member :: after →
      index.overridden? member = member.overriddenAmong? after) ∧
    (∀ member, ∃ chain, Run index.overridden? member chain) := by
  intro index
  have acyclic : index.Acyclic := acyclic_ofModules sources
  refine ⟨fun symbol => ⟨_, acyclic.run_ancestors symbol, rfl⟩, ?_, ?_⟩
  · intro symbol before member after split
    exact overridden?_of_append sources split
  · intro member
    cases overrides : index.overridden? member with
    | none => exact ⟨[], .stop overrides⟩
    | some overridden =>
        obtain ⟨symbol, listed⟩ := exists_symbol_of_overridden? sources overrides
        obtain ⟨before, after, split⟩ := List.append_of_mem listed
        obtain ⟨chain, run⟩ :=
          exists_run_overridden?_of_append sources after.length split (Nat.le_refl _)
        exact ⟨overridden :: chain, .step overrides run⟩

end Program

/-! ## A program with overrides -/

namespace Sample

open Syntax

def x : Identifier := ⟨"x", by decide +kernel⟩

def property : Identifier := ⟨"property", by decide +kernel⟩

/-- A property that stands on a line. -/
def propertyOn (line : Nat) (identifier : Identifier) : Statement :=
  .functionStatement ⟨⟨line, 4⟩, identifier, [name line property], none⟩ (.inline [])

/-- A class with a property, one that derives from an instantiation of it and declares nothing, and
one that overrides the property, in the module that declares the decorator. -/
def layered : SourceModule where
  path := "builtins.py"
  name := "builtins"
  module := ⟨[classOn 1 property [] (.inline []), classOn 2 a [] (.indented [propertyOn 3 x]),
    classOn 4 b [.subscript ⟨"A[C]", ⟨4, 8⟩⟩ (name 4 a) [.index (name 4 c)]] (.inline []),
    classOn 5 c [name 5 b] (.indented [propertyOn 6 x])], by decide +kernel⟩

end Sample

namespace Program

/-- The property of the sample overrides the one that two types away has its name. -/
theorem overridden?_of_layered :
    let index := (ofModules [Sample.layered]).index
    ∃ member after, index.allMembers (.externalType "builtins.C") = [] ++ member :: after ∧
      index.overridden? member = member.overriddenAmong? after ∧
      (index.overridden? member).map Member.id = some "builtins.A.x" := by
  intro index
  have members : (index.allMembers (.externalType "builtins.C")).map
      (fun member => (member.id, member.name, member.kind)) =
        [("builtins.C.x", "x", .property), ("builtins.A.x", "x", .property)] := by decide +kernel
  obtain ⟨member, _, split, own, others⟩ := List.map_eq_cons_iff.mp members
  obtain ⟨other, rest, rfl, inherited, ended⟩ := List.map_eq_cons_iff.mp others
  rw [List.map_eq_nil_iff.mp ended] at split
  simp only [Prod.mk.injEq] at own inherited
  have overrides := (overridden?_of_allMembers [Sample.layered]).2.1
    (.externalType "builtins.C") [] member [other] split
  refine ⟨member, [other], split, overrides, ?_⟩
  rw [show index.overridden? member = _ from overrides]
  simp [Member.overriddenAmong?, own, inherited]

end Program

end TypeCatalog
