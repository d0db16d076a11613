import TypeCatalog.Proofs.Overrides
import TypeCatalog.Record.Describe

/-! # Composition of records

The record of a class is put together from what the class declares and from the record of the class
that it derives from. Only the flag that tells inherited members depends on the class that is
described, and it is right because no class is among its own ancestors
(`TypeCatalog.Program.describeType_composes`).
-/

namespace TypeCatalog

namespace Index

variable {index : Index}

/-! ## Parts of a record -/

theorem ancestors_describeType (settings : Settings) (symbol : TypeSymbol) :
    (index.describeType settings symbol).ancestors =
      (index.ancestors symbol).map TypeSymbol.fqn := rfl

theorem members_describeType (settings : Settings) (symbol : TypeSymbol) :
    (index.describeType settings symbol).members =
      (index.allMembers symbol).map (index.describeMember settings symbol) := rfl

/-- The record of a member depends on the type that is described in the flag that tells inherited
members, so members of other types have the same records but for being inherited. -/
theorem map_describeMember_of_foreign (settings : Settings) (owner other : TypeSymbol)
    {members : List Member}
    (foreign : ∀ member ∈ members, member.declaringType ≠ owner.declaringName) :
    members.map (index.describeMember settings owner) =
      (members.map (index.describeMember settings other)).map fun member =>
        { member with inherited := true } := by
  rw [List.map_map]
  apply List.map_congr_left
  intro member listed
  have inherited : (member.declaringType != owner.declaringName) = true := by
    simpa using foreign member listed
  rw [Function.comp_apply, describeMember, describeMember, inherited]

/-! ## Members along a chain -/

theorem allMembers_eq (index : Index) (symbol : TypeSymbol) :
    index.allMembers symbol = index.declaredMembers symbol ++
      (index.ancestors symbol).flatMap index.declaredMembers := rfl

theorem allMembers_congr {left right : TypeSymbol} (same : left.key? = right.key?) :
    index.allMembers left = index.allMembers right := by
  rw [allMembers_eq, allMembers_eq, ancestors_congr same, declaredMembers, declaredMembers, same]

theorem allMembers_of_base?_eq_none {symbol : TypeSymbol} (ended : index.base? symbol = none) :
    index.allMembers symbol = index.declaredMembers symbol := by
  rw [allMembers_eq, ancestors_eq_nil ended, List.flatMap_nil, List.append_nil]

/-- The members of a type with a base are those that it declares and the members of the base. -/
theorem Acyclic.allMembers_eq_append (acyclic : index.Acyclic) {symbol base : TypeSymbol}
    (link : index.base? symbol = some base) :
    index.allMembers symbol = index.declaredMembers symbol ++ index.allMembers base := by
  rw [allMembers_eq, acyclic.ancestors_eq_cons link, List.flatMap_cons, ← allMembers_eq]

end Index

/-- Members that a type declares carry its definition. -/
theorem TypeSymbol.declaringName_of_definition {symbol : TypeSymbol} {definition : String}
    (defined : symbol.definition = some definition) (named : definition ≠ "") :
    symbol.declaringName = definition := by
  rw [declaringName, defined]
  split
  · rename_i empty
    exact absurd (Option.some.inj empty) named
  · rename_i undefined
    exact absurd undefined (Option.some_ne_none _)
  · rename_i known
    exact (Option.some.inj known).symm

namespace Declarations

variable {found : Declarations}

/-- Members of a class carry the name under which it is declared. -/
theorem declaringName_declaredType (entry : ClassEntry) :
    (found.declaredType entry).declaringName = entry.fqn :=
  TypeSymbol.declaringName_of_definition rfl entry.fqn_ne_empty

end Declarations

namespace Program

variable (sources : List SourceModule)

theorem exists_entry_of_lookupType? {fqn : String} {symbol : TypeSymbol}
    (declared : (ofModules sources).index.lookupType? fqn = some symbol) :
    ∃ entry ∈ (ofModules sources).declarations.classes, entry.fqn = fqn ∧
      (ofModules sources).declarations.declaredType entry = symbol := by
  rw [Index.lookupType?, types_ofModules, Declarations.find?_types_classIndex] at declared
  exact Declarations.find?_types_iff.mp declared

theorem key?_of_lookupType? {fqn : String} {symbol : TypeSymbol}
    (declared : (ofModules sources).index.lookupType? fqn = some symbol) :
    symbol.key? = some fqn ∧ symbol.declaringName = fqn := by
  obtain ⟨entry, _, rfl, rfl⟩ := exists_entry_of_lookupType? sources declared
  exact ⟨Declarations.key?_declaredType entry, Declarations.declaringName_declaredType entry⟩

theorem key?_of_mem_declaredMembers {symbol : TypeSymbol} {member : Member}
    (listed : member ∈ (ofModules sources).index.declaredMembers symbol) :
    symbol.key? = some member.declaringType := by
  rw [declaredMembers_ofModules] at listed
  obtain ⟨entry, declared, named, inMembers⟩ :=
    Declarations.exists_entry_of_mem_declaredMembers listed
  rw [named, (ClassReading.declares_of_mem_members _ inMembers).1]
  rfl

/-- A type that is not declared has neither members nor a base. -/
theorem eq_nil_of_undeclared {symbol : TypeSymbol}
    (undeclared : symbol.key?.bind (ofModules sources).index.lookupType? = none) :
    (ofModules sources).index.declaredMembers symbol = [] ∧
      (ofModules sources).index.base? symbol = none := by
  have unknown : ∀ key, symbol.key? = some key →
      key ∉ (ofModules sources).declarations.fqns := by
    intro key named known
    obtain ⟨entry, declared, rfl⟩ := List.mem_map.mp known
    rw [named, Option.bind_some, Index.lookupType?, types_ofModules,
      Declarations.find?_types_classIndex, Declarations.find?_types declared] at undeclared
    simp at undeclared
  refine ⟨?_, ?_⟩
  · rw [List.eq_nil_iff_forall_not_mem]
    intro member listed
    rw [declaredMembers_ofModules] at listed
    obtain ⟨entry, declared, named, _⟩ := Declarations.exists_entry_of_mem_declaredMembers listed
    exact unknown _ named (List.mem_map_of_mem declared)
  · cases link : (ofModules sources).index.base? symbol with
    | none => rfl
    | some base =>
        obtain ⟨key, named, linked⟩ := Option.bind_eq_some_iff.mp link
        rw [find?_bases_ofModules] at linked
        exact absurd (Declarations.mem_fqns_of_find?_linkBases linked) (unknown key named)

/-- Members that a type inherits are declared by other types. -/
theorem declaringType_ne_of_inherited {symbol base : TypeSymbol} {key : String}
    (named : symbol.key? = some key) (link : (ofModules sources).index.base? symbol = some base) :
    ∀ member ∈ (ofModules sources).index.allMembers base, member.declaringType ≠ key := by
  intro member listed same
  have acyclic := acyclic_ofModules sources
  obtain ⟨ancestor, inChain, declares⟩ : ∃ ancestor ∈ (ofModules sources).index.ancestors symbol,
      member ∈ (ofModules sources).index.declaredMembers ancestor := by
    rw [acyclic.ancestors_eq_cons link]
    rcases List.mem_append.mp listed with own | inherited
    · exact ⟨base, List.mem_cons_self, own⟩
    · obtain ⟨ancestor, further, declares⟩ := List.mem_flatMap.mp inherited
      exact ⟨ancestor, List.mem_cons_of_mem _ further, declares⟩
  refine acyclic.key?_ne_of_mem_ancestors named inChain ?_
  rw [key?_of_mem_declaredMembers sources declares, same]

/-- No two members of a type and of its ancestors have the same name and are declared by the same
type. -/
theorem nodup_allMembers (symbol : TypeSymbol) :
    (((ofModules sources).index.allMembers symbol).map fun member =>
      (member.declaringType, member.name)).Nodup := by
  have own : ∀ current, (((ofModules sources).index.declaredMembers current).map fun member =>
      (member.declaringType, member.name)).Nodup := by
    intro current
    have names := nodup_names_declaredMembers sources current
    rw [show Member.name = Prod.snd ∘ fun member : Member => (member.declaringType, member.name)
      from rfl, ← List.map_map] at names
    exact names.of_map _
  have acyclic := acyclic_ofModules sources
  have run := acyclic.run_ancestors symbol
  -- the types of a chain have different keys, and members carry the key of their type
  generalize (ofModules sources).index.ancestors symbol = chain at run
  induction run with
  | stop ended =>
      rw [Index.allMembers_of_base?_eq_none ended]
      exact own _
  | @step symbol base rest link run ih =>
      rw [acyclic.allMembers_eq_append link, List.map_append, List.nodup_append]
      refine ⟨own symbol, ih, ?_⟩
      intro first inOwn second inBase same
      obtain ⟨member, declared, rfl⟩ := List.mem_map.mp inOwn
      obtain ⟨other, inherited, rfl⟩ := List.mem_map.mp inBase
      have named := key?_of_mem_declaredMembers sources declared
      exact declaringType_ne_of_inherited sources named link other inherited
        (Prod.mk.inj same).1.symm

/-- **Records compose along inheritance.** In the program of any modules the record of a class whose
base is a declared class or an instantiation of one names that base and the ancestors of the class
behind it, and lists its own members before those of that record, which differ in being inherited.
Without such a base it lists its own members only. No record lists a member twice. -/
theorem describeType_composes (sources : List SourceModule) (settings : Settings) :
    let index := (ofModules sources).index
    let record := index.describeType settings
    ∀ fqn symbol, index.lookupType? fqn = some symbol →
      let own := (index.declaredMembers symbol).map (index.describeMember settings symbol)
      (∀ member ∈ own, member.declaringType = fqn ∧ member.inherited = false) ∧
      (∀ base parent, index.base? symbol = some base →
        base.key?.bind index.lookupType? = some parent →
          (record symbol).ancestors = base.fqn :: (record parent).ancestors ∧
          (record symbol).members =
            own ++ (record parent).members.map fun member => { member with inherited := true }) ∧
      (∀ base, index.base? symbol = some base → base.key?.bind index.lookupType? = none →
        (record symbol).ancestors = [base.fqn] ∧ (record symbol).members = own) ∧
      (index.base? symbol = none →
        (record symbol).ancestors = [] ∧ (record symbol).members = own) ∧
      ((record symbol).members.map fun member => (member.declaringType, member.name)).Nodup := by
  intro index record fqn symbol declared own
  have acyclic : index.Acyclic := acyclic_ofModules sources
  obtain ⟨named, declaring⟩ := key?_of_lookupType? sources declared
  refine ⟨?_, ?_, ?_, ?_, ?_⟩
  · intro shown listed
    obtain ⟨member, inMembers, rfl⟩ := List.mem_map.mp listed
    have owner : member.declaringType = fqn := Option.some.inj
      ((key?_of_mem_declaredMembers sources inMembers).symm.trans named)
    exact ⟨owner, by simp [Index.describeMember, owner, declaring]⟩
  · intro base parent link parentDeclared
    obtain ⟨key, baseNamed, looked⟩ := Option.bind_eq_some_iff.mp parentDeclared
    have same : base.key? = parent.key? :=
      baseNamed.trans (key?_of_lookupType? sources looked).1.symm
    have foreign : ∀ member ∈ index.allMembers parent,
        member.declaringType ≠ symbol.declaringName := by
      rw [← Index.allMembers_congr same, declaring]
      exact declaringType_ne_of_inherited sources named link
    refine ⟨?_, ?_⟩
    · rw [Index.ancestors_describeType, Index.ancestors_describeType,
        acyclic.ancestors_eq_cons link, List.map_cons, Index.ancestors_congr same]
    · rw [Index.members_describeType, Index.members_describeType,
        acyclic.allMembers_eq_append link, List.map_append, Index.allMembers_congr same,
        Index.map_describeMember_of_foreign settings symbol parent foreign]
  · intro base link undeclared
    obtain ⟨plain, ended⟩ := eq_nil_of_undeclared sources undeclared
    refine ⟨?_, ?_⟩
    · rw [Index.ancestors_describeType, acyclic.ancestors_eq_cons link,
        Index.ancestors_eq_nil ended, List.map_cons, List.map_nil]
    · rw [Index.members_describeType, acyclic.allMembers_eq_append link,
        Index.allMembers_of_base?_eq_none ended, plain, List.append_nil]
  · intro ended
    refine ⟨?_, ?_⟩
    · rw [Index.ancestors_describeType, Index.ancestors_eq_nil ended, List.map_nil]
    · rw [Index.members_describeType, Index.allMembers_of_base?_eq_none ended]
  · rw [Index.members_describeType, List.map_map]
    exact nodup_allMembers sources symbol

/-- The record of the class of the sample that overrides a property is put together from that of its
base, which derives from an instantiation. -/
theorem describeType_of_layered :
    let index := (ofModules [Sample.layered]).index
    let record := index.describeType {}
    ∃ symbol base parent, index.lookupType? "builtins.C" = some symbol ∧
      index.base? symbol = some base ∧ base.key?.bind index.lookupType? = some parent ∧
      (record symbol).ancestors = base.fqn :: (record parent).ancestors ∧
      (record parent).ancestors = ["builtins.A[builtins.C]"] ∧
      (record symbol).members =
        (index.declaredMembers symbol).map (index.describeMember {} symbol) ++
          (record parent).members.map fun member => { member with inherited := true } := by
  intro index record
  have declared : (index.lookupType? "builtins.C").isSome = true := by decide +kernel
  have linked : ((index.lookupType? "builtins.C").bind index.base?).isSome = true := by
    decide +kernel
  have based : (((index.lookupType? "builtins.C").bind index.base?).bind fun base =>
      base.key?.bind index.lookupType?).isSome = true := by decide +kernel
  have inherited : ((((index.lookupType? "builtins.C").bind index.base?).bind fun base =>
      base.key?.bind index.lookupType?).map fun parent => (record parent).ancestors) =
        some ["builtins.A[builtins.C]"] := by decide +kernel
  obtain ⟨symbol, looked⟩ := Option.isSome_iff_exists.mp declared
  rw [looked, Option.bind_some] at linked based inherited
  obtain ⟨base, link⟩ := Option.isSome_iff_exists.mp linked
  rw [link, Option.bind_some] at based inherited
  obtain ⟨parent, parentLooked⟩ := Option.isSome_iff_exists.mp based
  rw [parentLooked, Option.map_some] at inherited
  obtain ⟨_, composed, _⟩ := describeType_composes [Sample.layered] {} _ symbol looked
  obtain ⟨ancestors, members⟩ := composed base parent link parentLooked
  exact ⟨symbol, base, parent, looked, link, parentLooked, ancestors, Option.some.inj inherited,
    members⟩

end Program

end TypeCatalog
