import TypeCatalog.Proofs.Derivations
import TypeCatalog.Proofs.EffectiveMembers
import TypeCatalog.Proofs.IndexHistories

/-! # What adding a type leaves alone

To add a type writes to the tables of an index under the name of the type, and under the identities
of its members. The lineage of a type, with everything that is read along it, depends on the names
under which the type and its ancestors are kept, so it stays when none of them is the name of the
added type (`TypeCatalog.Index.addType_leaves`). That holds for lineages that end, and for those
that run in a circle as far as they are followed.
-/

namespace TypeCatalog

namespace Index

variable {index : Index}

/-! ## Lineages as far as they are followed -/

theorem ancestorsUpTo_succ {symbol base : TypeSymbol} (link : index.base? symbol = some base)
    (count : Nat) :
    index.ancestorsUpTo (count + 1) symbol = base :: index.ancestorsUpTo count base := by
  rw [ancestorsUpTo, link]

/-- Types that hold their bases hold all ancestors of each other. -/
theorem mem_of_mem_ancestorsUpTo {types : Set TypeSymbol}
    (closed : ∀ symbol ∈ types, ∀ base, index.base? symbol = some base → base ∈ types) (count : Nat)
    {symbol ancestor : TypeSymbol} (inside : symbol ∈ types)
    (member : ancestor ∈ index.ancestorsUpTo count symbol) : ancestor ∈ types := by
  induction count generalizing symbol with
  | zero => exact absurd member List.not_mem_nil
  | succ count ih =>
      cases link : index.base? symbol with
      | none => rw [ancestorsUpTo, link] at member; exact absurd member List.not_mem_nil
      | some base =>
          have baseInside := closed symbol inside base link
          rw [ancestorsUpTo_succ link] at member
          rcases List.mem_cons.mp member with rfl | further
          · exact baseInside
          · exact ih baseInside further

/-- A type derives from the definitions of all types that its chain of bases passes, however far
away they are and whether the chain ends or not. -/
theorem derivesFrom_iff_exists_upTo {symbol : TypeSymbol} {definition : String} :
    index.derivesFrom symbol definition = true ↔
      ∃ count, ∃ ancestor ∈ index.ancestorsUpTo count symbol,
        ancestor.definition = some definition := by
  rw [derivesFrom_iff]
  constructor
  · rintro ⟨ancestor, member, isDefinition⟩
    exact ⟨_, ancestor, member, isDefinition⟩
  · rintro ⟨count, ancestor, member, isDefinition⟩
    refine ⟨ancestor, ?_, isDefinition⟩
    rw [ancestorsUpTo_eq] at member
    have early := mem_chainUpTo_keys (fun _ _ same => base?_congr same)
      exists_key_of_base?_ne_none member
    rwa [Table.keys, List.length_map, ← ancestorsUpTo_eq] at early

/-! ## One addition -/

section

variable (added : TypeSymbol) (newBase : Option TypeSymbol) (members : List Member)

theorem base?_addType_of_ne {symbol : TypeSymbol} (apart : symbol.key? ≠ some added.fqn) :
    (index.addType added newBase members).base? symbol = index.base? symbol := by
  cases named : symbol.key? with
  | none => rw [base?, base?, named, Option.bind_none, Option.bind_none]
  | some key =>
      have differ : key ≠ added.fqn := fun same => apart (named.trans (congrArg some same))
      cases newBase with
      | none => rfl
      | some base =>
          rw [base?, base?, named, Option.bind_some, Option.bind_some]
          exact (Table.find?_insert _ _ _ _).trans (if_neg differ)

theorem declaredMembers_addType_of_ne {symbol : TypeSymbol} (apart : symbol.key? ≠ some added.fqn) :
    (index.addType added newBase members).declaredMembers symbol =
      index.declaredMembers symbol := by
  cases named : symbol.key? with
  | none => rw [declaredMembers, declaredMembers, named, Option.bind_none, Option.bind_none]
  | some key =>
      have differ : key ≠ added.fqn := fun same => apart (named.trans (congrArg some same))
      rw [declaredMembers_eq_membersOf _ named, declaredMembers_eq_membersOf _ named,
        membersOf_addType, if_neg differ]

/-- Only the identities of the added members get a new member. -/
theorem overridden?_addType_of_ne {member : Member}
    (apart : ∀ target, index.overrides.find? member.id = some target →
      ∀ other ∈ members, other.id ≠ target) :
    (index.addType added newBase members).overridden? member = index.overridden? member := by
  refine Option.bind_congr fun target isTarget => ?_
  rcases index.find?_memberIds_addType added newBase members target with
    ⟨other, listed, same, _⟩ | ⟨_, kept⟩
  · exact absurd same (apart target (Option.mem_def.mp isTarget) other listed)
  · exact kept

/-- Neither a type nor one of its ancestors is kept under a name. -/
def Avoids (index : Index) (symbol : TypeSymbol) (fqn : String) : Prop :=
  symbol.key? ≠ some fqn ∧
    ∀ count, ∀ ancestor ∈ index.ancestorsUpTo count symbol, ancestor.key? ≠ some fqn

/-- A name under which no base is kept can only be that of the type itself. -/
theorem avoids_of_bases {symbol : TypeSymbol} {fqn : String} (apart : symbol.key? ≠ some fqn)
    (unused : ∀ base ∈ index.bases.values, base.key? ≠ some fqn) : index.Avoids symbol fqn := by
  have closed : ∀ other ∈ {other : TypeSymbol | other.key? ≠ some fqn}, ∀ base,
      index.base? other = some base → base.key? ≠ some fqn := by
    intro other _ base link
    obtain ⟨key, _, found⟩ := Option.bind_eq_some_iff.mp link
    have kept : (key, base) ∈ index.bases.entries := Table.find?_eq_some_iff.mp found
    exact unused base (List.mem_map_of_mem kept)
  exact ⟨apart, fun count ancestor member => mem_of_mem_ancestorsUpTo closed count apart member⟩

/-- The base of a type avoids what the type avoids. -/
theorem Avoids.base {symbol base : TypeSymbol} {fqn : String} (avoids : index.Avoids symbol fqn)
    (link : index.base? symbol = some base) : index.Avoids base fqn := by
  refine ⟨avoids.2 1 base ?_, fun count ancestor member => avoids.2 (count + 1) ancestor ?_⟩ <;>
    rw [ancestorsUpTo_succ link]
  · exact List.mem_cons_self
  · exact List.mem_cons_of_mem _ member

variable {added}

/-- Step by step, a lineage that avoids the name of the added type stays as it is. -/
theorem ancestorsUpTo_addType {symbol : TypeSymbol} (avoids : index.Avoids symbol added.fqn)
    (count : Nat) : (index.addType added newBase members).ancestorsUpTo count symbol =
      index.ancestorsUpTo count symbol := by
  induction count generalizing symbol with
  | zero => rfl
  | succ count ih =>
      have kept := index.base?_addType_of_ne added newBase members avoids.1
      cases link : index.base? symbol with
      | none => rw [ancestorsUpTo, ancestorsUpTo, kept, link]
      | some base =>
          rw [ancestorsUpTo_succ link, ancestorsUpTo_succ (kept.trans link), ih (avoids.base link)]

theorem membersUpTo_addType {symbol : TypeSymbol} (avoids : index.Avoids symbol added.fqn)
    (count : Nat) : (index.addType added newBase members).membersUpTo count symbol =
      index.membersUpTo count symbol := by
  rw [membersUpTo, membersUpTo, ancestorsUpTo_addType newBase members avoids,
    declaredMembers_addType_of_ne added newBase members avoids.1]
  refine congrArg _ (List.flatMap_congr fun ancestor member => ?_)
  exact declaredMembers_addType_of_ne added newBase members (avoids.2 count ancestor member)

/-- A chain of bases that ends still ends. -/
theorem run_addType {symbol : TypeSymbol} {chain : List TypeSymbol}
    (avoids : index.Avoids symbol added.fqn) (run : Run index.base? symbol chain) :
    Run (index.addType added newBase members).base? symbol chain := by
  induction run with
  | stop ended =>
      exact .stop ((index.base?_addType_of_ne added newBase members avoids.1).trans ended)
  | step link _ ih =>
      exact .step ((index.base?_addType_of_ne added newBase members avoids.1).trans link)
        (ih (avoids.base link))

end

/-- **Adding a type is local.** When neither a type nor any of its ancestors is kept under the name
of an added type, the addition leaves the type's ancestors, all its members and its effective
members alone, however far its chain of bases is followed, and if the chain ends, also as a whole;
and the type derives from the same definitions as before. The member that a member overrides stays
unless it has the identity of one of the added members. -/
theorem addType_leaves (index : Index) (added : TypeSymbol) (newBase : Option TypeSymbol)
    (members : List Member) :
    let after := index.addType added newBase members
    (∀ symbol, symbol.key? ≠ some added.fqn →
      (∀ count, ∀ ancestor ∈ index.ancestorsUpTo count symbol, ancestor.key? ≠ some added.fqn) →
      (∀ count, after.ancestorsUpTo count symbol = index.ancestorsUpTo count symbol ∧
        after.membersUpTo count symbol = index.membersUpTo count symbol ∧
        after.effectiveMembersUpTo count symbol = index.effectiveMembersUpTo count symbol) ∧
      (∀ chain, Run index.base? symbol chain →
        after.ancestors symbol = index.ancestors symbol ∧
        after.allMembers symbol = index.allMembers symbol ∧
        after.effectiveMembers symbol = index.effectiveMembers symbol) ∧
      ∀ definition, after.derivesFrom symbol definition = index.derivesFrom symbol definition) ∧
    ∀ member, (∀ target, index.overrides.find? member.id = some target →
        ∀ other ∈ members, other.id ≠ target) →
      after.overridden? member = index.overridden? member := by
  intro after
  refine ⟨fun symbol apart inherited => ?_, fun member apart =>
    overridden?_addType_of_ne added newBase members apart⟩
  have avoids : index.Avoids symbol added.fqn := ⟨apart, inherited⟩
  have lineage := ancestorsUpTo_addType newBase members avoids
  have declared := membersUpTo_addType newBase members avoids
  refine ⟨fun count => ⟨lineage count, declared count, ?_⟩, fun chain run => ?_,
    fun definition => ?_⟩
  · rw [effectiveMembersUpTo, declared, effectiveMembersUpTo]
  · have runAfter := run_addType newBase members avoids run
    have own := index.declaredMembers_addType_of_ne added newBase members apart
    have ancestors : after.ancestors symbol = index.ancestors symbol := by
      rw [ancestors_of_run runAfter, ancestors_of_run run]
    have all : after.allMembers symbol = index.allMembers symbol := by
      rw [allMembers_eq, ancestors, own, allMembers_eq]
      refine congrArg _ (List.flatMap_congr fun ancestor member => ?_)
      exact declaredMembers_addType_of_ne added newBase members (inherited _ ancestor member)
    exact ⟨ancestors, all, by rw [effectiveMembers_eq, all, effectiveMembers_eq]⟩
  · rw [Bool.eq_iff_iff, derivesFrom_iff_exists_upTo, derivesFrom_iff_exists_upTo]
    simp only [after, lineage]

namespace Addition

/-- The property `x` of a type. -/
def property (owner : String) : Member :=
  ⟨owner ++ ".x", "x", owner, .property, none, [], none⟩

def root : TypeSymbol := .plain "m.Root" [] none false

def box : TypeSymbol := .plain "m.Box" [] none false

/-- An instantiation of `m.Box`, which is kept under the name of its definition. -/
def boxOfInt : TypeSymbol := .instantiation (some "m.Box") [.externalType "int"] false

def leaf : TypeSymbol := .plain "m.Leaf" [] none false

def left : TypeSymbol := .plain "m.Left" [] none false

def right : TypeSymbol := .plain "m.Right" [] none false

def late : TypeSymbol := .plain "m.Late" [] none false

/-- A chain of bases through an instantiation, and two types that are each other's base. -/
def layered : Index :=
  empty.after [.addType root none [property "m.Root"],
    .addType box (some root) [property "m.Box"], .addType leaf (some boxOfInt) [],
    .addType left (some right) [property "m.Left"],
    .addType right (some left) [], .addOverride (property "m.Box") (property "m.Root")]

end Addition

open Addition in
/-- A type that is added below others leaves what lies above it, and types in a circle. -/
theorem addType_leaves_layered :
    let after := layered.addType late (some leaf) [property "m.Late"]
    (layered.Avoids leaf late.fqn ∧ layered.Avoids left late.fqn) ∧
      (after.ancestors leaf = [boxOfInt, root] ∧
        after.effectiveMembers leaf = [property "m.Box"]) ∧
      (∀ count, after.ancestorsUpTo count left = layered.ancestorsUpTo count left) ∧
      after.derivesFrom leaf "m.Root" = true ∧
      after.overridden? (property "m.Box") = some (property "m.Root") := by
  intro after
  have unused : ∀ base ∈ layered.bases.values, base.key? ≠ some late.fqn := by decide
  have leafAvoids : layered.Avoids leaf late.fqn := avoids_of_bases (by decide) unused
  have leftAvoids : layered.Avoids left late.fqn := avoids_of_bases (by decide) unused
  have chain : Run layered.base? leaf [boxOfInt, root] := .step rfl (.step rfl (.stop rfl))
  obtain ⟨types, overrides⟩ := addType_leaves layered late (some leaf) [property "m.Late"]
  obtain ⟨_, ends, derives⟩ := types leaf leafAvoids.1 leafAvoids.2
  obtain ⟨ancestors, _, effective⟩ := ends _ chain
  obtain ⟨circle, _, _⟩ := types left leftAvoids.1 leftAvoids.2
  have target : layered.overrides.find? (property "m.Box").id = some "m.Root.x" := rfl
  have overridden := overrides (property "m.Box") fun other isTarget member listed => by
    rw [target, Option.some.injEq] at isTarget
    subst isTarget
    simp only [List.mem_singleton] at listed
    subst listed
    decide
  exact ⟨⟨leafAvoids, leftAvoids⟩, ⟨ancestors.trans rfl, effective.trans rfl⟩,
    fun count => (circle count).1, (derives "m.Root").trans rfl, overridden.trans rfl⟩

end Index

end TypeCatalog
