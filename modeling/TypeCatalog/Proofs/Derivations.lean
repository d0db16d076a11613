import TypeCatalog.Proofs.RecordComposition
import TypeCatalog.Proofs.TypeForms

/-! # Derivations

A type derives from the definitions of its ancestors, while the chain of its ancestors goes on at the
names under which bases are kept. The two agree where an ancestor has a definition, because every
type that an expression stands for is kept under its definition if it has one
(`TypeCatalog.TypeScope.Built.keyedByDefinition`). So derivation is a strict order on the declared
types of a program (`TypeCatalog.Program.derivesFrom_isStrict`).
-/

namespace TypeCatalog

open Syntax

/-! ## Types that are kept under their definition -/

namespace TypeSymbol

/-- The base and the members of a type that has a definition are kept under it. -/
def KeyedByDefinition (symbol : TypeSymbol) : Prop :=
  ∀ definition, symbol.definition = some definition → symbol.key? = some definition

theorem keyedByDefinition_plain (fqn : String) (attributes : List Attribute)
    (location : Option Location) (external : Bool) :
    (plain fqn attributes location external).KeyedByDefinition := fun _ => id

/-- A name that stands for no known type is kept under itself, but it has no definition. -/
theorem keyedByDefinition_unresolved (fqn name : String) :
    (unresolved fqn name).KeyedByDefinition := by
  intro definition defined
  simp [unresolved] at defined

theorem keyedByDefinition_instantiation (definition : Option String) (arguments : List TypeSymbol)
    (external : Bool) : (instantiation definition arguments external).KeyedByDefinition :=
  fun _ => id

end TypeSymbol

namespace TypeScope

open TypeSymbol

variable {scope : TypeScope}

/-- The declared types among which expressions are read are kept under their definitions. -/
def KeyedTypes (scope : TypeScope) : Prop :=
  ∀ key symbol, scope.types.find? key = some symbol → symbol.KeyedByDefinition

/-- Every type that an expression can stand for is kept under its definition. -/
theorem Built.keyedByDefinition (declared : scope.KeyedTypes) {symbol : TypeSymbol}
    (built : scope.Built symbol) : symbol.KeyedByDefinition := by
  cases built with
  | nothing => exact keyedByDefinition_plain _ _ _ _
  | unresolved fqn name => exact keyedByDefinition_unresolved fqn name
  | declared known => exact declared _ symbol known
  | undeclared unknown => exact keyedByDefinition_plain _ _ _ _
  | instantiation each known => exact keyedByDefinition_instantiation _ _ _

end TypeScope

/-! ## Ancestors of ancestors -/

namespace Index

variable {index : Index}

/-- A type derives from the definitions of its ancestors. -/
theorem derivesFrom_iff {symbol : TypeSymbol} {definition : String} :
    index.derivesFrom symbol definition = true ↔
      ∃ ancestor ∈ index.ancestors symbol, ancestor.definition = some definition := by
  simp [derivesFrom, findAncestor?]

namespace Acyclic

/-- Every ancestor of a type is the base of some type, and its own ancestors are among those of the
first type. -/
theorem of_mem_ancestors (acyclic : index.Acyclic) {symbol ancestor : TypeSymbol}
    (member : ancestor ∈ index.ancestors symbol) :
    (∃ heir, index.base? heir = some ancestor) ∧
      index.ancestors ancestor ⊆ index.ancestors symbol := by
  have run := acyclic.run_ancestors symbol
  generalize index.ancestors symbol = chain at run member
  induction run with
  | stop => simp at member
  | @step symbol base rest link run ih =>
      rcases List.mem_cons.mp member with rfl | further
      · rw [ancestors_of_run run]
        exact ⟨⟨symbol, link⟩, List.subset_cons_self ancestor rest⟩
      · obtain ⟨isBase, inside⟩ := ih further
        exact ⟨isBase, List.Subset.trans inside (List.subset_cons_self base rest)⟩

/-- What a type derives from, step by step. -/
theorem derivesFrom_iff_base (acyclic : index.Acyclic) (symbol : TypeSymbol)
    (definition : String) :
    index.derivesFrom symbol definition = true ↔ ∃ base, index.base? symbol = some base ∧
      (base.definition = some definition ∨ index.derivesFrom base definition = true) := by
  cases link : index.base? symbol with
  | none => simp [derivesFrom_iff, ancestors_eq_nil link]
  | some base => simp [derivesFrom_iff, acyclic.ancestors_eq_cons link]

end Acyclic

/-! ## Bases that are kept under their definitions -/

/-- The bases in an index are kept under their definitions. -/
def KeyedBases (index : Index) : Prop :=
  ∀ symbol base, index.base? symbol = some base → base.KeyedByDefinition

namespace KeyedBases

/-- An ancestor with a definition is kept under it. -/
theorem key?_of_mem_ancestors (keyed : index.KeyedBases) (acyclic : index.Acyclic)
    {symbol ancestor : TypeSymbol} (member : ancestor ∈ index.ancestors symbol)
    {definition : String} (defined : ancestor.definition = some definition) :
    ancestor.key? = some definition := by
  obtain ⟨⟨heir, link⟩, _⟩ := acyclic.of_mem_ancestors member
  exact keyed heir ancestor link definition defined

theorem derivesFrom_irrefl (keyed : index.KeyedBases) (acyclic : index.Acyclic)
    {symbol : TypeSymbol} {key : String} (named : symbol.key? = some key) :
    index.derivesFrom symbol key = false := by
  by_contra derives
  obtain ⟨ancestor, member, defined⟩ := derivesFrom_iff.mp (Bool.of_not_eq_false derives)
  exact acyclic.key?_ne_of_mem_ancestors named member
    (keyed.key?_of_mem_ancestors acyclic member defined)

/-- An ancestor that has the key of a type as its definition has the ancestors of that type. -/
theorem derivesFrom_trans (keyed : index.KeyedBases) (acyclic : index.Acyclic)
    {symbol middle : TypeSymbol} {key definition : String} (named : middle.key? = some key)
    (first : index.derivesFrom symbol key = true)
    (second : index.derivesFrom middle definition = true) :
    index.derivesFrom symbol definition = true := by
  obtain ⟨ancestor, member, defined⟩ := derivesFrom_iff.mp first
  obtain ⟨further, inMiddle, isDefinition⟩ := derivesFrom_iff.mp second
  have same : ancestor.key? = middle.key? :=
    (keyed.key?_of_mem_ancestors acyclic member defined).trans named.symm
  rw [← ancestors_congr same] at inMiddle
  exact derivesFrom_iff.mpr ⟨further, (acyclic.of_mem_ancestors member).2 inMiddle, isDefinition⟩

end KeyedBases

end Index

/-! ## Programs -/

namespace Declarations

variable {found : Declarations}

theorem keyedTypes_typeScope (unit : SourceUnit) :
    (found.typeScope found.types unit).KeyedTypes := by
  intro key symbol known
  obtain ⟨entry, _, _, rfl⟩ := find?_types_iff.mp known
  exact TypeSymbol.keyedByDefinition_plain _ _ _ _

end Declarations

namespace Program

variable (sources : List SourceModule)

theorem keyedBases_ofModules : (ofModules sources).index.KeyedBases := by
  intro symbol base link
  obtain ⟨key, _, linked⟩ := Option.bind_eq_some_iff.mp link
  rw [find?_bases_ofModules] at linked
  obtain ⟨unit, built⟩ := Declarations.exists_built_of_find?_writtenBases
    (Declarations.find?_writtenBases_of_find?_linkBases linked)
  exact built.keyedByDefinition (Declarations.keyedTypes_typeScope unit)

/-- **Derivation is a strict order.** In the program of any modules, whatever cycles its classes
write, a type derives from the definition of its base, from what its base derives from, and from
nothing else. No declared type derives from itself, and a type that derives from a declared type
derives from everything that this type derives from. So where the serializable types are those that
derive from a root, a type that derives from a serializable declared type is serializable. -/
theorem derivesFrom_isStrict (sources : List SourceModule) :
    let index := (ofModules sources).index
    (∀ symbol definition, index.derivesFrom symbol definition = true ↔
      ∃ base, index.base? symbol = some base ∧
        (base.definition = some definition ∨ index.derivesFrom base definition = true)) ∧
    (∀ fqn symbol, index.lookupType? fqn = some symbol → index.derivesFrom symbol fqn = false) ∧
    (∀ symbol fqn middle definition, index.lookupType? fqn = some middle →
      index.derivesFrom symbol fqn = true → index.derivesFrom middle definition = true →
        index.derivesFrom symbol definition = true) ∧
    (∀ settings : Settings, settings.rootBase ≠ none →
      ∀ symbol fqn middle, index.lookupType? fqn = some middle →
        index.derivesFrom symbol fqn = true → index.isSerializable settings middle = true →
          index.isSerializable settings symbol = true) := by
  intro index
  have acyclic : index.Acyclic := acyclic_ofModules sources
  have keyed : index.KeyedBases := keyedBases_ofModules sources
  have transitive : ∀ symbol fqn middle definition, index.lookupType? fqn = some middle →
      index.derivesFrom symbol fqn = true → index.derivesFrom middle definition = true →
        index.derivesFrom symbol definition = true :=
    fun symbol fqn middle definition declared =>
      keyed.derivesFrom_trans acyclic (key?_of_lookupType? sources declared).1
  refine ⟨acyclic.derivesFrom_iff_base, ?_, transitive, ?_⟩
  · intro fqn symbol declared
    exact keyed.derivesFrom_irrefl acyclic (key?_of_lookupType? sources declared).1
  · intro settings rooted symbol fqn middle declared derives serializable
    obtain ⟨root, isRoot⟩ := Option.ne_none_iff_exists'.mp rooted
    rw [Index.isSerializable, isRoot] at serializable ⊢
    exact transitive symbol fqn middle root declared derives serializable

/-- In a program with a cycle and with an instantiation among its bases, no class on the cycle
derives from itself, and a class derives from what its base is an instantiation of. -/
theorem derivesFrom_of_cyclic_and_layered :
    let index := (ofModules [Sample.cyclic, Sample.layered]).index
    let settings : Settings := { rootBase := some "builtins.A" }
    (∃ symbol, index.lookupType? "m.A" = some symbol ∧
      index.derivesFrom symbol "m.A" = false) ∧
    ∃ symbol middle, index.lookupType? "builtins.C" = some symbol ∧
      index.lookupType? "builtins.B" = some middle ∧
      index.derivesFrom symbol "builtins.B" = true ∧
      index.derivesFrom middle "builtins.A" = true ∧
      index.derivesFrom symbol "builtins.A" = true ∧
      index.isSerializable settings symbol = true := by
  intro index settings
  obtain ⟨_, irreflexive, transitive, serializable⟩ :=
    derivesFrom_isStrict [Sample.cyclic, Sample.layered]
  have onCycle : (index.lookupType? "m.A").isSome = true := by decide +kernel
  have first : ((index.lookupType? "builtins.C").any
      fun symbol => index.derivesFrom symbol "builtins.B") = true := by decide +kernel
  have second : ((index.lookupType? "builtins.B").any fun middle =>
      index.derivesFrom middle "builtins.A") = true := by decide +kernel
  obtain ⟨cyclic, cyclicDeclared⟩ := Option.isSome_iff_exists.mp onCycle
  obtain ⟨symbol, declared, derives⟩ := (Option.any_eq_true _ _).mp first
  obtain ⟨middle, middleDeclared, middleDerives⟩ := (Option.any_eq_true _ _).mp second
  refine ⟨⟨cyclic, cyclicDeclared, irreflexive "m.A" cyclic cyclicDeclared⟩, symbol, middle,
    declared, middleDeclared, derives, middleDerives, ?_, ?_⟩
  · exact transitive symbol "builtins.B" middle "builtins.A" middleDeclared derives middleDerives
  · exact serializable settings (by simp [settings]) symbol "builtins.B" middle middleDeclared
      derives middleDerives

end Program

end TypeCatalog
