import TypeCatalog.Proofs.ClassIndex
import TypeCatalog.Proofs.Collecting

/-! # Lineages of programs

The ancestors of a type are read up to the number of bases. A chain of bases that ends is read whole
(`TypeCatalog.Index.ancestors_of_run`), and where bases have no cycle every chain ends
(`TypeCatalog.Index.Acyclic.run_ancestors`). The bases of a program have none: every cycle that its
classes write is cut in one place (`TypeCatalog.Program.lineages_end_and_cycles_are_cut_once`).
-/

namespace TypeCatalog

namespace Index

variable {index : Index}

/-! ## Chains of bases -/

theorem ancestorsUpTo_eq (index : Index) (count : Nat) (symbol : TypeSymbol) :
    index.ancestorsUpTo count symbol = chainUpTo index.base? count symbol := by
  induction count generalizing symbol with
  | zero => rfl
  | succ count ih =>
      rw [ancestorsUpTo, chainUpTo]
      cases index.base? symbol with
      | none => rfl
      | some base => simp only [ih]

theorem base?_congr {left right : TypeSymbol} (same : left.key? = right.key?) :
    index.base? left = index.base? right := by
  rw [base?, base?, same]

/-- A type with a base is kept under one of the names that bases are known for. -/
theorem exists_key_of_base?_ne_none (symbol : TypeSymbol) (based : index.base? symbol ≠ none) :
    ∃ key ∈ index.bases.keys, symbol.key? = some key := by
  obtain ⟨base, link⟩ := Option.ne_none_iff_exists'.mp based
  obtain ⟨key, named, found⟩ := Option.bind_eq_some_iff.mp link
  exact ⟨key, Table.isSome_find?_iff.mp (by simp [found]), named⟩

theorem length_le_of_run {symbol : TypeSymbol} {chain : List TypeSymbol}
    (run : Run index.base? symbol chain) : chain.length ≤ index.bases.size := by
  have bound := run.length_le (fun _ _ same => base?_congr same) exists_key_of_base?_ne_none
  simpa only [Table.keys, Table.size, List.length_map] using bound

/-- The ancestors of a type are its whole chain of bases when that ends. -/
theorem ancestors_of_run {symbol : TypeSymbol} {chain : List TypeSymbol}
    (run : Run index.base? symbol chain) : index.ancestors symbol = chain := by
  rw [ancestors, ancestorsUpTo_eq]
  exact run.chainUpTo_eq (length_le_of_run run)

/-- A chain of keys that ends is the chain of keys of types that ends. -/
theorem exists_run_of_reaches {key last : String} (ends : Reaches (baseKey? index.bases) key last)
    (ended : baseKey? index.bases last = none) {symbol : TypeSymbol}
    (named : symbol.key? = some key) : ∃ chain, Run index.base? symbol chain := by
  induction ends using Relation.ReflTransGen.head_induction_on generalizing symbol with
  | refl =>
      cases link : index.base? symbol with
      | none => exact ⟨[], .stop link⟩
      | some base =>
          have nameless : base.key? = none := by
            rw [base?, named, Option.bind_some] at link
            rw [baseKey?, link, Option.bind_some] at ended
            exact ended
          exact ⟨[base], .step link (.stop (by rw [base?, nameless, Option.bind_none]))⟩
  | head link _ ih =>
      obtain ⟨base, found, keyed⟩ := Option.bind_eq_some_iff.mp link
      obtain ⟨chain, run⟩ := ih keyed
      exact ⟨base :: chain, .step (by rw [base?, named, Option.bind_some, found]) run⟩

/-- The ancestors of a type are reached by keys. -/
theorem reaches_of_mem_run {symbol : TypeSymbol} {chain : List TypeSymbol}
    (run : Run index.base? symbol chain) {key other : String} (named : symbol.key? = some key)
    {ancestor : TypeSymbol} (member : ancestor ∈ chain) (keyed : ancestor.key? = some other) :
    ∃ next, baseKey? index.bases key = some next ∧ Reaches (baseKey? index.bases) next other := by
  induction run generalizing key with
  | stop => simp at member
  | @step value base rest link run ih =>
      rw [base?, named, Option.bind_some] at link
      rcases List.mem_cons.mp member with rfl | later
      · exact ⟨other, by rw [baseKey?, link, Option.bind_some, keyed], Reaches.refl _⟩
      · cases baseNamed : base.key? with
        | none =>
            cases run with
            | stop => simp at later
            | step next => rw [base?, baseNamed] at next; simp at next
        | some next =>
            obtain ⟨following, step, reached⟩ := ih baseNamed later
            exact ⟨next, by rw [baseKey?, link, Option.bind_some, baseNamed],
              Reaches.head step reached⟩

/-! ## Bases without cycles -/

/-- The bases of an index have no cycle. -/
def Acyclic (index : Index) : Prop := ∀ key, ¬ OnCycle (baseKey? index.bases) key

namespace Acyclic

/-- Every chain of bases ends, and the ancestors of a type are its whole chain. -/
theorem run_ancestors (acyclic : index.Acyclic) (symbol : TypeSymbol) :
    Run index.base? symbol (index.ancestors symbol) := by
  obtain ⟨chain, run⟩ : ∃ chain, Run index.base? symbol chain := by
    cases named : symbol.key? with
    | none => exact ⟨[], .stop (by rw [base?, named, Option.bind_none])⟩
    | some key =>
        rcases BaseLinks.closingLink?_cases (.start : Trail (baseKey? index.bases) key key [])
            (Nat.le_add_right index.bases.size 0) with
          ⟨entry, _, _, enters, _⟩ | ⟨_, last, ends, ended⟩
        · exact absurd enters.onCycle (acyclic entry)
        · exact exists_run_of_reaches ends ended named
  rw [ancestors_of_run run]
  exact run

/-- The ancestors of a type with a base are the base and the ancestors of the base. -/
theorem ancestors_eq_cons (acyclic : index.Acyclic) {symbol base : TypeSymbol}
    (link : index.base? symbol = some base) :
    index.ancestors symbol = base :: index.ancestors base :=
  ancestors_of_run (.step link (acyclic.run_ancestors base))

/-- No ancestor of a type has its key. -/
theorem key?_ne_of_mem_ancestors (acyclic : index.Acyclic) {symbol ancestor : TypeSymbol}
    {key : String} (named : symbol.key? = some key)
    (member : ancestor ∈ index.ancestors symbol) : ancestor.key? ≠ some key := by
  intro same
  exact acyclic key (reaches_of_mem_run (acyclic.run_ancestors symbol) named member same)

end Acyclic

theorem ancestors_eq_nil {symbol : TypeSymbol} (base : index.base? symbol = none) :
    index.ancestors symbol = [] :=
  ancestors_of_run (.stop base)

theorem ancestors_congr {left right : TypeSymbol} (same : left.key? = right.key?) :
    index.ancestors left = index.ancestors right := by
  rw [ancestors, ancestors]
  cases index.bases.size with
  | zero => rfl
  | succ count => rw [ancestorsUpTo, ancestorsUpTo, base?_congr same]

end Index

/-! ## Warnings -/

namespace NameScope

theorem level_of_mem_attributeNotices (scope : NameScope) (enclosing : List String)
    (target : String) (expr : Syntax.Expr) :
    ∀ notice ∈ scope.attributeNotices enclosing target expr, notice.level ≠ .warning := by
  intro notice member
  unfold attributeNotices at member
  split at member
  · obtain ⟨_, _, rfl⟩ := List.mem_map.mp member
    simp [Notice.level]
  · simp at member

theorem level_of_mem_decoratorNotices (scope : NameScope) (enclosing : List String)
    (target : String) (decorators : List Syntax.Expr) :
    ∀ notice ∈ scope.decoratorNotices enclosing target decorators, notice.level ≠ .warning := by
  intro notice member
  obtain ⟨decorator, _, inside⟩ := List.mem_flatMap.mp member
  exact scope.level_of_mem_attributeNotices enclosing target decorator notice inside

end NameScope

namespace ClassReading

/-- Reading a class body tells of skipped arguments only. -/
theorem level_of_mem_notices (reading : ClassReading) :
    ∀ notice ∈ reading.notices, notice.level ≠ .warning := by
  intro notice member
  obtain ⟨statement, _, inStatement⟩ := List.mem_flatMap.mp member
  cases statement with
  | line parts =>
      obtain ⟨part, _, inPart⟩ := List.mem_flatMap.mp inStatement
      cases part with
      | annotated target type value =>
          simp only [simpleNotices, fieldNotices] at inPart
          split at inPart
          · obtain ⟨marker, _, inside⟩ := List.mem_flatMap.mp inPart
            exact reading.scope.level_of_mem_attributeNotices _ _ marker notice inside
          · simp at inPart
      | _ => simp [simpleNotices] at inPart
  | functionStatement header body =>
      exact reading.scope.level_of_mem_decoratorNotices _ _ header.decorators notice inStatement
  | _ => simp [statementNotices] at inStatement

end ClassReading

namespace Program

variable (sources : List SourceModule)

/-- The notices of a program, step by step. -/
private theorem notices_ofModules {found : Declarations}
    (collected : (ofModules sources).declarations = found) : ∃ units classes,
    (ofModules sources).notices = found.notices ++ found.classes.flatMap found.decoratorNotices ++
      (found.linkBases found.types).notices ++ memberNotices found found.types ++
      [.built units classes] := by
  subst collected
  exact ⟨_, _, rfl⟩

/-- The warnings of a program tell of the cycles that are cut. -/
theorem warnings_ofModules {found : Declarations}
    (collected : (ofModules sources).declarations = found) :
    ((ofModules sources).notices.filter fun notice => notice.level = .warning) =
      (found.linkBases found.types).notices := by
  have redeclared : ∀ notice ∈ found.notices, notice.level ≠ .warning := by
    intro notice member
    subst collected
    obtain ⟨_, _, rfl⟩ := Declarations.notices_ofUnits _ notice member
    simp [Notice.level]
  have decorators : ∀ notice ∈ found.classes.flatMap found.decoratorNotices,
      notice.level ≠ .warning := by
    intro notice member
    obtain ⟨entry, _, inside⟩ := List.mem_flatMap.mp member
    exact NameScope.level_of_mem_decoratorNotices _ _ _ _ notice inside
  have bodies : ∀ notice ∈ memberNotices found found.types, notice.level ≠ .warning := by
    intro notice member
    obtain ⟨entry, _, inside⟩ := List.mem_flatMap.mp member
    exact ClassReading.level_of_mem_notices _ notice inside
  have cuts : ∀ notice ∈ (found.linkBases found.types).notices, notice.level = .warning := by
    intro notice member
    obtain ⟨_, _, rfl, _⟩ := (cutAll_cutSoFar _ _).warnings notice member
    rfl
  obtain ⟨units, classes, steps⟩ := notices_ofModules sources collected
  rw [steps, List.filter_append, List.filter_append, List.filter_append, List.filter_append,
    List.filter_eq_nil_iff.mpr fun notice member => by simpa using redeclared notice member,
    List.filter_eq_nil_iff.mpr fun notice member => by simpa using decorators notice member,
    List.filter_eq_self.mpr fun notice member => by simpa using cuts notice member,
    List.filter_eq_nil_iff.mpr fun notice member => by simpa using bodies notice member]
  simp [Notice.level]

/-! ## Programs -/

theorem find?_bases_ofModules (key : String) :
    (ofModules sources).index.bases.find? key =
      ((ofModules sources).declarations.linkBases
        (ofModules sources).declarations.types).bases.find? key := by
  rw [bases_ofModules, Declarations.find?_bases_classIndex]

theorem acyclic_ofModules : (ofModules sources).index.Acyclic := by
  intro key on
  have cut : ¬ OnCycle (baseKey? ((ofModules sources).declarations.linkBases
      (ofModules sources).declarations.types).bases) key := Declarations.linkBases_acyclic key
  refine cut (on.mono ?_)
  intro current base link
  exact (baseKey?_congr (find?_bases_ofModules sources current)).symm.trans link

/-- A program has no more bases than classes. -/
theorem size_bases_ofModules_le :
    (ofModules sources).index.bases.size ≤ (ofModules sources).declarations.classes.length := by
  have inside : (ofModules sources).index.bases.keys ⊆ (ofModules sources).declarations.fqns := by
    intro key member
    obtain ⟨base, found⟩ := Option.isSome_iff_exists.mp (Table.isSome_find?_iff.mpr member)
    rw [find?_bases_ofModules] at found
    exact Declarations.mem_fqns_of_find?_linkBases found
  have bound := List.Nodup.length_le_of_subset
    (ofModules sources).index.bases.keys_nodup inside
  simpa only [Table.size, Declarations.fqns, List.length_map] using bound

/-- **Chains of bases end, and every cycle is cut in one place.** In the program of any modules the
ancestors of a type are its whole chain of bases, and no class is its own ancestor. Bases that
classes write off the cycles are kept, every cycle is cut at the type before the one through which
the first class that reaches it enters it, and the warnings tell of these cuts and of nothing
else. -/
theorem lineages_end_and_cycles_are_cut_once (sources : List SourceModule) :
    let program := ofModules sources
    let found := program.declarations
    let written := found.writtenBases found.types
    let warnings := program.notices.filter fun notice => notice.level = .warning
    (∀ symbol, Run program.index.base? symbol (program.index.ancestors symbol) ∧
      (program.index.ancestors symbol).length ≤ found.classes.length + 1) ∧
    (∀ entry ∈ found.classes, ∀ symbol, symbol.key? = some entry.fqn →
      ∀ ancestor ∈ program.index.ancestors symbol, ancestor.key? ≠ some entry.fqn) ∧
    (∀ entry ∈ found.classes, ¬ OnCycle (baseKey? written) entry.fqn →
      program.index.bases.find? entry.fqn = written.find? entry.fqn) ∧
    (∀ key, OnCycle (baseKey? written) key → ∃ entry dropped,
      CutOnce written found.fqns program.index.bases warnings key entry dropped) ∧
    (∀ warning ∈ warnings, ∃ through dropped, warning = .cycleCut through dropped ∧
      OnCycle (baseKey? written) through) := by
  intro program found written warnings
  have acyclic : program.index.Acyclic := acyclic_ofModules sources
  have cuts : CutSoFar written found.fqns (found.linkBases found.types) := cutAll_cutSoFar _ _
  have told : warnings = (found.linkBases found.types).notices := warnings_ofModules sources rfl
  refine ⟨?_, ?_, ?_, ?_, ?_⟩
  · intro symbol
    have run := acyclic.run_ancestors symbol
    refine ⟨run, ?_⟩
    calc (program.index.ancestors symbol).length
        ≤ program.index.bases.size := Index.length_le_of_run run
      _ ≤ found.classes.length := size_bases_ofModules_le sources
      _ ≤ found.classes.length + 1 := Nat.le_succ _
  · intro entry _ symbol named ancestor member
    exact acyclic.key?_ne_of_mem_ancestors named member
  · intro entry _ off
    exact (find?_bases_ofModules sources entry.fqn).trans (cuts.kept entry.fqn off)
  · intro key on
    obtain ⟨entry, dropped, cut⟩ :=
      cutAll_cutOnce (fun _ member => Declarations.mem_fqns_of_mem_writtenBases member) on
    refine ⟨entry, dropped, ?_⟩
    rw [told]
    exact cut.congr (find?_bases_ofModules sources)
  · rw [told]
    exact cuts.warnings

end Program

/-! ## A program with a cycle -/

namespace Sample

open Syntax

/-- A name that stands on a line. -/
def name (line : Nat) (identifier : Identifier) : Expr :=
  .name ⟨identifier.text, ⟨line, 8⟩⟩ identifier

/-- A class statement that stands on a line. -/
def classOn (line : Nat) (identifier : Identifier) (bases : List Expr) (body : Suite) :
    Statement :=
  .classStatement ⟨⟨line, 0⟩, identifier, [], bases.map .positional⟩ body

def a : Identifier := ⟨"A", by decide +kernel⟩

def b : Identifier := ⟨"B", by decide +kernel⟩

def c : Identifier := ⟨"C", by decide +kernel⟩

/-- A class that leads into a cycle of two others, of which one derives from an instantiation of
the other. -/
def cyclic : SourceModule where
  path := "m.py"
  name := "m"
  module := ⟨[classOn 1 c [name 1 a] (.inline []), classOn 2 a [name 2 b] (.inline []),
    classOn 3 b [.subscript ⟨"A[C]", ⟨3, 8⟩⟩ (name 3 a) [.index (name 3 c)]] (.inline [])],
    by decide +kernel⟩

end Sample

namespace Program

/-- The cycle of the sample is cut, and the class that leads into it keeps its base. -/
theorem lineages_of_cyclic :
    let program := ofModules [Sample.cyclic]
    let found := program.declarations
    let written := found.writtenBases found.types
    let warnings := program.notices.filter fun notice => notice.level = .warning
    (∃ entry ∈ found.classes, entry.fqn = "m.C" ∧
      ∀ ancestor ∈ program.index.ancestors (.externalType "m.C"),
        ancestor.key? ≠ some entry.fqn) ∧
    (¬ OnCycle (baseKey? written) "m.C" ∧
      program.index.bases.find? "m.C" = written.find? "m.C") ∧
    OnCycle (baseKey? written) "m.A" ∧ ∃ entry dropped,
      CutOnce written found.fqns program.index.bases warnings "m.A" entry dropped := by
  intro program found written warnings
  obtain ⟨_, own, off, on, _⟩ := lineages_end_and_cycles_are_cut_once [Sample.cyclic]
  have fromC : baseKey? written "m.C" = some "m.A" := by decide +kernel
  have fromA : baseKey? written "m.A" = some "m.B" := by decide +kernel
  have fromB : baseKey? written "m.B" = some "m.A" := by decide +kernel
  have cycle : OnCycle (baseKey? written) "m.A" := ⟨_, fromA, Reaches.step fromB⟩
  have tail : ¬ OnCycle (baseKey? written) "m.C" := by
    intro tailOn
    have back := tailOn.reaches_back (Reaches.step fromC)
    have around : "m.C" = "m.A" ∨ "m.C" = "m.B" := by
      generalize "m.C" = last at back ⊢
      induction back with
      | refl => exact Or.inl rfl
      | tail _ link ih =>
          rcases ih with rfl | rfl
          · exact Or.inr (Option.some.inj (fromA.symm.trans link)).symm
          · exact Or.inl (Option.some.inj (fromB.symm.trans link)).symm
    exact absurd around (by decide)
  have listed : "m.C" ∈ found.fqns := by decide +kernel
  obtain ⟨entry, declared, named⟩ := List.mem_map.mp listed
  refine ⟨⟨entry, declared, named, ?_⟩, ⟨tail, ?_⟩, cycle, on "m.A" cycle⟩
  · exact own entry declared (.externalType "m.C") (congrArg some named.symm)
  · exact named ▸ off entry declared (named ▸ tail)

end Program

end TypeCatalog
