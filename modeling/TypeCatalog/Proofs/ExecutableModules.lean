import Mathlib.Data.List.TakeWhile
import TypeCatalog.Proofs.ImportTables
import TypeCatalog.Proofs.ModuleClasses
import TypeCatalog.Proofs.ScopedNames

/-! # Modules that can be executed

In a module that can be executed every base of a class is bound before the class is reached. As long
as what imports bind stands for no class of the module, the bases of such a module never run in a
circle: every class keeps its base, and nothing is warned of
(`TypeCatalog.Program.bases_of_executable`). A class that takes the place of an import of its name
is found under that name by its own base (`TypeCatalog.Program.shadowed_imports_are_cut`).
-/

namespace TypeCatalog

open Syntax

namespace Syntax

/-- The name of an expression that is a bare name. -/
def Expr.bareName? : Expr → Option String
  | .name _ identifier => some identifier.text
  | _ => none

theorem Expr.dotted?_of_bareName? {expr : Expr} {name : String}
    (bare : expr.bareName? = some name) : expr.dotted? = some name := by
  match expr, bare with
  | .name _ _, bare => exact bare

theorem Expr.dot_notMem_of_bareName? {expr : Expr} {name : String}
    (bare : expr.bareName? = some name) : '.' ∉ name.toList := by
  match expr, bare with
  | .name _ identifier, rfl => exact identifier.dot_notMem

end Syntax

namespace SourceModule

variable (source : SourceModule)

/-- Where the module stands. -/
def scope : ModuleScope := ⟨source.name, source.isPackage⟩

/-- The class statement at a position among the pieces. -/
def headerAt? (index : Nat) : Option ClassHeader :=
  (source.module.pieces[index]?).bind PlacedPiece.header?

/-- The names of the class statements before a position. -/
def classesBefore (index : Nat) : List String :=
  (source.module.pieces.take index).filterMap PlacedPiece.className?

/-- The names that imports of the module scope before a position bind. -/
def importsBefore (index : Nat) : List String :=
  (((source.module.pieces.take index).filter PlacedPiece.inModuleScope).flatMap
    (PlacedPiece.bindings source.scope)).map Binding.name

/-- A module that can be executed, as far as its classes go: they all stand in module scope, and
every base is a bare name that an import or a class statement before binds. -/
structure Executable : Prop where
  outermost : ∀ placed ∈ source.module.pieces, placed.header?.isSome = true →
    placed.inModuleScope = true
  bound : ∀ index < source.module.pieces.length, ∀ header ∈ source.headerAt? index,
    ∀ base ∈ header.baseExprs, ∃ name ∈ base.bareName?,
      name ∈ source.importsBefore index ++ source.classesBefore index

/-- A base that no class statement before binds stands for no class of the module. -/
def ImportsApart : Prop :=
  let found := (Program.ofModules [source]).declarations
  ∀ index < source.module.pieces.length, ∀ header ∈ source.headerAt? index,
    ∀ base ∈ header.baseExprs, ∀ name ∈ base.bareName?, name ∉ source.classesBefore index →
      ((found.typeScope found.types (.alone source)).typeOf [source.name] base).fqn ∉ found.fqns

end SourceModule

/-! ## Bases that are declared first -/

namespace Declarations

/-- Every base that is a declared class is declared before the class that writes it. -/
def BasesFirst (found : Declarations) : Prop :=
  ∀ front entry back, found.classes = front ++ entry :: back →
    ∀ base ∈ found.writtenBase? found.types entry, ∀ key ∈ base.key?, key ∈ found.fqns →
      key ∈ front.map ClassEntry.fqn

variable {found : Declarations}

/-- Along bases that are declared first the position of the declaration falls. -/
theorem BasesFirst.not_onCycle (first : found.BasesFirst) (key : String) :
    ¬ OnCycle (baseKey? (found.writtenBases found.types)) key := by
  refine OnCycle.not_of_falling (fun name => found.fqns.idxOf name) ?_ key
  intro name following link onward
  obtain ⟨beyond, next⟩ := Option.ne_none_iff_exists'.mp onward
  have nameListed := mem_fqns_of_mem_writtenBases (mem_keys_of_baseKey? link)
  have listed := mem_fqns_of_mem_writtenBases (mem_keys_of_baseKey? next)
  obtain ⟨entry, declared, rfl⟩ := List.mem_map.mp nameListed
  obtain ⟨front, back, split⟩ := List.append_of_mem declared
  obtain ⟨base, written, keyed⟩ := Option.bind_eq_some_iff.mp link
  rw [find?_writtenBases declared] at written
  have before := first front entry back split base written following keyed listed
  have fqns : found.fqns = front.map ClassEntry.fqn ++ entry.fqn :: back.map ClassEntry.fqn := by
    rw [fqns, split, List.map_append, List.map_cons]
  have later : entry.fqn ∉ front.map ClassEntry.fqn := by
    intro again
    have distinct := found.fqns_nodup
    rw [show found.classes.map ClassEntry.fqn = found.fqns from rfl, fqns] at distinct
    exact (List.nodup_append.mp distinct).2.2 _ again _ List.mem_cons_self rfl
  calc found.fqns.idxOf following
      = (front.map ClassEntry.fqn).idxOf following := by
        rw [fqns, List.idxOf_append_of_mem before]
    _ < (front.map ClassEntry.fqn).length := List.idxOf_lt_length_iff.mpr before
    _ ≤ found.fqns.idxOf entry.fqn := by
        rw [fqns, List.idxOf_append_of_notMem later]
        exact Nat.le_add_right _ _

/-- What a name stands for is kept under its qualified name. -/
theorem key?_namedType (unit : SourceUnit) (enclosing : List String) (name : String) :
    ((found.typeScope found.types unit).namedType enclosing name).key? =
      some ((found.typeScope found.types unit).namedType enclosing name).fqn := by
  rw [TypeScope.namedType]
  split
  · rfl
  · split
    · rfl
    · rename_i resolved _
      cases stored : (found.typeScope found.types unit).types.find? resolved with
      | none => rfl
      | some symbol =>
          obtain ⟨entry, _, _, rfl⟩ := find?_types_iff.mp stored
          rfl

/-- A name that a class is declared under in a scope stands for that class there. -/
theorem typeOf_of_declared {unit : SourceUnit} {scope name : String} {expr : Expr}
    (dotted : expr.dotted? = some name) (named : name ≠ "None") {entry : ClassEntry}
    (declared : entry ∈ found.classes) (fqn : entry.fqn = scope ++ "." ++ name) :
    (found.typeScope found.types unit).typeOf [scope] expr = found.declaredType entry := by
  have known : scope ++ "." ++ name ∈ found.fqns := fqn ▸ List.mem_map_of_mem declared
  have resolved : (found.typeScope found.types unit).resolve? [scope] name =
      some (scope ++ "." ++ name) :=
    NameScope.resolve?_of_declared (found.nameScope unit)
      (fun _ nearer => absurd nearer List.not_mem_nil) known
  have stored : (found.typeScope found.types unit).types.find? (scope ++ "." ++ name) =
      some (found.declaredType entry) := fqn ▸ find?_types declared
  rw [TypeScope.typeOf_of_dotted? _ _ dotted, TypeScope.namedType, if_neg named, resolved]
  simp only [stored, Option.getD_some]

/-- No base that is declared first is cut. -/
theorem BasesFirst.linkBases (first : found.BasesFirst) :
    (found.linkBases found.types).notices = [] ∧ ∀ entry ∈ found.classes,
      (found.linkBases found.types).bases.find? entry.fqn =
        found.writtenBase? found.types entry := by
  have sofar : CutSoFar (found.writtenBases found.types) found.fqns
      (found.linkBases found.types) := cutAll_cutSoFar _ _
  refine ⟨?_, ?_⟩
  · rw [List.eq_nil_iff_forall_not_mem]
    intro notice member
    obtain ⟨through, _, _, on⟩ := sofar.warnings notice member
    exact first.not_onCycle through on
  · intro entry declared
    rw [sofar.kept entry.fqn (first.not_onCycle entry.fqn), find?_writtenBases declared]

end Declarations

/-! ## Class statements in module scope -/

namespace ClassSite

/-- Where no class stands in another, what stands before a kept class statement has a name that was
seen or is kept before. -/
theorem exists_split_of_keptAfter {seen : List String} {sites front back : List ClassSite}
    {site : ClassSite} (flat : ∀ other ∈ sites, other.depth = 0)
    (kept : keptAfter seen sites = front ++ site :: back) :
    ∃ before after, sites = before ++ site :: after ∧
      ∀ other ∈ before, other.fqn ∈ seen ++ front.map fqn := by
  fun_induction keptAfter seen sites generalizing front with
  | case1 => simp at kept
  | case2 seen first rest repeated ih =>
      have flatRest : ∀ other ∈ rest, other.depth = 0 := fun other member =>
        flat other (List.mem_cons_of_mem _ member)
      have nothing : rest.dropWhile (fun inner => first.depth < inner.depth) = rest := by
        rw [List.dropWhile_eq_self_iff]
        intro nonempty
        simp [flatRest _ (List.getElem_mem _)]
      rw [nothing] at ih kept
      obtain ⟨before, after, split, named⟩ := ih flatRest kept
      refine ⟨first :: before, after, by rw [split, List.cons_append], ?_⟩
      intro other member
      rcases List.mem_cons.mp member with rfl | later
      · exact List.mem_append_left _ repeated
      · exact named other later
  | case3 seen first rest fresh ih =>
      cases front with
      | nil =>
          rw [List.nil_append, List.cons.injEq] at kept
          exact ⟨[], rest, by rw [kept.1, List.nil_append], by simp⟩
      | cons head front =>
          rw [List.cons_append, List.cons.injEq] at kept
          obtain ⟨before, after, split, named⟩ :=
            ih (fun other member => flat other (List.mem_cons_of_mem _ member)) kept.2
          refine ⟨first :: before, after, by rw [split, List.cons_append], ?_⟩
          intro other member
          rw [List.map_cons, ← kept.1, List.append_cons]
          rcases List.mem_cons.mp member with rfl | later
          · exact List.mem_append_left _ (List.mem_append_right _ List.mem_cons_self)
          · exact named other later

end ClassSite

namespace SourceModule.Executable

variable {unit : SourceUnit} (executable : unit.toSourceModule.Executable)

include executable

/-- The class statements of a module that can be executed stand in its scope. -/
theorem eq_outermost {site : ClassSite} (listed : site ∈ unit.classSites) :
    site = ClassSite.outermost unit site.header site.body := by
  rw [SourceUnit.classSites_eq] at listed
  obtain ⟨placed, member, read⟩ := List.mem_filterMap.mp listed
  have headed := ClassSite.header?_of_ofPiece? read
  obtain ⟨body, same⟩ := ClassSite.exists_ofPiece?_eq unit
    (executable.outermost placed member (by rw [headed]; rfl)) headed
  rw [Option.some.inj (read.symm.trans same)]
  rfl

/-- A declared class is that of a class statement, and the classes of all statements before it are
declared before it. -/
theorem exists_index {front back : List ClassEntry} {entry : ClassEntry}
    (split : (Declarations.ofUnits [unit]).classes = front ++ entry :: back) :
    entry.unit = unit ∧ entry.scope = unit.name ∧
      ∃ index < unit.module.pieces.length, unit.headerAt? index = some entry.header ∧
        ∀ name ∈ unit.classesBefore index,
          unit.name ++ "." ++ name ∈ front.map ClassEntry.fqn := by
  rw [Declarations.classes_ofUnits, List.flatMap_singleton, List.map_eq_append_iff] at split
  obtain ⟨frontSites, backSites, kept, rfl, behind⟩ := split
  obtain ⟨site, rest, rfl, rfl, -⟩ := List.map_eq_cons_iff.mp behind
  obtain ⟨before, after, sites, named⟩ := ClassSite.exists_split_of_keptAfter
    (fun other member => by rw [executable.eq_outermost member, ClassSite.outermost]) kept
  have placed := executable.eq_outermost (show site ∈ unit.classSites by rw [sites]; simp)
  rw [SourceUnit.classSites_eq] at sites
  obtain ⟨earlier, piece, later, pieces, read, readEarlier⟩ := exists_split_of_filterMap sites
  have entry : site.entry = ⟨unit, unit.name, site.header, site.body⟩ :=
    (congrArg ClassSite.entry placed).trans (ClassSite.entry_outermost unit _ _)
  refine ⟨by rw [entry], by rw [entry], earlier.length, by rw [pieces]; simp, ?_, ?_⟩
  · rw [SourceModule.headerAt?, pieces, List.getElem?_append_right (Nat.le_refl _), Nat.sub_self,
      List.getElem?_cons_zero, Option.bind_some, ClassSite.header?_of_ofPiece? read]
    rfl
  · intro name member
    rw [SourceModule.classesBefore, pieces, List.take_left] at member
    obtain ⟨other, listed, isClass⟩ := List.mem_filterMap.mp member
    obtain ⟨header, headed, rfl⟩ := Option.map_eq_some_iff.mp isClass
    obtain ⟨body, same⟩ := ClassSite.exists_ofPiece?_eq unit
      (executable.outermost other (pieces ▸ List.mem_append_left _ listed) (by rw [headed]; rfl))
      headed
    have taken := named _ (readEarlier ▸ List.mem_filterMap.mpr ⟨other, listed, same⟩)
    obtain ⟨first, inFront, sameName⟩ := List.mem_map.mp (List.nil_append _ ▸ taken)
    have firstListed : first ∈ unit.classSites :=
      (ClassSite.keptAfter_sublist _ _).mem (kept ▸ List.mem_append_left _ inFront)
    refine List.mem_map.mpr ⟨first.entry, List.mem_map_of_mem inFront, ?_⟩
    rw [unit.classSites_standIn.named first firstListed, sameName, ClassSite.fqn_outermost]

section

variable {found : Declarations} (collected : Declarations.ofUnits [unit] = found)

include collected

/-- The qualified name of a class is the name of the module followed by its own. -/
theorem exists_name_of_mem_fqns {key : String} (listed : key ∈ found.fqns) :
    ∃ name : Identifier, key = unit.name ++ "." ++ name.text := by
  subst collected
  obtain ⟨entry, declared, rfl⟩ := List.mem_map.mp listed
  obtain ⟨front, back, split⟩ := List.append_of_mem declared
  obtain ⟨-, around, -⟩ := executable.exists_index split
  exact ⟨entry.header.name, by rw [ClassEntry.fqn, around]⟩

/-- A bare name of a class of the module stands for no other class. -/
theorem eq_of_key?_typeOf {base : Expr} {name key : String} (bare : base.bareName? = some name)
    (known : unit.name ++ "." ++ name ∈ found.fqns)
    (keyed : ((found.typeScope found.types unit).typeOf [unit.name] base).key? = some key)
    (listed : key ∈ found.fqns) : key = unit.name ++ "." ++ name := by
  have dotted := Expr.dotted?_of_bareName? bare
  by_cases isNone : name = "None"
  · -- the built-in `None` is a class of the module only when that is the module of built-in names
    rw [TypeScope.typeOf_of_dotted? _ _ dotted, TypeScope.namedType, if_pos isNone] at keyed
    obtain ⟨className, same⟩ := executable.exists_name_of_mem_fqns collected listed
    have builtin : unit.name ++ "." ++ className.text = "builtins" ++ "." ++ "None" :=
      same.symm.trans (Option.some.inj keyed).symm
    obtain ⟨module, -⟩ := Text.append_dot_inj builtin className.dot_notMem (by decide)
    rw [isNone, module]
    exact (Option.some.inj keyed).symm
  · obtain ⟨entry, declared, named⟩ := List.mem_map.mp known
    rw [Declarations.typeOf_of_declared dotted isNone declared named,
      Declarations.key?_declaredType] at keyed
    rw [← named]
    exact (Option.some.inj keyed).symm

end

end SourceModule.Executable

/-- In a module that can be executed every base is declared first, when imported bases stand for
none of its classes. -/
theorem SourceModule.Executable.basesFirst {source : SourceModule} (executable : source.Executable)
    (apart : source.ImportsApart) : (Program.ofModules [source]).declarations.BasesFirst := by
  have alone : (SourceUnit.alone source).toSourceModule.Executable := executable
  have collected : Declarations.ofUnits [SourceUnit.alone source] =
      (Program.ofModules [source]).declarations := rfl
  intro front entry back split base written key keyed listed
  obtain ⟨ofUnit, around, index, inside, header, before⟩ := alone.exists_index split
  obtain ⟨expr, isBase, rfl⟩ := List.mem_map.mp (List.mem_of_find?_eq_some written)
  rw [ofUnit, around] at keyed
  obtain ⟨name, bare, bound⟩ := executable.bound index inside entry.header header expr isBase
  by_cases own : name ∈ source.classesBefore index
  · have declared := before name own
    have known : source.name ++ "." ++ name ∈ (Program.ofModules [source]).declarations.fqns := by
      rw [Declarations.fqns, split, List.map_append]
      exact List.mem_append_left _ declared
    rw [alone.eq_of_key?_typeOf collected bare known keyed listed]
    exact declared
  · have foreign := apart index inside entry.header header expr isBase name bare own
    have plain := TypeScope.typeOf_of_dotted?
      ((Program.ofModules [source]).declarations.typeScope
        (Program.ofModules [source]).declarations.types (.alone source))
      [source.name] (Expr.dotted?_of_bareName? bare)
    rw [plain] at foreign
    rw [show (SourceUnit.alone source).name = source.name from rfl, plain,
      Declarations.key?_namedType] at keyed
    exact absurd (Option.some.inj keyed ▸ listed) foreign

namespace Program

/-- **Bases of modules that can be executed.** Where a module can be executed and its imported bases
stand for none of its classes, building its program warns of nothing, every class keeps the base
that it writes, and a class with a base that counts has ancestors. -/
theorem bases_of_executable (source : SourceModule) (executable : source.Executable)
    (apart : source.ImportsApart) :
    let program := ofModules [source]
    let found := program.declarations
    (program.notices.filter fun notice => notice.level = .warning) = [] ∧
      ∀ entry ∈ found.classes,
        program.index.bases.find? entry.fqn = found.writtenBase? found.types entry ∧
        ((∃ base ∈ entry.header.baseExprs, countsAsBase
            ((found.typeScope found.types entry.unit).typeOf [entry.scope] base) = true) →
          program.index.ancestors (found.declaredType entry) ≠ []) := by
  intro program found
  obtain ⟨noNotice, kept⟩ := (executable.basesFirst apart).linkBases
  have linked : ∀ entry ∈ found.classes,
      program.index.bases.find? entry.fqn = found.writtenBase? found.types entry :=
    fun entry declared => (find?_bases_ofModules _ entry.fqn).trans (kept entry declared)
  refine ⟨(warnings_ofModules _ rfl).trans noNotice, ?_⟩
  intro entry declared
  refine ⟨linked entry declared, ?_⟩
  rintro ⟨expr, isBase, counts⟩
  have written : (found.writtenBase? found.types entry).isSome = true := by
    rw [Declarations.writtenBase?, List.find?_isSome]
    exact ⟨_, List.mem_map_of_mem isBase, counts⟩
  obtain ⟨base, written⟩ := Option.isSome_iff_exists.mp written
  have link : program.index.base? (found.declaredType entry) = some base := by
    rw [Index.base?, Declarations.key?_declaredType, Option.bind_some, linked entry declared,
      written]
  have acyclic : program.index.Acyclic := acyclic_ofModules _
  rw [acyclic.ancestors_eq_cons link]
  exact List.cons_ne_nil _ _

end Program

namespace Sample

/-- A module in which a class derives from an import, a class from that class, and the first class
is declared again on top of the second. -/
def redefining : SourceModule where
  path := "m.py"
  name := "m"
  module := ⟨[.line [.importFrom 0 (some "lib") (.names [⟨"C", none⟩])],
    classOn 2 a [name 2 c] (.inline []), classOn 3 b [name 3 a] (.inline []),
    classOn 4 a [name 4 b] (.inline [])], by decide +kernel⟩

/-- A module in which a class takes the place of the import that it derives from. -/
def shadowing : SourceModule where
  path := "m.py"
  name := "m"
  module := ⟨[.line [.importFrom 0 (some "lib") (.names [⟨"A", none⟩])],
    classOn 2 a [name 2 a] (.inline [])], by decide +kernel⟩

end Sample

namespace Program

/-- The classes of the sample keep their bases. -/
theorem bases_of_redefining :
    let program := ofModules [Sample.redefining]
    let found := program.declarations
    found.fqns = ["m.A", "m.B"] ∧
      (program.notices.filter fun notice => notice.level = .warning) = [] ∧
      ∀ entry ∈ found.classes, program.index.ancestors (found.declaredType entry) ≠ [] := by
  intro program found
  have executable : Sample.redefining.Executable := by
    refine ⟨?_, ?_⟩
    · decide +kernel
    · decide +kernel
  have apart : Sample.redefining.ImportsApart := by
    unfold SourceModule.ImportsApart
    decide +kernel
  obtain ⟨quiet, kept⟩ := bases_of_executable Sample.redefining executable apart
  have based : ∀ entry ∈ found.classes, ∃ base ∈ entry.header.baseExprs, countsAsBase
      ((found.typeScope found.types entry.unit).typeOf [entry.scope] base) = true := by
    decide +kernel
  refine ⟨by decide +kernel, quiet, ?_⟩
  intro entry declared
  exact (kept entry declared).2 (based entry declared)

/-- A class that can be executed may lose its base: that of the sample finds itself under the name
of the import that it derives from, and the circle is cut. -/
theorem shadowed_imports_are_cut :
    ¬ ∀ source : SourceModule, source.Executable →
      let program := ofModules [source]
      let found := program.declarations
      (program.notices.filter fun notice => notice.level = .warning) = [] ∧
        ∀ entry ∈ found.classes, (∃ base ∈ entry.header.baseExprs, countsAsBase
            ((found.typeScope found.types entry.unit).typeOf [entry.scope] base) = true) →
          program.index.ancestors (found.declaredType entry) ≠ [] := by
  intro kept
  have executable : Sample.shadowing.Executable := by
    refine ⟨?_, ?_⟩
    · decide +kernel
    · decide +kernel
  obtain ⟨quiet, -⟩ := kept Sample.shadowing executable
  exact absurd (congrArg List.length quiet) (by decide +kernel)

end Program

end TypeCatalog
