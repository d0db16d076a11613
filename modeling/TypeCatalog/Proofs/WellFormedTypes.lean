import TypeCatalog.Proofs.ReservedWords
import TypeCatalog.Proofs.Sites
import TypeCatalog.Proofs.TypeForms

/-! # Well-formed types

Wherever an index shows a type, among its types, bases, members or the arguments of other types, the
type says of itself what it is: a type of the program is the declared one, and an instantiation is
named by its definition and its arguments (`TypeCatalog.Program.wellFormed_of_shows`). One name is
never looked up among the declared types, that of `None`; no class is declared under it where the
modules of a program are read from texts (`TypeCatalog.Program.noneName_notMem_fqns`).
-/

namespace TypeCatalog

open Syntax

/-! ## Well-formed types of an index -/

namespace TypeSymbol

variable (index : Index) (symbol : TypeSymbol)

/-- A type without arguments, which is its own definition or unresolved. If it belongs to the program
it is the type that is declared under its name. -/
structure PlainIn : Prop where
  arguments : symbol.arguments = []
  definition : symbol.definition = some symbol.fqn ∨ symbol.definition = none
  unresolved : symbol.definition = none → symbol.external = true
  declared : symbol.external = false → index.lookupType? symbol.fqn = some symbol

/-- A type that is named by its definition and its arguments. It belongs to the program only if its
definition is declared. -/
structure InstantiationIn : Prop where
  fqn : symbol.fqn = symbol.definition.getD "?" ++ "[" ++
    ", ".intercalate (symbol.arguments.map TypeSymbol.fqn) ++ "]"
  declared : symbol.external = false →
    ∃ definition, symbol.definition = some definition ∧ definition ∈ index.types.keys

/-- A type that says of itself what it is in an index. -/
structure WellFormedIn : Prop where
  plain : symbol.isGeneric = false → symbol.PlainIn index
  generic : symbol.isGeneric = true → symbol.InstantiationIn index
  /-- A resolved type whose name is declared belongs to the program. -/
  internal : symbol.definition ≠ none → symbol.fqn ∈ index.types.keys → symbol.external = false

end TypeSymbol

namespace TypeSymbol

variable {index : Index}

theorem wellFormedIn_unresolved (fqn name : String) : (unresolved fqn name).WellFormedIn index where
  plain _ := ⟨rfl, Or.inr rfl, fun _ => rfl, nofun⟩
  generic := nofun
  internal resolved := absurd rfl resolved

theorem wellFormedIn_externalType {key : String} (unknown : key ∉ index.types.keys) :
    (externalType key).WellFormedIn index where
  plain _ := ⟨rfl, Or.inl rfl, nofun, nofun⟩
  generic := nofun
  internal _ known := absurd known unknown

theorem wellFormedIn_declared {fqn : String} {attributes : List Attribute}
    {location : Option Location}
    (known : index.lookupType? fqn = some (plain fqn attributes location false)) :
    (plain fqn attributes location false).WellFormedIn index where
  plain _ := ⟨rfl, Or.inl rfl, nofun, fun _ => known⟩
  generic := nofun
  internal _ _ := rfl

theorem wellFormedIn_instantiation {definition : Option String} {arguments : List TypeSymbol}
    {external : Bool}
    (unknown : (instantiation definition arguments external).fqn ∉ index.types.keys)
    (declared : external = false → ∃ key, definition = some key ∧ key ∈ index.types.keys) :
    (instantiation definition arguments external).WellFormedIn index where
  plain := nofun
  generic _ := ⟨rfl, declared⟩
  internal _ known := absurd known unknown

end TypeSymbol

/-- Every value of a table is found under its key. -/
theorem Table.exists_find?_of_mem_values {α : Type} {table : Table α} {value : α}
    (listed : value ∈ table.values) : ∃ key, table.find? key = some value := by
  obtain ⟨⟨key, stored⟩, inEntries, rfl⟩ := List.mem_map.mp listed
  exact ⟨key, find?_eq_some_iff.mpr inEntries⟩

/-- The types that an index shows: those that are declared, those that are bases or belong to
members, and the arguments of all these. -/
inductive Index.Shows (index : Index) : TypeSymbol → Prop where
  | type {symbol : TypeSymbol} (listed : symbol ∈ index.types.values) : Shows index symbol
  | base {symbol : TypeSymbol} (listed : symbol ∈ index.bases.values) : Shows index symbol
  | member {members : List Member} {member : Member} {symbol : TypeSymbol}
      (listed : members ∈ index.members.values) (declared : member ∈ members)
      (typed : member.type = some symbol) : Shows index symbol
  | argument {symbol argument : TypeSymbol} (shown : Shows index symbol)
      (listed : argument ∈ symbol.arguments) : Shows index argument

/-! ## Names of classes and of instantiations -/

/-- No class has the qualified name of an instantiation. -/
theorem ClassEntry.fqn_ne_instantiation (entry : ClassEntry) (definition : Option String)
    (arguments : List TypeSymbol) (external : Bool) :
    entry.fqn ≠ (TypeSymbol.instantiation definition arguments external).fqn := by
  intro same
  have named : entry.header.name.text.toList ≠ [] :=
    fun empty => entry.header.name.text_ne_empty (String.toList_inj.mp empty)
  have ends : entry.header.name.text.toList.getLast? = some ']' := by
    have last := congrArg (fun text => text.toList.getLast?) same
    simp only [fqn, TypeSymbol.instantiation, String.toList_append] at last
    rwa [List.getLast?_append_of_ne_nil _ named, show "]".toList = [']'] from rfl,
      List.getLast?_concat] at last
  exact entry.header.name.notMem (by decide) (by decide) (List.mem_of_getLast? ends)

/-! ## Types of a program -/

theorem Declarations.keys_types (found : Declarations) : found.types.keys = found.fqns :=
  List.map_map

namespace TypeScope.Built

open TypeSymbol

variable {found : Declarations} {unit : SourceUnit} {symbol : TypeSymbol}

/-- The arguments of a type are built as it is. -/
theorem argument (built : (found.typeScope found.types unit).Built symbol)
    {argument : TypeSymbol} (listed : argument ∈ symbol.arguments) :
    (found.typeScope found.types unit).Built argument := by
  cases built with
  | declared known =>
      obtain ⟨entry, _, _, rfl⟩ := Declarations.find?_types_iff.mp known
      exact absurd listed List.not_mem_nil
  | instantiation each known => exact each argument listed
  | _ => exact absurd listed List.not_mem_nil

/-- The types that are built from names and texts are well-formed in an index of the declared types,
when none is declared under the name of `None`. -/
theorem wellFormedIn (built : (found.typeScope found.types unit).Built symbol) {index : Index}
    (types : ∀ key, index.lookupType? key = found.types.find? key)
    (nameless : noneName ∉ found.fqns) : symbol.WellFormedIn index := by
  have keys : ∀ key, key ∈ index.types.keys ↔ key ∈ found.fqns := by
    intro key
    rw [← Table.isSome_find?_iff, ← Index.lookupType?, types, Table.isSome_find?_iff,
      found.keys_types]
  cases built with
  | nothing => exact wellFormedIn_externalType (mt (keys _).mp nameless)
  | unresolved fqn name => exact wellFormedIn_unresolved fqn name
  | declared known =>
      obtain ⟨entry, declared, rfl, rfl⟩ := Declarations.find?_types_iff.mp known
      exact wellFormedIn_declared ((types _).trans known)
  | @undeclared key unknown =>
      refine wellFormedIn_externalType fun known => ?_
      obtain ⟨entry, declared, rfl⟩ := List.mem_map.mp ((keys key).mp known)
      exact Option.some_ne_none _ ((Declarations.find?_types declared).symm.trans unknown)
  | instantiation each known =>
      refine wellFormedIn_instantiation (fun isClass => ?_) fun own => ?_
      · obtain ⟨entry, _, same⟩ := List.mem_map.mp ((keys _).mp isClass)
        exact entry.fqn_ne_instantiation _ _ _ same
      · obtain ⟨key, defined, declared⟩ := known own
        exact ⟨key, defined, (keys key).mpr declared⟩

end TypeScope.Built

namespace Program

variable {sources : List SourceModule}

/-- The class statements of a program are those of its modules. -/
theorem exists_source_of_mem_classes {entry : ClassEntry}
    (declared : entry ∈ (ofModules sources).declarations.classes) :
    ∃ source ∈ sources, entry.header ∈ source.module.classHeaders := by
  rw [show (ofModules sources).declarations = .ofUnits (SourceUnit.ofModules sources) from rfl,
    Declarations.classes_ofUnits] at declared
  obtain ⟨site, kept, rfl⟩ := List.mem_map.mp declared
  obtain ⟨unit, member, inUnit⟩ :=
    List.mem_flatMap.mp ((ClassSite.keptAfter_sublist _ _).mem kept)
  have modules := SourceUnit.map_toSourceModule_numberedFrom 0 sources
  refine ⟨unit.toSourceModule, modules ▸ List.mem_map_of_mem member, ?_⟩
  rw [← unit.map_header_classSites]
  exact List.mem_map_of_mem inUnit

/-- No class of modules that are read from texts has the qualified name of `None`. -/
theorem noneName_notMem_fqns
    (areRead : ∀ source ∈ sources, ∃ text, Module.read? text = some source.module) :
    TypeScope.noneName ∉ (ofModules sources).declarations.fqns := by
  intro isClass
  obtain ⟨entry, declared, named⟩ := List.mem_map.mp isClass
  obtain ⟨source, listed, inModule⟩ := exists_source_of_mem_classes declared
  obtain ⟨text, isRead⟩ := areRead source listed
  refine Module.unreserved_of_read? isRead entry.header inModule ?_
  have parts : entry.scope ++ "." ++ entry.header.name.text = "builtins" ++ "." ++ "None" := named
  obtain ⟨_, name⟩ := Text.append_dot_inj parts entry.header.name.dot_notMem (by decide)
  rw [name]
  decide

/-- Every type that the index of a program shows is built in one of its units. -/
theorem exists_built_of_shows {symbol : TypeSymbol}
    (shown : (ofModules sources).index.Shows symbol) :
    ∃ unit, ((ofModules sources).declarations.typeScope (ofModules sources).declarations.types
      unit).Built symbol := by
  induction shown with
  | type listed =>
      obtain ⟨key, known⟩ := Table.exists_find?_of_mem_values listed
      rw [← Index.lookupType?, lookupType?_eq_find?_types] at known
      obtain ⟨entry, _⟩ := Declarations.find?_types_iff.mp known
      exact ⟨entry.unit, .declared known⟩
  | base listed =>
      obtain ⟨key, linked⟩ := Table.exists_find?_of_mem_values listed
      rw [find?_bases_ofModules] at linked
      exact Declarations.exists_built_of_find?_writtenBases
        (Declarations.find?_writtenBases_of_find?_linkBases linked)
  | member listed declared typed =>
      obtain ⟨key, known⟩ := Table.exists_find?_of_mem_values listed
      rw [members_ofModules] at known
      have isClass : key ∈ (ofModules sources).declarations.fqns := by
        by_contra unknown
        rw [Declarations.find?_members_classIndex_of_notMem unknown] at known
        simp at known
      obtain ⟨entry, isEntry, rfl⟩ := List.mem_map.mp isClass
      rw [Declarations.find?_members_classIndex isEntry] at known
      rw [← Option.some.inj known] at declared
      exact ⟨entry.unit, ClassReading.built_of_mem_members declared typed⟩
  | argument shown listed ih =>
      obtain ⟨unit, built⟩ := ih
      exact ⟨unit, built.argument listed⟩

/-- **Well-formed types.** In a program of modules that are read from texts, every type that is
shown says of itself what it is. One that is no instantiation has no arguments, is its own definition
or unresolved, and is the declared type of its name if it belongs to the program; an unresolved type
does not, and a resolved one does if its name is declared. An instantiation is named by its
definition, or a question mark, and its arguments, and belongs to the program only if its definition
is declared. -/
theorem wellFormedIn_of_shows (sources : List SourceModule)
    (areRead : ∀ source ∈ sources, ∃ text, Module.read? text = some source.module) :
    let index := (ofModules sources).index
    ∀ symbol, index.Shows symbol → symbol.WellFormedIn index := by
  intro index symbol shown
  obtain ⟨unit, built⟩ := exists_built_of_shows shown
  exact built.wellFormedIn (lookupType?_eq_find?_types sources) (noneName_notMem_fqns areRead)

end Program

namespace Sample

/-- A class with a field whose type is an instantiation of the class by an optional type in quotes. -/
def instantiatingText : String := "class A:\n    x: A['A | None']\n"

def readModule? (text : String) : Option SourceModule :=
  (Module.read? text).map fun module => ⟨"m.py", "m", module⟩

/-- The types of the members of an index. -/
def memberTypes (index : Index) : List TypeSymbol :=
  index.members.values.flatten.filterMap Member.type

end Sample

namespace Program

/-- The type of the field of the sample is well-formed, and so is its argument, although the one
belongs to the program and the other does not. -/
theorem wellFormedIn_of_instantiatingText :
    ∃ source, Sample.readModule? Sample.instantiatingText = some source ∧
      let index := (ofModules [source]).index
      ∃ symbol argument, index.Shows symbol ∧ index.Shows argument ∧
        symbol.fqn = "m.A[typing.Optional[m.A]]" ∧ symbol.external = false ∧
        symbol.WellFormedIn index ∧ argument ∈ symbol.arguments ∧ argument.external = true ∧
        argument.WellFormedIn index := by
  have evaluated : ((Sample.readModule? Sample.instantiatingText).any fun source =>
      (Sample.memberTypes (ofModules [source]).index).any fun symbol =>
        symbol.fqn == "m.A[typing.Optional[m.A]]" && !symbol.external &&
          symbol.arguments.any fun argument => argument.external) = true := by decide +kernel
  obtain ⟨source, isRead, typed⟩ := (Option.any_eq_true _ _).mp evaluated
  obtain ⟨symbol, listed, holds⟩ := List.any_eq_true.mp typed
  simp only [Bool.and_eq_true, beq_iff_eq, Bool.not_eq_true', List.any_eq_true] at holds
  obtain ⟨⟨named, own⟩, argument, isArgument, foreign⟩ := holds
  obtain ⟨member, inFlat, isType⟩ := List.mem_filterMap.mp listed
  obtain ⟨members, inValues, declared⟩ := List.mem_flatten.mp inFlat
  have shown : (ofModules [source]).index.Shows symbol := .member inValues declared isType
  have areRead : ∀ other ∈ [source], ∃ text, Module.read? text = some other.module := by
    obtain ⟨module, parsed, rfl⟩ := Option.map_eq_some_iff.mp isRead
    exact List.forall_mem_singleton.mpr ⟨_, parsed⟩
  have wellFormed := wellFormedIn_of_shows [source] areRead
  exact ⟨source, isRead, symbol, argument, shown, shown.argument isArgument, named, own,
    wellFormed symbol shown, isArgument, foreign, wellFormed argument (shown.argument isArgument)⟩

end Program

end TypeCatalog
