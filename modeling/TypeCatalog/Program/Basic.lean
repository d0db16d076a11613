import TypeCatalog.Model.Lineage
import TypeCatalog.Program.Bases
import TypeCatalog.Program.Members
import TypeCatalog.Syntax.Outline

/-! # Programs

A program is built from the modules of a source tree: their classes become types with bases, members
and overrides in an index, and every unit lists the symbols that its statements declare. -/

namespace TypeCatalog

open Syntax

/-- A program: the units it is built from, what they declare, and the index of both. -/
structure Program where
  units : List SourceUnit
  declarations : Declarations
  index : Index
  /-- What is reported while the program is built, in order. -/
  notices : List Notice
  deriving Inhabited

namespace Program

/-! ## Overrides -/

/-- The property that a property of a type overrides: the first ancestor that declares a member of
its name decides, and it counts when that member is a property. -/
def overriddenProperty? (index : Index) (symbol : TypeSymbol) (member : Member) : Option Member :=
  match (index.ancestors symbol).findSome? fun ancestor =>
      (index.declaredMembers ancestor).find? fun inherited => inherited.name == member.name with
  | some inherited => if inherited.kind = .property then some inherited else none
  | none => none

/-- The properties of a type with the properties that they override. -/
def overridesOf (index : Index) (symbol : TypeSymbol) : List (Member × Member) :=
  ((index.declaredMembers symbol).filter fun member => member.kind = .property).filterMap
    fun member => (overriddenProperty? index symbol member).map fun inherited => (member, inherited)

/-- Record what the properties of types override. -/
def linkOverrides (index : Index) : Index :=
  (index.types.values.flatMap (overridesOf index)).foldl
    (fun linked pair => linked.addOverride pair.1 pair.2) index

/-! ## Symbols of units -/

/-- The symbols that the statements of a unit declare, by place. A property stands in the place of
the function that declares it. -/
def siteSymbols (found : Declarations) (types : Table TypeSymbol)
    (members : List (ClassEntry × List MemberSite)) (unit : SourceUnit) : List (Place × Symbol) :=
  let memberSymbols := members.flatMap fun (entry, sites) =>
    if entry.unit.number = unit.number then
      sites.map fun site => (site.place, Symbol.member site.member)
    else []
  let typeSymbols := found.classes.filterMap fun entry =>
    if entry.unit.number = unit.number then
      (types.find? entry.fqn).map fun symbol => (entry.header.place, Symbol.type symbol)
    else none
  let functionSymbols := found.functions.filterMap fun entry =>
    if entry.unit.number = unit.number then
      some (entry.header.place, Symbol.declaration entry.declaration)
    else none
  memberSymbols ++ typeSymbols ++ functionSymbols

def moduleDeclaration (unit : SourceUnit) : Declaration where
  kind := .module
  fqn := unit.name
  owner := none
  decorators := []
  location := some (unit.locationOf .start)

def nodeSymbol? (unit : SourceUnit) (symbols : List (Place × Symbol)) :
    OutlineNode → Option Symbol
  | .module => some (.declaration (moduleDeclaration unit))
  | .site place => symbols.lookup place
  | .other => none

/-- A unit with the symbols that its nodes declare. -/
def symbolUnit (unit : SourceUnit) (symbols : List (Place × Symbol)) : SymbolUnit where
  path := unit.path
  nodes := unit.module.nodes.map (nodeSymbol? unit symbols)

/-! ## Building -/

def classMembers (found : Declarations) (types : Table TypeSymbol) :
    List (ClassEntry × List MemberSite) :=
  found.classes.map fun entry =>
    (entry, ClassReading.sites ⟨found.typeScope types entry.unit, entry⟩)

/-- The notices of reading the bodies of the declared classes. -/
def memberNotices (found : Declarations) (types : Table TypeSymbol) : List Notice :=
  found.classes.flatMap fun entry =>
    ClassReading.notices ⟨found.typeScope types entry.unit, entry⟩

/-- The index of declared classes with their bases and members, without overrides and units. -/
def indexOf (types bases : Table TypeSymbol) (members : List (ClassEntry × List MemberSite)) :
    Index :=
  members.foldl (fun index (entry, sites) =>
    match types.find? entry.fqn with
    | some symbol =>
        index.addType symbol (bases.find? entry.fqn) (sites.map MemberSite.member)
    | none => index) .empty

def ofModules (sources : List SourceModule) : Program :=
  let units := SourceUnit.ofModules sources
  let found := Declarations.ofUnits units
  let types := found.types
  let links := found.linkBases types
  let members := classMembers found types
  let index := linkOverrides (indexOf types links.bases members)
  { units := units
    declarations := found
    index := units.foldl
      (fun index unit =>
        index.addUnit (symbolUnit unit (siteSymbols found types members unit))) index
    notices := found.notices ++ found.classes.flatMap found.decoratorNotices ++ links.notices ++
      memberNotices found types ++ [.built units.length found.classes.length] }

/-! ## Looking at units -/

/-- What the names of a unit are resolved against. -/
def nameScope (program : Program) (unit : SourceUnit) : NameScope :=
  program.declarations.nameScope unit

/-- What type expressions of a unit are read against. -/
def typeScope (program : Program) (unit : SourceUnit) : TypeScope :=
  program.declarations.typeScope program.index.types unit

/-- The declared class whose statement stands at a place of a unit. -/
def classAt? (program : Program) (unit : SourceUnit) (place : Place) : Option ClassEntry :=
  program.declarations.classes.find? fun entry =>
    entry.unit.number = unit.number && entry.header.place = place

/-- The number of the first decorator of a class statement that resolves to a name. The decorators
of a statement that declares no class resolve to nothing. -/
def findDecorator? (program : Program) (unit : SourceUnit) (header : ClassHeader) (name : String) :
    Option Nat :=
  (program.classAt? unit header.place).bind fun entry =>
    header.decorators.findIdx? fun decorator =>
      (program.nameScope unit).attributeName? [entry.scope] decorator == some name

end Program

end TypeCatalog
