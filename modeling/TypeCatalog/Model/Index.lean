import TypeCatalog.Model.Symbol
import TypeCatalog.Table

/-! # The index of a program

An `Index` holds what is known of a program: its units with the symbols that their syntax nodes
declare, and tables of types, bases, members and overrides by qualified name. Overrides are kept
between the identities of members, so a later addition of a member under the same identity is what
an override refers to from then on. -/

namespace TypeCatalog

/-- A unit of a program: for each of its syntax nodes in pre-order the symbol that it declares. -/
structure SymbolUnit where
  path : String
  nodes : List (Option Symbol)

namespace SymbolUnit

/-- The symbol that a list of declarations gives to a node: the last one given. -/
def declaredIn {ν : Type} [DecidableEq ν] (declarations : List (ν × Option Symbol)) (node : ν) :
    Option Symbol :=
  declarations.reverse.findSome? fun declaration =>
    if declaration.1 = node then declaration.2 else none

/-- A unit whose nodes are opaque keys, listed in order with the symbols that they declare. -/
def ofDeclarations {ν : Type} [DecidableEq ν] (path : String)
    (declarations : List (ν × Option Symbol)) : SymbolUnit where
  path := path
  nodes := declarations.map fun declaration => declaredIn declarations declaration.1

/-- The symbols that the nodes of a unit declare, in pre-order. -/
def symbols (unit : SymbolUnit) : List Symbol := unit.nodes.filterMap id

end SymbolUnit

/-- What is known of a program. -/
structure Index where
  units : List SymbolUnit
  types : Table TypeSymbol
  bases : Table TypeSymbol
  members : Table (List Member)
  memberIds : Table Member
  overrides : Table String
  deriving Inhabited

namespace Index

/-- The index of a program without units and types. -/
def empty : Index := ⟨[], .empty, .empty, .empty, .empty, .empty⟩

def base? (index : Index) (symbol : TypeSymbol) : Option TypeSymbol :=
  symbol.key?.bind index.bases.find?

def declaredMembers (index : Index) (symbol : TypeSymbol) : List Member :=
  (symbol.key?.bind index.members.find?).getD []

def overridden? (index : Index) (member : Member) : Option Member :=
  (index.overrides.find? member.id).bind index.memberIds.find?

/-- The type with a qualified name. -/
def lookupType? (index : Index) (fqn : String) : Option TypeSymbol := index.types.find? fqn

/-- Add a type with its base and members. A type that is added again keeps its base when none is
given. -/
def addType (index : Index) (symbol : TypeSymbol) (base : Option TypeSymbol)
    (members : List Member) : Index :=
  { index with
    types := index.types.insert symbol.fqn symbol
    bases := match base with
      | some base => index.bases.insert symbol.fqn base
      | none => index.bases
    members := index.members.insert symbol.fqn members
    memberIds := members.foldl (fun table member => table.insert member.id member)
      index.memberIds }

/-- Record that a member overrides another. -/
def addOverride (index : Index) (member overridden : Member) : Index :=
  { index with overrides := index.overrides.insert member.id overridden.id }

def addUnit (index : Index) (unit : SymbolUnit) : Index :=
  { index with units := index.units ++ [unit] }

/-- The declared types of all units, in the order of units and of their nodes. -/
def namedTypes (index : Index) : List TypeSymbol :=
  index.units.flatMap fun unit => unit.symbols.filterMap Symbol.type?

end Index

end TypeCatalog
