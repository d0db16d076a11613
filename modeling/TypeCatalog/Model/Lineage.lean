import TypeCatalog.Distinct
import TypeCatalog.Model.Index

/-! # Lineages

The ancestors of a type are its base, the base of its base, and so on. Chains of bases may run in a
circle, so a lineage is read up to a number of ancestors; the number of bases in the index bounds
the length of every chain that ends. -/

namespace TypeCatalog.Index

/-- The first ancestors of a type, nearest first, up to a number. -/
def ancestorsUpTo (index : Index) : Nat → TypeSymbol → List TypeSymbol
  | 0, _ => []
  | count + 1, symbol =>
      match index.base? symbol with
      | none => []
      | some base => base :: index.ancestorsUpTo count base

/-- The ancestors of a type, nearest first. -/
def ancestors (index : Index) (symbol : TypeSymbol) : List TypeSymbol :=
  index.ancestorsUpTo index.bases.size symbol

/-- The nearest ancestor with a definition, so that every instantiation of a generic type counts. -/
def findAncestor? (index : Index) (symbol : TypeSymbol) (definition : String) :
    Option TypeSymbol :=
  (index.ancestors symbol).find? fun ancestor => ancestor.definition == some definition

def derivesFrom (index : Index) (symbol : TypeSymbol) (definition : String) : Bool :=
  (index.findAncestor? symbol definition).isSome

/-- The members of a type and of its first ancestors up to a number: own members first, then those
of each ancestor, nearest first. Overrides are not collapsed. -/
def membersUpTo (index : Index) (count : Nat) (symbol : TypeSymbol) : List Member :=
  index.declaredMembers symbol ++
    (index.ancestorsUpTo count symbol).flatMap index.declaredMembers

def allMembers (index : Index) (symbol : TypeSymbol) : List Member :=
  index.membersUpTo index.bases.size symbol

/-- The most derived member of each name, of a type and of its first ancestors up to a number. -/
def effectiveMembersUpTo (index : Index) (count : Nat) (symbol : TypeSymbol) : List Member :=
  firstOfEach Member.name (index.membersUpTo count symbol)

/-- The most derived member of each name. -/
def effectiveMembers (index : Index) (symbol : TypeSymbol) : List Member :=
  index.effectiveMembersUpTo index.bases.size symbol

/-- The members that a member overrides, one after the other, up to a number. -/
def overrideChainUpTo (index : Index) : Nat → Member → List Member
  | 0, _ => []
  | count + 1, member =>
      match index.overridden? member with
      | none => []
      | some overridden => overridden :: index.overrideChainUpTo count overridden

/-- The members that a member overrides, one after the other. The number of overrides in the index
bounds the length of every chain that ends. -/
def overrideChain (index : Index) (member : Member) : List Member :=
  index.overrideChainUpTo index.overrides.size member

end TypeCatalog.Index
