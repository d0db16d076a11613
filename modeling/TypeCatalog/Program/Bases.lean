import TypeCatalog.Program.Declarations

/-! # Bases of classes

A class has at most one base: the first in its list that is neither a keyword argument, nor starred,
nor one of the definitions that never count. Chains of bases that run into themselves are cut where
they close, class by class in the order of their declaration. -/

namespace TypeCatalog

open Syntax

/-- The definitions that never count as the base of a class. -/
def ignoredBases : List String := ["builtins.object", "typing.Generic", "typing.Protocol"]

def countsAsBase (symbol : TypeSymbol) : Bool :=
  !(symbol.definition.any ignoredBases.contains)

namespace Syntax.ClassHeader

def baseExprs (header : ClassHeader) : List Expr :=
  header.arguments.filterMap fun argument => match argument with
    | .positional value => some value
    | _ => none

end Syntax.ClassHeader

namespace Declarations

def writtenBase? (found : Declarations) (types : Table TypeSymbol) (entry : ClassEntry) :
    Option TypeSymbol :=
  (entry.header.baseExprs.map ((found.typeScope types entry.unit).typeOf [entry.scope])).find?
    countsAsBase

/-- The bases that the class statements write, by qualified name. -/
def writtenBases (found : Declarations) (types : Table TypeSymbol) : Table TypeSymbol :=
  .ofList (found.classes.filterMap fun entry =>
    (found.writtenBase? types entry).map fun base => (entry.fqn, base))

end Declarations

/-- Bases by qualified name, and the notices of cutting circles. -/
structure BaseLinks where
  bases : Table TypeSymbol
  notices : List Notice

namespace BaseLinks

/-- The link at which the chain of bases from a type runs into a name seen before: that name and the
type whose base it is. Every step but the last takes the base of another type, so the number of bases
bounds the number of steps. -/
def closingLink? (bases : Table TypeSymbol) :
    (steps : Nat) → (seen : List String) → (current : String) → Option (String × String)
  | 0, _, _ => none
  | steps + 1, seen, current =>
      match (bases.find? current).bind TypeSymbol.key? with
      | none => none
      | some key =>
          if seen.contains key then some (key, current)
          else closingLink? bases steps (key :: seen) key

/-- Cut the chain of bases from a type where it runs into itself. -/
def cutFrom (links : BaseLinks) (fqn : String) : BaseLinks :=
  match closingLink? links.bases links.bases.size [fqn] fqn with
  | none => links
  | some (key, current) =>
      { bases := links.bases.erase current
        notices := links.notices ++ [.cycleCut key current] }

/-- Cut every chain of bases that runs into itself, starting from the given types in order. -/
def cutAll (bases : Table TypeSymbol) (fqns : List String) : BaseLinks :=
  fqns.foldl cutFrom ⟨bases, []⟩

end BaseLinks

namespace Declarations

def linkBases (found : Declarations) (types : Table TypeSymbol) : BaseLinks :=
  .cutAll (found.writtenBases types) found.fqns

end Declarations

end TypeCatalog
