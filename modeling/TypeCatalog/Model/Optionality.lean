import TypeCatalog.Model.Symbol

/-! # Optional types

A type is optional when it instantiates the wrapper for optional values. -/

namespace TypeCatalog

/-- The definition that wraps optional values unless settings name another. -/
def defaultOptionalWrapper : String := "typing.Optional"

namespace TypeSymbol

def isOptional (symbol : TypeSymbol) (wrapper : String) : Bool :=
  symbol.isGeneric && symbol.definition == some wrapper

/-- The type of the values that an optional type wraps. -/
def wrappedType? (symbol : TypeSymbol) (wrapper : String) : Option TypeSymbol :=
  if symbol.isOptional wrapper then
    match symbol.arguments with
    | [argument] => some argument
    | _ => none
  else none

end TypeSymbol

end TypeCatalog
