import TypeCatalog.Program.BuiltinNames
import TypeCatalog.Table
import TypeCatalog.Text.Dotted

/-! # Resolution of names

A dotted name is resolved as seen from enclosing scopes, innermost first: it is a class declared in
one of them or in the module, else a name that the import table of the module knows by its first
part, else a class declared under the whole name, else a built-in name. -/

namespace TypeCatalog

/-- What the names of a module are resolved against. -/
structure NameScope where
  /-- The qualified names of all declared classes. -/
  declared : List String
  imports : Table String
  moduleName : String

namespace NameScope

/-- The backport of the typing module counts as the typing module. -/
def normalize (name : String) : String :=
  let backport := "typing_extensions."
  if backport.toList.isPrefixOf name.toList then
    "typing." ++ String.ofList (name.toList.drop backport.toList.length)
  else name

/-- The class that a name stands for in one of the given scopes, the first in which it is
declared. -/
def declaredIn? (scope : NameScope) (enclosing : List String) (name : String) : Option String :=
  (enclosing.map fun path => path ++ "." ++ name).find? scope.declared.contains

/-- What a name stands for by the import of its first part. -/
def imported? (scope : NameScope) (name : String) : Option String :=
  match Text.dottedParts name with
  | first :: rest =>
      (scope.imports.find? first).map fun target => normalize (Text.dotted (target :: rest))
  | [] => none

/-- What a name stands for without the help of scopes and imports. -/
def global? (scope : NameScope) (name : String) : Option String :=
  if scope.declared.contains name then some name
  else if builtinNames.contains name then some ("builtins." ++ name)
  else none

/-- The qualified name that a dotted name stands for. -/
def resolve? (scope : NameScope) (enclosing : List String) (name : String) : Option String :=
  scope.declaredIn? (enclosing ++ [scope.moduleName]) name <|> scope.imported? name <|>
    scope.global? name

end NameScope

end TypeCatalog
