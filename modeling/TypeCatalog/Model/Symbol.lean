import TypeCatalog.Literal.Basic
import TypeCatalog.Text.Dotted

/-! # Symbols

The things that programs declare: types, the fields and properties of types, modules and functions.
A type symbol stands for a plain type, for an instantiation of a generic type, or for a name that
could not be resolved. -/

namespace TypeCatalog

/-- A place in a file. Lines count from one and columns from zero where the place comes from a source
text; an index that is put together by hand may hold any numbers. -/
structure Location where
  path : String
  line : Int
  column : Int
  deriving DecidableEq, Repr

/-- An attribute annotation: a decorator, or a piece of annotation metadata. Named arguments keep
their order and may repeat a name. -/
structure Attribute where
  fullName : String
  shortName : String
  arguments : List Literal
  named : List (String × Literal)
  location : Option Location
  deriving Inhabited

/-- A type. The definition of an instantiation is the generic type it instantiates, that of a plain
type is the type itself; an unresolved name has no definition. -/
structure TypeSymbol where
  fqn : String
  name : String
  definition : Option String
  isGeneric : Bool
  arguments : List TypeSymbol
  attributes : List Attribute
  location : Option Location
  external : Bool
  deriving Inhabited

inductive MemberKind where
  | field
  | property
  deriving DecidableEq, Repr, Inhabited

/-- A field or property of a type. -/
structure Member where
  fqn : String
  name : String
  declaringType : String
  kind : MemberKind
  type : Option TypeSymbol
  attributes : List Attribute
  location : Option Location
  deriving Inhabited

inductive DeclarationKind where
  | module
  | function
  | method
  deriving DecidableEq, Repr, Inhabited

/-- A module or function. A method is owned by the class whose body it stands in. -/
structure Declaration where
  kind : DeclarationKind
  fqn : String
  owner : Option String
  decorators : List String
  location : Option Location
  deriving Inhabited

/-- A declared thing. -/
inductive Symbol where
  | type (symbol : TypeSymbol)
  | member (symbol : Member)
  | declaration (symbol : Declaration)

namespace Symbol

def type? : Symbol → Option TypeSymbol
  | .type symbol => some symbol
  | _ => none

def member? : Symbol → Option Member
  | .member symbol => some symbol
  | _ => none

end Symbol

namespace Member

/-- The identity of a member: its name under the type that declares it. -/
def id (member : Member) : String := member.declaringType ++ "." ++ member.name

end Member

namespace TypeSymbol

/-- A plain type, which is its own definition. -/
def plain (fqn : String) (attributes : List Attribute) (location : Option Location)
    (external : Bool) : TypeSymbol where
  fqn := fqn
  name := Text.lastPart fqn
  definition := some fqn
  isGeneric := false
  arguments := []
  attributes := attributes
  location := location
  external := external

/-- A plain type that is not part of the program. -/
def externalType (fqn : String) : TypeSymbol := plain fqn [] none true

/-- A name that stands for no known type. -/
def unresolved (fqn name : String) : TypeSymbol where
  fqn := fqn
  name := name
  definition := none
  isGeneric := false
  arguments := []
  attributes := []
  location := none
  external := true

/-- An instantiation of a definition; a question mark stands for a definition that is not known. -/
def instantiation (definition : Option String) (arguments : List TypeSymbol) (external : Bool) :
    TypeSymbol where
  fqn := definition.getD "?" ++ "[" ++ ", ".intercalate (arguments.map TypeSymbol.fqn) ++ "]"
  name := Text.lastPart (definition.getD "?")
  definition := definition
  isGeneric := true
  arguments := arguments
  attributes := []
  location := none
  external := external

/-- The name under which the base and the members of a type are kept: instantiations share those of
their definition. -/
def key? (symbol : TypeSymbol) : Option String :=
  if symbol.isGeneric then symbol.definition else some symbol.fqn

end TypeSymbol

end TypeCatalog
