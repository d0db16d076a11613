import TypeCatalog.Model.Lineage

/-! # Looking up attributes

Attributes are found by their full or their short name; of several with one name the first counts.
An override without an attribute inherits it from the member that it overrides. -/

namespace TypeCatalog

namespace Attribute

def findByFullName? (attributes : List Attribute) (name : String) : Option Attribute :=
  attributes.find? fun marker => marker.fullName == name

def findByShortName? (attributes : List Attribute) (name : String) : Option Attribute :=
  attributes.find? fun marker => marker.shortName == name

/-- The first value given for a named argument. -/
def namedArgument? (marker : Attribute) (key : String) : Option Literal :=
  marker.named.lookup key

end Attribute

namespace TypeSymbol

/-- The first attribute of a type with a name, a full name when it is dotted. -/
def findAttribute? (symbol : TypeSymbol) (name : String) : Option Attribute :=
  if name.toList.contains '.' then Attribute.findByFullName? symbol.attributes name
  else Attribute.findByShortName? symbol.attributes name

end TypeSymbol

namespace Index

/-- The attribute with a short name on a member, or on the first member it overrides that has
one. -/
def inheritedAttribute? (index : Index) (member : Member) (name : String) : Option Attribute :=
  (member :: index.overrideChain member).findSome? fun current =>
    Attribute.findByShortName? current.attributes name

end Index

end TypeCatalog
