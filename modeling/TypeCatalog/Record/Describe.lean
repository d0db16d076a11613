import TypeCatalog.Literal.Record
import TypeCatalog.Model.AttributeLookup
import TypeCatalog.Record.Basic
import TypeCatalog.Settings.Basic

/-! # Describing types

The record of a type is read off an index under settings. -/

namespace TypeCatalog

namespace AttributeRecord

/-- The record of an attribute; of the values of a named argument the first is shown. -/
def ofAttribute (marker : Attribute) : AttributeRecord where
  fullName := marker.fullName
  shortName := marker.shortName
  arguments := marker.arguments.map Literal.toJson
  named := firstOfEach Prod.fst (marker.named.map fun entry => (entry.1, entry.2.toJson))

end AttributeRecord

namespace TypeSymbol

/-- The name that members declared by a type itself carry: its definition, or its own name when it
has no definition. -/
def declaringName (symbol : TypeSymbol) : String :=
  match symbol.definition with
  | some "" | none => symbol.fqn
  | some definition => definition

end TypeSymbol

namespace Index

variable (index : Index)

/-- The short names of the attributes that a member inherits: those of the members it overrides that
neither the member nor a nearer overridden member carries. -/
def inheritedShortNames (member : Member) : List String :=
  firstOfEachFrom (fun name => name) (member.attributes.map Attribute.shortName)
    ((index.overrideChain member).flatMap fun overridden =>
      overridden.attributes.map Attribute.shortName)

/-- The attributes that a member inherits from the members it overrides. -/
def inheritedAttributes (member : Member) : List Attribute :=
  (index.inheritedShortNames member).filterMap (index.inheritedAttribute? member)

/-- Whether a type counts as serializable: it derives from the root base, if there is one, else it
carries the type attribute, if there is one. -/
def isSerializable (settings : Settings) (symbol : TypeSymbol) : Bool :=
  match settings.rootBase, settings.typeAttribute with
  | some root, _ => index.derivesFrom symbol root
  | none, some name => (symbol.findAttribute? name).isSome
  | none, none => true

/-- The record of a member, among the members of an owner. -/
def describeMember (settings : Settings) (owner : TypeSymbol) (member : Member) :
    MemberRecord where
  name := member.name
  declaringType := member.declaringType
  kind := member.kind
  type := member.type.map TypeSymbol.fqn
  optional := member.type.any fun type => type.isOptional settings.optionalWrapper
  valueType :=
    (member.type.bind fun type => type.wrappedType? settings.optionalWrapper).map TypeSymbol.fqn
  inherited := member.declaringType != owner.declaringName
  overrides := (index.overridden? member).map Member.id
  attributes := member.attributes.map AttributeRecord.ofAttribute
  inheritedAttributes := (index.inheritedAttributes member).map AttributeRecord.ofAttribute

def describeType (settings : Settings) (symbol : TypeSymbol) : TypeRecord where
  fqn := symbol.fqn
  location := symbol.location
  generic := symbol.isGeneric
  ancestors := (index.ancestors symbol).map TypeSymbol.fqn
  serializable := index.isSerializable settings symbol
  attributes := symbol.attributes.map AttributeRecord.ofAttribute
  members := (index.allMembers symbol).map (index.describeMember settings symbol)

/-- The types of a program that are described: all named types, or the serializable ones. -/
def describedTypes (settings : Settings) (serializableOnly : Bool) : List TypeSymbol :=
  index.namedTypes.filter fun symbol => !serializableOnly || index.isSerializable settings symbol

def describe (settings : Settings) (serializableOnly : Bool) : List TypeRecord :=
  (index.describedTypes settings serializableOnly).map (index.describeType settings)

end Index

end TypeCatalog
