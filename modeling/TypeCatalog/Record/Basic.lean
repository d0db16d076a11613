import TypeCatalog.Json.Basic
import TypeCatalog.Model.Symbol

/-! # Records

A record describes a type for readers in other languages: its lineage, its attributes and its
members, inherited ones included. Records are written as JSON objects. -/

namespace TypeCatalog

/-- An attribute in a record. A named argument that is repeated is shown once. -/
structure AttributeRecord where
  fullName : String
  shortName : String
  arguments : List Json
  named : List (String × Json)

/-- A member in the record of a type. -/
structure MemberRecord where
  name : String
  declaringType : String
  kind : MemberKind
  type : Option String
  optional : Bool
  valueType : Option String
  inherited : Bool
  overrides : Option String
  attributes : List AttributeRecord
  /-- The attributes of overridden members that no attribute with the same short name hides. -/
  inheritedAttributes : List AttributeRecord

/-- The record of a type. -/
structure TypeRecord where
  fqn : String
  location : Option Location
  generic : Bool
  ancestors : List String
  serializable : Bool
  attributes : List AttributeRecord
  members : List MemberRecord

def MemberKind.word : MemberKind → String
  | .field => "field"
  | .property => "property"

namespace Location

def toJson (location : Location) : Json :=
  .object [("path", .string location.path), ("line", .int location.line),
    ("column", .int location.column)]

end Location

namespace AttributeRecord

def toJson (record : AttributeRecord) : Json :=
  .object [("full_name", .string record.fullName), ("short_name", .string record.shortName),
    ("arguments", .array record.arguments), ("named_arguments", .object record.named)]

end AttributeRecord

namespace MemberRecord

def toJson (record : MemberRecord) : Json :=
  .object [("name", .string record.name), ("declaring_type", .string record.declaringType),
    ("kind", .string record.kind.word), ("type", .ofString? record.type),
    ("optional", .bool record.optional), ("value_type", .ofString? record.valueType),
    ("inherited", .bool record.inherited), ("overrides", .ofString? record.overrides),
    ("attributes", .array (record.attributes.map AttributeRecord.toJson)),
    ("inherited_attributes", .array (record.inheritedAttributes.map AttributeRecord.toJson))]

end MemberRecord

namespace TypeRecord

def toJson (record : TypeRecord) : Json :=
  .object [("kind", .string "type"), ("fqn", .string record.fqn),
    ("location", (record.location.map Location.toJson).getD .null),
    ("generic", .bool record.generic),
    ("ancestors", .array (record.ancestors.map Json.string)),
    ("serializable", .bool record.serializable),
    ("attributes", .array (record.attributes.map AttributeRecord.toJson)),
    ("members", .array (record.members.map MemberRecord.toJson))]

end TypeRecord

end TypeCatalog
