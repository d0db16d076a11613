import TypeCatalog.Distinct
import TypeCatalog.Program.Declarations

/-! # Members of classes

The statements in the body of a class declare its members: an annotated assignment to a name declares
a field, unless its annotation makes it a class variable, and a function with a property decorator
declares a property. Of several members with one name the first counts. -/

namespace TypeCatalog

open Syntax

/-- A member and the place of the statement that declares it. -/
structure MemberSite where
  place : Place
  member : Member

/-- A class body as it is read: the class and what its names stand for. -/
structure ClassReading where
  scope : TypeScope
  entry : ClassEntry

namespace ClassReading

variable (reading : ClassReading)

def memberFqn (name : Identifier) : String := reading.entry.fqn ++ "." ++ name.text

/-- The definition that the head of a subscript stands for, with what stands between its brackets. -/
def subscripted? : Expr → Option (Option String × List (Element Expr))
  | .subscript _ object elements =>
      some (object.dotted?.bind (reading.scope.resolve? reading.entry.bodyScopes), elements)
  | _ => none

/-- Whether an annotation marks a class variable. -/
def isClassVariable (type : Expr) : Bool :=
  (reading.subscripted? type).any fun found => found.1 == some "typing.ClassVar"

/-- The metadata of an annotation: what stands behind the type in the brackets of `Annotated`. -/
def metadata (type : Expr) : List Expr :=
  match reading.subscripted? type with
  | some (some "typing.Annotated", elements) => (elements.drop 1).filterMap Element.index?
  | _ => []

/-- The field that an annotated assignment declares. -/
def field? (target type : Expr) : Option MemberSite :=
  match target with
  | .name _ name =>
      if reading.isClassVariable type then none
      else
        let scopes := reading.entry.bodyScopes
        let locate := reading.entry.unit.locate
        some {
          place := target.place
          member := {
            fqn := reading.memberFqn name
            name := name.text
            declaringType := reading.entry.fqn
            kind := .field
            type := some (reading.scope.typeOf scopes type)
            attributes :=
              (reading.metadata type).filterMap (reading.scope.attributeOf? scopes locate)
            location := locate target.place } }
  | _ => none

/-- The notices of reading an annotated assignment. -/
def fieldNotices (target type : Expr) : List Notice :=
  match target with
  | .name _ name => (reading.metadata type).flatMap
      (reading.scope.attributeNotices reading.entry.bodyScopes (reading.memberFqn name))
  | _ => []

/-- Whether one of the decorators of a function makes it a property. -/
def isProperty (header : FunctionHeader) : Bool :=
  header.decorators.any fun decorator =>
    (reading.scope.attributeName? reading.entry.bodyScopes decorator).any
      propertyDecorators.contains

def property? (header : FunctionHeader) : Option MemberSite :=
  if reading.isProperty header then
    let scopes := reading.entry.bodyScopes
    let locate := reading.entry.unit.locate
    some {
      place := header.place
      member := {
        fqn := reading.memberFqn header.name
        name := header.name.text
        declaringType := reading.entry.fqn
        kind := .property
        type := header.returns.map (reading.scope.typeOf scopes)
        attributes := reading.scope.decoratorAttributes scopes locate header.decorators
        location := locate header.place } }
  else none

/-- The field that a simple statement declares. -/
def simpleSite? : SimpleStatement → Option MemberSite
  | .annotated target type _ => reading.field? target type
  | _ => none

/-- The members that a statement of a class body declares. -/
def statementSites : Statement → List MemberSite
  | .line parts => parts.filterMap reading.simpleSite?
  | .functionStatement header _ => (reading.property? header).toList
  | _ => []

def simpleNotices : SimpleStatement → List Notice
  | .annotated target type _ => reading.fieldNotices target type
  | _ => []

/-- The notices of reading a statement of a class body. -/
def statementNotices : Statement → List Notice
  | .line parts => parts.flatMap reading.simpleNotices
  | .functionStatement header _ => reading.scope.decoratorNotices reading.entry.bodyScopes
      (reading.memberFqn header.name) header.decorators
  | _ => []

/-- The members that a class declares. -/
def sites : List MemberSite :=
  firstOfEach (fun site => site.member.name)
    (reading.entry.body.statements.flatMap reading.statementSites)

/-- The members that a class declares, without their places. -/
def members : List Member := reading.sites.map MemberSite.member

def notices : List Notice := reading.entry.body.statements.flatMap reading.statementNotices

end ClassReading

end TypeCatalog
