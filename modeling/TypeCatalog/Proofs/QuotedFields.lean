import Mathlib
import TypeCatalog.Proofs.ClassVariables
import TypeCatalog.Proofs.Interfaces

/-! # Quoted fields

Types see through strings, but whether an annotated name is a field and which attributes it has is
read from the annotation as it stands. So the annotation of a field can be quoted without a change
to the member as long as it is no subscript of the definition of class variables and has no
metadata that gives attributes (`TypeCatalog.QuotedField.members_of_quotedField`).
-/

namespace TypeCatalog

open Syntax

/-! ## Classes without bodies -/

/-- A bare class without its body. -/
def ClassEntry.outline (entry : ClassEntry) : ClassEntry := { entry.bare with body := .inline [] }

namespace Declarations

/-- Declarations of the same bare classes, whatever their bodies. -/
def SameOutlines (first second : Declarations) : Prop :=
  first.classes.map ClassEntry.outline = second.classes.map ClassEntry.outline

namespace SameOutlines

variable {first second : Declarations} (same : first.SameOutlines second)

include same

theorem fqns : first.fqns = second.fqns := by
  have outlined : ∀ found : Declarations,
      found.fqns = (found.classes.map ClassEntry.outline).map ClassEntry.fqn := by
    intro found
    rw [Declarations.fqns, List.map_map]
    rfl
  rw [outlined first, outlined second, same]

theorem nameScope : first.bare.nameScope = second.bare.nameScope := by
  funext unit
  rw [Declarations.nameScope, Declarations.nameScope, fqns_bare, fqns_bare, same.fqns]

theorem types : first.bare.types = second.bare.types := by
  have outlined : ∀ found : Declarations, found.bare.types.entries =
      (found.classes.map ClassEntry.outline).map fun entry =>
        (entry.fqn, found.bare.declaredType entry) := by
    intro found
    show (found.classes.map ClassEntry.bare).map _ = _
    rw [List.map_map, List.map_map]
    rfl
  have declared : first.bare.declaredType = second.bare.declaredType := by
    funext entry
    rw [declaredType, declaredType, same.nameScope]
  apply Table.ext_entries
  rw [outlined, outlined, same, declared]

/-- Classes of one name differ in their bodies alone. -/
theorem outline_eq {entry other : ClassEntry} (declared : entry ∈ first.classes)
    (otherDeclared : other ∈ second.classes) (named : entry.fqn = other.fqn) :
    entry.outline = other.outline := by
  have listed : entry.outline ∈ second.classes.map ClassEntry.outline :=
    same ▸ List.mem_map_of_mem declared
  obtain ⟨found, foundDeclared, isFound⟩ := List.mem_map.mp listed
  have foundNamed : found.fqn = other.fqn := (congrArg ClassEntry.fqn isFound).trans named
  rw [← isFound, entry_unique foundDeclared otherDeclared foundNamed]

/-- The bare readings of classes of one name differ in their bodies alone. -/
theorem reading_eq {entry other : ClassEntry} (declared : entry ∈ first.classes)
    (otherDeclared : other ∈ second.classes) (named : entry.fqn = other.fqn) :
    (second.reading other).bare =
      ⟨(first.reading entry).bare.scope, { entry.bare with body := other.bare.body }⟩ := by
  have outlines := same.outline_eq declared otherDeclared named
  have headed : other.bare = { entry.bare with body := other.bare.body } :=
    (congrArg (fun outline : ClassEntry => { outline with body := other.bare.body })
      outlines).symm
  have units : other.unit.bare = entry.unit.bare := congrArg ClassEntry.unit outlines.symm
  have scopes : (second.reading other).bare.scope = (first.reading entry).bare.scope := by
    refine ((second.typeScope_bare other.unit).symm.trans ?_).trans
      (first.typeScope_bare entry.unit)
    rw [Declarations.typeScope, Declarations.typeScope, same.nameScope, same.types, units]
  rw [← headed, ← scopes]
  rfl

end SameOutlines

end Declarations

namespace Program

/-- Programs of modules that are equal but for the fields of classes declare the same classes,
whatever their bodies. -/
theorem sameOutlines {first second : List SourceModule}
    (alike : List.Forall₂ (SourceModule.SameInterface false) first second) :
    (ofModules first).declarations.SameOutlines (ofModules second).declarations := by
  have stripped : ∀ sources : List SourceModule,
      (ofModules sources).declarations.classes.map ClassEntry.outline =
        ((ClassSite.keptAfter [] ((ofModules sources).units.flatMap SourceUnit.classSites)).map
          (ClassSite.interface false)).map fun site => { site.entry with body := .inline [] } := by
    intro sources
    rw [show (ofModules sources).declarations = .ofUnits (ofModules sources).units from rfl,
      Declarations.classes_ofUnits, List.map_map, List.map_map]
    rfl
  rw [Declarations.SameOutlines, stripped, stripped, interface_keptAfter alike]

end Program

/-! ## Members of a body -/

namespace ClassReading

variable (reading : ClassReading)

/-- A class read with other statements in its body. -/
def withBody (body : List Statement) : ClassReading :=
  ⟨reading.scope, { reading.entry with body := .indented body }⟩

theorem members_withBody (body : List Statement) :
    (reading.withBody body).members =
      (firstOfEach (fun site => site.member.name) (body.flatMap reading.statementSites)).map
        MemberSite.member := by
  have same : (reading.withBody body).statementSites = reading.statementSites := by
    funext statement
    cases statement <;> rfl
  rw [members, sites, same]
  rfl

end ClassReading

/-! ## Quoted annotations -/

/-- The same modules with an annotation and with its text as a string, in the body of one class:
what stands around the annotated assignment of the field, apart from values, is the same, the
string stands for the text of the annotation, and the text is read as the annotation. Other classes
may differ in their fields. -/
structure QuotedField (plain quoted : List SourceModule) where
  alike : List.Forall₂ (SourceModule.SameInterface false) plain quoted
  entry : ClassEntry
  declared : entry ∈ (Program.ofModules plain).declarations.classes
  quotedEntry : ClassEntry
  quotedDeclared : quotedEntry ∈ (Program.ofModules quoted).declarations.classes
  named : entry.fqn = quotedEntry.fqn
  name : Identifier
  target : Extent
  type : Expr
  extent : Extent
  spelling : String
  front : List Statement
  behind : List Statement
  body : entry.body.bare =
    front ++ .line [.annotated (.name target name) type.unplaced none] :: behind
  quotedBody : quotedEntry.body.bare =
    front ++ .line [.annotated (.name target name) (.string extent spelling) none] :: behind
  stands : TypeScope.stringText? (.string extent spelling) = some type.text
  isRead : (Expr.read? type.text).map Expr.unplaced = some type.unplaced

namespace QuotedField

variable {plain quoted : List SourceModule} (field : QuotedField plain quoted)

/-- The class with the annotation as it stands. -/
def reading : ClassReading := (Program.ofModules plain).declarations.reading field.entry

/-- The class with the annotation in a string. -/
def quotedReading : ClassReading :=
  (Program.ofModules quoted).declarations.reading field.quotedEntry

/-- Whether the annotation makes the name a field. -/
def IsField : Prop :=
  ¬ field.reading.scope.SubscriptsClassVariable field.reading.entry.bodyScopes field.type

/-- The attributes that the metadata of the annotation give to the field. -/
def attributes : List Attribute :=
  (field.reading.metadata field.type).filterMap (field.reading.scope.attributeOf?
    field.reading.entry.bodyScopes field.reading.entry.unit.locate)

/-- No other statement of the body declares a member of the name. -/
def IsAlone : Prop :=
  ∀ statement ∈ field.front ++ field.behind,
    ∀ site ∈ field.reading.bare.statementSites statement, site.member.name ≠ field.name.text

/-- The bare class with an annotation of the field. -/
def readingWith (type : Expr) : ClassReading :=
  field.reading.bare.withBody
    (field.front ++ .line [.annotated (.name field.target field.name) type none] :: field.behind)

theorem reading_bare : field.reading.bare = field.readingWith field.type.unplaced := by
  rw [readingWith, ← field.body]
  rfl

theorem quotedReading_bare :
    field.quotedReading.bare = field.readingWith (.string field.extent field.spelling) := by
  rw [readingWith, ← field.quotedBody]
  exact (Program.sameOutlines field.alike).reading_eq field.declared field.quotedDeclared
    field.named

/-- The string has the type of the annotation. -/
theorem typeOf_string :
    field.reading.bare.scope.typeOf field.reading.bare.entry.bodyScopes
        (.string field.extent field.spelling) =
      field.reading.bare.scope.typeOf field.reading.bare.entry.bodyScopes field.type.unplaced := by
  obtain ⟨expr, isRead, same⟩ := Option.map_eq_some_iff.mp field.isRead
  rw [TypeScope.typeOf_string _ _ field.stands isRead, ← TypeScope.typeOf_unplaced _ _ expr, same]

/-- The site of the field with given attributes. -/
def siteWith (attributes : List Attribute) : MemberSite where
  place := field.target.place
  member := {
    fqn := field.reading.bare.memberFqn field.name
    name := field.name.text
    declaringType := field.reading.bare.entry.fqn
    kind := .field
    type := some (field.reading.bare.scope.typeOf field.reading.bare.entry.bodyScopes
      field.type.unplaced)
    attributes := attributes
    location := none }

theorem field?_string : field.reading.bare.field? (.name field.target field.name)
    (.string field.extent field.spelling) = some (field.siteWith []) := by
  have declares : field.reading.bare.isClassVariable (.string field.extent field.spelling) =
    false := rfl
  rw [ClassReading.field?, declares, siteWith, ← typeOf_string]
  rfl

theorem field?_type (isField : field.IsField) :
    field.reading.bare.field? (.name field.target field.name) field.type.unplaced =
      some (field.siteWith (field.attributes.map Attribute.unlocated)) := by
  have declares : field.reading.isClassVariable field.type = false := by
    rw [← Bool.not_eq_true, field.reading.isClassVariable_iff]
    exact isField
  rw [ClassReading.field?, ClassReading.isClassVariable_bare, declares,
    ClassReading.metadata_bare, attributes, ← ClassReading.attributes_bare]
  rfl

theorem field?_type_eq_none (excluded : ¬ field.IsField) :
    field.reading.bare.field? (.name field.target field.name) field.type.unplaced = none := by
  rw [IsField, not_not, ← field.reading.isClassVariable_iff] at excluded
  rw [ClassReading.field?, ClassReading.isClassVariable_bare, excluded]
  rfl

/-! ### Members -/

/-- The members of the class with the annotation as it stands, without locations. -/
def members : List Member :=
  ((Program.ofModules plain).declarations.membersOf field.entry).map Member.unlocated

/-- The members of the class with the annotation in a string, without locations. -/
def quotedMembers : List Member :=
  ((Program.ofModules quoted).declarations.membersOf field.quotedEntry).map Member.unlocated

theorem members_eq : field.members = (field.readingWith field.type.unplaced).members := by
  rw [← field.reading_bare]
  exact field.reading.members_bare.symm

theorem quotedMembers_eq :
    field.quotedMembers = (field.readingWith (.string field.extent field.spelling)).members := by
  rw [← field.quotedReading_bare]
  exact field.quotedReading.members_bare.symm

theorem statementSites_field (type : Expr) :
    field.reading.bare.statementSites
        (.line [.annotated (.name field.target field.name) type none]) =
      (field.reading.bare.field? (.name field.target field.name) type).toList := by
  rw [ClassReading.statementSites, List.filterMap_cons, ClassReading.simpleSite?]
  cases field.reading.bare.field? (.name field.target field.name) type <;> rfl

/-- Annotations that declare the same field, or none, give the class the same members. -/
theorem members_congr {first second : Expr}
    (same : field.reading.bare.field? (.name field.target field.name) first =
      field.reading.bare.field? (.name field.target field.name) second) :
    (field.readingWith first).members = (field.readingWith second).members := by
  rw [readingWith, readingWith, ClassReading.members_withBody, ClassReading.members_withBody,
    List.flatMap_append, List.flatMap_append, List.flatMap_cons, List.flatMap_cons,
    statementSites_field, statementSites_field, same]

/-- The member of the field's name is the field, when no other statement declares one. -/
theorem find?_members (alone : field.IsAlone) (type : Expr) :
    (field.readingWith type).members.find? (fun member => member.name == field.name.text) =
      (field.reading.bare.field? (.name field.target field.name) type).map MemberSite.member := by
  have absent : ∀ statements, statements ⊆ field.front ++ field.behind →
      (statements.flatMap field.reading.bare.statementSites).find?
        (fun site => site.member.name == field.name.text) = none := by
    intro statements among
    rw [List.find?_eq_none]
    intro site listed
    obtain ⟨statement, member, declares⟩ := List.mem_flatMap.mp listed
    simpa using alone statement (among member) site declares
  have named : ((field.reading.bare.field? (.name field.target field.name) type).toList).find?
      (fun site => site.member.name == field.name.text) =
        field.reading.bare.field? (.name field.target field.name) type := by
    rw [ClassReading.field?]
    split
    · rfl
    · simp
  rw [readingWith, ClassReading.members_withBody, List.find?_map, firstOfEach]
  simp only [Function.comp_def]
  rw [find?_firstOfEachFrom _ _ _ List.not_mem_nil, List.flatMap_append, List.flatMap_cons,
    statementSites_field, List.find?_append, List.find?_append, named,
    absent _ (List.subset_append_left _ _), absent _ (List.subset_append_right _ _),
    Option.none_or, Option.or_none]

/-- **Quoted fields.** Quoting the annotation of a field keeps its type. It keeps all members of
the class if the annotation is no subscript of the definition of class variables and has no
metadata that gives attributes; otherwise it changes the member, if no other statement of the body
declares one of its name: a class variable becomes a field, and attributes are lost. -/
theorem members_of_quotedField (field : QuotedField plain quoted) :
    let isNamed := fun member : Member => member.name == field.name.text
    (field.reading.scope.typeOf field.entry.bodyScopes field.type).unlocated =
      (field.quotedReading.scope.typeOf field.quotedEntry.bodyScopes
        (.string field.extent field.spelling)).unlocated ∧
    (field.IsField → field.attributes = [] → field.members = field.quotedMembers) ∧
    (field.IsAlone → field.members.find? isNamed = field.quotedMembers.find? isNamed →
      field.IsField ∧ field.attributes = []) := by
  intro isNamed
  refine ⟨?_, ?_, ?_⟩
  · have typed := field.quotedReading.typeOf_bare (.string field.extent field.spelling)
    rw [TypeScope.typeOf_unplaced, quotedReading_bare] at typed
    exact (field.reading.typeOf_bare field.type).symm.trans
      (field.typeOf_string.symm.trans typed)
  · intro isField plainly
    refine field.members_eq.trans ((field.members_congr ?_).trans field.quotedMembers_eq.symm)
    rw [field.field?_type isField, field.field?_string, plainly, List.map_nil]
  · intro alone same
    have found := field.find?_members alone field.type.unplaced
    have quotedFound := field.find?_members alone (.string field.extent field.spelling)
    rw [← field.members_eq] at found
    rw [← field.quotedMembers_eq, field.field?_string] at quotedFound
    have equal := found.symm.trans (same.trans quotedFound)
    by_cases isField : field.IsField
    · rw [field.field?_type isField] at equal
      have attributes := congrArg Member.attributes (Option.some.inj equal)
      exact ⟨isField, List.map_eq_nil_iff.mp attributes⟩
    · rw [field.field?_type_eq_none isField] at equal
      simp at equal

end QuotedField

namespace Sample

/-- The only class of a module with one annotated name. -/
def annotatedEntry (type : Expr) : ClassEntry where
  unit := .alone (annotated type)
  scope := "m"
  header := ⟨⟨2, 0⟩, a, [], []⟩
  body := .indented [.line [.annotated (name 3 x) type none]]

/-- The annotated name with its annotation in quotes. -/
def quotation (type : Expr) (spelling : String)
    (stands : TypeScope.stringText? (.string ⟨spelling, .start⟩ spelling) = some type.text)
    (isRead : (Expr.read? type.text).map Expr.unplaced = some type.unplaced) :
    QuotedField [annotated type] [annotated (.string ⟨spelling, .start⟩ spelling)] where
  alike := .cons ⟨rfl, rfl, rfl⟩ .nil
  entry := annotatedEntry type
  declared := List.mem_singleton_self _
  quotedEntry := annotatedEntry (.string ⟨spelling, .start⟩ spelling)
  quotedDeclared := List.mem_singleton_self _
  named := rfl
  name := x
  target := Extent.unplaced ⟨"x", ⟨3, 8⟩⟩
  type := type
  extent := ⟨spelling, .start⟩
  spelling := spelling
  front := []
  behind := []
  body := rfl
  quotedBody := rfl
  stands := stands
  isRead := isRead

/-- A field of the type of its class, quoted. -/
def quotedName : QuotedField [annotated (name 3 a)]
    [annotated (.string ⟨"\"A\"", .start⟩ "\"A\"")] :=
  quotation (name 3 a) "\"A\"" (by decide +kernel) (by cbv)

def classVarOfA : Expr :=
  .subscript ⟨"ClassVar[A]", ⟨3, 11⟩⟩ classVar [.index (name 3 a)]

/-- A class variable, quoted. -/
def quotedClassVar : QuotedField [annotated classVarOfA]
    [annotated (.string ⟨"\"ClassVar[A]\"", .start⟩ "\"ClassVar[A]\"")] :=
  quotation classVarOfA "\"ClassVar[A]\"" (by decide +kernel)
    (by set_option maxRecDepth 4000 in cbv)

end Sample

namespace QuotedField

/-- A quoted name gives the field that the name gives. -/
theorem members_of_quotedName :
    let field := Sample.quotedName
    field.IsField ∧ field.attributes = [] ∧ field.members.map Member.name = ["x"] ∧
      field.members = field.quotedMembers := by
  intro field
  have isField : field.IsField := by
    rintro ⟨_, _, _, same, _⟩
    exact Expr.noConfusion same
  have plainly : field.attributes = [] := rfl
  exact ⟨isField, plainly, by decide +kernel,
    field.members_of_quotedField.2.1 isField plainly⟩

/-- Quoting an annotation can change the member: a class variable becomes a field. -/
theorem quoting_changes_members :
    ¬ ∀ (plain quoted : List SourceModule) (field : QuotedField plain quoted),
      let isNamed := fun member : Member => member.name == field.name.text
      field.members.find? isNamed = field.quotedMembers.find? isNamed := by
  intro always
  have same := congrArg Option.isSome (always _ _ Sample.quotedClassVar)
  exact absurd same (by decide +kernel)

end QuotedField

end TypeCatalog
