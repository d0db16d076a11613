import TypeCatalog.Proofs.ClassVariables

/-! # Bodies of classes

What stands in the body of a class itself declares its members in source order, and of several
members with one name the first counts (`TypeCatalog.Program.declaredMembers_of_bodies`). This holds
of indented bodies. A body on the line of its class statement declares nothing, although it may
annotate names in the same way (`TypeCatalog.Program.one_line_bodies_declare_nothing`).
-/

namespace TypeCatalog

open Syntax

namespace Syntax

/-- What stands in the body of a class itself: a simple statement, alone or among others on a line,
or a function. -/
inductive BodyItem where
  | simple (statement : SimpleStatement)
  | function (header : FunctionHeader)

/-- The items that a statement adds to the body that it stands in. What stands inside of classes,
functions and compound statements is no part of that body. -/
def Statement.bodyItems : Statement → List BodyItem
  | .line parts => parts.map .simple
  | .functionStatement header _ => [.function header]
  | .classStatement _ _ | .compound _ => []

namespace Suite

/-- The items of a body in source order, whether it is indented or stands behind the colon. -/
def bodyItems : Suite → List BodyItem
  | .inline parts => parts.map .simple
  | .indented body => body.flatMap Statement.bodyItems

def isIndented : Suite → Bool
  | .inline _ => false
  | .indented _ => true

end Suite

end Syntax

/-! ## The members of items -/

namespace ClassReading

variable (reading : ClassReading)

/-- A decorator that makes a property of the function behind it. -/
def MakesProperty (decorator : Expr) : Prop :=
  ∃ fullName, reading.scope.attributeName? reading.entry.bodyScopes decorator = some fullName ∧
    (fullName = "builtins.property" ∨ fullName = "functools.cached_property")

/-- A member of the class with a given name, kind and type. -/
structure Owns (kind : MemberKind) (name : Identifier) (type : Option Expr) (member : Member) :
    Prop where
  kind : member.kind = kind
  name : member.name = name.text
  declaringType : member.declaringType = reading.entry.fqn
  type : member.type = type.map (reading.scope.typeOf reading.entry.bodyScopes)

/-- The members that items declare: a field for a name that is annotated, unless by a subscript of
the definition of class variables, and a property for a function with a decorator that makes one. -/
inductive Declares (member : Member) : BodyItem → Prop where
  | field {extent : Extent} {name : Identifier} {type : Expr} {value : Option Expr}
      (lasting : ¬ reading.scope.SubscriptsClassVariable reading.entry.bodyScopes type)
      (owned : reading.Owns .field name (some type) member) :
      Declares member (.simple (.annotated (.name extent name) type value))
  | property {header : FunctionHeader} {decorator : Expr} (decorates : decorator ∈ header.decorators)
      (makes : reading.MakesProperty decorator)
      (owned : reading.Owns .property header.name header.returns member) :
      Declares member (.function header)

/-- The member that an item declares, if it declares any. -/
def itemMember? : BodyItem → Option Member
  | .simple statement => (reading.simpleSite? statement).map MemberSite.member
  | .function header => (reading.property? header).map MemberSite.member

theorem isProperty_iff (header : FunctionHeader) :
    reading.isProperty header = true ↔
      ∃ decorator ∈ header.decorators, reading.MakesProperty decorator := by
  simp only [isProperty, List.any_eq_true, Option.any_eq_true, propertyDecorators,
    List.contains_eq_mem, List.mem_cons, List.not_mem_nil, or_false, decide_eq_true_eq,
    MakesProperty]

/-- What is read from an item is declared by it. -/
theorem declares_of_itemMember? {item : BodyItem} {member : Member}
    (isRead : reading.itemMember? item = some member) : reading.Declares member item := by
  match item, isRead with
  | .simple (.annotated (.name extent name) type value), isRead =>
      obtain ⟨site, declared, rfl⟩ := Option.map_eq_some_iff.mp isRead
      have lasting : ¬ reading.scope.SubscriptsClassVariable reading.entry.bodyScopes type := by
        rw [← reading.field?_eq_none_iff extent name type]
        exact fun absent => absurd (absent.symm.trans declared) (by simp)
      rw [simpleSite?, field?] at declared
      split at declared
      · simp at declared
      · rw [← Option.some.inj declared]
        exact .field lasting ⟨rfl, rfl, rfl, rfl⟩
  | .function header, isRead =>
      obtain ⟨site, declared, rfl⟩ := Option.map_eq_some_iff.mp isRead
      rw [property?] at declared
      split at declared
      · rename_i isProperty
        obtain ⟨decorator, decorates, makes⟩ := (reading.isProperty_iff header).mp isProperty
        rw [← Option.some.inj declared]
        exact .property decorates makes ⟨rfl, rfl, rfl, rfl⟩
      · simp at declared

/-- An item that declares a member is read as one. -/
theorem itemMember?_ne_none {item : BodyItem} {member : Member}
    (declares : reading.Declares member item) : reading.itemMember? item ≠ none := by
  cases declares with
  | field lasting owned =>
      rw [itemMember?, simpleSite?, Ne, Option.map_eq_none_iff, field?_eq_none_iff]
      exact lasting
  | property decorates makes owned =>
      rw [itemMember?, property?, if_pos ((reading.isProperty_iff _).mpr ⟨_, decorates, makes⟩)]
      simp

/-! ## The members of bodies -/

theorem map_member_statementSites (statement : Statement) :
    (reading.statementSites statement).map MemberSite.member =
      statement.bodyItems.filterMap reading.itemMember? := by
  cases statement with
  | line parts =>
      rw [statementSites, Statement.bodyItems, List.map_filterMap, List.filterMap_map]
      rfl
  | functionStatement header body =>
      rw [statementSites, Statement.bodyItems, List.filterMap_cons, List.filterMap_nil]
      cases declared : reading.property? header <;> simp [itemMember?, declared]
  | _ => rfl

/-- The members of an indented body are the first of each name among those of its items. -/
theorem members_of_indented (indented : reading.entry.body.isIndented = true) :
    reading.members =
      firstOfEach Member.name (reading.entry.body.bodyItems.filterMap reading.itemMember?) := by
  cases body : reading.entry.body with
  | inline parts => simp [body, Suite.isIndented] at indented
  | indented statements =>
      rw [members, sites, body, Suite.statements, Suite.bodyItems, firstOfEach,
        ← firstOfEachFrom_map Member.name MemberSite.member, List.map_flatMap,
        List.filterMap_flatMap]
      simp only [map_member_statementSites]
      rfl

/-- A body on the line of its class statement has no members. -/
theorem members_of_inline (inline : reading.entry.body.isIndented = false) :
    reading.members = [] := by
  cases body : reading.entry.body with
  | inline parts => rw [members, sites, body]; rfl
  | indented statements => simp [body, Suite.isIndented] at inline

/-- Every member of a class is declared by an item of its body. -/
theorem exists_item_of_mem_members {member : Member} (listed : member ∈ reading.members) :
    ∃ item ∈ reading.entry.body.bodyItems, reading.Declares member item := by
  cases layout : reading.entry.body.isIndented with
  | true =>
      rw [reading.members_of_indented layout] at listed
      obtain ⟨item, inBody, isRead⟩ :=
        List.mem_filterMap.mp ((firstOfEachFrom_sublist _ _ _).mem listed)
      exact ⟨item, inBody, reading.declares_of_itemMember? isRead⟩
  | false => simp [reading.members_of_inline layout] at listed

end ClassReading

theorem firstOfEach_eq_nil_iff {α : Type} (name : α → String) (items : List α) :
    firstOfEach name items = [] ↔ items = [] := by
  cases items <;> simp [firstOfEach, firstOfEachFrom]

namespace Program

theorem declaredMembers_eq_members (sources : List SourceModule) {entry : ClassEntry}
    (declared : entry ∈ (ofModules sources).declarations.classes) {symbol : TypeSymbol}
    (keyed : symbol.key? = some entry.fqn) :
    (ofModules sources).index.declaredMembers symbol =
      ((ofModules sources).declarations.reading entry).members := by
  rw [Index.declaredMembers, members_ofModules]
  exact Declarations.declaredMembers_classIndex declared keyed

/-- **Members of class bodies.** The items of an indented body declare the members of its class in
source order, and of several members with one name the first counts. Fields are declared by the
annotated names that are no subscripts of the definition of class variables, and properties by the
functions with a decorator that makes one. A body on the line of its class statement declares no
members, which is the same only when none of its items declares one. -/
theorem declaredMembers_of_bodies (sources : List SourceModule) :
    let program := ofModules sources
    ∀ entry ∈ program.declarations.classes, ∀ symbol : TypeSymbol,
      symbol.key? = some entry.fqn →
      let reading := program.declarations.reading entry
      let taken := entry.body.bodyItems.filterMap reading.itemMember?
      (∀ item, (∀ member, reading.itemMember? item = some member → reading.Declares member item) ∧
        (reading.itemMember? item = none → ∀ member, ¬ reading.Declares member item)) ∧
      (entry.body.isIndented = true →
        program.index.declaredMembers symbol = firstOfEach Member.name taken) ∧
      (entry.body.isIndented = false → program.index.declaredMembers symbol = []) ∧
      (program.index.declaredMembers symbol = firstOfEach Member.name taken ↔
        entry.body.isIndented = true ∨ taken = []) := by
  intro program entry declared symbol keyed reading taken
  rw [show program.index.declaredMembers symbol = reading.members from
    declaredMembers_eq_members sources declared keyed]
  have indented := reading.members_of_indented
  have inline := reading.members_of_inline
  refine ⟨fun item => ⟨fun member => reading.declares_of_itemMember?, fun absent member declares =>
    reading.itemMember?_ne_none declares absent⟩, indented, inline, ?_⟩
  constructor
  · intro same
    cases layout : entry.body.isIndented with
    | true => exact Or.inl rfl
    | false => exact Or.inr ((firstOfEach_eq_nil_iff _ _).mp (same.symm.trans (inline layout)))
  · rintro (layout | none)
    · exact indented layout
    · cases layout : entry.body.isIndented with
      | true => exact indented layout
      | false => rw [inline layout, none, firstOfEach_nil]

end Program

namespace Sample

/-- A line that annotates two names. -/
def annotatedLine (line : Nat) (left right : Identifier) : List SimpleStatement :=
  [.annotated (.name ⟨left.text, ⟨line, 9⟩⟩ left) (name line a) none,
    .annotated (.name ⟨right.text, ⟨line, 15⟩⟩ right) (name line a) none]

/-- Two classes that annotate the same names, one of them with a property in an indented body, in the
module that declares the decorator. -/
def twoLayouts : SourceModule where
  path := "builtins.py"
  name := "builtins"
  module := ⟨[classOn 1 property [] (.inline []),
    classOn 2 a [] (.indented [.line (annotatedLine 3 x a), propertyOn 4 x, propertyOn 5 b]),
    classOn 6 b [] (.inline (annotatedLine 6 x a))], by decide +kernel⟩

end Sample

namespace Program

/-- The indented body of the sample declares two fields and a property; a property with the name of
a field declares nothing more. -/
theorem declaredMembers_of_twoLayouts :
    let program := ofModules [Sample.twoLayouts]
    ∃ entry ∈ program.declarations.classes, ∃ symbol : TypeSymbol,
      symbol.key? = some entry.fqn ∧ entry.body.isIndented = true ∧
      program.index.declaredMembers symbol = firstOfEach Member.name
        (entry.body.bodyItems.filterMap (program.declarations.reading entry).itemMember?) ∧
      (program.index.declaredMembers symbol).map (fun member => (member.name, member.kind)) =
        [("x", .field), ("A", .field), ("B", .property)] := by
  intro program
  obtain ⟨entry, second, keyed, indented⟩ : ∃ entry,
      program.declarations.classes[1]? = some entry ∧
        (TypeSymbol.externalType "builtins.A").key? = some entry.fqn ∧
        entry.body.isIndented = true := ⟨_, rfl, by decide +kernel, rfl⟩
  have declared := List.mem_of_getElem? second
  obtain ⟨_, taken, _⟩ := declaredMembers_of_bodies [Sample.twoLayouts] entry declared
    (.externalType "builtins.A") keyed
  exact ⟨entry, declared, _, keyed, indented, taken indented, by decide +kernel⟩

/-- The members of a class need not be those that its body declares: the body of the sample that
stands on the line of its class statement annotates two names, and the class has no members. -/
theorem one_line_bodies_declare_nothing :
    ¬ ∀ sources : List SourceModule, let program := ofModules sources
      ∀ entry ∈ program.declarations.classes, ∀ symbol : TypeSymbol,
        symbol.key? = some entry.fqn →
        program.index.declaredMembers symbol = firstOfEach Member.name
          (entry.body.bodyItems.filterMap (program.declarations.reading entry).itemMember?) := by
  intro always
  obtain ⟨entry, third, keyed, declares⟩ : ∃ entry,
      (ofModules [Sample.twoLayouts]).declarations.classes[2]? = some entry ∧
        (TypeSymbol.externalType "builtins.B").key? = some entry.fqn ∧
        (entry.body.bodyItems.filterMap
          ((ofModules [Sample.twoLayouts]).declarations.reading entry).itemMember?).length = 2 :=
    ⟨_, rfl, by decide +kernel, by decide +kernel⟩
  have members := always [Sample.twoLayouts] entry (List.mem_of_getElem? third)
    (.externalType "builtins.B") keyed
  have absent : (ofModules [Sample.twoLayouts]).index.declaredMembers
      (.externalType "builtins.B") = [] := by rfl
  rw [absent] at members
  rw [(firstOfEach_eq_nil_iff _ _).mp members.symm] at declares
  exact absurd declares (by decide)

end Program

end TypeCatalog
