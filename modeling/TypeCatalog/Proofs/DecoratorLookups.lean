import TypeCatalog.Proofs.HiddenClasses
import TypeCatalog.Proofs.MemberNodes

/-! # Looking up decorators

When classes and their members are declared, the names that decorators resolve to are recorded by
the statement that they stand at. A decorator of a class is looked up among these names, and an
attribute among those of the declared type; both find the same one, because the attributes are read
from the decorators in order (`TypeCatalog.Program.findDecorator?_agrees`).
-/

namespace TypeCatalog

open Syntax

/-- The first item that reads as a value, by its number. -/
theorem findIdx?_eq_some_iff_of_reading {α β : Type} [BEq β] [LawfulBEq β] {read : α → Option β}
    {items : List α} {value : β} {number : Nat} :
    (items.findIdx? fun item => read item == some value) = some number ↔
      items[number]?.bind read = some value ∧
        ∀ earlier < number, items[earlier]?.bind read ≠ some value := by
  rw [List.findIdx?_eq_some_iff_getElem]
  constructor
  · rintro ⟨inRange, reads, first⟩
    refine ⟨by simpa [inRange] using reads, fun earlier before => ?_⟩
    simpa [Nat.lt_trans before inRange] using first earlier before
  · rintro ⟨reads, first⟩
    obtain ⟨item, listed, reads⟩ := Option.bind_eq_some_iff.mp reads
    obtain ⟨inRange, rfl⟩ := List.getElem?_eq_some_iff.mp listed
    refine ⟨inRange, by simpa using reads, fun earlier before => ?_⟩
    simpa [Nat.lt_trans before inRange] using first earlier before

/-! ## Attributes of decorators -/

theorem isAccessorDecorator_eq_false_iff {name : String} : isAccessorDecorator name = false ↔
    name ∉ propertyDecorators ∧ ∀ suffix ∈ accessorSuffixes, ¬ suffix.toList <:+ name.toList := by
  rw [isAccessorDecorator, Bool.or_eq_false_iff, List.any_eq_false, ← Bool.not_eq_true,
    List.contains_iff_mem]
  simp only [List.isSuffixOf_iff_suffix]

namespace NameScope

variable (scope : NameScope) (enclosing : List String)

theorem attributeOf?_eq (locate : Place → Option Location) (decorator : Expr) :
    scope.attributeOf? enclosing locate decorator =
      (scope.attributeName? enclosing decorator).map fun fullName =>
        { fullName := fullName
          shortName := Text.lastPart fullName
          arguments := (argumentReadings decorator).filterMap ArgumentReading.positional?
          named := (argumentReadings decorator).filterMap ArgumentReading.named?
          location := locate decorator.place } := rfl

/-- The attribute of a name that belongs to no property is read from the first decorator that
resolves to the name. -/
theorem findByFullName?_decoratorAttributes {name : String}
    (marks : isAccessorDecorator name = false) (locate : Place → Option Location)
    (decorators : List Expr) :
    Attribute.findByFullName? (scope.decoratorAttributes enclosing locate decorators) name =
      (decorators.find? fun decorator =>
        scope.attributeName? enclosing decorator == some name).bind
          (scope.attributeOf? enclosing locate) := by
  rw [Attribute.findByFullName?, decoratorAttributes, List.find?_filter, List.find?_filterMap]
  congr 2
  funext decorator
  rw [attributeOf?_eq, Option.any_map]
  cases scope.attributeName? enclosing decorator with
  | none => rfl
  | some fullName =>
      by_cases same : fullName = name
      · subst same
        simp [marks]
      · simp [same]

end NameScope

/-! ## Recorded names -/

/-- The names that the decorators of a statement resolve to, by its place and their numbers. -/
def NameScope.recordedNames (scope : NameScope) (enclosing : List String) (place : Place)
    (decorators : List Expr) : List ((Place × Nat) × String) :=
  decorators.zipIdx.filterMap fun (decorator, number) =>
    (scope.attributeName? enclosing decorator).map fun name => ((place, number), name)

theorem NameScope.mem_recordedNames {scope : NameScope} {enclosing : List String}
    {place own : Place} {decorators : List Expr} {number : Nat} {name : String} :
    ((place, number), name) ∈ scope.recordedNames enclosing own decorators ↔
      place = own ∧ decorators[number]?.bind (scope.attributeName? enclosing) = some name := by
  rw [recordedNames, List.mem_filterMap]
  constructor
  · rintro ⟨⟨decorator, index⟩, listed, recorded⟩
    obtain ⟨found, resolved, same⟩ := Option.map_eq_some_iff.mp recorded
    cases same
    rw [List.mem_zipIdx_iff_getElem?] at listed
    exact ⟨rfl, Option.bind_eq_some_iff.mpr ⟨decorator, listed, resolved⟩⟩
  · rintro ⟨rfl, resolved⟩
    obtain ⟨decorator, listed, resolved⟩ := Option.bind_eq_some_iff.mp resolved
    exact ⟨(decorator, number), List.mem_zipIdx_iff_getElem?.mpr listed, by simp [resolved]⟩

namespace Declarations

/-- The names of the decorators of a class and of the functions in its body. -/
def namesRecordedBy (found : Declarations) (entry : ClassEntry) : List ((Place × Nat) × String) :=
  let scope := found.nameScope entry.unit
  scope.recordedNames [entry.scope] entry.header.place entry.header.decorators ++
    entry.body.statements.flatMap fun statement => match statement with
      | .functionStatement header _ =>
          scope.recordedNames entry.bodyScopes header.place header.decorators
      | _ => []

/-- The names of decorators that are recorded while the classes of a unit and their members are
declared. -/
def recordedNames (found : Declarations) (unit : SourceUnit) : List ((Place × Nat) × String) :=
  (found.classesOf unit).flatMap found.namesRecordedBy

variable {units : List SourceUnit} {unit : SourceUnit}

/-- Classes of a unit are told apart by the places of their statements. -/
theorem eq_of_place_eq (distinct : (units.map SourceUnit.number).Nodup) (member : unit ∈ units)
    {left right : ClassEntry} (leftOwn : left ∈ (ofUnits units).classesOf unit)
    (rightOwn : right ∈ (ofUnits units).classesOf unit)
    (same : left.header.place = right.header.place) : left = right :=
  List.inj_on_of_nodup_map
    ((places_classesOf distinct member).1.nodup unit.module.sites_nodup) leftOwn rightOwn same

/-- What is recorded for the decorators of a class statement. -/
theorem mem_recordedNames_iff (distinct : (units.map SourceUnit.number).Nodup)
    (member : unit ∈ units) {entry : ClassEntry} (own : entry ∈ (ofUnits units).classesOf unit)
    {number : Nat} {name : String} :
    ((entry.header.place, number), name) ∈ (ofUnits units).recordedNames unit ↔
      entry.header.decorators[number]?.bind
        (((ofUnits units).nameScope entry.unit).attributeName? [entry.scope]) = some name := by
  have marked := (places_classesOf distinct member).2
  rw [recordedNames, List.mem_flatMap]
  constructor
  · rintro ⟨other, otherOwn, recorded⟩
    rcases List.mem_append.mp recorded with ofClass | ofFunction
    · obtain ⟨place, resolved⟩ := NameScope.mem_recordedNames.mp ofClass
      rwa [eq_of_place_eq distinct member own otherOwn place]
    · -- no function stands where a class stands
      obtain ⟨statement, inBody, listed⟩ := List.mem_flatMap.mp ofFunction
      cases statement with
      | functionStatement header body =>
          have place := (NameScope.mem_recordedNames.mp listed).1
          have isFunction : (entry.header.place, false) ∈ other.body.marks := by
            cases body : other.body with
            | inline parts => simp [body, Suite.statements] at inBody
            | indented statements =>
                rw [body] at inBody
                rw [Suite.marks, place]
                exact mem_statementMarks inBody (by simp [Statement.marks])
          exact (unit.marks_unique (marked entry own).1
            ((marked other otherOwn).2 _ isFunction)).elim
      | _ => simp at listed
  · intro resolved
    exact ⟨entry, own, List.mem_append_left _ (NameScope.mem_recordedNames.mpr ⟨rfl, resolved⟩)⟩

theorem lookup_recordedNames (distinct : (units.map SourceUnit.number).Nodup)
    (member : unit ∈ units) {entry : ClassEntry} (own : entry ∈ (ofUnits units).classesOf unit)
    (number : Nat) :
    ((ofUnits units).recordedNames unit).lookup (entry.header.place, number) =
      entry.header.decorators[number]?.bind
        (((ofUnits units).nameScope entry.unit).attributeName? [entry.scope]) := by
  have recorded : ∀ name, ((entry.header.place, number), name) ∈
      (ofUnits units).recordedNames unit ↔ _ = some name := fun _ =>
    mem_recordedNames_iff distinct member own
  cases resolved : entry.header.decorators[number]?.bind
      (((ofUnits units).nameScope entry.unit).attributeName? [entry.scope]) with
  | some name =>
      refine lookup_eq_some_of_unique ((recorded name).mpr resolved) fun other listed => ?_
      exact Option.some.inj (((recorded other).mp listed).symm.trans resolved)
  | none =>
      rw [List.lookup_eq_none_iff]
      rintro ⟨key, name⟩ listed
      by_contra same
      obtain rfl : (entry.header.place, number) = key := by simpa using same
      have unresolved := (recorded name).mp listed
      rw [resolved] at unresolved
      simp at unresolved

/-- A declared class is one of the classes of its unit, which is one of the units. -/
theorem mem_classesOf_unit (distinct : (units.map SourceUnit.number).Nodup) {entry : ClassEntry}
    (declared : entry ∈ (ofUnits units).classes) :
    entry.unit ∈ units ∧ entry ∈ (ofUnits units).classesOf entry.unit := by
  obtain ⟨together, parts⟩ := classesOf_ofUnits distinct
  rw [← together] at declared
  obtain ⟨unit, member, own⟩ := List.mem_flatMap.mp declared
  obtain ⟨sites, part, classes⟩ := parts unit member
  obtain ⟨site, listed, rfl⟩ := List.mem_map.mp (classes ▸ own)
  have ofUnit : site.entry.unit = unit := unit.classSites_standIn.ofUnit site (part.mem listed)
  rw [ofUnit]
  exact ⟨member, own⟩

end Declarations

/-! ## Both lookups -/

namespace Program

variable {sources : List SourceModule} {entry : ClassEntry}

/-- The class of a statement is found by the place where it stands. -/
theorem classAt?_place (declared : entry ∈ (ofModules sources).declarations.classes) :
    (ofModules sources).classAt? entry.unit entry.header.place = some entry := by
  have distinct := SourceUnit.nodup_numbers sources
  obtain ⟨member, own⟩ := Declarations.mem_classesOf_unit distinct declared
  obtain ⟨found, isFound⟩ : ∃ found,
      (ofModules sources).classAt? entry.unit entry.header.place = some found :=
    Option.isSome_iff_exists.mp (List.find?_isSome.mpr ⟨entry, declared, by simp⟩)
  rw [classAt?] at isFound
  have stands : found.unit.number = entry.unit.number ∧
      found.header.place = entry.header.place := by simpa using List.find?_some isFound
  have foundOwn : found ∈ (ofModules sources).declarations.classesOf entry.unit :=
    List.mem_filter.mpr ⟨List.mem_of_find?_eq_some isFound, decide_eq_true stands.1⟩
  rw [classAt?, isFound, Declarations.eq_of_place_eq distinct member foundOwn own stands.2]

theorem findDecorator?_eq (declared : entry ∈ (ofModules sources).declarations.classes)
    (name : String) :
    (ofModules sources).findDecorator? entry.unit entry.header name =
      entry.header.decorators.findIdx? fun decorator =>
        ((ofModules sources).nameScope entry.unit).attributeName? [entry.scope] decorator ==
          some name := by
  rw [findDecorator?, classAt?_place declared, Option.bind_some]

/-- What is recorded for a decorator of a declared class is the name that it resolves to. -/
theorem lookup_recordedNames (declared : entry ∈ (ofModules sources).declarations.classes)
    (number : Nat) :
    ((ofModules sources).declarations.recordedNames entry.unit).lookup
      (entry.header.place, number) = entry.header.decorators[number]?.bind
        (((ofModules sources).nameScope entry.unit).attributeName? [entry.scope]) :=
  have distinct := SourceUnit.nodup_numbers sources
  have standing := Declarations.mem_classesOf_unit distinct declared
  Declarations.lookup_recordedNames distinct standing.1 standing.2 number

/-- The decorator that is found is the first that the name is recorded for. -/
theorem findDecorator?_eq_some_iff (declared : entry ∈ (ofModules sources).declarations.classes)
    {name : String} {number : Nat} :
    (ofModules sources).findDecorator? entry.unit entry.header name = some number ↔
      ((ofModules sources).declarations.recordedNames entry.unit).lookup
        (entry.header.place, number) = some name ∧
      ∀ earlier < number, ((ofModules sources).declarations.recordedNames entry.unit).lookup
        (entry.header.place, earlier) ≠ some name := by
  simp only [lookup_recordedNames declared]
  rw [findDecorator?_eq declared name, findIdx?_eq_some_iff_of_reading]

/-- The attribute of a declared type that a name finds is read from the decorator that the name
finds. -/
theorem findByFullName?_declaredType (declared : entry ∈ (ofModules sources).declarations.classes)
    {name : String} (marks : isAccessorDecorator name = false) :
    Attribute.findByFullName? ((ofModules sources).declarations.declaredType entry).attributes name =
      (((ofModules sources).findDecorator? entry.unit entry.header name).bind fun number =>
        entry.header.decorators[number]?).bind
          (((ofModules sources).nameScope entry.unit).attributeOf? [entry.scope]
            entry.unit.locate) := by
  rw [findDecorator?_eq declared name, ← List.find?_eq_bind_findIdx?_getElem?]
  exact NameScope.findByFullName?_decoratorAttributes _ _ marks _ _

/-- The decorator that is found writes an attribute, at the place of its expression. -/
theorem exists_attribute_of_findDecorator? (paths : (sources.map SourceModule.path).Nodup)
    (declared : entry ∈ (ofModules sources).declarations.classes) {name : String} {number : Nat}
    (isFound : (ofModules sources).findDecorator? entry.unit entry.header name = some number) :
    ∃ decorator marker, entry.header.decorators[number]? = some decorator ∧
      ((ofModules sources).nameScope entry.unit).attributeOf? [entry.scope] entry.unit.locate
        decorator = some marker ∧
      marker.location = some (entry.unit.locationOf decorator.place) := by
  have member := (Declarations.mem_classesOf_unit (SourceUnit.nodup_numbers sources) declared).1
  have resolved := ((findDecorator?_eq_some_iff declared).mp isFound).1
  rw [lookup_recordedNames declared] at resolved
  obtain ⟨decorator, listed, named⟩ := Option.bind_eq_some_iff.mp resolved
  exact ⟨decorator, _, listed, congrArg (Option.map _) named,
    SourceUnit.locate_of_mem_ofModules paths member decorator.place⟩

/-- **Decorators and attributes.** Take a declared class of modules of different paths, and a name
that belongs to no property. The first decorator of the class statement that the name is recorded
for is found exactly when the declared type has an attribute of this full name, and the first such
attribute is the one that the decorator writes, at the place of its expression. -/
theorem findDecorator?_agrees (paths : (sources.map SourceModule.path).Nodup)
    (declared : entry ∈ (ofModules sources).declarations.classes) {name : String}
    (noProperty : name ∉ ["builtins.property", "functools.cached_property"])
    (noAccessor : ∀ suffix ∈ [".setter", ".getter", ".deleter"],
      ¬ suffix.toList <:+ name.toList) :
    let program := ofModules sources
    let recorded := program.declarations.recordedNames entry.unit
    let found := program.findDecorator? entry.unit entry.header name
    ∃ symbol, program.index.types.find? entry.fqn = some symbol ∧
      (∀ number, found = some number ↔
        recorded.lookup (entry.header.place, number) = some name ∧
          ∀ earlier < number, recorded.lookup (entry.header.place, earlier) ≠ some name) ∧
      (found.isSome = true ↔
        (Attribute.findByFullName? symbol.attributes name).isSome = true) ∧
      ∀ number, found = some number → ∃ decorator marker,
        entry.header.decorators[number]? = some decorator ∧
        Attribute.findByFullName? symbol.attributes name = some marker ∧
        (program.nameScope entry.unit).attributeOf? [entry.scope] entry.unit.locate decorator =
          some marker ∧
        marker.location = some (entry.unit.locationOf decorator.place) := by
  intro program recorded found
  have marks : isAccessorDecorator name = false :=
    isAccessorDecorator_eq_false_iff.mpr ⟨noProperty, noAccessor⟩
  have looked : Attribute.findByFullName?
      (program.declarations.declaredType entry).attributes name =
        (found.bind fun number => entry.header.decorators[number]?).bind
          ((program.nameScope entry.unit).attributeOf? [entry.scope] entry.unit.locate) :=
    findByFullName?_declaredType declared marks
  have written : ∀ number, found = some number → ∃ decorator marker,
      entry.header.decorators[number]? = some decorator ∧
      Attribute.findByFullName? (program.declarations.declaredType entry).attributes name =
        some marker ∧
      (program.nameScope entry.unit).attributeOf? [entry.scope] entry.unit.locate decorator =
        some marker ∧
      marker.location = some (entry.unit.locationOf decorator.place) := by
    intro number isFound
    obtain ⟨decorator, marker, listed, reads, location⟩ :=
      exists_attribute_of_findDecorator? paths declared isFound
    refine ⟨decorator, marker, listed, ?_, reads, location⟩
    rw [looked, isFound, Option.bind_some, listed, Option.bind_some, reads]
  refine ⟨program.declarations.declaredType entry, ?_, fun number =>
    findDecorator?_eq_some_iff declared, ?_, written⟩
  · rw [types_ofModules, Declarations.find?_types_classIndex]
    exact Declarations.find?_types declared
  · constructor
    · intro isFound
      obtain ⟨number, isFound⟩ := Option.isSome_iff_exists.mp isFound
      obtain ⟨_, marker, _, isMarker, _⟩ := written number isFound
      exact Option.isSome_iff_exists.mpr ⟨marker, isMarker⟩
    · intro hasMarker
      by_contra missing
      rw [looked, Option.not_isSome_iff_eq_none.mp missing] at hasMarker
      simp at hasMarker

end Program

namespace Sample

/-- A class with three decorators, of which the first makes properties and the others call and repeat
one name, and a property in its body with a decorator of that name. -/
def decoratedTwice : SourceModule where
  path := "m.py"
  name := "m"
  module := ⟨[.classStatement ⟨⟨3, 0⟩, a,
      [name 0 property, .call ⟨"B()", ⟨1, 1⟩⟩ (name 1 b) [], name 2 b], []⟩
    (.indented [.functionStatement ⟨⟨6, 4⟩, x, [name 4 property, name 5 b], none⟩ (.inline [])])],
    by decide +kernel⟩

end Sample

namespace Program

/-- The second decorator of the class in the sample is the first of its name and writes the only
attribute that the lookup by name gives; five names are recorded for the unit. -/
theorem findDecorator?_agrees_on_decoratedTwice :
    let program := ofModules [Sample.decoratedTwice]
    ([Sample.decoratedTwice].map SourceModule.path).Nodup ∧
    "B" ∉ ["builtins.property", "functools.cached_property"] ∧
    (∀ suffix ∈ [".setter", ".getter", ".deleter"], ¬ suffix.toList <:+ "B".toList) ∧
    ∃ entry ∈ program.declarations.classes,
      (program.declarations.recordedNames entry.unit).map Prod.snd =
        ["builtins.property", "B", "B", "builtins.property", "B"] ∧
      program.findDecorator? entry.unit entry.header "B" = some 1 ∧
      ∃ symbol marker, program.index.types.find? entry.fqn = some symbol ∧
        Attribute.findByFullName? symbol.attributes "B" = some marker ∧
        marker.location = some ⟨"m.py", 2, 1⟩ := by
  intro program
  have paths : ([Sample.decoratedTwice].map SourceModule.path).Nodup := by decide
  have noProperty : "B" ∉ ["builtins.property", "functools.cached_property"] := by decide
  have noAccessor : ∀ suffix ∈ [".setter", ".getter", ".deleter"],
      ¬ suffix.toList <:+ "B".toList := by decide
  obtain ⟨entry, declared, names, isFound, place⟩ : ∃ entry ∈ program.declarations.classes,
      (program.declarations.recordedNames entry.unit).map Prod.snd =
        ["builtins.property", "B", "B", "builtins.property", "B"] ∧
      program.findDecorator? entry.unit entry.header "B" = some 1 ∧
      (entry.header.decorators[1]?.map fun decorator => entry.unit.locationOf decorator.place) =
        some ⟨"m.py", 2, 1⟩ :=
    ⟨_, List.mem_cons_self, by decide +kernel, by decide +kernel, by decide +kernel⟩
  obtain ⟨symbol, isType, _, _, written⟩ :=
    findDecorator?_agrees paths declared noProperty noAccessor
  obtain ⟨decorator, marker, listed, isMarker, _, location⟩ := written 1 isFound
  rw [listed, Option.map_some, Option.some.injEq] at place
  exact ⟨paths, noProperty, noAccessor, entry, declared, names, isFound, symbol, marker, isType,
    isMarker, place ▸ location⟩

end Program

end TypeCatalog
