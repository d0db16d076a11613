import TypeCatalog.Proofs.ClassIndex
import TypeCatalog.Proofs.Overrides
import TypeCatalog.Proofs.QuotedTypes
import TypeCatalog.Proofs.UnlocatedScopes

/-! # Class variables

An annotation stands for a class variable when its type is that of the definition or of one of its
instantiations. There are four ways to spell one (`TypeCatalog.TypeScope.definition_typeOf_iff`),
and only the subscripts of the definition keep a name from being a field
(`TypeCatalog.Program.fields_of_class_variables`); the others give fields that have the type of
class variables.
-/

namespace TypeCatalog

open Syntax

/-! ## Types of subscripts -/

namespace TypeScope

variable (scope : TypeScope) (enclosing : List String)

/-- Slices between the brackets of a subscript have no types. -/
theorem elementTypes_eq_map (ofText? : String → Option TypeSymbol)
    (elements : List (Element Expr)) : scope.elementTypes enclosing ofText? elements =
      (elements.filterMap Element.index?).map fun value =>
        ofOperands (scope.operandTypes enclosing ofText? value) := by
  induction elements with
  | nil => rfl
  | cons element rest ih =>
      cases element with
      | index value =>
          rw [elementTypes, ih]
          rfl
      | slice _ => exact ih

theorem typeOf_subscript (extent : Extent) (object : Expr) (elements : List (Element Expr)) :
    scope.typeOf enclosing (.subscript extent object elements) =
      scope.subscriptType enclosing object
        ((elements.filterMap Element.index?).map (scope.typeOf enclosing)) := by
  rw [typeOf_eq, operandTypes, elementTypes_eq_map, ofOperands]
  simp only [← typeOf_eq]

/-! ## Spellings -/

/-- What the head of a subscript stands for. -/
def headOf (object : Expr) : Option String := object.dotted?.bind (scope.resolve? enclosing)

/-- The definition of class variables. -/
def classVariable : String := "typing.ClassVar"

/-- The expressions that stand for class variables: the definition itself, its subscripts, strings
that hold such an expression, and `Annotated` types of one. -/
inductive SpellsClassVariable : Expr → Prop where
  | bare {expr : Expr} {name : String} (dotted : expr.dotted? = some name) (valued : name ≠ "None")
      (stands : scope.resolve? enclosing name = some classVariable) : SpellsClassVariable expr
  | subscripted {extent : Extent} {object : Expr} {elements : List (Element Expr)}
      (head : scope.headOf enclosing object = some classVariable) :
      SpellsClassVariable (.subscript extent object elements)
  | quoted {extent : Extent} {spelling text : String} {expr : Expr}
      (stands : stringText? (.string extent spelling) = some text)
      (isRead : Expr.read? text = some expr) (inside : SpellsClassVariable expr) :
      SpellsClassVariable (.string extent spelling)
  | annotated {extent : Extent} {object first : Expr} {elements : List (Element Expr)}
      (head : scope.headOf enclosing object = some "typing.Annotated")
      (isFirst : (elements.filterMap Element.index?).head? = some first)
      (inside : SpellsClassVariable first) :
      SpellsClassVariable (.subscript extent object elements)

/-- The spellings by a subscript of the definition. -/
def SubscriptsClassVariable (expr : Expr) : Prop :=
  ∃ extent object elements, expr = .subscript extent object elements ∧
    scope.headOf enclosing object = some classVariable

/-- Declared types are their own definitions. -/
def Keyed : Prop := ∀ key symbol, scope.types.find? key = some symbol → symbol.definition = some key

variable {scope enclosing}

theorem definition_namedType (keyed : scope.Keyed) (name : String) :
    (scope.namedType enclosing name).definition =
      if name = "None" then some noneName else scope.resolve? enclosing name := by
  rw [namedType]
  split
  · rfl
  · cases scope.resolve? enclosing name with
    | none => rfl
    | some key =>
        dsimp only
        cases found : scope.types.find? key with
        | none => rfl
        | some symbol => exact keyed key symbol found

theorem definition_unionOf (options : List TypeSymbol) :
    (unionOf options).definition ≠ some classVariable := by
  rw [unionOf]
  split
  · split <;> exact fun same => absurd (Option.some.inj same) (by decide)
  · exact fun same => absurd (Option.some.inj same) (by decide)

/-- A subscript stands for class variables as its head does, or as the first type of `Annotated`. -/
theorem definition_subscriptType {object : Expr} {arguments : List TypeSymbol} :
    (scope.subscriptType enclosing object arguments).definition = some classVariable ↔
      scope.headOf enclosing object = some classVariable ∨
        scope.headOf enclosing object = some "typing.Annotated" ∧
          ∃ first ∈ arguments.head?, first.definition = some classVariable := by
  have head : object.dotted?.bind (scope.resolve? enclosing) = scope.headOf enclosing object := rfl
  rw [subscriptType_eq, head]
  generalize scope.headOf enclosing object = definition
  dsimp only
  by_cases annotated : definition = some "typing.Annotated"
  · subst annotated
    rw [if_pos rfl]
    cases arguments with
    | nil => simp [TypeSymbol.instantiation, classVariable]
    | cons first rest => simp [classVariable]
  · rw [if_neg annotated]
    by_cases union : definition = some "typing.Union"
    · subst union
      rw [if_pos rfl]
      simpa [classVariable] using definition_unionOf arguments
    · rw [if_neg union]
      simp [TypeSymbol.instantiation, annotated]

/-- Every spelling of class variables has a type of their definition. -/
theorem SpellsClassVariable.definition_typeOf (keyed : scope.Keyed) {expr : Expr}
    (spells : scope.SpellsClassVariable enclosing expr) :
    (scope.typeOf enclosing expr).definition = some classVariable := by
  induction spells with
  | bare dotted valued stands =>
      rw [scope.typeOf_of_dotted? enclosing dotted, definition_namedType keyed, if_neg valued,
        stands]
  | subscripted head =>
      rw [typeOf_subscript, definition_subscriptType]
      exact Or.inl head
  | quoted stands isRead inside ih => rw [scope.typeOf_string enclosing stands isRead, ih]
  | annotated head isFirst inside ih =>
      rw [typeOf_subscript, definition_subscriptType]
      refine Or.inr ⟨head, _, ?_, ih⟩
      rw [List.head?_map, isFirst]
      rfl

/-! ## Types of class variables -/

theorem spells_of_namedType (keyed : scope.Keyed) {expr : Expr} {name : String}
    (dotted : expr.dotted? = some name)
    (typed : (scope.namedType enclosing name).definition = some classVariable) :
    scope.SpellsClassVariable enclosing expr := by
  rw [definition_namedType keyed] at typed
  split at typed
  · exact absurd (Option.some.inj typed) (by decide)
  · rename_i valued
    exact .bare dotted valued typed

theorem definition_unresolvedType (expr : Expr) : (unresolvedType expr).definition = none := rfl

mutual

/-- An expression whose type is that of class variables spells one, if the texts of its strings
do. -/
theorem spells_of_operandTypes (keyed : scope.Keyed) {ofText? : String → Option TypeSymbol}
    (texts : ∀ text symbol, ofText? text = some symbol → symbol.definition = some classVariable →
      ∃ expr, Expr.read? text = some expr ∧ scope.SpellsClassVariable enclosing expr) :
    ∀ expr : Expr,
      (ofOperands (scope.operandTypes enclosing ofText? expr)).definition = some classVariable →
        scope.SpellsClassVariable enclosing expr
  | .name extent identifier, typed => by
      rw [scope.operandTypes_of_dotted? enclosing ofText? rfl, ofOperands] at typed
      exact spells_of_namedType keyed rfl typed
  | .attribute extent object member, typed => by
      cases dotted : (Expr.attribute extent object member).dotted? with
      | none => simp [operandTypes, dotted, ofOperands, definition_unresolvedType] at typed
      | some name =>
          rw [scope.operandTypes_of_dotted? enclosing ofText? dotted, ofOperands] at typed
          exact spells_of_namedType keyed dotted typed
  | .string extent spelling, typed => by
      rw [operandTypes, ofOperands] at typed
      cases stands : stringText? (.string extent spelling) with
      | none => simp [stands, definition_unresolvedType] at typed
      | some text =>
          rw [stands, Option.bind_some] at typed
          cases isTyped : ofText? text with
          | none => simp [isTyped, definition_unresolvedType] at typed
          | some symbol =>
              rw [isTyped, Option.getD_some] at typed
              obtain ⟨expr, isRead, spells⟩ := texts text symbol isTyped typed
              exact .quoted stands isRead spells
  | .subscript extent object elements, typed => by
      rw [operandTypes, ofOperands, definition_subscriptType] at typed
      rcases typed with head | ⟨head, first, isFirst, typed⟩
      · exact .subscripted head
      · obtain ⟨value, listed, spells⟩ :=
          spells_of_elementTypes keyed texts elements first isFirst typed
        exact .annotated head listed spells
  | .binary extent operator left right, typed => by
      cases operator with
      | bitOr =>
          -- A union has a definition of its own, whatever its operands stand for.
          rw [operandTypes, ofOperands_append (scope.operandTypes_ne_nil enclosing ofText? left)
            (scope.operandTypes_ne_nil enclosing ofText? right)] at typed
          exact absurd typed (definition_unionOf _)
      | _ => simp [operandTypes, Expr.dotted?, ofOperands, definition_unresolvedType] at typed
  | .number _ _, typed | .ellipsis _, typed | .joined _ _, typed | .unary _ _ _, typed
  | .call _ _ _, typed | .tuple _ _, typed | .list _ _, typed | .set _ _, typed
  | .dict _ _, typed | .compound _ _ _, typed => by
      simp [operandTypes, Expr.dotted?, ofOperands, definition_unresolvedType] at typed

theorem spells_of_elementTypes (keyed : scope.Keyed) {ofText? : String → Option TypeSymbol}
    (texts : ∀ text symbol, ofText? text = some symbol → symbol.definition = some classVariable →
      ∃ expr, Expr.read? text = some expr ∧ scope.SpellsClassVariable enclosing expr) :
    ∀ elements : List (Element Expr),
      ∀ first ∈ (scope.elementTypes enclosing ofText? elements).head?,
        first.definition = some classVariable →
      ∃ value, (elements.filterMap Element.index?).head? = some value ∧
        scope.SpellsClassVariable enclosing value
  | [], first, isFirst, _ => by simp [elementTypes] at isFirst
  | .index value :: rest, first, isFirst, typed => by
      rw [elementTypes, List.head?_cons, Option.mem_some_iff] at isFirst
      subst isFirst
      exact ⟨value, rfl, spells_of_operandTypes keyed texts value typed⟩
  | .slice _ :: rest, first, isFirst, typed =>
      spells_of_elementTypes keyed texts rest first isFirst typed

end

theorem spells_of_typeAtDepth (keyed : scope.Keyed) (depth : Nat) (expr : Expr)
    (typed : (scope.typeAtDepth enclosing depth expr).definition = some classVariable) :
    scope.SpellsClassVariable enclosing expr := by
  induction depth generalizing expr with
  | zero => exact spells_of_operandTypes keyed (fun _ _ isTyped => by simp at isTyped) expr typed
  | succ depth ih =>
      refine spells_of_operandTypes keyed ?_ expr typed
      intro text symbol isTyped definition
      obtain ⟨inner, isRead, rfl⟩ := Option.map_eq_some_iff.mp isTyped
      exact ⟨inner, isRead, ih inner definition⟩

/-- **Spellings.** The expressions with a type of class variables are exactly their spellings. -/
theorem definition_typeOf_iff (keyed : scope.Keyed) (expr : Expr) :
    (scope.typeOf enclosing expr).definition = some classVariable ↔
      scope.SpellsClassVariable enclosing expr :=
  ⟨spells_of_typeAtDepth keyed _ expr, fun spells => spells.definition_typeOf keyed⟩

end TypeScope

/-! ## Fields -/

/-- A line in the body of a class that annotates a name. -/
def ClassEntry.Annotates (entry : ClassEntry) (name : Identifier) (type : Expr) : Prop :=
  ∃ parts extent value, .line parts ∈ entry.body.statements ∧
    .annotated (.name extent name) type value ∈ parts

namespace ClassReading

variable (reading : ClassReading)

/-- The annotations that declare no field are the subscripts of the definition of class
variables. -/
theorem isClassVariable_iff (type : Expr) :
    reading.isClassVariable type = true ↔
      reading.scope.SubscriptsClassVariable reading.entry.bodyScopes type := by
  cases type with
  | subscript extent object elements =>
      simp only [isClassVariable, subscripted?, Option.any_some, beq_iff_eq]
      refine ⟨fun head => ⟨extent, object, elements, rfl, head⟩, ?_⟩
      rintro ⟨_, _, _, same, head⟩
      obtain ⟨_, rfl, _⟩ := Expr.subscript.inj same
      exact head
  | _ => simp [isClassVariable, subscripted?, TypeScope.SubscriptsClassVariable]

theorem field?_eq_none_iff (extent : Extent) (name : Identifier) (type : Expr) :
    reading.field? (.name extent name) type = none ↔
      reading.scope.SubscriptsClassVariable reading.entry.bodyScopes type := by
  rw [← isClassVariable_iff, field?]
  split
  · rename_i excluded
    exact ⟨fun _ => excluded, fun _ => rfl⟩
  · rename_i declares
    exact ⟨fun absent => by simp at absent, fun excluded => absurd excluded declares⟩

/-- A field is declared by a line that annotates its name, and is no class variable by its
annotation. -/
theorem exists_annotates {member : Member} (listed : member ∈ reading.members)
    (isField : member.kind = .field) :
    ∃ name type, reading.entry.Annotates name type ∧ member.name = name.text ∧
      member.type = some (reading.scope.typeOf reading.entry.bodyScopes type) ∧
      ¬ reading.scope.SubscriptsClassVariable reading.entry.bodyScopes type := by
  obtain ⟨site, declared, rfl⟩ := List.mem_map.mp listed
  obtain ⟨statement, inBody, inStatement⟩ :=
    List.mem_flatMap.mp ((firstOfEachFrom_sublist _ _ _).mem declared)
  cases statement with
  | line parts =>
      obtain ⟨part, inLine, isSite⟩ := List.mem_filterMap.mp inStatement
      match part, isSite with
      | .annotated (.name extent name) type value, isSite =>
          rw [simpleSite?, field?] at isSite
          split at isSite
          · simp at isSite
          · rename_i declares
            rw [← Option.some.inj isSite]
            exact ⟨name, type, ⟨parts, extent, value, inBody, inLine⟩, rfl, rfl,
              fun excluded => declares ((reading.isClassVariable_iff type).mpr excluded)⟩
  | functionStatement header body =>
      rw [statementSites, Option.mem_toList, property?] at inStatement
      split at inStatement
      · rw [← Option.some.inj inStatement] at isField
        simp at isField
      · simp at inStatement
  | _ => simp [statementSites] at inStatement

end ClassReading

theorem Declarations.keyed_typeScope (found : Declarations) (unit : SourceUnit) :
    (found.typeScope found.types unit).Keyed := by
  intro key symbol known
  obtain ⟨entry, _, rfl, rfl⟩ := find?_types_iff.mp known
  rfl

namespace Program

/-- **Class variables.** A name that is annotated in the body of a class declares no field exactly
when its annotation is a subscript of the definition of class variables. A field has the type of
class variables exactly when the annotation that declares it spells one in another way: by the
definition itself, in a string, or inside `Annotated`. -/
theorem fields_of_class_variables (sources : List SourceModule) :
    let program := ofModules sources
    ∀ entry ∈ program.declarations.classes,
      let reading := program.declarations.reading entry
      let scope := reading.scope
      (∀ extent name type, reading.field? (.name extent name) type = none ↔
        scope.SubscriptsClassVariable entry.bodyScopes type) ∧
      ∀ member ∈ program.index.declaredMembers (program.declarations.declaredType entry),
        member.kind = .field → ∃ name type symbol,
          entry.Annotates name type ∧ member.name = name.text ∧ member.type = some symbol ∧
          ¬ scope.SubscriptsClassVariable entry.bodyScopes type ∧
          (symbol.definition = some "typing.ClassVar" ↔
            scope.SpellsClassVariable entry.bodyScopes type) := by
  intro program entry declared reading scope
  have members : program.index.declaredMembers (program.declarations.declaredType entry) =
      program.declarations.membersOf entry := by
    rw [Index.declaredMembers, members_ofModules]
    exact Declarations.declaredMembers_classIndex declared rfl
  refine ⟨reading.field?_eq_none_iff, ?_⟩
  intro member listed isField
  rw [members] at listed
  obtain ⟨name, type, annotates, named, typed, declares⟩ :=
    reading.exists_annotates listed isField
  refine ⟨name, type, _, annotates, named, typed, declares, ?_⟩
  exact TypeScope.definition_typeOf_iff
    (program.declarations.keyed_typeScope entry.unit) type

end Program

namespace Sample

/-- A class with one annotated name, in a module that imports the definition of class variables. -/
def annotated (type : Expr) : SourceModule where
  path := "m.py"
  name := "m"
  module := ⟨[.line [.importFrom 0 (some "typing") (.names [⟨"ClassVar", none⟩])],
    classOn 2 a [] (.indented [.line [.annotated (name 3 x) type none]])],
    (by decide : [(⟨2, 0⟩ : Place), ⟨3, 8⟩].Nodup)⟩

def classVar : Expr := .name ⟨"ClassVar", ⟨3, 11⟩⟩ ⟨"ClassVar", by decide +kernel⟩

end Sample

namespace Program

/-- A class variable that is spelled by the definition alone is a field. -/
theorem field_of_classVar :
    let program := ofModules [Sample.annotated Sample.classVar]
    ∃ entry ∈ program.declarations.classes,
      ∃ member ∈ program.index.declaredMembers (program.declarations.declaredType entry),
        member.kind = .field ∧ ∃ name type, entry.Annotates name type ∧ member.name = name.text ∧
          let scope := (program.declarations.reading entry).scope
          ¬ scope.SubscriptsClassVariable entry.bodyScopes type ∧
          scope.SpellsClassVariable entry.bodyScopes type := by
  intro program
  obtain ⟨entry, member, first, only, isField, typed⟩ : ∃ entry member,
      program.declarations.classes[0]? = some entry ∧
        (program.index.declaredMembers (program.declarations.declaredType entry))[0]? =
          some member ∧ member.kind = .field ∧
        member.type.bind TypeSymbol.definition = some "typing.ClassVar" :=
    ⟨_, _, rfl, rfl, by decide +kernel, by decide +kernel⟩
  have declared := List.mem_of_getElem? first
  have listed := List.mem_of_getElem? only
  obtain ⟨name, type, symbol, annotates, named, isTyped, otherwise, spelled⟩ :=
    (fields_of_class_variables [Sample.annotated Sample.classVar] entry declared).2 member listed
      isField
  rw [isTyped, Option.bind_some] at typed
  exact ⟨entry, declared, member, listed, isField, name, type, annotates, named, otherwise,
    spelled.mp typed⟩

/-- A field can have the type of class variables. -/
theorem class_variables_can_be_fields :
    ¬ ∀ (sources : List SourceModule) (symbol : TypeSymbol),
      ∀ member ∈ (ofModules sources).index.declaredMembers symbol, member.kind = .field →
        ∀ type ∈ member.type, type.definition ≠ some "typing.ClassVar" := by
  intro never
  let sources := [Sample.annotated Sample.classVar]
  obtain ⟨member, first, kind, typed⟩ : ∃ member,
      ((ofModules sources).index.declaredMembers (.externalType "m.A"))[0]? = some member ∧
        member.kind = .field ∧ member.type.bind TypeSymbol.definition = some "typing.ClassVar" :=
    ⟨_, rfl, by decide +kernel, by decide +kernel⟩
  obtain ⟨type, isTyped, definition⟩ := Option.bind_eq_some_iff.mp typed
  exact never sources (.externalType "m.A") member (List.mem_of_getElem? first) kind type isTyped
    definition

end Program

end TypeCatalog
