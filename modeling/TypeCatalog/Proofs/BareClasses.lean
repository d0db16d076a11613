import TypeCatalog.Proofs.ClassIndex
import TypeCatalog.Proofs.Enumeration
import TypeCatalog.Proofs.IndexAgreement
import TypeCatalog.Proofs.UnlocatedScopes

/-! # Bare classes

A class can be stripped to what its description depends on: the imports and the name of its unit,
the scope and the header of the statement, and the annotations and functions of its body, all
without places. The records of a program are those of its bare classes, but for locations
(`TypeCatalog.Declarations.records_bare`).
-/

namespace TypeCatalog

open Syntax

/-! ## Bare statements -/

namespace Syntax

/-- The header of a class statement at the beginning of a source. -/
def ClassHeader.unplaced (header : ClassHeader) : ClassHeader where
  place := .start
  name := header.name
  decorators := header.decorators.map Expr.unplaced
  arguments := header.arguments.map Argument.unplaced

/-- The header of a function at the beginning of a source. -/
def FunctionHeader.unplaced (header : FunctionHeader) : FunctionHeader where
  place := .start
  name := header.name
  decorators := header.decorators.map Expr.unplaced
  returns := header.returns.map Expr.unplaced

/-- An annotated assignment without the value that it assigns. -/
def SimpleStatement.bare? : SimpleStatement → Option SimpleStatement
  | .annotated target type _ => some (.annotated target.unplaced type.unplaced none)
  | _ => none

/-- What a statement says in the body of a class: its annotated assignments, line by line, or the
header of its function. -/
def Statement.bare : Statement → List Statement
  | .line parts => (parts.filterMap SimpleStatement.bare?).map fun part => .line [part]
  | .functionStatement header _ => [.functionStatement header.unplaced (.inline [])]
  | _ => []

/-- What a suite says as the body of a class. -/
def Suite.bare (body : Suite) : List Statement := body.statements.flatMap Statement.bare

end Syntax

namespace SourceUnit

/-- A unit as its classes need it: what its names stand for, and no locations. -/
def bare (unit : SourceUnit) : SourceUnit where
  path := ""
  name := unit.name
  module := .empty
  number := 0
  isLastOfPath := false
  imports := unit.imports

end SourceUnit

/-- A class with what its description depends on, and no locations. -/
def ClassEntry.bare (entry : ClassEntry) : ClassEntry where
  unit := entry.unit.bare
  scope := entry.scope
  header := entry.header.unplaced
  body := .indented entry.body.bare

/-! ## Members -/

namespace ClassReading

/-- The reading of a bare class. -/
def bare (reading : ClassReading) : ClassReading := ⟨reading.scope.unlocated, reading.entry.bare⟩

end ClassReading

def MemberSite.bare (site : MemberSite) : MemberSite := ⟨.start, site.member.unlocated⟩

namespace ClassReading

variable (reading : ClassReading)

theorem subscripted?_bare (type : Expr) :
    reading.bare.subscripted? type.unplaced =
      (reading.subscripted? type).map fun found => (found.1, found.2.map Element.unplaced) := by
  cases type with
  | subscript extent object elements =>
      rw [Expr.unplaced, subscripted?, subscripted?, Expr.dotted?_unplaced,
        unplacedElements_eq_map]
      rfl
  | _ => rfl

theorem isClassVariable_bare (type : Expr) :
    reading.bare.isClassVariable type.unplaced = reading.isClassVariable type := by
  rw [isClassVariable, isClassVariable, subscripted?_bare, Option.any_map]

theorem metadata_bare (type : Expr) :
    reading.bare.metadata type.unplaced = (reading.metadata type).map Expr.unplaced := by
  rw [metadata, metadata, subscripted?_bare]
  cases reading.subscripted? type with
  | none => rfl
  | some found =>
      obtain ⟨definition, elements⟩ := found
      rw [Option.map_some]
      by_cases annotated : definition = some "typing.Annotated"
      · subst annotated
        show ((elements.map Element.unplaced).drop 1).filterMap Element.index? =
          ((elements.drop 1).filterMap Element.index?).map Expr.unplaced
        rw [← List.map_drop, filterMap_index?_unplaced]
      · simp [annotated]

theorem typeOf_bare (type : Expr) :
    reading.bare.scope.typeOf reading.bare.entry.bodyScopes type.unplaced =
      (reading.scope.typeOf reading.entry.bodyScopes type).unlocated := by
  rw [TypeScope.typeOf_unplaced]
  exact reading.scope.typeOf_unlocated reading.entry.bodyScopes type

theorem attributes_bare (exprs : List Expr) :
    (exprs.map Expr.unplaced).filterMap (reading.bare.scope.attributeOf?
      reading.bare.entry.bodyScopes reading.bare.entry.unit.locate) =
      (exprs.filterMap (reading.scope.attributeOf? reading.entry.bodyScopes
        reading.entry.unit.locate)).map Attribute.unlocated :=
  reading.scope.filterMap_attributeOf?_unlocated reading.entry.bodyScopes _ exprs

theorem field?_bare (target type : Expr) :
    reading.bare.field? target.unplaced type.unplaced =
      (reading.field? target type).map MemberSite.bare := by
  cases target with
  | name extent identifier =>
      rw [Expr.unplaced, field?, field?, isClassVariable_bare]
      split
      · rfl
      · dsimp only
        rw [Option.map_some, MemberSite.bare, Member.unlocated, typeOf_bare, metadata_bare,
          attributes_bare]
        rfl
  | _ => rfl

theorem isProperty_bare (header : FunctionHeader) :
    reading.bare.isProperty header.unplaced = reading.isProperty header := by
  have names : ∀ decorator, reading.bare.scope.attributeName? reading.bare.entry.bodyScopes
      (Expr.unplaced decorator) =
        reading.scope.attributeName? reading.entry.bodyScopes decorator := fun decorator =>
    reading.scope.attributeName?_unplaced reading.entry.bodyScopes decorator
  rw [isProperty, isProperty, FunctionHeader.unplaced, List.any_map]
  simp only [Function.comp_def, names]

theorem property?_bare (header : FunctionHeader) :
    reading.bare.property? header.unplaced = (reading.property? header).map MemberSite.bare := by
  have decorated := reading.scope.decoratorAttributes_unlocated reading.entry.bodyScopes
    reading.entry.unit.locate header.decorators
  have returned : header.unplaced.returns.map
      (reading.bare.scope.typeOf reading.bare.entry.bodyScopes) =
        (header.returns.map (reading.scope.typeOf reading.entry.bodyScopes)).map
          TypeSymbol.unlocated := by
    rw [FunctionHeader.unplaced, Option.map_map, Option.map_map]
    exact congrFun (congrArg Option.map (funext reading.typeOf_bare)) _
  rw [property?, property?, isProperty_bare]
  split
  · dsimp only
    rw [Option.map_some, MemberSite.bare, Member.unlocated, returned, ← decorated]
    rfl
  · rfl

theorem simpleSite?_bare (part : SimpleStatement) :
    part.bare?.bind reading.bare.simpleSite? =
      (reading.simpleSite? part).map MemberSite.bare := by
  cases part with
  | annotated target type value => exact reading.field?_bare target type
  | _ => rfl

/-- A bare statement declares the members of the statement, without locations. -/
theorem statementSites_bare (statement : Statement) :
    statement.bare.flatMap reading.bare.statementSites =
      (reading.statementSites statement).map MemberSite.bare := by
  cases statement with
  | line parts =>
      have single : ∀ part, reading.bare.statementSites (.line [part]) =
          (reading.bare.simpleSite? part).toList := by
        intro part
        rw [statementSites, List.filterMap_cons]
        cases reading.bare.simpleSite? part <;> rfl
      rw [Statement.bare, statementSites, List.flatMap_map, List.map_filterMap]
      simp only [single]
      rw [← List.filterMap_eq_flatMap_toList, List.filterMap_filterMap]
      exact List.filterMap_congr fun part _ => reading.simpleSite?_bare part
  | functionStatement header body =>
      rw [Statement.bare, statementSites, List.flatMap_singleton, statementSites, property?_bare]
      cases reading.property? header <;> rfl
  | classStatement header body => rfl
  | compound clauses => rfl

theorem sites_bare : reading.bare.sites = reading.sites.map MemberSite.bare := by
  have declared : reading.bare.entry.body.statements.flatMap reading.bare.statementSites =
      (reading.entry.body.statements.flatMap reading.statementSites).map MemberSite.bare := by
    show (reading.entry.body.statements.flatMap Statement.bare).flatMap _ = _
    rw [List.flatMap_assoc, List.map_flatMap]
    exact List.flatMap_congr fun statement _ => reading.statementSites_bare statement
  rw [sites, sites, declared, firstOfEach, firstOfEachFrom_map]
  rfl

theorem members_bare : reading.bare.members = reading.members.map Member.unlocated := by
  rw [members, members, sites_bare, List.map_map, List.map_map]
  rfl

end ClassReading

/-! ## Declarations -/

namespace Declarations

variable (found : Declarations)

/-- The classes of a program, stripped. -/
def bare : Declarations where
  classes := found.classes.map ClassEntry.bare
  fqns_nodup := by
    rw [List.map_map]
    exact found.fqns_nodup
  functions := []
  notices := []

theorem fqns_bare : found.bare.fqns = found.fqns := by
  rw [fqns, fqns, bare, List.map_map]
  rfl

theorem nameScope_bare (unit : SourceUnit) :
    found.bare.nameScope unit.bare = found.nameScope unit := by
  rw [nameScope, nameScope, fqns_bare]
  rfl

theorem declaredType_bare (entry : ClassEntry) :
    found.bare.declaredType entry.bare = (found.declaredType entry).unlocated := by
  have decorated := (found.nameScope entry.unit).decoratorAttributes_unlocated [entry.scope]
    entry.unit.locate entry.header.decorators
  have scope : found.bare.nameScope entry.bare.unit = found.nameScope entry.unit :=
    found.nameScope_bare entry.unit
  rw [declaredType, declaredType, TypeSymbol.unlocated_eq, scope]
  simp only [TypeSymbol.plain, ← decorated]
  rfl

theorem types_bare : found.bare.types = found.types.map TypeSymbol.unlocated := by
  apply Table.ext_entries
  show (found.classes.map ClassEntry.bare).map
      (fun entry => (entry.fqn, found.bare.declaredType entry)) =
    (found.classes.map fun entry => (entry.fqn, found.declaredType entry)).map _
  rw [List.map_map, List.map_map]
  refine List.map_congr_left fun entry _ => ?_
  rw [Function.comp_apply, Function.comp_apply, declaredType_bare]
  rfl

theorem typeScope_bare (unit : SourceUnit) :
    found.bare.typeScope found.bare.types unit.bare =
      (found.typeScope found.types unit).unlocated := by
  rw [typeScope, types_bare, nameScope_bare]
  rfl

theorem reading_bare (entry : ClassEntry) :
    found.bare.reading entry.bare = (found.reading entry).bare := by
  have scope : found.bare.typeScope found.bare.types entry.bare.unit =
    (found.typeScope found.types entry.unit).unlocated := found.typeScope_bare entry.unit
  rw [reading, scope]
  rfl

theorem membersOf_bare (entry : ClassEntry) :
    found.bare.membersOf entry.bare = (found.membersOf entry).map Member.unlocated := by
  rw [membersOf, membersOf, reading_bare, ClassReading.members_bare]

/-! ### Bases -/

theorem baseExprs_unplaced (header : ClassHeader) :
    header.unplaced.baseExprs = header.baseExprs.map Expr.unplaced := by
  rw [ClassHeader.baseExprs, ClassHeader.baseExprs, ClassHeader.unplaced, List.filterMap_map,
    List.map_filterMap]
  refine List.filterMap_congr fun argument _ => ?_
  cases argument <;> rfl

theorem writtenBase?_bare (entry : ClassEntry) :
    found.bare.writtenBase? found.bare.types entry.bare =
      (found.writtenBase? found.types entry).map TypeSymbol.unlocated := by
  have scope : found.bare.typeScope found.bare.types entry.bare.unit =
    (found.typeScope found.types entry.unit).unlocated := found.typeScope_bare entry.unit
  have exprs : entry.bare.header.baseExprs = entry.header.baseExprs.map Expr.unplaced :=
    baseExprs_unplaced entry.header
  have typed : ((found.typeScope found.types entry.unit).unlocated.typeOf [entry.bare.scope]) ∘
      Expr.unplaced = TypeSymbol.unlocated ∘
        (found.typeScope found.types entry.unit).typeOf [entry.scope] := by
    funext expr
    rw [Function.comp_apply, TypeScope.typeOf_unplaced, TypeScope.typeOf_unlocated]
    rfl
  have counts : countsAsBase ∘ TypeSymbol.unlocated = countsAsBase := by
    funext symbol
    rw [Function.comp_apply, countsAsBase, countsAsBase, TypeSymbol.definition_unlocated]
  rw [writtenBase?, writtenBase?, scope, exprs, List.map_map, typed, ← List.map_map,
    List.find?_map, counts]

theorem writtenBases_bare : found.bare.writtenBases found.bare.types =
    (found.writtenBases found.types).map TypeSymbol.unlocated := by
  have pairs : found.bare.classes.filterMap (fun entry =>
      (found.bare.writtenBase? found.bare.types entry).map fun base => (entry.fqn, base)) =
        (found.classes.filterMap fun entry =>
          (found.writtenBase? found.types entry).map fun base => (entry.fqn, base)).map
            fun pair => (pair.1, pair.2.unlocated) := by
    rw [bare, List.filterMap_map, List.map_filterMap]
    refine List.filterMap_congr fun entry _ => ?_
    rw [Function.comp_apply]
    refine (congrArg _ (found.writtenBase?_bare entry)).trans ?_
    rw [Option.map_map, Option.map_map]
    rfl
  rw [writtenBases, writtenBases, Table.ofList, Table.ofList, Table.map_foldl_insert, pairs]
  rfl

end Declarations

namespace BaseLinks

/-- Links of bases without locations. -/
def unlocated (links : BaseLinks) : BaseLinks where
  bases := links.bases.map TypeSymbol.unlocated
  notices := links.notices

theorem closingLink?_unlocated (bases : Table TypeSymbol) (steps : Nat) (seen : List String)
    (current : String) :
    closingLink? (bases.map TypeSymbol.unlocated) steps seen current =
      closingLink? bases steps seen current := by
  induction steps generalizing seen current with
  | zero => rfl
  | succ steps ih =>
      have key : ((bases.map TypeSymbol.unlocated).find? current).bind TypeSymbol.key? =
          (bases.find? current).bind TypeSymbol.key? := by
        rw [Table.find?_map]
        cases bases.find? current with
        | none => rfl
        | some base => exact base.key?_unlocated
      rw [closingLink?, closingLink?, key]
      simp only [ih]

theorem cutFrom_unlocated (links : BaseLinks) (fqn : String) :
    links.unlocated.cutFrom fqn = (links.cutFrom fqn).unlocated := by
  have closing : closingLink? links.unlocated.bases links.unlocated.bases.size [fqn] fqn =
      closingLink? links.bases links.bases.size [fqn] fqn := by
    rw [unlocated, closingLink?_unlocated, Table.size_map]
  rw [cutFrom, cutFrom, closing]
  cases closingLink? links.bases links.bases.size [fqn] fqn with
  | none => rfl
  | some link => exact congrArg (BaseLinks.mk · _) (Table.map_erase _ _ _).symm

theorem cutAll_unlocated (bases : Table TypeSymbol) (fqns : List String) :
    cutAll (bases.map TypeSymbol.unlocated) fqns = (cutAll bases fqns).unlocated := by
  have start : (⟨bases.map TypeSymbol.unlocated, []⟩ : BaseLinks) = unlocated ⟨bases, []⟩ := rfl
  rw [cutAll, cutAll, start]
  exact List.foldl_hom unlocated fun links fqn => links.cutFrom_unlocated fqn

end BaseLinks

namespace Declarations

variable (found : Declarations)

theorem linkBases_bare :
    found.bare.linkBases found.bare.types = (found.linkBases found.types).unlocated := by
  rw [linkBases, linkBases, writtenBases_bare, fqns_bare, BaseLinks.cutAll_unlocated]

/-! ### The index -/

end Declarations

namespace Index

theorem addType_unlocated (index : Index) (symbol : TypeSymbol) (base : Option TypeSymbol)
    (members : List Member) :
    index.unlocated.addType symbol.unlocated (base.map TypeSymbol.unlocated)
      (members.map Member.unlocated) = (index.addType symbol base members).unlocated := by
  have memberIds : (members.map Member.unlocated).foldl
      (fun table member => table.insert member.id member) index.unlocated.memberIds =
        (members.foldl (fun table member => table.insert member.id member)
          index.memberIds).map Member.unlocated := by
    rw [List.foldl_map]
    exact List.foldl_hom (Table.map Member.unlocated) fun table member =>
      (Table.map_insert _ table member.id member).symm
  unfold addType
  rw [TypeSymbol.fqn_unlocated, memberIds]
  cases base <;> simp only [unlocated, Table.map_insert, Option.map_none, Option.map_some]

end Index

namespace Declarations

variable (found : Declarations)

/-- The index of bare classes is the index of the classes without locations. -/
theorem classIndex_bare : found.bare.classIndex = found.classIndex.unlocated := by
  have classes : found.bare.classes = found.classes.map ClassEntry.bare := rfl
  have bases : ∀ key, (found.bare.linkBases found.bare.types).bases.find? key =
      ((found.linkBases found.types).bases.find? key).map TypeSymbol.unlocated := by
    intro key
    rw [linkBases_bare]
    exact Table.find?_map _ _ key
  rw [classIndex_eq, classIndex_eq, classes, List.foldl_map]
  simp only [declaredType_bare, membersOf_bare, bases]
  have start : Index.empty = Index.empty.unlocated := rfl
  rw [start]
  refine List.foldl_hom Index.unlocated fun index entry => ?_
  exact index.addType_unlocated _ _ _

/-! ### Records -/

/-- The index of the declared classes, with their overrides. -/
def index : Index := Program.linkOverrides found.classIndex

/-- The records of the declared classes, or of the serializable ones. -/
def records (settings : Settings) (serializableOnly : Bool) : List TypeRecord :=
  ((found.classes.map found.declaredType).filter fun symbol =>
    !serializableOnly || found.index.isSerializable settings symbol).map
      (found.index.describeType settings)

/-- **Bare classes.** The records of declarations are those of their bare classes, but for
locations. -/
theorem records_bare (settings : Settings) (serializableOnly : Bool) :
    found.bare.records settings serializableOnly =
      (found.records settings serializableOnly).map TypeRecord.unlocated := by
  have index : found.bare.index = found.index.unlocated := by
    rw [Declarations.index, Declarations.index, classIndex_bare, Program.linkOverrides_unlocated]
  have declared : found.bare.classes.map found.bare.declaredType =
      (found.classes.map found.declaredType).map TypeSymbol.unlocated := by
    rw [bare, List.map_map, List.map_map]
    exact List.map_congr_left fun entry _ => found.declaredType_bare entry
  rw [records, records, declared, index, List.filter_map, List.map_map, List.map_map]
  simp only [Function.comp_def, Index.isSerializable_unlocated, Index.describeType_unlocated]

/-- Declarations with equal bare classes have equal records, but for locations. -/
theorem records_congr {first second : Declarations}
    (alike : first.classes.map ClassEntry.bare = second.classes.map ClassEntry.bare)
    (settings : Settings) (serializableOnly : Bool) :
    (first.records settings serializableOnly).map TypeRecord.unlocated =
      (second.records settings serializableOnly).map TypeRecord.unlocated := by
  have same : first.bare = second.bare := by simp only [bare, alike]
  rw [← records_bare, ← records_bare, same]

end Declarations

namespace Program

/-- A program is described by the records of what its modules declare. -/
theorem describe_ofModules (sources : List SourceModule) :
    (ofModules sources).index.describe = (ofModules sources).declarations.records := by
  have agrees : (ofModules sources).index.Agrees (ofModules sources).declarations.index := by
    have same : ∀ {α : Type} (view : Index → Table α),
        (∀ index unit, view (index.addUnit unit) = view index) →
        (view (ofModules sources).index).Same (view (ofModules sources).declarations.index) := by
      intro α view units key
      rw [view_linkOverrides sources view units]
      rfl
    exact {
      types := same Index.types fun _ _ => rfl
      bases := same Index.bases fun _ _ => rfl
      members := same Index.members fun _ _ => rfl
      memberIds := same Index.memberIds fun _ _ => rfl
      overrides := same Index.overrides fun _ _ => rfl }
  funext settings serializableOnly
  rw [Index.describe, Index.describedTypes, namedTypes_eq_map_declaredType, agrees.isSerializable,
    agrees.describeType, Declarations.records]

end Program

end TypeCatalog
