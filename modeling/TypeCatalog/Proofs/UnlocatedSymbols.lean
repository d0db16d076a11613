import TypeCatalog.Model.Optionality
import TypeCatalog.Program.Basic
import TypeCatalog.Proofs.Collections
import TypeCatalog.Record.Describe

/-! # Symbols without locations

Locations are carried along and never looked at: an index whose symbols have lost their locations
gives the same lineages, overrides and records, with the location of a record lost
(`TypeCatalog.Index.describeType_unlocated`).
-/

namespace TypeCatalog

/-! ## Tables of changed values -/

namespace Table

variable {α β : Type} (change : α → β)

theorem ext_entries {left right : Table α} (same : left.entries = right.entries) :
    left = right := by
  obtain ⟨entries, _⟩ := left
  obtain ⟨_, _⟩ := right
  obtain rfl : entries = _ := same
  rfl

/-- A table with all values changed. -/
def map (table : Table α) : Table β where
  entries := table.entries.map fun entry => (entry.1, change entry.2)
  keys_nodup := by
    rw [List.map_map]
    exact table.keys_nodup

@[simp] theorem keys_map (table : Table α) : (table.map change).keys = table.keys := by
  rw [keys, keys, map, List.map_map]
  rfl

@[simp] theorem values_map (table : Table α) :
    (table.map change).values = table.values.map change := by
  rw [values, values, map, List.map_map, List.map_map]
  rfl

@[simp] theorem size_map (table : Table α) : (table.map change).size = table.size :=
  List.length_map _

@[simp] theorem find?_map (table : Table α) (key : String) :
    (table.map change).find? key = (table.find? key).map change :=
  lookup_map_values change table.entries key

theorem entries_insert (table : Table α) (key : String) (value : α) :
    (table.insert key value).entries =
      if key ∈ table.keys then table.entries.map (replaceEntry key value)
      else table.entries ++ [(key, value)] := by
  by_cases present : key ∈ table.keys
  · rw [insert, dif_pos (show key ∈ table.entries.map Prod.fst from present), if_pos present]
  · rw [insert, dif_neg (show key ∉ table.entries.map Prod.fst from present), if_neg present]

theorem map_insert (table : Table α) (key : String) (value : α) :
    (table.insert key value).map change = (table.map change).insert key (change value) := by
  apply ext_entries
  have changed : ∀ table : Table α, (table.map change).entries =
      table.entries.map fun entry => (entry.1, change entry.2) := fun _ => rfl
  rw [changed, entries_insert, entries_insert, keys_map, changed]
  by_cases present : key ∈ table.keys
  · rw [if_pos present, if_pos present, List.map_map, List.map_map]
    refine List.map_congr_left fun entry _ => ?_
    by_cases same : entry.1 = key <;> simp [replaceEntry, same]
  · rw [if_neg present, if_neg present, List.map_append, List.map_cons, List.map_nil]

/-- Storing pairs and changing the values of the table, or changing the values of the pairs. -/
theorem map_foldl_insert (pairs : List (String × α)) (table : Table α) :
    (pairs.foldl (fun table pair => table.insert pair.1 pair.2) table).map change =
      (pairs.map fun pair => (pair.1, change pair.2)).foldl
        (fun table pair => table.insert pair.1 pair.2) (table.map change) := by
  rw [List.foldl_map]
  exact (List.foldl_hom (Table.map change) fun table pair =>
    (map_insert change table pair.1 pair.2).symm).symm

theorem map_erase (table : Table α) (key : String) :
    (table.erase key).map change = (table.map change).erase key := by
  apply ext_entries
  show (table.entries.filter fun entry => entry.1 ≠ key).map
      (fun entry => (entry.1, change entry.2)) =
    (table.entries.map fun entry => (entry.1, change entry.2)).filter fun entry => entry.1 ≠ key
  rw [List.filter_map]
  rfl

end Table

/-! ## Symbols -/

def Attribute.unlocated (marker : Attribute) : Attribute := { marker with location := none }

mutual

/-- A type without its location and those of its arguments and attributes. -/
def TypeSymbol.unlocated : TypeSymbol → TypeSymbol
  | ⟨fqn, name, definition, isGeneric, arguments, attributes, _, external⟩ =>
      ⟨fqn, name, definition, isGeneric, unlocatedTypes arguments,
        attributes.map Attribute.unlocated, none, external⟩

def unlocatedTypes : List TypeSymbol → List TypeSymbol
  | [] => []
  | symbol :: rest => symbol.unlocated :: unlocatedTypes rest

end

@[simp] theorem unlocatedTypes_eq_map (symbols : List TypeSymbol) :
    unlocatedTypes symbols = symbols.map TypeSymbol.unlocated := by
  induction symbols with
  | nil => rfl
  | cons symbol rest ih => rw [unlocatedTypes, ih, List.map_cons]

namespace TypeSymbol

variable (symbol : TypeSymbol)

theorem unlocated_eq : symbol.unlocated =
    { symbol with
      arguments := symbol.arguments.map unlocated
      attributes := symbol.attributes.map Attribute.unlocated
      location := none } := by
  cases symbol
  rw [unlocated, unlocatedTypes_eq_map]

@[simp] theorem fqn_unlocated : symbol.unlocated.fqn = symbol.fqn := by rw [unlocated_eq]

@[simp] theorem definition_unlocated : symbol.unlocated.definition = symbol.definition := by
  rw [unlocated_eq]

@[simp] theorem isGeneric_unlocated : symbol.unlocated.isGeneric = symbol.isGeneric := by
  rw [unlocated_eq]

@[simp] theorem arguments_unlocated :
    symbol.unlocated.arguments = symbol.arguments.map unlocated := by rw [unlocated_eq]

@[simp] theorem attributes_unlocated :
    symbol.unlocated.attributes = symbol.attributes.map Attribute.unlocated := by
  rw [unlocated_eq]

@[simp] theorem key?_unlocated : symbol.unlocated.key? = symbol.key? := by
  rw [key?, key?, isGeneric_unlocated, definition_unlocated, fqn_unlocated]

theorem unlocated_instantiation (definition : Option String) (arguments : List TypeSymbol)
    (external : Bool) : (instantiation definition arguments external).unlocated =
      instantiation definition (arguments.map unlocated) external := by
  rw [unlocated_eq, instantiation, instantiation, List.map_map]
  simp [Function.comp_def]

end TypeSymbol

def Member.unlocated (member : Member) : Member :=
  { member with
    type := member.type.map TypeSymbol.unlocated
    attributes := member.attributes.map Attribute.unlocated
    location := none }

@[simp] theorem Member.id_unlocated (member : Member) : member.unlocated.id = member.id := rfl

def TypeRecord.unlocated (record : TypeRecord) : TypeRecord := { record with location := none }

/-! ## Indexes -/

namespace Index

/-- The tables of an index without locations; units are left out. -/
def unlocated (index : Index) : Index where
  units := []
  types := index.types.map TypeSymbol.unlocated
  bases := index.bases.map TypeSymbol.unlocated
  members := index.members.map (List.map Member.unlocated)
  memberIds := index.memberIds.map Member.unlocated
  overrides := index.overrides

variable (index : Index)

theorem base?_unlocated (symbol : TypeSymbol) :
    index.unlocated.base? symbol.unlocated = (index.base? symbol).map TypeSymbol.unlocated := by
  rw [base?, base?, TypeSymbol.key?_unlocated, Option.map_bind]
  refine Option.bind_congr fun key _ => ?_
  exact Table.find?_map _ _ key

theorem ancestorsUpTo_unlocated (count : Nat) (symbol : TypeSymbol) :
    index.unlocated.ancestorsUpTo count symbol.unlocated =
      (index.ancestorsUpTo count symbol).map TypeSymbol.unlocated := by
  induction count generalizing symbol with
  | zero => rfl
  | succ count ih =>
      rw [ancestorsUpTo, ancestorsUpTo, base?_unlocated]
      cases index.base? symbol with
      | none => rfl
      | some base => exact congrArg (_ :: ·) (ih base)

theorem ancestors_unlocated (symbol : TypeSymbol) :
    index.unlocated.ancestors symbol.unlocated =
      (index.ancestors symbol).map TypeSymbol.unlocated := by
  have sizes : index.unlocated.bases.size = index.bases.size := Table.size_map _ _
  rw [ancestors, ancestors, sizes, ancestorsUpTo_unlocated]

theorem declaredMembers_unlocated (symbol : TypeSymbol) :
    index.unlocated.declaredMembers symbol.unlocated =
      (index.declaredMembers symbol).map Member.unlocated := by
  rw [declaredMembers, declaredMembers, TypeSymbol.key?_unlocated]
  cases symbol.key? with
  | none => rfl
  | some key =>
      have found : index.unlocated.members.find? key =
        (index.members.find? key).map (List.map Member.unlocated) := Table.find?_map _ _ key
      rw [Option.bind_some, Option.bind_some, found]
      cases index.members.find? key <;> rfl

theorem allMembers_unlocated (symbol : TypeSymbol) :
    index.unlocated.allMembers symbol.unlocated =
      (index.allMembers symbol).map Member.unlocated := by
  have inherited := index.ancestors_unlocated symbol
  rw [ancestors, ancestors] at inherited
  rw [allMembers, allMembers, membersUpTo, membersUpTo, declaredMembers_unlocated, inherited,
    List.map_append, List.map_flatMap, List.flatMap_map]
  simp only [declaredMembers_unlocated]

theorem overridden?_unlocated (member : Member) :
    index.unlocated.overridden? member.unlocated =
      (index.overridden? member).map Member.unlocated := by
  rw [overridden?, overridden?, Member.id_unlocated, Option.map_bind]
  refine Option.bind_congr fun key _ => ?_
  exact Table.find?_map _ _ key

theorem overrideChain_unlocated (member : Member) :
    index.unlocated.overrideChain member.unlocated =
      (index.overrideChain member).map Member.unlocated := by
  have upTo : ∀ count (member : Member), index.unlocated.overrideChainUpTo count member.unlocated =
      (index.overrideChainUpTo count member).map Member.unlocated := by
    intro count
    induction count with
    | zero => exact fun _ => rfl
    | succ count ih =>
        intro member
        rw [overrideChainUpTo, overrideChainUpTo, overridden?_unlocated]
        cases index.overridden? member with
        | none => rfl
        | some overridden => exact congrArg (_ :: ·) (ih overridden)
  exact upTo _ member

/-! ## Attributes -/

theorem findByShortName?_unlocated (attributes : List Attribute) (name : String) :
    Attribute.findByShortName? (attributes.map Attribute.unlocated) name =
      (Attribute.findByShortName? attributes name).map Attribute.unlocated := by
  rw [Attribute.findByShortName?, Attribute.findByShortName?, List.find?_map]
  rfl

theorem findAttribute?_unlocated (symbol : TypeSymbol) (name : String) :
    symbol.unlocated.findAttribute? name =
      (symbol.findAttribute? name).map Attribute.unlocated := by
  rw [TypeSymbol.findAttribute?, TypeSymbol.findAttribute?, TypeSymbol.attributes_unlocated]
  split
  · rw [Attribute.findByFullName?, Attribute.findByFullName?, List.find?_map]
    rfl
  · exact findByShortName?_unlocated _ name

theorem inheritedAttribute?_unlocated (member : Member) (name : String) :
    index.unlocated.inheritedAttribute? member.unlocated name =
      (index.inheritedAttribute? member name).map Attribute.unlocated := by
  rw [inheritedAttribute?, inheritedAttribute?, overrideChain_unlocated, ← List.map_cons,
    List.findSome?_map, List.map_findSome?]
  refine congrFun (congrArg List.findSome? (funext fun current => ?_)) _
  exact findByShortName?_unlocated current.attributes name

theorem map_shortName_unlocated (attributes : List Attribute) :
    (attributes.map Attribute.unlocated).map Attribute.shortName =
      attributes.map Attribute.shortName := by
  rw [List.map_map]
  rfl

theorem inheritedShortNames_unlocated (member : Member) :
    index.unlocated.inheritedShortNames member.unlocated = index.inheritedShortNames member := by
  have own : member.unlocated.attributes = member.attributes.map Attribute.unlocated := rfl
  rw [inheritedShortNames, inheritedShortNames, overrideChain_unlocated, List.flatMap_map, own,
    map_shortName_unlocated]
  refine congrArg _ (List.flatMap_congr fun overridden _ => ?_)
  exact map_shortName_unlocated overridden.attributes

theorem inheritedAttributes_unlocated (member : Member) :
    index.unlocated.inheritedAttributes member.unlocated =
      (index.inheritedAttributes member).map Attribute.unlocated := by
  rw [inheritedAttributes, inheritedAttributes, inheritedShortNames_unlocated, List.map_filterMap]
  exact List.filterMap_congr fun name _ => index.inheritedAttribute?_unlocated member name

/-! ## Records -/

theorem map_ofAttribute_unlocated (attributes : List Attribute) :
    (attributes.map Attribute.unlocated).map AttributeRecord.ofAttribute =
      attributes.map AttributeRecord.ofAttribute := by
  rw [List.map_map]
  rfl

theorem isSerializable_unlocated (settings : Settings) (symbol : TypeSymbol) :
    index.unlocated.isSerializable settings symbol.unlocated =
      index.isSerializable settings symbol := by
  have derives : ∀ root, index.unlocated.derivesFrom symbol.unlocated root =
      index.derivesFrom symbol root := by
    intro root
    rw [derivesFrom, derivesFrom, findAncestor?, findAncestor?, ancestors_unlocated,
      List.find?_map, Option.isSome_map]
    simp [Function.comp_def]
  unfold isSerializable
  simp only [derives, findAttribute?_unlocated, Option.isSome_map]

theorem isOptional_unlocated (symbol : TypeSymbol) (wrapper : String) :
    symbol.unlocated.isOptional wrapper = symbol.isOptional wrapper := by
  rw [TypeSymbol.isOptional, TypeSymbol.isOptional, TypeSymbol.isGeneric_unlocated,
    TypeSymbol.definition_unlocated]

theorem wrappedType?_unlocated (symbol : TypeSymbol) (wrapper : String) :
    symbol.unlocated.wrappedType? wrapper =
      (symbol.wrappedType? wrapper).map TypeSymbol.unlocated := by
  rw [TypeSymbol.wrappedType?, TypeSymbol.wrappedType?, isOptional_unlocated,
    TypeSymbol.arguments_unlocated]
  split
  · match symbol.arguments with
    | [] | [_] | _ :: _ :: _ => rfl
  · rfl

/-- Overridden members are shown by their identities, so nothing of a location is in the record of a
member. -/
theorem describeMember_unlocated (settings : Settings) (owner : TypeSymbol) (member : Member) :
    index.unlocated.describeMember settings owner.unlocated member.unlocated =
      index.describeMember settings owner member := by
  have declaring : owner.unlocated.declaringName = owner.declaringName := by
    rw [TypeSymbol.declaringName.eq_def, TypeSymbol.declaringName.eq_def,
      TypeSymbol.definition_unlocated, TypeSymbol.fqn_unlocated]
  have typed : member.unlocated.type = member.type.map TypeSymbol.unlocated := rfl
  have overrides : (index.unlocated.overridden? member.unlocated).map Member.id =
      (index.overridden? member).map Member.id := by
    rw [overridden?_unlocated, Option.map_map]
    rfl
  have own : member.unlocated.attributes.map AttributeRecord.ofAttribute =
      member.attributes.map AttributeRecord.ofAttribute := map_ofAttribute_unlocated _
  rw [describeMember, describeMember, declaring, overrides, own, inheritedAttributes_unlocated,
    map_ofAttribute_unlocated, typed]
  cases member.type with
  | none => rfl
  | some type =>
      simp only [Option.map_some, Option.any_some, Option.bind_some, isOptional_unlocated,
        wrappedType?_unlocated, Option.map_map, Function.comp_def, TypeSymbol.fqn_unlocated]
      rfl

/-- The record of a type in an index without locations is its record without its location. -/
theorem describeType_unlocated (settings : Settings) (symbol : TypeSymbol) :
    index.unlocated.describeType settings symbol.unlocated =
      (index.describeType settings symbol).unlocated := by
  have location : symbol.unlocated.location = none := by rw [TypeSymbol.unlocated_eq]
  rw [describeType, describeType, TypeRecord.unlocated, location, TypeSymbol.fqn_unlocated,
    TypeSymbol.isGeneric_unlocated, ancestors_unlocated, isSerializable_unlocated,
    TypeSymbol.attributes_unlocated, map_ofAttribute_unlocated, allMembers_unlocated,
    List.map_map, List.map_map]
  simp only [Function.comp_def, TypeSymbol.fqn_unlocated, describeMember_unlocated]

end Index

/-! ## Overrides -/

namespace Program

variable (index : Index)

theorem overriddenProperty?_unlocated (symbol : TypeSymbol) (member : Member) :
    overriddenProperty? index.unlocated symbol.unlocated member.unlocated =
      (overriddenProperty? index symbol member).map Member.unlocated := by
  have nearest : ((index.unlocated.ancestors symbol.unlocated).findSome? fun ancestor =>
      (index.unlocated.declaredMembers ancestor).find? fun inherited =>
        inherited.name == member.unlocated.name) =
      ((index.ancestors symbol).findSome? fun ancestor =>
        (index.declaredMembers ancestor).find? fun inherited =>
          inherited.name == member.name).map Member.unlocated := by
    rw [Index.ancestors_unlocated, List.findSome?_map, List.map_findSome?]
    refine congrFun (congrArg List.findSome? (funext fun ancestor => ?_)) _
    rw [Function.comp_apply, Index.declaredMembers_unlocated, List.find?_map]
    rfl
  rw [overriddenProperty?, overriddenProperty?, nearest]
  cases (index.ancestors symbol).findSome? fun ancestor =>
      (index.declaredMembers ancestor).find? fun inherited => inherited.name == member.name with
  | none => rfl
  | some inherited =>
      have kind : inherited.unlocated.kind = inherited.kind := rfl
      simp only [Option.map_some, kind]
      split <;> rfl

theorem overridesOf_unlocated (symbol : TypeSymbol) :
    overridesOf index.unlocated symbol.unlocated =
      (overridesOf index symbol).map fun pair => (pair.1.unlocated, pair.2.unlocated) := by
  rw [overridesOf, overridesOf, Index.declaredMembers_unlocated, List.filter_map,
    List.filterMap_map, List.map_filterMap]
  refine List.filterMap_congr fun member _ => ?_
  rw [Function.comp_apply, overriddenProperty?_unlocated, Option.map_map, Option.map_map]
  rfl

theorem linkOverrides_unlocated :
    linkOverrides index.unlocated = (linkOverrides index).unlocated := by
  have pairs : index.unlocated.types.values.flatMap (overridesOf index.unlocated) =
      (index.types.values.flatMap (overridesOf index)).map
        fun pair => (pair.1.unlocated, pair.2.unlocated) := by
    have values : index.unlocated.types.values = index.types.values.map TypeSymbol.unlocated :=
      Table.values_map _ _
    rw [values, List.flatMap_map, List.map_flatMap]
    exact List.flatMap_congr fun symbol _ => overridesOf_unlocated index symbol
  rw [linkOverrides, linkOverrides, pairs, List.foldl_map]
  exact List.foldl_hom Index.unlocated fun _ _ => rfl

end Program

end TypeCatalog
