import TypeCatalog.Proofs.Chains
import TypeCatalog.Proofs.Collections
import TypeCatalog.Record.Describe

/-! # Attributes in records

The record of a member lists the attributes of the member and behind them those that it inherits
along the chain of members that it overrides. When that chain ends, the first attribute of a name in
these lists is the one that the look-up along the chain finds
(`TypeCatalog.Index.attributes_of_describeMember`).
-/

namespace TypeCatalog

/-! ## The first of each name -/

section

variable {α : Type} (name : α → String)

/-- Of the names of a list those are kept that have not been seen. -/
theorem mem_map_firstOfEachFrom {key : String} (seen : List String) (items : List α) :
    key ∈ (firstOfEachFrom name seen items).map name ↔ key ∈ items.map name ∧ key ∉ seen := by
  induction items generalizing seen with
  | nil => simp [firstOfEachFrom]
  | cons item rest ih =>
      rw [firstOfEachFrom, List.map_cons, List.mem_cons]
      split
      · rename_i repeated
        rw [ih]
        constructor
        · rintro ⟨listed, fresh⟩
          exact ⟨Or.inr listed, fresh⟩
        · rintro ⟨rfl | listed, fresh⟩
          · exact absurd (by simpa using repeated) fresh
          · exact ⟨listed, fresh⟩
      · rename_i fresh
        rw [List.map_cons, List.mem_cons, ih, List.mem_cons]
        have unseen : name item ∉ seen := by simpa using fresh
        by_cases same : key = name item
        · simp [same, unseen]
        · simp [same]

/-- What is listed first under a key is listed first when the first of each key is kept. -/
theorem lookup_firstOfEachFrom {β : Type} {key : String} {seen : List String}
    (pairs : List (String × β)) (unseen : key ∉ seen) :
    (firstOfEachFrom Prod.fst seen pairs).lookup key = pairs.lookup key := by
  induction pairs generalizing seen with
  | nil => rfl
  | cons pair rest ih =>
      rw [firstOfEachFrom, List.lookup_cons]
      split
      · rename_i repeated
        have differ : (key == pair.1) = false := by
          have listed : pair.1 ∈ seen := by simpa using repeated
          simpa using fun same : key = pair.1 => unseen (same ▸ listed)
        simp only [differ, ih unseen]
      · rw [List.lookup_cons]
        by_cases same : key = pair.1
        · simp [same]
        · have differ : (key == pair.1) = false := by simpa using same
          simp only [differ]
          exact ih (by simp [same, unseen])

end

/-! ## Named arguments -/

namespace AttributeRecord

theorem nodup_named (marker : Attribute) : ((ofAttribute marker).named.map Prod.fst).Nodup :=
  nodup_map_firstOfEachFrom _ _ _

/-- A record shows the first value of a named argument. -/
theorem member?_named (marker : Attribute) (key : String) :
    (Json.object (ofAttribute marker).named).member? key =
      (marker.namedArgument? key).map Literal.toJson := by
  rw [Json.member?, Json.members, ← lookup_of_perm (List.reverse_perm _).symm (nodup_named marker),
    ofAttribute, firstOfEach, lookup_firstOfEachFrom _ (by simp), lookup_map_values,
    Attribute.namedArgument?]

end AttributeRecord

namespace Attribute

theorem isSome_namedArgument?_iff {marker : Attribute} {key : String} :
    (marker.namedArgument? key).isSome = true ↔ ∃ value, (key, value) ∈ marker.named := by
  constructor
  · intro given
    obtain ⟨value, found⟩ := Option.isSome_iff_exists.mp given
    exact ⟨value, mem_of_lookup found⟩
  · rintro ⟨value, listed⟩
    rw [Option.isSome_iff_ne_none, namedArgument?, Ne, List.lookup_eq_none_iff]
    intro absent
    simpa using absent (key, value) listed

end Attribute

/-! ## Chains of overrides -/

namespace Index

variable {index : Index} {member : Member} {chain : List Member}

theorem overrideChainUpTo_eq (index : Index) (count : Nat) (member : Member) :
    index.overrideChainUpTo count member = chainUpTo index.overridden? count member := by
  induction count generalizing member with
  | zero => rfl
  | succ count ih =>
      rw [overrideChainUpTo, chainUpTo]
      cases index.overridden? member with
      | none => rfl
      | some overridden => simp only [ih]

/-- A chain of overridden members that ends is listed whole: what a member overrides depends on its
identity, and there are no more identities than overrides. -/
theorem overrideChain_of_run (run : Run index.overridden? member chain) :
    index.overrideChain member = chain := by
  have byId : ∀ left right : Member, some left.id = some right.id →
      index.overridden? left = index.overridden? right := by
    intro left right same
    rw [overridden?, overridden?, Option.some.inj same]
  have listed : ∀ other, index.overridden? other ≠ none →
      ∃ key ∈ index.overrides.keys, some other.id = some key := by
    intro other overrides
    obtain ⟨overridden, link⟩ := Option.ne_none_iff_exists'.mp overrides
    obtain ⟨target, stored, _⟩ := Option.bind_eq_some_iff.mp link
    exact ⟨other.id, Table.isSome_find?_iff.mp (by simp [stored]), rfl⟩
  have bound : chain.length ≤ index.overrides.size := by
    simpa only [Table.keys, Table.size, List.length_map] using run.length_le byId listed
  rw [overrideChain, overrideChainUpTo_eq]
  exact run.chainUpTo_eq bound

/-! ## Inherited attributes -/

theorem shortName_of_inheritedAttribute? {name : String} {marker : Attribute}
    (found : index.inheritedAttribute? member name = some marker) : marker.shortName = name := by
  obtain ⟨current, _, here⟩ := List.exists_of_findSome?_eq_some found
  simpa using List.find?_some here

theorem mem_inheritedShortNames_iff {name : String} :
    name ∈ index.inheritedShortNames member ↔
      name ∈ ((index.overrideChain member).flatMap fun overridden =>
        overridden.attributes.map Attribute.shortName) ∧
          name ∉ member.attributes.map Attribute.shortName := by
  have kept := @mem_map_firstOfEachFrom _ (fun name => name) name
    (member.attributes.map Attribute.shortName)
    ((index.overrideChain member).flatMap fun overridden =>
      overridden.attributes.map Attribute.shortName)
  rw [List.map_id', List.map_id'] at kept
  exact kept

/-- A look-up succeeds for the names that the member or a member of its chain carries. -/
theorem isSome_inheritedAttribute?_iff {name : String} :
    (index.inheritedAttribute? member name).isSome = true ↔
      name ∈ member.attributes.map Attribute.shortName ∨
        name ∈ index.inheritedShortNames member := by
  have carried : (index.inheritedAttribute? member name).isSome = true ↔
      name ∈ (member :: index.overrideChain member).flatMap fun current =>
        current.attributes.map Attribute.shortName := by
    simp [inheritedAttribute?, Attribute.findByShortName?]
  rw [carried, mem_inheritedShortNames_iff, List.flatMap_cons, List.mem_append]
  by_cases own : name ∈ member.attributes.map Attribute.shortName
  · simp only [own, true_or]
  · simp only [own, false_or, not_false_eq_true, and_true]

theorem nodup_inheritedShortNames (index : Index) (member : Member) :
    (index.inheritedShortNames member).Nodup := by
  have distinct := nodup_map_firstOfEachFrom (fun name => name)
    (member.attributes.map Attribute.shortName)
    ((index.overrideChain member).flatMap fun overridden =>
      overridden.attributes.map Attribute.shortName)
  rw [List.map_id'] at distinct
  exact distinct

/-- Every inherited name is found, so inherited attributes have the inherited names. -/
theorem map_shortName_inheritedAttributes (index : Index) (member : Member) :
    (index.inheritedAttributes member).map Attribute.shortName =
      index.inheritedShortNames member := by
  rw [inheritedAttributes, List.map_filterMap]
  conv_rhs => rw [← List.filterMap_some (l := index.inheritedShortNames member)]
  apply List.filterMap_congr
  intro name listed
  obtain ⟨marker, found⟩ := Option.isSome_iff_exists.mp
    (isSome_inheritedAttribute?_iff.mpr (Or.inr listed))
  rw [found, Option.map_some, shortName_of_inheritedAttribute? found]

/-- Among the inherited attributes a look-up finds what it finds along the chain. -/
theorem find?_inheritedAttributes {name : String}
    (foreign : name ∉ member.attributes.map Attribute.shortName) :
    (index.inheritedAttributes member).find? (fun marker => marker.shortName == name) =
      index.inheritedAttribute? member name := by
  cases found : index.inheritedAttribute? member name with
  | none =>
      rw [List.find?_eq_none]
      intro marker listed
      obtain ⟨other, _, here⟩ := List.mem_filterMap.mp listed
      rw [shortName_of_inheritedAttribute? here]
      intro same
      rw [eq_of_beq same] at here
      exact absurd (found.symm.trans here) (by simp)
  | some marker =>
      have inherited : name ∈ index.inheritedShortNames member :=
        (isSome_inheritedAttribute?_iff.mp (by simp [found])).resolve_left foreign
      have listed : marker ∈ index.inheritedAttributes member :=
        List.mem_filterMap.mpr ⟨name, inherited, found⟩
      have present : ((index.inheritedAttributes member).find?
          fun other => other.shortName == name).isSome = true := by
        rw [List.find?_isSome]
        exact ⟨marker, listed, by simp [shortName_of_inheritedAttribute? found]⟩
      obtain ⟨other, first⟩ := Option.isSome_iff_exists.mp present
      obtain ⟨key, _, here⟩ := List.mem_filterMap.mp (List.mem_of_find?_eq_some first)
      have named : other.shortName = name := by simpa using List.find?_some first
      rw [shortName_of_inheritedAttribute? here] at named
      rw [first, ← found, ← here, named]

/-- A record shows attributes under their names. -/
theorem find?_map_ofAttribute (markers : List Attribute) (name : String) :
    (markers.map AttributeRecord.ofAttribute).find? (fun entry => entry.shortName == name) =
      (markers.find? fun marker => marker.shortName == name).map AttributeRecord.ofAttribute := by
  rw [List.find?_map]
  rfl

section

variable (index : Index) (settings : Settings) (owner : TypeSymbol) (member : Member)

/-- The attributes that a record shows are the own ones and behind them the inherited ones, so the
first of a name is what the look-up along the chain finds. -/
theorem find?_attributes_describeMember (name : String) :
    (((index.describeMember settings owner member).attributes ++
        (index.describeMember settings owner member).inheritedAttributes).find? fun entry =>
          entry.shortName == name) =
      (index.inheritedAttribute? member name).map AttributeRecord.ofAttribute := by
  rw [List.find?_append, describeMember, find?_map_ofAttribute, find?_map_ofAttribute]
  cases own : member.attributes.find? fun marker => marker.shortName == name with
  | some marker =>
      have here : index.inheritedAttribute? member name = some marker := by
        rw [inheritedAttribute?, List.findSome?_cons, Attribute.findByShortName?, own]
      rw [here]
      rfl
  | none =>
      have foreign : name ∉ member.attributes.map Attribute.shortName := by
        intro listed
        obtain ⟨marker, carried, named⟩ := List.mem_map.mp listed
        exact absurd named (by simpa using List.find?_eq_none.mp own marker carried)
      rw [find?_inheritedAttributes foreign, Option.map_none, Option.none_or]

theorem shortNames_describeMember :
    (index.describeMember settings owner member).inheritedAttributes.map
      AttributeRecord.shortName = index.inheritedShortNames member := by
  rw [← map_shortName_inheritedAttributes]
  exact List.map_map

end

/-- **Attributes in the record of a member.** When the chain of members that a member overrides
ends, the first entry of a name among its attributes and its inherited attributes shows the
attribute that is found along the whole chain, and there is one exactly when something is found. An
entry shows the first value of each named argument. Inherited attributes have different names, and
none of a name that the member carries itself. -/
theorem attributes_of_describeMember (index : Index) (settings : Settings) (owner : TypeSymbol)
    {member : Member} {chain : List Member} (run : Run index.overridden? member chain) :
    let record := index.describeMember settings owner member
    let shown := record.attributes ++ record.inheritedAttributes
    (∀ name, let found := index.inheritedAttribute? member name
      found = ((member :: chain).findSome? fun current =>
        Attribute.findByShortName? current.attributes name) ∧
      (shown.find? fun entry => entry.shortName == name) =
        found.map AttributeRecord.ofAttribute ∧
      ((∃ entry ∈ shown, entry.shortName = name) ↔ found.isSome = true)) ∧
    (∀ marker key, ∃ named, (AttributeRecord.ofAttribute marker).toJson.member? "named_arguments" =
        some named ∧
      ((named.member? key).isSome = true ↔ ∃ value, (key, value) ∈ marker.named) ∧
      named.member? key = (marker.namedArgument? key).map Literal.toJson) ∧
    (record.inheritedAttributes.map AttributeRecord.shortName).Nodup ∧
    ∀ entry ∈ record.inheritedAttributes,
      entry.shortName ∉ member.attributes.map Attribute.shortName := by
  intro record shown
  have first : ∀ name, (shown.find? fun entry => entry.shortName == name) =
      (index.inheritedAttribute? member name).map AttributeRecord.ofAttribute :=
    index.find?_attributes_describeMember settings owner member
  have names : record.inheritedAttributes.map AttributeRecord.shortName =
      index.inheritedShortNames member := index.shortNames_describeMember settings owner member
  refine ⟨?_, ?_, ?_, ?_⟩
  · intro name found
    refine ⟨?_, first name, ?_⟩
    · rw [show found = index.inheritedAttribute? member name from rfl, inheritedAttribute?,
        overrideChain_of_run run]
    · rw [← Option.isSome_map (f := AttributeRecord.ofAttribute), ← first name, List.find?_isSome]
      simp
  · intro marker key
    refine ⟨.object (AttributeRecord.ofAttribute marker).named, rfl, ?_,
      AttributeRecord.member?_named marker key⟩
    rw [AttributeRecord.member?_named, Option.isSome_map, Attribute.isSome_namedArgument?_iff]
  · rw [names]
    exact nodup_inheritedShortNames index member
  · intro entry listed
    have inherited := List.mem_map_of_mem (f := AttributeRecord.shortName) listed
    rw [names] at inherited
    exact (mem_inheritedShortNames_iff.mp inherited).2

end Index

/-! ## A chain of overrides -/

namespace Sample

/-- An attribute with a named argument that is given twice. -/
def marked (name : String) (value : Int) : Attribute :=
  ⟨name, name, [], [("key", .int value), ("key", .null)], none⟩

/-- The property of a type, with attributes. -/
def propertyOf (owner : String) (attributes : List Attribute) : Member :=
  ⟨owner ++ ".x", "x", owner, .property, none, attributes, none⟩

def farthest : Member := propertyOf "A" [marked "tag" 1, marked "note" 2]

def middle : Member := propertyOf "B" [marked "tag" 3, marked "tag" 4]

def nearest : Member := propertyOf "C" [marked "size" 5]

/-- Three properties of which each overrides the one before it. -/
def overriding : Index :=
  (((Index.empty.addType (.externalType "A") none [farthest]).addType (.externalType "B") none
    [middle]).addType (.externalType "C") none [nearest]).addOverride nearest middle
      |>.addOverride middle farthest

end Sample

namespace Index

/-- The last property of the sample inherits the attribute that the nearest overridden property
carries first, with the first value of its named argument. -/
theorem attributes_of_overriding :
    Run Sample.overriding.overridden? Sample.nearest [Sample.middle, Sample.farthest] ∧
    let record := Sample.overriding.describeMember {} (.externalType "C") Sample.nearest
    ((record.attributes ++ record.inheritedAttributes).find? fun entry =>
      entry.shortName == "tag") = some (.ofAttribute (Sample.marked "tag" 3)) ∧
    (record.inheritedAttributes.map AttributeRecord.shortName).Nodup := by
  have run : Run Sample.overriding.overridden? Sample.nearest [Sample.middle, Sample.farthest] :=
    .step rfl (.step rfl (.stop rfl))
  obtain ⟨found, _, distinct, _⟩ :=
    attributes_of_describeMember Sample.overriding {} (.externalType "C") run
  refine ⟨run, ?_, distinct⟩
  exact (found "tag").2.1.trans rfl

end Index

end TypeCatalog
