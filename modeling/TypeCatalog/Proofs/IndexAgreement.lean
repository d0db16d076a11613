import Mathlib.Data.List.Nodup
import TypeCatalog.Proofs.InheritedAttributes
import TypeCatalog.Proofs.Lineages

/-! # Indexes that agree

Lineages, overrides and records look things up by name, so indexes whose tables are equal as finite
maps say the same of every type, whatever the order in which their entries were stored
(`TypeCatalog.Index.Agrees.describeType`).
-/

namespace TypeCatalog

namespace Table

variable {α : Type}

/-- Tables that are equal as finite maps. -/
def Same (left right : Table α) : Prop := ∀ key, left.find? key = right.find? key

theorem nodup_entries (table : Table α) : table.entries.Nodup :=
  List.Nodup.of_map _ table.keys_nodup

namespace Same

variable {left right : Table α}

theorem find? (same : left.Same right) : left.find? = right.find? := funext same

theorem entries_perm (same : left.Same right) : left.entries.Perm right.entries := by
  refine (List.perm_ext_iff_of_nodup left.nodup_entries right.nodup_entries).mpr ?_
  rintro ⟨key, value⟩
  rw [← find?_eq_some_iff, ← find?_eq_some_iff, same]

theorem size (same : left.Same right) : left.size = right.size := same.entries_perm.length_eq

theorem values_perm (same : left.Same right) : left.values.Perm right.values :=
  same.entries_perm.map _

end Same

/-- Pairs that hold one value for each key give the same table in any order. -/
theorem same_ofList_of_perm {left right : List (String × α)} (reordered : left.Perm right)
    (single : ∀ key first second, (key, first) ∈ left → (key, second) ∈ left → first = second) :
    (ofList left).Same (ofList right) := by
  have found : ∀ {pairs : List (String × α)}, left.Perm pairs → ∀ key value,
      (ofList pairs).find? key = some value ↔ (key, value) ∈ pairs := by
    intro pairs moved key value
    constructor
    · intro stored
      exact (mem_of_find?_foldl_insert pairs .empty stored).resolve_right (by simp)
    · intro listed
      refine find?_foldl_insert pairs .empty listed fun other otherListed => ?_
      exact single key other value (moved.mem_iff.mpr otherListed) (moved.mem_iff.mpr listed)
  intro key
  ext value
  rw [found (.refl left), found reordered, reordered.mem_iff]

end Table

namespace Index

/-- Indexes whose tables are equal as finite maps. -/
structure Agrees (left right : Index) : Prop where
  types : left.types.Same right.types
  bases : left.bases.Same right.bases
  members : left.members.Same right.members
  memberIds : left.memberIds.Same right.memberIds
  overrides : left.overrides.Same right.overrides

namespace Agrees

variable {left right : Index} (agrees : left.Agrees right)

include agrees

theorem ancestors : left.ancestors = right.ancestors := by
  have bases : left.base? = right.base? := by
    funext symbol
    rw [base?, base?, agrees.bases.find?]
  funext symbol
  rw [Index.ancestors, Index.ancestors, ancestorsUpTo_eq, ancestorsUpTo_eq, bases,
    agrees.bases.size]

theorem declaredMembers : left.declaredMembers = right.declaredMembers := by
  funext symbol
  rw [Index.declaredMembers, Index.declaredMembers, agrees.members.find?]

theorem allMembers : left.allMembers = right.allMembers := by
  funext symbol
  have inherited := congrFun agrees.ancestors symbol
  rw [Index.ancestors, Index.ancestors] at inherited
  rw [Index.allMembers, Index.allMembers, membersUpTo, membersUpTo, inherited,
    agrees.declaredMembers]

theorem overridden? : left.overridden? = right.overridden? := by
  funext member
  rw [Index.overridden?, Index.overridden?, agrees.overrides, agrees.memberIds.find?]

theorem overrideChain : left.overrideChain = right.overrideChain := by
  funext member
  rw [Index.overrideChain, Index.overrideChain, overrideChainUpTo_eq, overrideChainUpTo_eq,
    agrees.overridden?, agrees.overrides.size]

theorem inheritedAttributes : left.inheritedAttributes = right.inheritedAttributes := by
  funext member
  have found : left.inheritedAttribute? = right.inheritedAttribute? := by
    funext member name
    rw [inheritedAttribute?, inheritedAttribute?, agrees.overrideChain]
  rw [Index.inheritedAttributes, Index.inheritedAttributes, inheritedShortNames,
    inheritedShortNames, agrees.overrideChain, found]

theorem isSerializable : left.isSerializable = right.isSerializable := by
  have derives : left.derivesFrom = right.derivesFrom := by
    funext symbol definition
    rw [derivesFrom, derivesFrom, findAncestor?, findAncestor?, agrees.ancestors]
  funext settings symbol
  unfold Index.isSerializable
  rw [derives]

theorem describeMember : left.describeMember = right.describeMember := by
  funext settings owner member
  rw [Index.describeMember, Index.describeMember, agrees.overridden?, agrees.inheritedAttributes]

/-- The record of a type is the same as read off indexes that agree. -/
theorem describeType : left.describeType = right.describeType := by
  funext settings symbol
  rw [Index.describeType, Index.describeType, agrees.ancestors, agrees.isSerializable,
    agrees.allMembers, agrees.describeMember]

end Agrees

end Index

end TypeCatalog
