import Mathlib.Data.List.Induction
import TypeCatalog.Model.Index
import TypeCatalog.Proofs.Collections

/-! # Histories of an index

An index that is put together by hand is what a history of operations makes of the empty index. The
last addition of a type is what counts, but for its base: a base stays until another one is given
(`TypeCatalog.Index.last_addition_counts`). The members of earlier additions stay known by their
identities, so that an override can lead to a member that its type does not declare any more. It
does so exactly when the last addition of the type lists no member of that identity
(`TypeCatalog.Index.declared_overridden_iff`).
-/

namespace TypeCatalog

/-- What is found under a key after pairs are stored is the value of one of them, and as before when
no pair has the key. -/
theorem Table.find?_foldl_insert_cases {α : Type} (pairs : List (String × α)) (table : Table α)
    (key : String) :
    let found := (pairs.foldl (fun table pair => table.insert pair.1 pair.2) table).find? key
    (∃ value, (key, value) ∈ pairs ∧ found = some value) ∨
      (∀ pair ∈ pairs, pair.1 ≠ key) ∧ found = table.find? key := by
  induction pairs using List.reverseRecOn with
  | nil => exact Or.inr ⟨by simp, rfl⟩
  | append_singleton front last ih =>
      intro found
      have stored : found = if key = last.1 then some last.2 else
          (front.foldl (fun table pair => table.insert pair.1 pair.2) table).find? key := by
        rw [← find?_insert]
        exact congrArg (fun stored : Table α => stored.find? key) List.foldl_append
      by_cases same : key = last.1
      · rw [if_pos same] at stored
        exact Or.inl ⟨last.2, by simp [same], stored⟩
      · rw [if_neg same] at stored
        rcases ih with ⟨value, listed, before⟩ | ⟨absent, before⟩
        · exact Or.inl ⟨value, List.mem_append_left _ listed, stored.trans before⟩
        · refine Or.inr ⟨?_, stored.trans before⟩
          rw [List.forall_mem_append, List.forall_mem_singleton]
          exact ⟨absent, Ne.symm same⟩

/-- An operation on an index. -/
inductive IndexOperation where
  | addType (symbol : TypeSymbol) (base : Option TypeSymbol) (members : List Member)
  | addOverride (member overridden : Member)
  | addUnit (unit : SymbolUnit)

namespace IndexOperation

def apply (index : Index) : IndexOperation → Index
  | .addType symbol base members => index.addType symbol base members
  | .addOverride member overridden => index.addOverride member overridden
  | .addUnit unit => index.addUnit unit

/-- The qualified name of the type that an operation adds. -/
def added? : IndexOperation → Option String
  | .addType symbol _ _ => some symbol.fqn
  | _ => none

/-- The base that an operation gives to the type with a qualified name. -/
def givenBase? (fqn : String) : IndexOperation → Option TypeSymbol
  | .addType symbol base _ => if symbol.fqn = fqn then base else none
  | _ => none

/-- Members are added with the type that declares them. -/
def Owned : IndexOperation → Prop
  | .addType symbol _ members => ∀ member ∈ members, member.declaringType = symbol.fqn
  | _ => True

/-! ## What one operation changes -/

/-- An operation that does not add a type changes neither it nor its members. -/
theorem kept_of_not_added (index : Index) {fqn : String} {operation : IndexOperation}
    (other : operation.added? ≠ some fqn) :
    (operation.apply index).types.find? fqn = index.types.find? fqn ∧
      (operation.apply index).members.find? fqn = index.members.find? fqn := by
  cases operation with
  | addType symbol base members =>
      have apart : fqn ≠ symbol.fqn := fun same => other (congrArg some same.symm)
      simp [apply, Index.addType, Table.find?_insert, apart]
  | addOverride member overridden => exact ⟨rfl, rfl⟩
  | addUnit unit => exact ⟨rfl, rfl⟩

/-- The base of a type is the one that an operation gives, and as before when it gives none. -/
theorem find?_bases_apply (index : Index) (operation : IndexOperation) (fqn : String) :
    (operation.apply index).bases.find? fqn =
      (operation.givenBase? fqn).or (index.bases.find? fqn) := by
  cases operation with
  | addType symbol base members =>
      cases base with
      | none => simp [apply, Index.addType, givenBase?]
      | some base =>
          by_cases same : symbol.fqn = fqn
          · simp [apply, Index.addType, givenBase?, Table.find?_insert, same]
          · simp [apply, Index.addType, givenBase?, Table.find?_insert, same, Ne.symm same]
  | addOverride member overridden => rfl
  | addUnit unit => rfl

end IndexOperation

namespace Index

open IndexOperation

/-- The index that a history of operations makes of another. -/
def after (index : Index) (history : List IndexOperation) : Index :=
  history.foldl (fun index operation => operation.apply index) index

@[simp] theorem after_nil (index : Index) : index.after [] = index := rfl

@[simp] theorem after_cons (index : Index) (operation : IndexOperation)
    (history : List IndexOperation) :
    index.after (operation :: history) = (operation.apply index).after history := rfl

theorem after_append (index : Index) (front back : List IndexOperation) :
    index.after (front ++ back) = (index.after front).after back := List.foldl_append

/-! ## The last addition of a type -/

/-- Operations that do not add a type change neither it nor its members. -/
theorem kept_after (index : Index) {fqn : String} {history : List IndexOperation}
    (other : ∀ operation ∈ history, operation.added? ≠ some fqn) :
    (index.after history).types.find? fqn = index.types.find? fqn ∧
      (index.after history).members.find? fqn = index.members.find? fqn := by
  induction history generalizing index with
  | nil => exact ⟨rfl, rfl⟩
  | cons operation rest ih =>
      obtain ⟨first, later⟩ := List.forall_mem_cons.mp other
      obtain ⟨types, members⟩ := ih (operation.apply index) later
      obtain ⟨typesFirst, membersFirst⟩ := kept_of_not_added index first
      exact ⟨types.trans typesFirst, members.trans membersFirst⟩

/-- The base that operations give last to the type with a qualified name. -/
def lastBase? (history : List IndexOperation) (fqn : String) : Option TypeSymbol :=
  history.reverse.findSome? (givenBase? fqn)

theorem lastBase?_cons (operation : IndexOperation) (history : List IndexOperation)
    (fqn : String) : lastBase? (operation :: history) fqn =
      (lastBase? history fqn).or (operation.givenBase? fqn) := by
  simp [lastBase?, List.findSome?_append]

/-- The base of a type is the one that is given last. -/
theorem find?_bases_after (index : Index) (history : List IndexOperation) (fqn : String) :
    (index.after history).bases.find? fqn =
      (lastBase? history fqn).or (index.bases.find? fqn) := by
  induction history generalizing index with
  | nil => rfl
  | cons operation rest ih =>
      rw [after_cons, ih, find?_bases_apply, lastBase?_cons, Option.or_assoc]

theorem lastBase?_append (front back : List IndexOperation) (fqn : String) :
    lastBase? (front ++ back) fqn = (lastBase? back fqn).or (lastBase? front fqn) := by
  simp [lastBase?, List.findSome?_append]

/-- Operations that do not add a type give it no base. -/
theorem lastBase?_of_not_added {fqn : String} {history : List IndexOperation}
    (other : ∀ operation ∈ history, operation.added? ≠ some fqn) :
    lastBase? history fqn = none := by
  rw [lastBase?, List.findSome?_eq_none_iff]
  intro operation listed
  have apart := other operation (List.mem_reverse.mp listed)
  cases operation with
  | addType symbol base members => exact if_neg fun same => apart (congrArg some same)
  | addOverride member overridden => rfl
  | addUnit unit => rfl

/-- **The last addition of a type.** The type and its members are those of its last addition. Its
base is that of the last addition which gives one, so the base of the last addition counts exactly
when it is given or no earlier addition gave one. -/
theorem last_addition_counts (front back : List IndexOperation) {symbol : TypeSymbol}
    (isPlain : symbol.isGeneric = false) (base : Option TypeSymbol) (members : List Member)
    (last : ∀ operation ∈ back, operation.added? ≠ some symbol.fqn) :
    let index := empty.after (front ++ .addType symbol base members :: back)
    index.lookupType? symbol.fqn = some symbol ∧
      index.declaredMembers symbol = members ∧
      index.base? symbol = base.or (lastBase? front symbol.fqn) ∧
      (index.base? symbol = base ↔ base ≠ none ∨ lastBase? front symbol.fqn = none) := by
  intro index
  have key : symbol.key? = some symbol.fqn := by simp [TypeSymbol.key?, isPlain]
  have split : index = ((empty.after front).addType symbol base members).after back :=
    after_append _ _ _
  obtain ⟨types, declared⟩ :=
    kept_after ((empty.after front).addType symbol base members) last
  have given : index.base? symbol = base.or (lastBase? front symbol.fqn) := by
    have ofAddition : givenBase? symbol.fqn (.addType symbol base members) = base := if_pos rfl
    rw [base?, key, Option.bind_some, find?_bases_after, lastBase?_append, lastBase?_cons,
      lastBase?_of_not_added last, ofAddition, Option.none_or]
    exact Option.or_none
  refine ⟨?_, ?_, given, ?_⟩
  · rw [lookupType?, split, types]
    simp [addType, Table.find?_insert]
  · rw [declaredMembers, key, Option.bind_some, split, declared]
    simp [addType, Table.find?_insert]
  · rw [given]
    cases base <;> simp

namespace History

/-- The property of a type that is declared at a line. -/
def property (owner : String) (line : Int) : Member :=
  ⟨owner ++ ".x", "x", owner, .property, none, [], some ⟨"m.py", line, 0⟩⟩

def parent : TypeSymbol := .plain "A" [] none false

def child : TypeSymbol := .plain "B" [] none false

/-- A type with a base. -/
def derived : List IndexOperation := [.addType child (some parent) [property "B" 5]]

end History

/-- A type that is added again without a base, before another type is added. -/
theorem last_addition_of_child :
    let back := [.addType History.parent none [History.property "A" 1]]
    let index := empty.after (History.derived ++ .addType History.child none [] :: back)
    History.child.isGeneric = false ∧
      (∀ operation ∈ back, operation.added? ≠ some History.child.fqn) ∧
      index.lookupType? "B" = some History.child ∧
      index.declaredMembers History.child = [] ∧
      index.base? History.child = some History.parent := by
  intro back index
  have last : ∀ operation ∈ back, operation.added? ≠ some History.child.fqn := by decide
  obtain ⟨type, members, base, _⟩ :=
    @last_addition_counts History.derived back History.child rfl none [] last
  exact ⟨rfl, last, type, members, base⟩

/-- A type that is added is no instantiation. -/
def IsPlain : IndexOperation → Prop
  | .addType symbol _ _ => symbol.isGeneric = false
  | _ => True

/-- The base of an earlier addition of a type can show through a later one. -/
theorem earlier_bases_show_through :
    ¬ ∀ (front back : List IndexOperation) (symbol : TypeSymbol) (base : Option TypeSymbol)
      (members : List Member),
      (∀ operation ∈ front ++ .addType symbol base members :: back, IsPlain operation) →
      (∀ operation ∈ back, operation.added? ≠ some symbol.fqn) →
      let index := empty.after (front ++ .addType symbol base members :: back)
      index.lookupType? symbol.fqn = some symbol ∧ index.base? symbol = base ∧
        index.declaredMembers symbol = members := by
  intro always
  have plain : ∀ operation ∈ History.derived ++ [.addType History.child none []],
      IsPlain operation := by
    simp [History.derived, IsPlain, History.child, TypeSymbol.plain]
  obtain ⟨_, base, _⟩ := always History.derived [] History.child none [] plain (by simp)
  exact Option.some_ne_none History.parent base

/-! ## Overridden members -/

/-- The members that an index declares for the type with a qualified name. -/
def membersOf (index : Index) (fqn : String) : List Member := (index.members.find? fqn).getD []

theorem declaredMembers_eq_membersOf (index : Index) {symbol : TypeSymbol} {fqn : String}
    (key : symbol.key? = some fqn) : index.declaredMembers symbol = index.membersOf fqn := by
  rw [declaredMembers, key, Option.bind_some, membersOf]

theorem membersOf_addType (index : Index) (symbol : TypeSymbol) (base : Option TypeSymbol)
    (members : List Member) (fqn : String) : (index.addType symbol base members).membersOf fqn =
      if fqn = symbol.fqn then members else index.membersOf fqn := by
  have stored := Table.find?_insert index.members symbol.fqn fqn members
  change ((index.members.insert symbol.fqn members).find? fqn).getD [] = _
  rw [stored]
  split <;> rfl

/-- An identity stands for a member of the last addition that lists it. -/
theorem find?_memberIds_addType (index : Index) (symbol : TypeSymbol) (base : Option TypeSymbol)
    (members : List Member) (id : String) :
    let found := (index.addType symbol base members).memberIds.find? id
    (∃ member ∈ members, member.id = id ∧ found = some member) ∨
      (∀ member ∈ members, member.id ≠ id) ∧ found = index.memberIds.find? id := by
  intro found
  have stored : found = ((members.map fun member => (member.id, member)).foldl
      (fun table pair => table.insert pair.1 pair.2) index.memberIds).find? id := by
    rw [List.foldl_map]
    rfl
  rcases Table.find?_foldl_insert_cases (members.map fun member => (member.id, member))
      index.memberIds id with ⟨member, listed, isFound⟩ | ⟨absent, kept⟩
  · obtain ⟨other, isMember, same⟩ := List.mem_map.mp listed
    obtain ⟨rfl, rfl⟩ := Prod.mk.inj same
    exact Or.inl ⟨other, isMember, rfl, stored.trans isFound⟩
  · exact Or.inr ⟨fun member listed => absent _ (List.mem_map_of_mem listed), stored.trans kept⟩

/-- What is known of the members that identities stand for: a member has the identity that it is
known by, and it is declared by its type when the type declares any member of that identity. -/
structure Tracked (index : Index) : Prop where
  identified : ∀ {id member}, index.memberIds.find? id = some member → member.id = id
  current : ∀ {id member}, index.memberIds.find? id = some member →
    (∃ other ∈ index.membersOf member.declaringType, other.id = id) →
      member ∈ index.membersOf member.declaringType

theorem tracked_empty : Tracked empty := ⟨by simp [empty], by simp [empty]⟩

/-- An operation that adds members with their types keeps track of identities. -/
theorem Tracked.apply {index : Index} (tracked : index.Tracked) {operation : IndexOperation}
    (owned : operation.Owned) : (operation.apply index).Tracked := by
  cases operation with
  | addType symbol base members =>
      constructor
      · intro id member found
        rcases index.find?_memberIds_addType symbol base members id with
          ⟨other, _, identified, isFound⟩ | ⟨_, kept⟩
        · rw [← Option.some.inj (isFound.symm.trans found), identified]
        · exact tracked.identified (kept.symm.trans found)
      · intro id member found listed
        rw [IndexOperation.apply, membersOf_addType] at listed ⊢
        rcases index.find?_memberIds_addType symbol base members id with
          ⟨other, isMember, _, isFound⟩ | ⟨absent, kept⟩
        · obtain rfl := Option.some.inj (isFound.symm.trans found)
          rwa [if_pos (owned other isMember)]
        · split at listed
          · obtain ⟨other, isMember, same⟩ := listed
            exact absurd same (absent other isMember)
          · rename_i apart
            rw [if_neg apart]
            exact tracked.current (kept.symm.trans found) listed
  | addOverride member overridden => exact ⟨tracked.identified, tracked.current⟩
  | addUnit unit => exact ⟨tracked.identified, tracked.current⟩

theorem Tracked.after {index : Index} (tracked : index.Tracked) {history : List IndexOperation}
    (owned : ∀ operation ∈ history, operation.Owned) : (index.after history).Tracked := by
  induction history generalizing index with
  | nil => exact tracked
  | cons operation rest ih =>
      obtain ⟨first, later⟩ := List.forall_mem_cons.mp owned
      exact ih (tracked.apply first) later

/-- What holds whenever an operation of a history is applied. -/
def Throughout (holds : Index → IndexOperation → Prop) : Index → List IndexOperation → Prop
  | _, [] => True
  | index, operation :: rest =>
      holds index operation ∧ Throughout holds (operation.apply index) rest

/-- An addition of a type lists a member for each identity that the type declares already. -/
def Relists (index : Index) : IndexOperation → Prop
  | .addType symbol _ members =>
      ∀ member ∈ index.membersOf symbol.fqn, ∃ other ∈ members, other.id = member.id
  | _ => True

/-- Every identity that stands for a member is one of those that the type of the member declares. -/
def Declared (index : Index) : Prop :=
  ∀ {id member}, index.memberIds.find? id = some member →
    ∃ other ∈ index.membersOf member.declaringType, other.id = id

theorem Declared.apply {index : Index} (declared : index.Declared) {operation : IndexOperation}
    (owned : operation.Owned) (relists : index.Relists operation) :
    (operation.apply index).Declared := by
  cases operation with
  | addType symbol base members =>
      intro id member found
      rw [IndexOperation.apply, membersOf_addType]
      rcases index.find?_memberIds_addType symbol base members id with
        ⟨other, isMember, identified, isFound⟩ | ⟨_, kept⟩
      · obtain rfl := Option.some.inj (isFound.symm.trans found)
        rw [if_pos (owned other isMember)]
        exact ⟨other, isMember, identified⟩
      · obtain ⟨other, isMember, same⟩ := declared (kept.symm.trans found)
        split
        · rename_i added
          obtain ⟨again, listed, identified⟩ := relists other (added ▸ isMember)
          exact ⟨again, listed, identified.trans same⟩
        · exact ⟨other, isMember, same⟩
  | addOverride member overridden => exact declared
  | addUnit unit => exact declared

theorem Declared.after {index : Index} (declared : index.Declared)
    {history : List IndexOperation} (owned : ∀ operation ∈ history, operation.Owned)
    (relists : Throughout Relists index history) : (index.after history).Declared := by
  induction history generalizing index with
  | nil => exact declared
  | cons operation rest ih =>
      obtain ⟨first, later⟩ := List.forall_mem_cons.mp owned
      exact ih (declared.apply first relists.1) later relists.2

/-- **Where overrides lead.** In an index that is put together by hand, the member that is found as
overridden is declared by its type exactly when the type declares any member of its identity. It is
always declared when every addition of a type that was added before lists the identities that were
listed before. -/
theorem declared_overridden_iff {history : List IndexOperation}
    (owned : ∀ operation ∈ history, operation.Owned) :
    let index := empty.after history
    ∀ member overridden, index.overridden? member = some overridden →
      ∀ symbol, symbol.key? = some overridden.declaringType →
        (overridden ∈ index.declaredMembers symbol ↔
          ∃ other ∈ index.declaredMembers symbol, other.id = overridden.id) ∧
        (Throughout Relists empty history → overridden ∈ index.declaredMembers symbol) := by
  intro index member overridden found symbol key
  obtain ⟨id, _, stored⟩ := Option.bind_eq_some_iff.mp found
  have tracked : index.Tracked := tracked_empty.after owned
  obtain rfl : overridden.id = id := tracked.identified stored
  rw [index.declaredMembers_eq_membersOf key]
  refine ⟨⟨fun listed => ⟨overridden, listed, rfl⟩, tracked.current stored⟩, fun relists => ?_⟩
  have declared : index.Declared := Declared.after (by simp [Declared, empty]) owned relists
  exact tracked.current stored (declared stored)

namespace History

/-- The property of a type overrides that of its base. -/
def overriding : List IndexOperation :=
  [.addType parent none [property "A" 1], .addType child (some parent) [property "B" 5],
    .addOverride (property "B" 5) (property "A" 1)]

end History

/-- The base is added again with a property of the same name, which is then the overridden one. -/
theorem declared_overridden_of_renewed :
    let history := History.overriding ++ [.addType History.parent none [History.property "A" 3]]
    let index := empty.after history
    (∀ operation ∈ history, operation.Owned) ∧ Throughout Relists empty history ∧
      index.overridden? (History.property "B" 5) = some (History.property "A" 3) ∧
      History.parent.key? = some (History.property "A" 3).declaringType ∧
      History.property "A" 3 ∈ index.declaredMembers History.parent := by
  intro history index
  have owned : ∀ operation ∈ history, operation.Owned := by
    simp [history, History.overriding, Owned, History.property, History.parent, History.child,
      TypeSymbol.plain]
  have relists : Throughout Relists empty history := by
    refine ⟨?_, ?_, trivial, ?_, trivial⟩
    · exact fun member listed => absurd listed List.not_mem_nil
    · exact fun member listed => absurd listed List.not_mem_nil
    · intro member listed
      refine ⟨_, List.mem_singleton_self _, ?_⟩
      rw [List.mem_singleton.mp listed]
      rfl
  have found : index.overridden? (History.property "B" 5) = some (History.property "A" 3) := rfl
  exact ⟨owned, relists, found, rfl,
    (declared_overridden_iff owned _ _ found History.parent rfl).2 relists⟩

/-- An operation that records an override is applied to members that are declared. -/
def Present (index : Index) : IndexOperation → Prop
  | .addOverride member overridden =>
      member ∈ index.membersOf member.declaringType ∧
        overridden ∈ index.membersOf overridden.declaringType
  | _ => True

/-- An override can lead to a member that its type does not declare any more: the base of the sample
is added again without members. -/
theorem overrides_can_dangle :
    ¬ ∀ history : List IndexOperation, (∀ operation ∈ history, operation.Owned) →
      Throughout Present empty history →
      ∀ member overridden, (empty.after history).overridden? member = some overridden →
        ∀ symbol, symbol.key? = some overridden.declaringType →
          overridden ∈ (empty.after history).declaredMembers symbol := by
  intro always
  have owned : ∀ operation ∈ History.overriding ++ [.addType History.parent none []],
      operation.Owned := by
    simp [History.overriding, Owned, History.property, History.parent, History.child,
      TypeSymbol.plain]
  have present : Throughout Present empty
      (History.overriding ++ [.addType History.parent none []]) :=
    ⟨trivial, trivial, ⟨List.mem_singleton_self _, List.mem_singleton_self _⟩, trivial, trivial⟩
  exact List.not_mem_nil (always _ owned present (History.property "B" 5) (History.property "A" 1)
    rfl History.parent rfl)

end Index

end TypeCatalog
