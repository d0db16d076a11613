import Mathlib.Data.List.Basic
import TypeCatalog.Distinct
import TypeCatalog.Table

/-! # Tables and lists

What a table holds after entries are stored one after the other, that the first item of each name is
listed once, and how a part of a list is taken apart again by keys.
-/

namespace TypeCatalog

/-- A view that no step of a fold changes is the same after the fold. -/
theorem view_foldl {σ α β : Type} (view : σ → β) (step : σ → α → σ)
    (kept : ∀ state item, view (step state item) = view state) (items : List α) (state : σ) :
    view (items.foldl step state) = view state := by
  induction items generalizing state with
  | nil => rfl
  | cons item rest ih => rw [List.foldl_cons, ih, kept]

/-- An outcome that is known by its value has not failed. -/
theorem eq_ok_of_toOption {ε α : Type} {outcome : Except ε α} {value : α}
    (given : outcome.toOption = some value) : outcome = .ok value := by
  cases outcome with
  | error failure => exact absurd given.symm (Option.some_ne_none _)
  | ok found => exact congrArg Except.ok (Option.some.inj given)

/-- Where keys are different, what is found under a key is what is listed under it. -/
theorem lookup_eq_some_iff_of_nodup {κ β : Type} [DecidableEq κ] {pairs : List (κ × β)}
    (distinct : (pairs.map Prod.fst).Nodup) {key : κ} {value : β} :
    pairs.lookup key = some value ↔ (key, value) ∈ pairs := by
  induction pairs with
  | nil => simp
  | cons pair rest ih =>
      obtain ⟨name, stored⟩ := pair
      rw [List.map_cons, List.nodup_cons] at distinct
      rw [List.lookup_cons]
      by_cases same : key = name
      · subst same
        have absent : (key, value) ∉ rest := fun member =>
          distinct.1 (List.mem_map.mpr ⟨_, member, rfl⟩)
        simp [absent, eq_comm]
      · have differ : (key == name) = false := by simpa using same
        simp [differ, same, ih distinct.2]

namespace Table

variable {α : Type}

/-- What is found under a key is what is listed under it. -/
theorem find?_eq_some_iff {table : Table α} {key : String} {value : α} :
    table.find? key = some value ↔ (key, value) ∈ table.entries :=
  lookup_eq_some_iff_of_nodup table.keys_nodup

/-- A key that is not stored is found as before. -/
theorem find?_foldl_insert_of_notMem (pairs : List (String × α)) (table : Table α) {key : String}
    (absent : ∀ pair ∈ pairs, pair.1 ≠ key) :
    (pairs.foldl (fun table pair => table.insert pair.1 pair.2) table).find? key =
      table.find? key := by
  induction pairs generalizing table with
  | nil => rfl
  | cons pair rest ih =>
      rw [List.foldl_cons, ih _ fun other member => absent other (List.mem_cons_of_mem _ member),
        find?_insert, if_neg (Ne.symm (absent pair List.mem_cons_self))]

/-- A value is found under a key when it is stored there, and nothing else is. -/
theorem find?_foldl_insert (pairs : List (String × α)) (table : Table α) {key : String} {value : α}
    (listed : (key, value) ∈ pairs) (only : ∀ other, (key, other) ∈ pairs → other = value) :
    (pairs.foldl (fun table pair => table.insert pair.1 pair.2) table).find? key = some value := by
  induction pairs generalizing table with
  | nil => simp at listed
  | cons pair rest ih =>
      rw [List.foldl_cons]
      by_cases again : (key, value) ∈ rest
      · exact ih _ again fun other member => only other (List.mem_cons_of_mem _ member)
      · have first : (key, value) = pair := (List.mem_cons.mp listed).resolve_right again
        subst first
        rw [find?_foldl_insert_of_notMem, find?_insert, if_pos rfl]
        intro other member same
        refine again ?_
        rw [← only other.2 (List.mem_cons_of_mem _ (same ▸ member)), ← same]
        exact member

/-- What is found under a key was stored there, or was there before. -/
theorem mem_of_find?_foldl_insert (pairs : List (String × α)) (table : Table α) {key : String}
    {value : α}
    (found : (pairs.foldl (fun table pair => table.insert pair.1 pair.2) table).find? key =
      some value) : (key, value) ∈ pairs ∨ table.find? key = some value := by
  induction pairs generalizing table with
  | nil => exact Or.inr found
  | cons pair rest ih =>
      rw [List.foldl_cons] at found
      rcases ih _ found with later | earlier
      · exact Or.inl (List.mem_cons_of_mem _ later)
      · rw [find?_insert] at earlier
        split at earlier
        · rename_i same
          rw [same, ← Option.some.inj earlier]
          exact Or.inl List.mem_cons_self
        · exact Or.inr earlier

theorem entries_insert_of_absent {table : Table α} {key : String} (value : α)
    (absent : key ∉ table.keys) :
    (table.insert key value).entries = table.entries ++ [(key, value)] := by
  unfold insert
  rw [dif_neg (show key ∉ table.entries.map Prod.fst from absent)]

/-- Values that are stored under new keys are listed behind the others. -/
theorem entries_foldl_insert (pairs : List (String × α)) (table : Table α)
    (distinct : (table.keys ++ pairs.map Prod.fst).Nodup) :
    (pairs.foldl (fun table pair => table.insert pair.1 pair.2) table).entries =
      table.entries ++ pairs := by
  induction pairs generalizing table with
  | nil => simp
  | cons pair rest ih =>
      have fresh : pair.1 ∉ table.keys := by
        intro member
        exact (List.nodup_append.mp distinct).2.2 _ member _ (by simp) rfl
      have keys : (table.insert pair.1 pair.2).keys = table.keys ++ [pair.1] := by
        rw [keys_insert, if_neg fresh]
      rw [List.foldl_cons, ih _ (by simpa [keys] using distinct),
        entries_insert_of_absent _ fresh, List.append_assoc, List.singleton_append]

theorem keys_foldl_insert (pairs : List (String × α)) (table : Table α)
    (distinct : (table.keys ++ pairs.map Prod.fst).Nodup) :
    (pairs.foldl (fun table pair => table.insert pair.1 pair.2) table).keys =
      table.keys ++ pairs.map Prod.fst := by
  rw [keys, entries_foldl_insert pairs table distinct, List.map_append]
  rfl

theorem find?_insertNew (table : Table α) (key other : String) (value : α) :
    (table.insertNew key value).find? other =
      (table.find? other).or (if other = key then some value else none) := by
  rw [insertNew]
  by_cases present : table.contains key = true
  · have found := isSome_find?_iff.mpr (contains_iff.mp present)
    rw [if_pos present]
    by_cases asked : other = key
    · obtain ⟨stored, found⟩ := Option.isSome_iff_exists.mp found
      rw [asked, found, Option.some_or]
    · rw [if_neg asked, Option.or_none]
  · have missing : table.find? key = none := by
      rw [← Option.not_isSome_iff_eq_none, isSome_find?_iff, ← contains_iff]
      exact present
    rw [if_neg present, find?_insert]
    by_cases asked : other = key
    · rw [if_pos asked, if_pos asked, asked, missing, Option.none_or]
    · rw [if_neg asked, if_neg asked, Option.or_none]

theorem entries_insertNew_of_absent {table : Table α} {key : String} (value : α)
    (absent : key ∉ table.keys) :
    (table.insertNew key value).entries = table.entries ++ [(key, value)] := by
  rw [insertNew, if_neg (mt contains_iff.mp absent), entries_insert_of_absent value absent]

end Table

section

variable {α : Type} (name : α → String)

theorem firstOfEachFrom_sublist (seen : List String) (items : List α) :
    (firstOfEachFrom name seen items).Sublist items := by
  induction items generalizing seen with
  | nil => exact List.Sublist.refl _
  | cons item rest ih =>
      rw [firstOfEachFrom]
      split
      · exact (ih seen).cons item
      · exact (ih (name item :: seen)).cons_cons item

theorem notMem_of_mem_firstOfEachFrom (seen : List String) (items : List α) :
    ∀ item ∈ firstOfEachFrom name seen items, name item ∉ seen := by
  induction items generalizing seen with
  | nil => simp [firstOfEachFrom]
  | cons item rest ih =>
      rw [firstOfEachFrom]
      split
      · exact ih seen
      · rename_i fresh
        intro other member
        rcases List.mem_cons.mp member with rfl | later
        · simpa using fresh
        · exact fun old => ih _ other later (List.mem_cons_of_mem _ old)

theorem nodup_map_firstOfEachFrom (seen : List String) (items : List α) :
    ((firstOfEachFrom name seen items).map name).Nodup := by
  induction items generalizing seen with
  | nil => simp [firstOfEachFrom]
  | cons item rest ih =>
      rw [firstOfEachFrom]
      split
      · exact ih seen
      · rw [List.map_cons, List.nodup_cons]
        refine ⟨?_, ih _⟩
        intro repeated
        obtain ⟨other, member, same⟩ := List.mem_map.mp repeated
        exact notMem_of_mem_firstOfEachFrom name _ rest other member (by simp [same])

/-- The first item of a name is the one of that name among the first of each name. -/
theorem find?_firstOfEachFrom (wanted : String) (seen : List String) (new : wanted ∉ seen)
    (items : List α) :
    (firstOfEachFrom name seen items).find? (fun item => name item == wanted) =
      items.find? fun item => name item == wanted := by
  induction items generalizing seen with
  | nil => rfl
  | cons item rest ih =>
      rw [firstOfEachFrom, List.find?_cons]
      by_cases isWanted : name item = wanted
      · rw [if_neg (by simpa [isWanted] using new), List.find?_cons]
        simp [isWanted]
      · have stillNew : wanted ∉ name item :: seen := by
          simpa [Ne.symm isWanted] using new
        have other : (name item == wanted) = false := by simpa using isWanted
        rw [other]
        split
        · exact ih seen new
        · rw [List.find?_cons, other]
          exact ih _ stillNew

/-- The items may be changed before or after the first of each name is taken. -/
theorem firstOfEachFrom_map {β : Type} (change : β → α) (seen : List String) (items : List β) :
    firstOfEachFrom name seen (items.map change) =
      (firstOfEachFrom (fun item => name (change item)) seen items).map change := by
  induction items generalizing seen with
  | nil => rfl
  | cons item rest ih =>
      rw [List.map_cons, firstOfEachFrom, firstOfEachFrom]
      split
      · exact ih seen
      · rw [ih, List.map_cons]

end

section

variable {α β κ : Type}

theorem mem_of_lookup [BEq κ] [LawfulBEq κ] {pairs : List (κ × β)} {key : κ} {value : β}
    (found : pairs.lookup key = some value) : (key, value) ∈ pairs := by
  obtain ⟨front, behind, rfl, _⟩ := List.lookup_eq_some_iff.mp found
  exact List.mem_append_right _ List.mem_cons_self

/-- Entries with different keys are found in any order. -/
theorem lookup_of_perm {left right : List (String × β)} (order : left.Perm right)
    (distinct : (left.map Prod.fst).Nodup) (key : String) :
    left.lookup key = right.lookup key := by
  apply Option.ext
  intro value
  rw [lookup_eq_some_iff_of_nodup distinct,
    lookup_eq_some_iff_of_nodup ((order.map Prod.fst).nodup_iff.mp distinct), order.mem_iff]

theorem lookup_map_values {γ : Type} (change : β → γ) (pairs : List (String × β)) (key : String) :
    (pairs.map fun entry => (entry.1, change entry.2)).lookup key =
      (pairs.lookup key).map change := by
  induction pairs with
  | nil => rfl
  | cons pair rest ih =>
      rw [List.map_cons, List.lookup_cons, List.lookup_cons, ih]
      cases key == pair.1 <;> rfl

/-- What is found after a value is stored among entries. -/
theorem lookup_setEntry (entries : List (String × β)) (key other : String) (value : β) :
    (setEntry entries key value).lookup other =
      if other = key then some value else entries.lookup other := by
  rw [setEntry]
  split
  · rename_i listed
    obtain ⟨entry, member, same⟩ := List.any_eq_true.mp listed
    refine (Table.lookup_map_replaceEntry key other value entries).trans ?_
    by_cases asked : other = key
    · cases found : entries.lookup key with
      | none =>
          have differ := List.lookup_eq_none_iff.mp found entry member
          simp [eq_of_beq same] at differ
      | some stored => rw [if_pos asked, if_pos asked, Option.map_some]
    · rw [if_neg asked, if_neg asked]
  · rename_i unlisted
    rw [List.lookup_append, List.lookup_cons]
    by_cases asked : other = key
    · have missing : entries.lookup other = none := by
        rw [List.lookup_eq_none_iff]
        intro entry member
        rw [asked, bne_iff_ne]
        exact fun same => unlisted (List.any_eq_true.mpr ⟨entry, member, by simp [same]⟩)
      rw [if_pos asked, missing]
      simp [asked]
    · have differ : (other == key) = false := by simpa using asked
      simp [asked, differ]

/-- Looking up every key of a list gives the values whose keys are part of the list, in its
order. -/
theorem filterMap_lookup_of_sublist [DecidableEq κ] {pairs : List (κ × β)} {keys : List κ}
    (part : (pairs.map Prod.fst).Sublist keys) (distinct : keys.Nodup) :
    keys.filterMap (fun key => pairs.lookup key) = pairs.map Prod.snd := by
  induction keys generalizing pairs with
  | nil => simp_all
  | cons key rest ih =>
      rw [List.nodup_cons] at distinct
      rcases List.sublist_cons_iff.mp part with later | ⟨others, split, later⟩
      · have absent : pairs.lookup key = none := by
          rw [List.lookup_eq_none_iff]
          intro pair listed
          have other : pair.1 ∈ rest := later.mem (List.mem_map_of_mem listed)
          simpa using fun same : key = pair.1 => distinct.1 (same ▸ other)
        rw [List.filterMap_cons, absent]
        exact ih later distinct.2
      · obtain ⟨first, behind, rfl, rfl, rfl⟩ := List.map_eq_cons_iff.mp split
        have skipped : ∀ other ∈ rest, (first :: behind).lookup other = behind.lookup other := by
          intro other listed
          have differ : (other == first.1) = false := by
            simpa using fun same : other = first.1 => distinct.1 (same ▸ listed)
          rw [List.lookup_cons, differ]
        rw [List.filterMap_cons, List.lookup_cons_self, List.filterMap_congr skipped,
          ih later distinct.2]
        rfl

/-- A part of lists that are put one behind the other, each with a number of its own, is put
together again from its items of each number, which are part of the list of that number. -/
theorem flatMap_filter_of_sublist {part : List β} {groups : List α} {items : α → List β}
    {number : α → Nat} {numberOf : β → Nat} (sub : part.Sublist (groups.flatMap items))
    (numbered : ∀ group ∈ groups, ∀ item ∈ items group, numberOf item = number group)
    (distinct : (groups.map number).Nodup) :
    (groups.flatMap fun group => part.filter fun item => numberOf item = number group) = part ∧
      ∀ group ∈ groups,
        (part.filter fun item => numberOf item = number group).Sublist (items group) := by
  induction groups generalizing part with
  | nil => simpa [eq_comm] using sub
  | cons group rest ih =>
      rw [List.flatMap_cons] at sub
      obtain ⟨front, behind, rfl, inGroup, inRest⟩ := List.sublist_append_iff.mp sub
      rw [List.map_cons, List.nodup_cons] at distinct
      obtain ⟨together, parts⟩ := ih inRest
        (fun other listed => numbered other (List.mem_cons_of_mem _ listed)) distinct.2
      have own : ∀ item ∈ front, numberOf item = number group := fun item listed =>
        numbered group List.mem_cons_self item (inGroup.mem listed)
      have others : ∀ item ∈ behind, ∃ other ∈ rest, numberOf item = number other := by
        intro item listed
        obtain ⟨other, inOthers, inOther⟩ := List.mem_flatMap.mp (inRest.mem listed)
        exact ⟨other, inOthers, numbered other (List.mem_cons_of_mem _ inOthers) item inOther⟩
      have ofGroup : ((front ++ behind).filter fun item => numberOf item = number group) =
          front := by
        rw [List.filter_append, List.filter_eq_self.mpr (by simpa using own),
          List.filter_eq_nil_iff.mpr, List.append_nil]
        intro item listed same
        obtain ⟨other, inOthers, numberIs⟩ := others item listed
        rw [decide_eq_true_eq, numberIs] at same
        exact distinct.1 (same ▸ List.mem_map_of_mem inOthers)
      have ofOther : ∀ other ∈ rest,
          ((front ++ behind).filter fun item => numberOf item = number other) =
            behind.filter fun item => numberOf item = number other := by
        intro other inOthers
        rw [List.filter_append, List.filter_eq_nil_iff.mpr, List.nil_append]
        intro item listed same
        rw [decide_eq_true_eq, own item listed] at same
        exact distinct.1 (same ▸ List.mem_map_of_mem inOthers)
      refine ⟨?_, ?_⟩
      · rw [List.flatMap_cons, ofGroup, List.flatMap_congr ofOther, together]
      · intro other listed
        rcases List.mem_cons.mp listed with rfl | inOthers
        · rw [ofGroup]
          exact inGroup
        · rw [ofOther other inOthers]
          exact parts other inOthers

/-- Leaving out what contributes nothing makes no difference. -/
theorem flatMap_filter_of_eq_nil {keep : α → Bool} {values : α → List β}
    {items : List α} (dropped : ∀ item ∈ items, keep item = false → values item = []) :
    (items.filter keep).flatMap values = items.flatMap values := by
  induction items with
  | nil => rfl
  | cons item rest ih =>
      have rests := ih fun other member => dropped other (List.mem_cons_of_mem _ member)
      cases kept : keep item with
      | true => rw [List.filter_cons_of_pos kept, List.flatMap_cons, List.flatMap_cons, rests]
      | false =>
          rw [List.filter_cons_of_neg (by simp [kept]), List.flatMap_cons,
            dropped item List.mem_cons_self kept, List.nil_append, rests]

/-- What stands before a result of a filter comes from what stands before its item. -/
theorem exists_split_of_filterMap {read : α → Option β} {items : List α}
    {front back : List β} {value : β} (split : items.filterMap read = front ++ value :: back) :
    ∃ before item after, items = before ++ item :: after ∧ read item = some value ∧
      before.filterMap read = front := by
  obtain ⟨first, second, rfl, readFirst, readSecond⟩ := List.filterMap_eq_append_iff.mp split
  obtain ⟨skipped, item, after, rfl, nothing, found, -⟩ := List.filterMap_eq_cons_iff.mp readSecond
  refine ⟨first ++ skipped, item, after, by rw [List.append_assoc], found, ?_⟩
  rw [List.filterMap_append, readFirst, List.filterMap_eq_nil_iff.mpr nothing, List.append_nil]

/-- A reader that fails on no item of a list reads the whole list. -/
theorem mapM_eq_some_map {read : α → Option β} {value : α → β} {items : List α}
    (reads : ∀ item ∈ items, read item = some (value item)) :
    items.mapM read = some (items.map value) := by
  induction items with
  | nil => rfl
  | cons item rest ih =>
      rw [List.mapM_cons, reads item List.mem_cons_self,
        ih fun other listed => reads other (List.mem_cons_of_mem _ listed)]
      rfl

end

end TypeCatalog
