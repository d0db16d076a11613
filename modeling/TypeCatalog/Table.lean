/-! # Tables in insertion order

A `Table` maps text keys to values and remembers the order in which keys were first inserted.
Inserting under a key that is present replaces the value in place, so the order of a table is the
order of the first insertion of each key. `find?` and `keys` are the views of a table, and a lemma
says what each operation does to them. -/

namespace TypeCatalog

/-- Store a value in a list of entries: in place when its key is listed, at the end otherwise. -/
def setEntry {α : Type} (entries : List (String × α)) (key : String) (value : α) :
    List (String × α) :=
  if entries.any (·.1 == key) then
    entries.map fun entry => if entry.1 = key then (key, value) else entry
  else entries ++ [(key, value)]

/-- A finite map from text, listed in the order in which keys were first inserted. -/
structure Table (α : Type) where
  entries : List (String × α)
  keys_nodup : (entries.map Prod.fst).Nodup

namespace Table

variable {α β : Type}

/-- The table without entries. -/
def empty : Table α where
  entries := []
  keys_nodup := by simp

instance : Inhabited (Table α) := ⟨empty⟩

/-- The keys in order of first insertion. -/
def keys (table : Table α) : List String := table.entries.map Prod.fst

/-- The values in the order of their keys. -/
def values (table : Table α) : List α := table.entries.map Prod.snd

/-- The number of keys. -/
def size (table : Table α) : Nat := table.entries.length

/-- The value stored under a key. -/
def find? (table : Table α) (key : String) : Option α := table.entries.lookup key

def contains (table : Table α) (key : String) : Bool := table.keys.contains key

/-- Replace the value stored under a key wherever the key is listed. -/
def replaceEntry (key : String) (value : α) (entry : String × α) : String × α :=
  if entry.1 = key then (key, value) else entry

/-- Replacing values leaves the list of keys as it is. -/
theorem map_fst_replaceEntry (key : String) (value : α) (entries : List (String × α)) :
    (entries.map (replaceEntry key value)).map Prod.fst = entries.map Prod.fst := by
  rw [List.map_map]
  apply List.map_congr_left
  intro entry _
  by_cases same : entry.1 = key <;> simp [replaceEntry, same]

/-- Store a value: in place when the key is present, at the end otherwise. -/
def insert (table : Table α) (key : String) (value : α) : Table α :=
  if present : key ∈ table.entries.map Prod.fst then
    { entries := table.entries.map (replaceEntry key value)
      keys_nodup := by
        rw [map_fst_replaceEntry]
        exact table.keys_nodup }
  else
    { entries := table.entries ++ [(key, value)]
      keys_nodup := by
        rw [List.map_append, List.nodup_append]
        refine ⟨table.keys_nodup, by simp, ?_⟩
        intro left member right single same
        simp only [List.map_cons, List.map_nil, List.mem_singleton] at single
        exact present (single ▸ same ▸ member) }

/-- Store a value unless the key is already present. -/
def insertNew (table : Table α) (key : String) (value : α) : Table α :=
  if table.contains key then table else table.insert key value

def erase (table : Table α) (key : String) : Table α where
  entries := table.entries.filter (fun entry => entry.1 ≠ key)
  keys_nodup := table.keys_nodup.sublist (List.filter_sublist.map _)

/-- The table of a list of pairs, of which the last with a given key counts. -/
def ofList (pairs : List (String × α)) : Table α :=
  pairs.foldl (fun table pair => table.insert pair.1 pair.2) empty

/-- A key is present exactly when it is listed. -/
theorem contains_iff {table : Table α} {key : String} :
    table.contains key = true ↔ key ∈ table.keys := by
  simp [contains]

@[simp] theorem find?_empty (key : String) : (empty : Table α).find? key = none := rfl

@[simp] theorem keys_empty : (empty : Table α).keys = [] := rfl

/-- What a list of entries shows under a key after its values under another key are replaced. -/
theorem lookup_map_replaceEntry (key other : String) (value : α) (entries : List (String × α)) :
    (entries.map (replaceEntry key value)).lookup other =
      if other = key then (entries.lookup key).map fun _ => value else entries.lookup other := by
  induction entries with
  | nil => simp
  | cons entry rest ih =>
      obtain ⟨name, stored⟩ := entry
      rw [List.map_cons, List.lookup_cons, List.lookup_cons, List.lookup_cons, ih]
      by_cases same : name = key
      · subst same
        by_cases asked : other = name
        · simp [replaceEntry, asked]
        · have differ : (other == name) = false := by simpa using asked
          simp [replaceEntry, asked, differ]
      · by_cases asked : other = key
        · subst asked
          have differ : (other == name) = false := by simpa using fun h => same h.symm
          simp [replaceEntry, same, differ]
        · simp [replaceEntry, same, asked]

/-- A key is looked up successfully exactly when it is listed. -/
theorem isSome_find?_iff {table : Table α} {key : String} :
    (table.find? key).isSome = true ↔ key ∈ table.keys := by
  unfold find? keys
  induction table.entries with
  | nil => simp
  | cons entry rest ih =>
      obtain ⟨name, stored⟩ := entry
      rw [List.lookup_cons]
      by_cases same : key = name
      · simp [same]
      · have differ : (key == name) = false := by simpa using same
        simp [differ, ih, same]

/-- Inserting adds a key at the end, and none when the key is present. -/
theorem keys_insert (table : Table α) (key : String) (value : α) :
    (table.insert key value).keys =
      if key ∈ table.keys then table.keys else table.keys ++ [key] := by
  unfold insert
  split
  · rename_i present
    rw [if_pos (show key ∈ table.keys from present)]
    exact map_fst_replaceEntry key value table.entries
  · rename_i absent
    rw [if_neg (show key ∉ table.keys from absent)]
    simp [keys]

/-- What is found after an insertion. -/
theorem find?_insert (table : Table α) (key other : String) (value : α) :
    (table.insert key value).find? other =
      if other = key then some value else table.find? other := by
  unfold insert find?
  split
  · rename_i present
    have found := isSome_find?_iff.mpr (show key ∈ table.keys from present)
    obtain ⟨stored, found⟩ := Option.isSome_iff_exists.mp found
    rw [lookup_map_replaceEntry]
    by_cases asked : other = key
    · simp [asked, show table.entries.lookup key = some stored from found]
    · simp [asked]
  · rename_i absent
    have missing : table.entries.lookup key = none := by
      cases found : table.entries.lookup key with
      | none => rfl
      | some stored => exact absurd (isSome_find?_iff.mp (by simp [find?, found])) absent
    rw [List.lookup_append]
    by_cases asked : other = key
    · simp [asked, missing]
    · have differ : (other == key) = false := by simpa using asked
      simp [asked, List.lookup_cons, differ]

/-- What is found after a key is forgotten. -/
theorem find?_erase (table : Table α) (key other : String) :
    (table.erase key).find? other = if other = key then none else table.find? other := by
  show (table.entries.filter fun entry => entry.1 ≠ key).lookup other =
    if other = key then none else table.entries.lookup other
  induction table.entries with
  | nil => simp
  | cons entry rest ih =>
      obtain ⟨name, stored⟩ := entry
      by_cases dropped : name = key
      · rw [List.filter_cons_of_neg (by simpa using dropped), ih]
        by_cases asked : other = key
        · rw [if_pos asked, if_pos asked]
        · have differ : (other == name) = false := by simpa [dropped] using asked
          rw [if_neg asked, if_neg asked, List.lookup_cons]
          simp only [differ]
      · rw [List.filter_cons_of_pos (by simpa using dropped), List.lookup_cons,
          List.lookup_cons, ih]
        by_cases asked : other = key
        · have differ : (other == name) = false := by
            rw [asked]
            simpa using fun same : key = name => dropped same.symm
          simp only [differ, if_pos asked]
        · rw [if_neg asked, if_neg asked]

/-- Forgetting a key keeps the order of the others. -/
theorem keys_erase (table : Table α) (key : String) :
    (table.erase key).keys = table.keys.filter fun other => other ≠ key := by
  simp [erase, keys, List.filter_map, Function.comp_def]

end Table

end TypeCatalog
