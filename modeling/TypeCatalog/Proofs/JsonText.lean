import Mathlib.Data.List.DropRight
import TypeCatalog.Proofs.Collections
import TypeCatalog.Proofs.DecimalText

/-! # Reading JSON back

The text of a value is read as the value with the members of its objects in the order of their keys
(`TypeCatalog.Json.read?_write`), when it holds no number that is none and no object with a repeated
key (`TypeCatalog.Json.Proper`). As objects are maps, that is the same value
(`TypeCatalog.Json.same_sorted`).
-/

namespace TypeCatalog

namespace Text

theorem charOfCode?_toNat (c : Char) : charOfCode? c.toNat = some c := by
  have valid : c.toNat.isValidChar := c.valid
  rw [charOfCode?, dif_pos valid]
  rfl

end Text

namespace Json

/-! ## Quoted texts -/

theorem readEscape?_escapeUnit {unit : Nat} (fits : unit < 0x10000) {c : Char}
    (named : Text.charOfCode? unit = some c) (alone : ¬ (0xD800 ≤ unit ∧ unit < 0xDC00))
    (rest : List Char) : readEscape? ('u' :: (Text.hexText 4 unit ++ rest)) = some (c, rest) := by
  have taken := Text.takeHex?_hexText (by decide : 0 < 4) (fits : unit < 16 ^ 4) rest
  simp only [readEscape?, taken, Option.bind_eq_bind, Option.bind_some, if_neg alone, named]
  rfl

/-- A pair of units is read as the character that they encode. -/
theorem readEscape?_pair {offset : Nat} (fits : offset < 0x100000) {c : Char}
    (named : Text.charOfCode? (0x10000 + offset) = some c) (rest : List Char) :
    readEscape? ('u' :: (Text.hexText 4 (0xD800 + offset / 0x400) ++
      (escapeUnit (0xDC00 + offset % 0x400) ++ rest))) = some (c, rest) := by
  have high := Text.takeHex?_hexText (by decide : 0 < 4)
    (by omega : 0xD800 + offset / 0x400 < 16 ^ 4)
    (escapeUnit (0xDC00 + offset % 0x400) ++ rest)
  have low := Text.takeHex?_hexText (by decide : 0 < 4)
    (by omega : 0xDC00 + offset % 0x400 < 16 ^ 4) rest
  have first : 0xD800 ≤ 0xD800 + offset / 0x400 ∧ 0xD800 + offset / 0x400 < 0xDC00 := by omega
  have second : 0xDC00 ≤ 0xDC00 + offset % 0x400 ∧ 0xDC00 + offset % 0x400 < 0xE000 := by omega
  have code : 0x10000 + (0xD800 + offset / 0x400 - 0xD800) * 0x400 +
      (0xDC00 + offset % 0x400 - 0xDC00) = 0x10000 + offset := by omega
  simp only [readEscape?, high, Option.bind_eq_bind, Option.bind_some, if_pos first]
  simp only [escapeUnit, List.cons_append, low, Option.bind_some, if_pos second, code, named]
  rfl

/-- A character is read from its escape. -/
theorem readQuoted?_escaped {letters rest : List Char} {c : Char}
    (read : readEscape? (letters ++ rest) = some (c, rest)) (fuel : Nat) :
    readQuoted? (fuel + 1) ('\\' :: (letters ++ rest)) =
      (readQuoted? fuel rest).map fun more => (c :: more.1, more.2) := by
  simp only [readQuoted?, read, Option.bind_eq_bind, Option.bind_some]
  cases readQuoted? fuel rest <;> rfl

/-- A character beyond the units of 16 bits is read from the pair of units that encodes it. -/
theorem readQuoted?_pair {offset : Nat} (fits : offset < 0x100000) {c : Char}
    (named : Text.charOfCode? (0x10000 + offset) = some c) (fuel : Nat) (rest : List Char) :
    readQuoted? (fuel + 1) (escapeUnit (0xD800 + offset / 0x400) ++
        escapeUnit (0xDC00 + offset % 0x400) ++ rest) =
      (readQuoted? fuel rest).map fun more => (c :: more.1, more.2) := by
  have read := readEscape?_pair fits named rest
  -- The units are left apart, since evaluating them would compute with their numbers in unary.
  generalize 0xD800 + offset / 0x400 = high at read ⊢
  generalize 0xDC00 + offset % 0x400 = low at read ⊢
  rw [← List.append_assoc] at read
  exact @readQuoted?_escaped ('u' :: (Text.hexText 4 high ++ escapeUnit low)) rest c read fuel

/-- A quoted character is read back. -/
theorem readQuoted?_escapeChar (c : Char) (fuel : Nat) (rest : List Char) :
    readQuoted? (fuel + 1) (escapeChar c ++ rest) =
      (readQuoted? fuel rest).map fun more => (c :: more.1, more.2) := by
  have valid : c.toNat.isValidChar := c.valid
  unfold Nat.isValidChar at valid
  have named := Text.charOfCode?_toNat c
  have short : ∀ letter, readEscape? (letter :: rest) = some (c, rest) →
      readQuoted? (fuel + 1) (['\\', letter] ++ rest) =
        (readQuoted? fuel rest).map fun more => (c :: more.1, more.2) := fun letter read =>
    @readQuoted?_escaped [letter] rest c read fuel
  unfold escapeChar
  split_ifs with quote backslash newline carriageReturn tab backspace formFeed printable single
  · exact short '"' (by rw [quote]; rfl)
  · exact short '\\' (by rw [backslash]; rfl)
  · exact short 'n' (by rw [newline]; rfl)
  · exact short 'r' (by rw [carriageReturn]; rfl)
  · exact short 't' (by rw [tab]; rfl)
  · rw [backspace] at named
    exact short 'b' (by rw [← Option.some.inj named]; rfl)
  · rw [formFeed] at named
    exact short 'f' (by rw [← Option.some.inj named]; rfl)
  · have visible : ¬ c.toNat < 32 := by omega
    simp only [List.cons_append, List.nil_append, readQuoted?, if_neg visible, Option.bind_eq_bind]
    cases readQuoted? fuel rest <;> rfl
  · exact @readQuoted?_escaped ('u' :: Text.hexText 4 c.toNat) rest c
      (readEscape?_escapeUnit single named (by omega) rest) fuel
  · obtain ⟨offset, code⟩ := Nat.exists_eq_add_of_le (Nat.le_of_not_lt single)
    rw [code] at named
    rw [code, Nat.add_sub_cancel_left]
    exact readQuoted?_pair (by omega) named fuel rest

theorem escapeChar_ne_nil (c : Char) : escapeChar c ≠ [] := by
  intro empty
  -- A closing quote behind nothing would be read as the character.
  have read := readQuoted?_escapeChar c 1 ['"']
  rw [empty] at read
  simp [readQuoted?] at read

/-- A quoted text is read back. -/
theorem readQuoted?_flatMap {characters : List Char} {fuel : Nat}
    (enough : characters.length < fuel) (rest : List Char) :
    readQuoted? fuel (characters.flatMap escapeChar ++ '"' :: rest) = some (characters, rest) := by
  induction characters generalizing fuel with
  | nil =>
      obtain ⟨fuel, rfl⟩ := Nat.exists_eq_add_of_lt enough
      rfl
  | cons c characters ih =>
      cases fuel with
      | zero => simp at enough
      | succ fuel =>
          rw [List.flatMap_cons, List.append_assoc, readQuoted?_escapeChar,
            ih (by simpa using enough)]
          rfl

theorem length_le_length_flatMap (characters : List Char) :
    characters.length ≤ (characters.flatMap escapeChar).length := by
  induction characters with
  | nil => simp
  | cons c characters ih =>
      have some := List.length_pos_iff.mpr (escapeChar_ne_nil c)
      rw [List.flatMap_cons, List.length_append, List.length_cons]
      omega

theorem toList_quote (text : String) :
    (quote text).toList = '"' :: (text.toList.flatMap escapeChar ++ ['"']) := by
  simp [quote]

/-- What stands behind an opening quote is read up to the closing one. -/
theorem readQuoted?_quote (text : String) (rest : List Char) :
    ∃ behind, (quote text).toList ++ rest = '"' :: behind ∧
      readQuoted? (behind.length + 1) behind = some (text.toList, rest) := by
  refine ⟨text.toList.flatMap escapeChar ++ '"' :: rest, by simp [toList_quote], ?_⟩
  apply readQuoted?_flatMap
  have short := length_le_length_flatMap text.toList
  rw [List.length_append]
  omega

/-! ## Repeated keys -/

theorem setEntry_entries (table : Table Json) (key : String) (value : Json) :
    setEntry table.entries key value = (table.insert key value).entries := by
  by_cases present : key ∈ table.entries.map Prod.fst
  · have listed : table.entries.any (·.1 == key) = true := by
      simpa [List.any_eq_true] using present
    rw [setEntry, if_pos listed, Table.insert, dif_pos present]
    rfl
  · have missing : ¬ table.entries.any (·.1 == key) = true := by
      simpa [List.any_eq_true] using present
    rw [setEntry, if_neg missing, Table.insert, dif_neg present]

/-- The members that are kept are the entries of a table. -/
theorem uniqueMembers_eq_entries (pairs : List (String × Json)) :
    uniqueMembers pairs = (Table.ofList pairs).entries := by
  have stored : ∀ table : Table Json,
      pairs.foldl (fun members entry => setEntry members entry.1 entry.2) table.entries =
        (pairs.foldl (fun table pair => table.insert pair.1 pair.2) table).entries := by
    induction pairs with
    | nil => exact fun _ => rfl
    | cons pair rest ih =>
        intro table
        rw [List.foldl_cons, List.foldl_cons, setEntry_entries, ih]
  exact stored Table.empty

theorem nodup_uniqueMembers (pairs : List (String × Json)) :
    ((uniqueMembers pairs).map Prod.fst).Nodup := by
  rw [uniqueMembers_eq_entries]
  exact (Table.ofList pairs).keys_nodup

theorem mem_of_mem_uniqueMembers {pairs : List (String × Json)} {entry : String × Json}
    (kept : entry ∈ uniqueMembers pairs) : entry ∈ pairs := by
  rw [uniqueMembers_eq_entries] at kept
  have found := Table.find?_eq_some_iff.mpr kept
  rcases Table.mem_of_find?_foldl_insert pairs Table.empty found with member | none
  · exact member
  · simp at none

/-- Members with different keys are all kept, in their order. -/
theorem uniqueMembers_of_nodup {pairs : List (String × Json)}
    (distinct : (pairs.map Prod.fst).Nodup) : uniqueMembers pairs = pairs := by
  -- The induction is on the members to come, behind those that are kept already.
  have kept : ∀ front : List (String × Json), ((front ++ pairs).map Prod.fst).Nodup →
      pairs.foldl (fun members entry => setEntry members entry.1 entry.2) front =
        front ++ pairs := by
    clear distinct
    induction pairs with
    | nil => intro front _; simp
    | cons pair rest ih =>
        intro front distinct
        have fresh : ¬ front.any (·.1 == pair.1) = true := by
          intro listed
          obtain ⟨entry, member, same⟩ := List.any_eq_true.mp listed
          rw [List.map_append, List.nodup_append] at distinct
          exact distinct.2.2 _ (List.mem_map_of_mem member) _ (by simp) (eq_of_beq same)
        rw [List.foldl_cons, setEntry, if_neg fresh, ih _ (by simpa using distinct)]
        simp
  exact kept [] distinct

/-! ## Steps of the reader -/

theorem skipBlanks_skipBlanks (text : List Char) :
    skipBlanks (skipBlanks text) = skipBlanks text := List.dropWhile_idempotent _ _

theorem skipBlanks_of_visible {c : Char} (visible : isBlank c = false) (rest : List Char) :
    skipBlanks (c :: rest) = c :: rest := by
  rw [skipBlanks, List.dropWhile_cons_of_neg (by simp [visible])]

theorem readValue?_skipBlanks (fuel : Nat) (text : List Char) :
    readValue? fuel (skipBlanks text) = readValue? fuel text := by
  cases fuel with
  | zero => rfl
  | succ fuel => simp only [readValue?, skipBlanks_skipBlanks]

theorem readItems?_skipBlanks (fuel : Nat) (text : List Char) :
    readItems? fuel (skipBlanks text) = readItems? fuel text := by
  cases fuel with
  | zero => rfl
  | succ fuel => simp only [readItems?, readValue?_skipBlanks]

theorem readMembers?_skipBlanks (fuel : Nat) (text : List Char) :
    readMembers? fuel (skipBlanks text) = readMembers? fuel text := by
  cases fuel with
  | zero => rfl
  | succ fuel => simp only [readMembers?, skipBlanks_skipBlanks]

/-- A word or number is read as a value. -/
theorem readValue?_of_readScalar? {text : List Char} {result : Json × List Char}
    (read : readScalar? text = some result) (fuel : Nat) :
    readValue? (fuel + 1) text = some result := by
  cases text with
  | nil => exact absurd read (by simp [readScalar?, afterWord?, readMagnitude?])
  | cons c rest =>
      have apart : ∀ other, readScalar? (other :: rest) = none → c ≠ other := by
        rintro other none rfl
        rw [read] at none
        contradiction
      have visible : isBlank c = false := by
        simp only [isBlank, Bool.or_eq_false_iff, beq_eq_false_iff_ne]
        exact ⟨⟨⟨apart ' ' rfl, apart '\t' rfl⟩, apart '\n' rfl⟩, apart '\r' rfl⟩
      rw [readValue?, skipBlanks_of_visible visible]
      split
      · rename_i same
        exact absurd (List.cons.inj same).1 (apart '"' rfl)
      · rename_i same
        exact absurd (List.cons.inj same).1 (apart '[' rfl)
      · rename_i same
        exact absurd (List.cons.inj same).1 (apart '\x7b' rfl)
      · exact read

/-- Behind its opening bracket an array goes on with its items, as no item begins with a closing
bracket. -/
theorem readValue?_of_readItems? {fuel : Nat} {text rest : List Char} {items : List Json}
    (read : readItems? fuel text = some (items, rest)) :
    readValue? (fuel + 1) ('[' :: text) = some (.array items, rest) := by
  have bracket : skipBlanks ('[' :: text) = '[' :: text := rfl
  rw [← readItems?_skipBlanks] at read
  simp only [readValue?, bracket]
  split
  · -- then the items would begin with the bracket
    rename_i closed
    rw [closed] at read
    cases fuel with
    | zero => simp [readItems?] at read
    | succ fuel =>
        cases fuel with
        | zero => simp [readItems?, readValue?] at read
        | succ fuel =>
            have none : ∀ rest, readValue? (fuel + 1) (']' :: rest) = none := fun rest => rfl
            simp [readItems?, none] at read
  · rw [read]
    rfl

theorem readValue?_of_readMembers? {fuel : Nat} {text rest : List Char}
    {members : List (String × Json)} (read : readMembers? fuel text = some (members, rest)) :
    readValue? (fuel + 1) ('\x7b' :: text) = some (.object (uniqueMembers members), rest) := by
  have brace : skipBlanks ('\x7b' :: text) = '\x7b' :: text := rfl
  rw [← readMembers?_skipBlanks] at read
  simp only [readValue?, brace]
  split
  · rename_i closed
    rw [closed] at read
    cases fuel with
    | zero => simp [readMembers?] at read
    | succ fuel => exact absurd read (by simp [readMembers?, skipBlanks, isBlank])
  · rw [read]
    rfl

theorem readItems?_last {fuel : Nat} {text rest : List Char} {item : Json}
    (read : readValue? fuel text = some (item, ']' :: rest)) :
    readItems? (fuel + 1) text = some ([item], rest) := by
  simp [readItems?, read, skipBlanks, isBlank]

theorem readItems?_more {fuel : Nat} {text behind rest : List Char} {item : Json}
    {items : List Json} (read : readValue? fuel text = some (item, ',' :: ' ' :: behind))
    (more : readItems? fuel behind = some (items, rest)) :
    readItems? (fuel + 1) text = some (item :: items, rest) := by
  have next : readItems? fuel (' ' :: behind) = some (items, rest) := by
    rw [← more, ← readItems?_skipBlanks, ← readItems?_skipBlanks fuel behind]
    rfl
  simp [readItems?, read, skipBlanks_of_visible, isBlank, next]

theorem readMembers?_last {fuel : Nat} {key : String} {text rest : List Char} {value : Json}
    (read : readValue? fuel text = some (value, '\x7d' :: rest)) :
    readMembers? (fuel + 1) ((quote key).toList ++ ':' :: ' ' :: text) =
      some ([(key, value)], rest) := by
  obtain ⟨behind, begins, quoted⟩ := readQuoted?_quote key (':' :: ' ' :: text)
  have next : readValue? fuel (' ' :: text) = some (value, '\x7d' :: rest) := by
    rw [← read, ← readValue?_skipBlanks, ← readValue?_skipBlanks fuel text]
    rfl
  rw [begins]
  simp [readMembers?, quoted, skipBlanks_of_visible, isBlank, next]

theorem readMembers?_more {fuel : Nat} {key : String} {text behind rest : List Char}
    {value : Json} {members : List (String × Json)}
    (read : readValue? fuel text = some (value, ',' :: ' ' :: behind))
    (more : readMembers? fuel behind = some (members, rest)) :
    readMembers? (fuel + 1) ((quote key).toList ++ ':' :: ' ' :: text) =
      some ((key, value) :: members, rest) := by
  obtain ⟨quoted, begins, taken⟩ := readQuoted?_quote key (':' :: ' ' :: text)
  have first : readValue? fuel (' ' :: text) = some (value, ',' :: ' ' :: behind) := by
    rw [← read, ← readValue?_skipBlanks, ← readValue?_skipBlanks fuel text]
    rfl
  have next : readMembers? fuel (' ' :: behind) = some (members, rest) := by
    rw [← more, ← readMembers?_skipBlanks, ← readMembers?_skipBlanks fuel behind]
    rfl
  rw [begins]
  simp [readMembers?, taken, skipBlanks_of_visible, isBlank, first, next]

/-! ## Values -/

/-- Values of which nothing is lost in text: every floating-point number is a number, and no object
has a repeated key. -/
inductive Proper : Json → Prop
  | null : Proper .null
  | bool (value : Bool) : Proper (.bool value)
  | int (value : Int) : Proper (.int value)
  | float {value : Binary64} (isNumber : value.isNotANumber = false) : Proper (.float value)
  | string (value : String) : Proper (.string value)
  | array {items : List Json} (each : ∀ item ∈ items, Proper item) : Proper (.array items)
  | object {members : List (String × Json)} (distinct : (members.map Prod.fst).Nodup)
      (each : ∀ member ∈ members, Proper member.2) : Proper (.object members)

mutual

/-- A value with the members of its objects in the order of their keys. -/
def sorted : Json → Json
  | .array items => .array (sortedItems items)
  | .object members => .object (sortMembers (sortedMembers members))
  | value => value

def sortedItems : List Json → List Json
  | [] => []
  | item :: rest => sorted item :: sortedItems rest

def sortedMembers : List (String × Json) → List (String × Json)
  | [] => []
  | (key, value) :: rest => (key, sorted value) :: sortedMembers rest

end

theorem sortedItems_eq_map (items : List Json) : sortedItems items = items.map sorted := by
  induction items with
  | nil => rfl
  | cons item rest ih => rw [sortedItems, ih, List.map_cons]

theorem sortedMembers_eq_map (members : List (String × Json)) :
    sortedMembers members = members.map fun entry => (entry.1, entry.2.sorted) := by
  induction members with
  | nil => rfl
  | cons entry rest ih => rw [sortedMembers, ih, List.map_cons]

theorem writeItems_eq_map (items : List Json) : writeItems items = items.map write := by
  induction items with
  | nil => rfl
  | cons item rest ih => rw [writeItems, ih, List.map_cons]

theorem writeMembers_eq_map (members : List (String × Json)) :
    writeMembers members = members.map fun entry => (entry.1, entry.2.write) := by
  induction members with
  | nil => rfl
  | cons entry rest ih => rw [writeMembers, ih, List.map_cons]

theorem sortMembers_map {α β : Type} (change : α → β) (members : List (String × α)) :
    sortMembers (members.map fun entry => (entry.1, change entry.2)) =
      (sortMembers members).map fun entry => (entry.1, change entry.2) := by
  unfold sortMembers
  rw [List.map_mergeSort]
  exact fun _ _ _ _ => rfl

theorem sortMembers_perm {α : Type} (members : List (String × α)) :
    (sortMembers members).Perm members := List.mergeSort_perm _ _

/-- The text of a member. -/
def writeMember (entry : String × Json) : String := quote entry.1 ++ ": " ++ entry.2.write

theorem write_object (members : List (String × Json)) :
    write (.object members) =
      "\x7b" ++ ", ".intercalate ((sortMembers members).map writeMember) ++ "\x7d" := by
  rw [write, writeMembers_eq_map, sortMembers_map, List.map_map]
  rfl

theorem toList_write_array (items : List Json) :
    (write (.array items)).toList =
      '[' :: ((", ".intercalate (items.map write)).toList ++ [']']) := by
  simp [write, writeItems_eq_map]

theorem toList_write_object (members : List (String × Json)) :
    (write (.object members)).toList =
      '\x7b' :: ((", ".intercalate ((sortMembers members).map writeMember)).toList ++
        ['\x7d']) := by
  simp [write_object]

theorem sorted_object (members : List (String × Json)) :
    sorted (.object members) =
      .object ((sortMembers members).map fun entry => (entry.1, entry.2.sorted)) := by
  rw [sorted, sortedMembers_eq_map, sortMembers_map]

theorem toList_listed_single (text : String) : (", ".intercalate [text]).toList = text.toList := by
  simp

theorem toList_listed_more (text next : String) (texts : List String) :
    (", ".intercalate (text :: next :: texts)).toList =
      text.toList ++ ',' :: ' ' :: (", ".intercalate (next :: texts)).toList := by
  simp [String.toList_intercalate]

/-- Read in enough steps from its text, a value comes back with its objects sorted. -/
def Reads (value : Json) : Prop :=
  ∀ fuel rest, 2 * value.write.toList.length < fuel → Follows rest →
    readValue? fuel (value.write.toList ++ rest) = some (value.sorted, rest)

theorem reads_of_readScalar? {value : Json} (plain : value.sorted = value)
    (read : ∀ rest, Follows rest →
      readScalar? (value.write.toList ++ rest) = some (value, rest)) : Reads value := by
  intro fuel rest enough follows
  obtain ⟨fuel, rfl⟩ := Nat.exists_eq_add_of_lt enough
  rw [plain]
  exact readValue?_of_readScalar? (read rest follows) _

theorem reads_string (text : String) : Reads (.string text) := by
  intro fuel rest enough _
  obtain ⟨fuel, rfl⟩ := Nat.exists_eq_add_of_lt enough
  obtain ⟨behind, begins, quoted⟩ := readQuoted?_quote text rest
  rw [write, begins]
  simp [readValue?, skipBlanks_of_visible, isBlank, quoted, sorted]

-- Two steps for every character are enough: an item takes one, and its own text is shorter than
-- that of the whole list.
theorem readItems?_listed {item : Json} {items : List Json}
    (reads : ∀ value ∈ item :: items, Reads value) {fuel : Nat} (rest : List Char)
    (enough : 2 * (", ".intercalate ((item :: items).map write)).toList.length + 1 < fuel) :
    readItems? fuel ((", ".intercalate ((item :: items).map write)).toList ++ ']' :: rest) =
      some ((item :: items).map sorted, rest) := by
  obtain ⟨fuel, rfl⟩ := Nat.exists_eq_succ_of_ne_zero (by omega : fuel ≠ 0)
  have first := reads item List.mem_cons_self
  induction items generalizing item fuel with
  | nil =>
      rw [List.map_singleton, toList_listed_single] at enough ⊢
      exact readItems?_last (first fuel _ (by omega) (by simp [Follows]))
  | cons next items ih =>
      rw [List.map_cons, List.map_cons, toList_listed_more, ← List.map_cons] at enough ⊢
      simp only [List.length_append, List.length_cons] at enough
      rw [List.append_assoc]
      obtain ⟨fuel, rfl⟩ := Nat.exists_eq_succ_of_ne_zero (by omega : fuel ≠ 0)
      have others := ih (fun value member => reads value (List.mem_cons_of_mem _ member)) fuel
        (by omega) (reads next (by simp))
      exact readItems?_more (first _ _ (by omega) (by simp [Follows])) others

theorem readMembers?_listed {entry : String × Json} {members : List (String × Json)}
    (reads : ∀ member ∈ entry :: members, Reads member.2) {fuel : Nat} (rest : List Char)
    (enough : 2 * (", ".intercalate ((entry :: members).map writeMember)).toList.length + 1 <
      fuel) :
    readMembers? fuel ((", ".intercalate ((entry :: members).map writeMember)).toList ++
      '\x7d' :: rest) =
        some ((entry :: members).map fun member => (member.1, member.2.sorted), rest) := by
  have split : ∀ (member : String × Json) (behind : List Char),
      (writeMember member).toList ++ behind =
        (quote member.1).toList ++ ':' :: ' ' :: (member.2.write.toList ++ behind) := by
    intro member behind
    simp [writeMember]
  have longer : ∀ member, member.2.write.toList.length < (writeMember member).toList.length := by
    intro member
    simp only [writeMember, String.toList_append, List.length_append]
    simp
  obtain ⟨fuel, rfl⟩ := Nat.exists_eq_succ_of_ne_zero (by omega : fuel ≠ 0)
  have first := reads entry List.mem_cons_self
  have short := longer entry
  induction members generalizing entry fuel with
  | nil =>
      rw [List.map_singleton, toList_listed_single] at enough ⊢
      rw [split]
      exact readMembers?_last (first fuel _ (by omega) (by simp [Follows]))
  | cons next members ih =>
      rw [List.map_cons, List.map_cons, toList_listed_more, ← List.map_cons] at enough ⊢
      simp only [List.length_append, List.length_cons] at enough
      rw [List.append_assoc, split]
      obtain ⟨fuel, rfl⟩ := Nat.exists_eq_succ_of_ne_zero (by omega : fuel ≠ 0)
      have others := ih (fun member listed => reads member (List.mem_cons_of_mem _ listed)) fuel
        (by omega) (reads next (by simp)) (longer next)
      exact readMembers?_more (first _ _ (by omega) (by simp [Follows])) others

theorem reads_array {items : List Json} (reads : ∀ item ∈ items, Reads item) :
    Reads (.array items) := by
  intro fuel rest enough _
  obtain ⟨fuel, rfl⟩ := Nat.exists_eq_succ_of_ne_zero (by omega : fuel ≠ 0)
  rw [toList_write_array, List.length_cons, List.length_append] at enough
  rw [toList_write_array, List.cons_append, List.append_assoc, List.singleton_append, sorted,
    sortedItems_eq_map]
  cases items with
  | nil => rfl
  | cons item items => exact readValue?_of_readItems? (readItems?_listed reads rest (by omega))

theorem reads_object {members : List (String × Json)} (distinct : (members.map Prod.fst).Nodup)
    (reads : ∀ member ∈ members, Reads member.2) : Reads (.object members) := by
  intro fuel rest enough _
  obtain ⟨fuel, rfl⟩ := Nat.exists_eq_succ_of_ne_zero (by omega : fuel ≠ 0)
  rw [toList_write_object, List.length_cons, List.length_append] at enough
  -- What is known of the members does not depend on their order: the sorted ones take their place.
  have order := sortMembers_perm members
  rw [toList_write_object, List.cons_append, List.append_assoc, List.singleton_append,
    sorted_object]
  replace distinct := (order.map Prod.fst).nodup_iff.mpr distinct
  replace reads : ∀ member ∈ sortMembers members, Reads member.2 := fun member listed =>
    reads member (order.mem_iff.mp listed)
  generalize sortMembers members = members at *
  cases members with
  | nil => rfl
  | cons entry members =>
      have keys : (((entry :: members).map fun member => (member.1, member.2.sorted)).map
          Prod.fst).Nodup := by
        rw [List.map_map]
        exact distinct
      rw [readValue?_of_readMembers? (readMembers?_listed reads rest (by omega)),
        uniqueMembers_of_nodup keys]

theorem Proper.reads {value : Json} (proper : Proper value) : Reads value := by
  induction proper with
  | null => exact reads_of_readScalar? rfl fun rest _ => by rfl
  | bool value =>
      cases value with
      | true => exact reads_of_readScalar? rfl fun rest _ => by rfl
      | false => exact reads_of_readScalar? rfl fun rest _ => by rfl
  | int value => exact reads_of_readScalar? rfl fun rest follows => readScalar?_int value follows
  | float isNumber =>
      exact reads_of_readScalar? rfl fun rest follows => readScalar?_float isNumber follows
  | string text => exact reads_string text
  | array _ reads => exact reads_array reads
  | object distinct _ reads => exact reads_object distinct reads

theorem read?_of_reads {value : Json} (reads : Reads value) :
    read? value.write = some value.sorted := by
  have read := reads (2 * value.write.toList.length + 2) [] (by omega) (by simp [Follows])
  rw [List.append_nil] at read
  rw [read?]
  simp only [read, Option.bind_eq_bind, Option.bind_some]
  rfl

/-- **The text of a value is read as the value with its objects sorted.** -/
theorem read?_write {value : Json} (proper : Proper value) :
    read? value.write = some value.sorted := read?_of_reads proper.reads

end Json

end TypeCatalog
