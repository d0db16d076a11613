import TypeCatalog.Proofs.FileWrites
import TypeCatalog.Proofs.Names
import TypeCatalog.Proofs.SameValues
import TypeCatalog.Proofs.StandardJson

/-! # Lines of records

The text of a value has no line ends (`TypeCatalog.Json.visible_write`), so the lines of a file of
records are the texts of its records (`TypeCatalog.splitAt_linesOf`). Every value without repeated
keys is read back from its text up to the order of members and the bits of what is no number
(`TypeCatalog.Json.read?_write_keyed`), and so are the records from the lines of their file
(`TypeCatalog.emitted_lines_are_read_back`).
-/

namespace TypeCatalog

namespace Json

open Grammar

/-! ## Values on one line -/

/-- A character that no control character is above. -/
theorem visible_of_le {least c : Char} (above : 0x20 ≤ least.toNat) (order : least ≤ c) :
    0x20 ≤ c.toNat :=
  above.trans (UInt32.le_iff_toNat_le.mp order)

theorem visible_of_isNumeral {c : Char} (numeral : IsNumeral c) : 0x20 ≤ c.toNat := by
  rcases numeral with digit | sign
  · exact @visible_of_le '0' c (by decide) (of_decide_eq_true (Bool.and_eq_true_iff.mp digit).1)
  · have signs : ∀ sign ∈ ['-', '+', '.', 'e', 'E'], 0x20 ≤ sign.toNat := by simp
    exact signs c sign

theorem visible_of_isHexDigit {c : Char} (hex : IsHexDigit c) : 0x20 ≤ c.toNat := by
  rcases hex with digit | small | large
  · exact visible_of_le (by decide) digit.1
  · exact visible_of_le (by decide) small.1
  · exact visible_of_le (by decide) large.1

theorem Grammar.Characters.visible {text : List Char} (characters : Characters text) :
    ∀ c ∈ text, 0x20 ≤ c.toNat := by
  induction characters with
  | nil => exact List.forall_mem_nil _
  | cons first _ ih =>
      refine List.forall_mem_append.mpr ⟨?_, ih⟩
      cases first with
      | unescaped visible _ _ => simpa using visible
      | short known =>
          have letters : ∀ letter ∈ ['"', '\\', '/', 'b', 'f', 'n', 'r', 't'],
              0x20 ≤ letter.toNat := by simp
          simpa using letters _ known
      | unit _ hex => simpa using fun c member => visible_of_isHexDigit (hex c member)

theorem Grammar.Quoted.visible {text : List Char} (quoted : Quoted text) :
    ∀ c ∈ text, 0x20 ≤ c.toNat := by
  obtain ⟨characters⟩ := quoted
  rw [List.forall_mem_cons, List.forall_mem_append]
  exact ⟨by decide, characters.visible, by simp⟩

/-- Listed texts without control characters. -/
theorem visible_listed {α : Type} {text : α → String} {items : List α}
    (each : ∀ item ∈ items, ∀ c ∈ (text item).toList, 0x20 ≤ c.toNat) :
    ∀ c ∈ (", ".intercalate (items.map text)).toList, 0x20 ≤ c.toNat := by
  induction items with
  | nil => simp
  | cons item items ih =>
      have first := each item List.mem_cons_self
      have others := ih fun other member => each other (List.mem_cons_of_mem _ member)
      cases items with
      | nil => rwa [List.map_singleton, toList_listed_single]
      | cons next items =>
          rw [List.map_cons, List.map_cons, toList_listed_more, ← List.map_cons,
            List.forall_mem_append, List.forall_mem_cons, List.forall_mem_cons]
          exact ⟨first, by decide, by decide, others⟩

/-- The text of a value has no control characters. -/
theorem visible_write (value : Json) : ∀ c ∈ value.write.toList, 0x20 ≤ c.toNat := by
  induction value using induct with
  | null => simp [write]
  | bool value => cases value <;> simp [write]
  | int value =>
      exact fun c member => visible_of_isNumeral ((number_write_int value).isNumeral c member)
  | float value =>
      by_cases finite : value.isFinite = true
      · exact fun c member =>
          visible_of_isNumeral ((number_write_float finite).isNumeral c member)
      · have words : ∀ word ∈ ["NaN", "Infinity", "-Infinity"],
            ∀ c ∈ word.toList, 0x20 ≤ c.toNat := by simp
        exact words _ (write_mem_words finite)
  | string text => exact (quoted_quote text).visible
  | array items each =>
      rw [toList_write_array, List.forall_mem_cons, List.forall_mem_append]
      exact ⟨by decide, visible_listed each, by simp⟩
  | object members each =>
      have member : ∀ entry ∈ sortMembers members,
          ∀ c ∈ (writeMember entry).toList, 0x20 ≤ c.toNat := by
        intro entry listed
        have name := (quoted_quote entry.1).visible
        have value := each entry ((sortMembers_perm members).mem_iff.mp listed)
        simp only [writeMember, String.toList_append, List.forall_mem_append]
        exact ⟨⟨name, by simp⟩, value⟩
      rw [toList_write_object, List.forall_mem_cons, List.forall_mem_append]
      exact ⟨by decide, visible_listed member, by simp⟩

theorem lineFeed_notMem_write (value : Json) : '\n' ∉ value.write.toList := by
  intro member
  exact absurd (visible_write value '\n' member) (by decide)

/-! ## Values that come back -/

/-- Values in which no object has a repeated key. -/
inductive Keyed : Json → Prop
  | null : Keyed .null
  | bool (value : Bool) : Keyed (.bool value)
  | int (value : Int) : Keyed (.int value)
  | float (value : Binary64) : Keyed (.float value)
  | string (value : String) : Keyed (.string value)
  | array {items : List Json} (each : ∀ item ∈ items, Keyed item) : Keyed (.array items)
  | object {members : List (String × Json)} (distinct : (members.map Prod.fst).Nodup)
      (each : ∀ member ∈ members, Keyed member.2) : Keyed (.object members)

/-- Being the same value up to the bits of what is no number. Objects are compared as maps. -/
inductive Alike : Json → Json → Prop
  | null : Alike .null .null
  | bool (value : Bool) : Alike (.bool value) (.bool value)
  | int (value : Int) : Alike (.int value) (.int value)
  | float (value : Binary64) : Alike (.float value) (.float value)
  | undefined {left right : Binary64} (first : left.isNotANumber = true)
      (second : right.isNotANumber = true) : Alike (.float left) (.float right)
  | string (value : String) : Alike (.string value) (.string value)
  | array {left right : List Json} (items : List.Forall₂ Alike left right) :
      Alike (.array left) (.array right)
  | object {left right : List (String × Json)}
      (members : ∀ key,
        Option.Rel Alike (member? (.object left) key) (member? (.object right) key)) :
      Alike (.object left) (.object right)

mutual

/-- A value in which what is no number is the one that is read. -/
def canonical : Json → Json
  | .float value => .float (if value.isNotANumber then .notANumber else value)
  | .array items => .array (canonicalItems items)
  | .object members => .object (canonicalMembers members)
  | value => value

def canonicalItems : List Json → List Json
  | [] => []
  | item :: rest => canonical item :: canonicalItems rest

def canonicalMembers : List (String × Json) → List (String × Json)
  | [] => []
  | (key, value) :: rest => (key, canonical value) :: canonicalMembers rest

end

theorem canonicalItems_eq_map (items : List Json) :
    canonicalItems items = items.map canonical := by
  induction items with
  | nil => rfl
  | cons item rest ih => rw [canonicalItems, ih, List.map_cons]

theorem canonicalMembers_eq_map (members : List (String × Json)) :
    canonicalMembers members = members.map fun entry => (entry.1, entry.2.canonical) := by
  induction members with
  | nil => rfl
  | cons entry rest ih => rw [canonicalMembers, ih, List.map_cons]

theorem write_canonical (value : Json) : value.canonical.write = value.write := by
  induction value using induct with
  | float value =>
      rw [canonical]
      split
      · rename_i undefined
        rw [write_notANumber undefined, write_notANumber (by decide)]
      · rfl
  | array items each =>
      have same : (items.map canonical).map write = items.map write := by
        rw [List.map_map]
        exact List.map_congr_left each
      rw [canonical, canonicalItems_eq_map, write, write, writeItems_eq_map, writeItems_eq_map,
        same]
  | object members each =>
      have same : writeMembers (members.map fun entry => (entry.1, entry.2.canonical)) =
          writeMembers members := by
        rw [writeMembers_eq_map, writeMembers_eq_map, List.map_map]
        exact List.map_congr_left fun entry listed => congrArg (entry.1, ·) (each entry listed)
      rw [canonical, canonicalMembers_eq_map, write, write, same]
  | _ => rfl

theorem Keyed.reads {value : Json} (keyed : Keyed value) : Reads value.canonical := by
  induction keyed with
  | null => exact Proper.null.reads
  | bool value => exact (Proper.bool value).reads
  | int value => exact (Proper.int value).reads
  | string value => exact (Proper.string value).reads
  | float value =>
      rw [canonical]
      split
      · exact reads_of_readScalar? rfl fun rest _ => by rfl
      · rename_i isNumber
        exact (Proper.float (eq_false_of_ne_true isNumber)).reads
  | array _ reads =>
      rw [canonical, canonicalItems_eq_map]
      exact reads_array (List.forall_mem_map.mpr reads)
  | object distinct _ reads =>
      rw [canonical, canonicalMembers_eq_map]
      refine reads_object ?_ (List.forall_mem_map.mpr reads)
      rw [List.map_map]
      exact distinct

theorem alike_sorted_canonical {value : Json} (keyed : Keyed value) :
    Alike value.canonical.sorted value := by
  induction keyed with
  | null => exact .null
  | bool value => exact .bool value
  | int value => exact .int value
  | string value => exact .string value
  | float value =>
      rw [canonical]
      split
      · rename_i undefined
        exact .undefined (by decide) undefined
      · exact .float value
  | array _ alike =>
      rw [canonical, canonicalItems_eq_map, sorted, sortedItems_eq_map, List.map_map]
      exact .array (List.forall₂_map_left_iff.mpr (List.forall₂_same.mpr alike))
  | @object members distinct _ alike =>
      have keys : ((members.map fun entry => (entry.1, entry.2.canonical)).map Prod.fst).Nodup := by
        rw [List.map_map]
        exact distinct
      rw [canonical, canonicalMembers_eq_map, sorted]
      constructor
      intro key
      rw [← sorted, member?_sorted keys, member?_of_perm (List.Perm.refl _) distinct,
        lookup_map_values, Option.map_map]
      cases found : members.lookup key with
      | none => exact Option.Rel.none
      | some value => exact Option.Rel.some (alike _ (mem_of_lookup found))

/-- A value without repeated keys is read back from its text. -/
theorem read?_write_keyed {value : Json} (keyed : Keyed value) :
    ∃ copy, read? value.write = some copy ∧ Alike copy value := by
  have read := read?_of_reads keyed.reads
  rw [write_canonical] at read
  exact ⟨_, read, alike_sorted_canonical keyed⟩

end Json

/-! ## Lines of a file -/

/-- The lines of a file of records are the texts of the records; nothing stands behind the last
line end. -/
theorem splitAt_linesOf (records : List Json) :
    Text.splitAt '\n' (linesOf records) = records.map Json.write ++ [""] := by
  induction records with
  | nil => rfl
  | cons record rest ih =>
      have joined : linesOf (record :: rest) = record.write ++ "\n" ++ linesOf rest := by
        rw [linesOf, List.map_cons, String.join_cons]
        rfl
      rw [joined, Text.splitAt_append rfl,
        Text.splitAt_of_notMem (Json.lineFeed_notMem_write record), ih]
      rfl

section

variable {locked : List String → Bool} {root : FileNode} {current : List String}

/-- **Written records are read back from their lines.** A file of records holds one line for each
record, which is not empty and behind which the next line stands or nothing, and each line is read
as its record: a value without repeated keys, at any depth and with any characters and numbers. -/
theorem emitted_lines_are_read_back (inside : root.standing current = .directory) (out : Path)
    {records : List Json} (keyed : ∀ record ∈ records, record.Keyed) (manifest : Manifest)
    (complete : (emit locked root current out records manifest).complete = true) :
    ∃ text lines,
      (emit locked root current out records manifest).root.standing
        (out.resolve current ++ [recordsFile]) = .file text.toUTF8 ∧
      Text.splitAt '\n' text = lines ++ [""] ∧
      List.Forall₂ (fun line record =>
        line ≠ "" ∧ ∃ copy, Json.read? line = some copy ∧ copy.Alike record) lines records := by
  obtain ⟨recordsWritten, -⟩ := (emission_emit inside out records manifest).of_complete complete
  refine ⟨linesOf records, records.map Json.write, recordsWritten, splitAt_linesOf records, ?_⟩
  rw [List.forall₂_map_left_iff, List.forall₂_same]
  intro record listed
  obtain ⟨copy, read, alike⟩ := Json.read?_write_keyed (keyed record listed)
  refine ⟨fun empty => ?_, copy, read, alike⟩
  have nothing : Json.read? "" = none := rfl
  rw [empty, nothing] at read
  contradiction

end

namespace Sample

/-- Records with nested values, keys out of order, characters that are escaped, and numbers that
are not finite. -/
def records : List Json :=
  [.object [("name", .string "a\n\"é\" 😀"), ("items", .array [.float .notANumber, .int (-7)])],
    .object [("z", .null), ("a", .object [("b", .array [.float (.infinity true), .bool true])])]]

def manifest : Manifest := ⟨"p", "2024-01-01T00:00:00+00:00", 2⟩

end Sample

/-- The sample is written to a directory that is made for it, and read back. -/
theorem sample_lines_are_read_back :
    (FileNode.directory []).standing [] = .directory ∧
      (∀ record ∈ Sample.records, record.Keyed) ∧
      (emit (fun _ => false) (.directory []) [] ⟨"", ["build"]⟩ Sample.records
        Sample.manifest).complete = true ∧
      ∃ text lines,
        (emit (fun _ => false) (.directory []) [] ⟨"", ["build"]⟩ Sample.records
          Sample.manifest).root.standing ["build", "types.jsonl"] = .file text.toUTF8 ∧
        Text.splitAt '\n' text = lines ++ [""] ∧
        List.Forall₂ (fun line record =>
          line ≠ "" ∧ ∃ copy, Json.read? line = some copy ∧ copy.Alike record) lines
            Sample.records := by
  have keyed : ∀ record ∈ Sample.records, record.Keyed := by
    have items : (Json.array [.float .notANumber, .int (-7)]).Keyed :=
      .array (by simp [Json.Keyed.float, Json.Keyed.int])
    have last : (Json.object [("b", .array [.float (.infinity true), .bool true])]).Keyed :=
      .object (by decide) (by simp [Json.Keyed.array, Json.Keyed.float, Json.Keyed.bool])
    simp only [Sample.records, List.forall_mem_cons]
    exact ⟨.object (by decide) (by simp [Json.Keyed.string, items]),
      .object (by decide) (by simp [Json.Keyed.null, last]), List.forall_mem_nil _⟩
  have complete : (emit (fun _ => false) (.directory []) [] ⟨"", ["build"]⟩ Sample.records
      Sample.manifest).complete = true := by
    decide
  exact ⟨rfl, keyed, complete, emitted_lines_are_read_back rfl ⟨"", ["build"]⟩ keyed
    Sample.manifest complete⟩

end TypeCatalog
