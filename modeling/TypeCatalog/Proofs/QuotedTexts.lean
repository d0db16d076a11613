import TypeCatalog.Literal.Display
import TypeCatalog.Literal.Spelling
import TypeCatalog.Proofs.Digits

/-! # Displays of texts and bytes

Each character inside of a display is read back from it on its own, whether it stands for itself or
is escaped, and none of them looks like the closing quote. So a display tells its text and where it
ends (`TypeCatalog.Text.display_append_inj`, `TypeCatalog.Text.displayBytes_append_inj`).
-/

namespace TypeCatalog.Text

open Literal (readEscape?)

/-- The codes that the first character or escape of a text stands for, and what follows it. -/
def readUnit? (isBytes : Bool) : List Char → Option (List Nat × List Char)
  | '\\' :: rest => readEscape? isBytes rest
  | c :: rest => some ([c.toNat], rest)
  | [] => none

theorem readUnit?_of_ne {isBytes : Bool} {c : Char} (other : c ≠ '\\') (rest : List Char) :
    readUnit? isBytes (c :: rest) = some ([c.toNat], rest) := by
  simp [readUnit?]

/-- The quotes of displays. -/
def IsQuote (quote : Char) : Prop := quote = '\'' ∨ quote = '"'

theorem isQuote_quoteFor (characters : List Char) : IsQuote (quoteFor characters) := by
  rw [quoteFor]
  split
  · exact .inr rfl
  · exact .inl rfl

theorem IsQuote.ne_backslash {quote : Char} (isQuote : IsQuote quote) : quote ≠ '\\' := by
  rcases isQuote with rfl | rfl <;> decide

/-! ## Characters on their own -/

variable {quote : Char} {isBytes : Bool}

theorem readUnit?_shortEscape (isQuote : IsQuote quote) {c : Char} {escape : List Char}
    (escaped : shortEscape? quote c = some escape) (rest : List Char) :
    readUnit? isBytes (escape ++ rest) = some ([c.toNat], rest) := by
  unfold shortEscape? at escaped
  split_ifs at escaped with special newline carriageReturn tab
  · obtain rfl := Option.some.inj escaped
    rcases special with rfl | rfl
    · rcases isQuote with rfl | rfl <;> rfl
    · rfl
  all_goals
    obtain rfl := Option.some.inj escaped
    subst c
    rfl

theorem ne_backslash_of_shortEscape? {c : Char} (plain : shortEscape? quote c = none) :
    c ≠ '\\' := by
  rintro rfl
  simp [shortEscape?] at plain

theorem readUnit?_codeEscape_byte {code : Nat} (fits : code < 256) (rest : List Char) :
    readUnit? isBytes (codeEscape code ++ rest) = some ([code], rest) := by
  have read := takeHex?_hexText (by decide : 0 < 2) fits rest
  rw [codeEscape, if_pos fits]
  simp [readUnit?, readEscape?, read]

theorem readUnit?_codeEscape {code : Nat} (fits : code < 16 ^ 8) (rest : List Char) :
    readUnit? false (codeEscape code ++ rest) = some ([code], rest) := by
  by_cases byte : code < 0x100
  · exact readUnit?_codeEscape_byte byte rest
  · by_cases short : code < 0x10000
    · have read := takeHex?_hexText (by decide : 0 < 4) short rest
      rw [codeEscape, if_neg byte, if_pos short]
      simp [readUnit?, readEscape?, read, Literal.simpleEscape?, isOctalDigit]
    · have read := takeHex?_hexText (by decide : 0 < 8) fits rest
      rw [codeEscape, if_neg byte, if_neg short]
      simp [readUnit?, readEscape?, read, Literal.simpleEscape?, isOctalDigit]

theorem code_lt (c : Char) : c.toNat < 16 ^ 8 := by
  have valid := c.valid
  simp only [UInt32.isValidChar, Nat.isValidChar] at valid
  change c.val.toNat < _
  omega

/-- A character is read back from the display of a text. -/
theorem readUnit?_displayChar (isQuote : IsQuote quote) (c : Char) (rest : List Char) :
    readUnit? false (displayChar quote c ++ rest) = some ([c.toNat], rest) := by
  unfold displayChar
  cases escaped : shortEscape? quote c with
  | some escape => exact readUnit?_shortEscape isQuote escaped rest
  | none =>
      by_cases printable : isPrintable c = true
      · simp only [printable, if_true]
        exact readUnit?_of_ne (ne_backslash_of_shortEscape? escaped) rest
      · simp only [printable]
        exact readUnit?_codeEscape (code_lt c) rest

/-- A byte is read back from the display of bytes. -/
theorem readUnit?_displayByte (isQuote : IsQuote quote) (byte : UInt8) (rest : List Char) :
    readUnit? true (displayByte quote byte ++ rest) = some ([byte.toNat], rest) := by
  have small : byte.toNat < 256 := byte.toNat_lt
  have valid : byte.toNat.isValidChar := .inl (by omega)
  have code : (Char.ofNat byte.toNat).toNat = byte.toNat := by
    rw [Char.ofNat, dif_pos valid]
    rfl
  simp only [displayByte]
  cases escaped : shortEscape? quote (Char.ofNat byte.toNat) with
  | some escape => simpa only [code] using readUnit?_shortEscape isQuote escaped rest
  | none =>
      by_cases printable : 32 ≤ byte.toNat ∧ byte.toNat < 127
      · simp only [printable, and_self, if_true]
        exact (readUnit?_of_ne (ne_backslash_of_shortEscape? escaped) rest).trans (by rw [code])
      · simp only [printable, if_false]
        exact readUnit?_codeEscape_byte small rest

/-! ## Texts up to their closing quote -/

section

variable {α : Type} {shown : α → List Char}

/-- What is shown item by item is told, up to a character that shows no item. -/
theorem flatMap_append_inj {stop : Char}
    (inj : ∀ left right s t, shown left ++ s = shown right ++ t → left = right ∧ s = t)
    (goesOn : ∀ item s t, shown item ++ s ≠ stop :: t) {lefts rights : List α} {s t : List Char}
    (same : lefts.flatMap shown ++ stop :: s = rights.flatMap shown ++ stop :: t) :
    lefts = rights ∧ s = t := by
  induction lefts generalizing rights with
  | nil =>
      cases rights with
      | nil => exact ⟨rfl, (List.cons.inj same).2⟩
      | cons right rights =>
          rw [List.flatMap_cons, List.append_assoc] at same
          exact absurd same.symm (goesOn _ _ _)
  | cons left lefts ih =>
      cases rights with
      | nil =>
          rw [List.flatMap_cons, List.append_assoc] at same
          exact absurd same (goesOn _ _ _)
      | cons right rights =>
          rw [List.flatMap_cons, List.flatMap_cons, List.append_assoc, List.append_assoc] at same
          obtain ⟨rfl, rest⟩ := inj _ _ _ _ same
          obtain ⟨rfl, ends⟩ := ih rest
          exact ⟨rfl, ends⟩

end

theorem displayChar_append_inj (isQuote : IsQuote quote) (left right : Char) (s t : List Char)
    (same : displayChar quote left ++ s = displayChar quote right ++ t) : left = right ∧ s = t := by
  have read := readUnit?_displayChar isQuote left s
  rw [same, readUnit?_displayChar isQuote right t] at read
  simp only [Option.some.injEq, Prod.mk.injEq, List.cons.injEq, and_true] at read
  exact ⟨(Char.toNat_inj.mp read.1).symm, read.2.symm⟩

theorem displayChar_append_ne (isQuote : IsQuote quote) (c : Char) (s t : List Char) :
    displayChar quote c ++ s ≠ quote :: t := by
  intro same
  have read := readUnit?_displayChar isQuote c s
  rw [same, readUnit?_of_ne isQuote.ne_backslash] at read
  simp only [Option.some.injEq, Prod.mk.injEq, List.cons.injEq, and_true] at read
  -- only the quote itself could be read, and it is escaped
  rw [← Char.toNat_inj.mp read.1] at same
  simp [displayChar, shortEscape?, isQuote.ne_backslash.symm] at same

theorem displayByte_append_inj (isQuote : IsQuote quote) (left right : UInt8) (s t : List Char)
    (same : displayByte quote left ++ s = displayByte quote right ++ t) : left = right ∧ s = t := by
  have read := readUnit?_displayByte isQuote left s
  rw [same, readUnit?_displayByte isQuote right t] at read
  simp only [Option.some.injEq, Prod.mk.injEq, List.cons.injEq, and_true] at read
  exact ⟨(UInt8.toNat_inj.mp read.1).symm, read.2.symm⟩

theorem displayByte_append_ne (isQuote : IsQuote quote) (byte : UInt8) (s t : List Char) :
    displayByte quote byte ++ s ≠ quote :: t := by
  intro same
  have read := readUnit?_displayByte isQuote byte s
  rw [same, readUnit?_of_ne isQuote.ne_backslash] at read
  simp only [Option.some.injEq, Prod.mk.injEq, List.cons.injEq, and_true] at read
  have isCode : Char.ofNat byte.toNat = quote := by rw [← read.1, Char.ofNat_toNat]
  simp [displayByte, shortEscape?, isCode, isQuote.ne_backslash.symm] at same

theorem toList_display (text : String) : (display text).toList =
    quoteFor text.toList :: (text.toList.flatMap (displayChar (quoteFor text.toList)) ++
      [quoteFor text.toList]) := by
  rw [display, String.toList_ofList, List.cons_append]

/-- A text is told by its display, whatever follows it. -/
theorem display_append_inj {left right : String} {s t : List Char}
    (same : (display left).toList ++ s = (display right).toList ++ t) : left = right ∧ s = t := by
  rw [toList_display, toList_display, List.cons_append, List.cons_append, List.cons.injEq,
    List.append_assoc, List.append_assoc] at same
  obtain ⟨quotes, rest⟩ := same
  rw [quotes] at rest
  have isQuote := isQuote_quoteFor right.toList
  obtain ⟨characters, ends⟩ := flatMap_append_inj (displayChar_append_inj isQuote)
    (displayChar_append_ne isQuote) rest
  exact ⟨String.toList_inj.mp characters, ends⟩

theorem toList_displayBytes (bytes : List UInt8) : (displayBytes bytes).toList =
    let quote := quoteFor (bytes.map fun byte => Char.ofNat byte.toNat)
    'b' :: quote :: (bytes.flatMap (displayByte quote) ++ [quote]) := by
  rw [displayBytes, String.toList_ofList, List.cons_append, List.cons_append]

/-- Bytes are told by their display, whatever follows it. -/
theorem displayBytes_append_inj {left right : List UInt8} {s t : List Char}
    (same : (displayBytes left).toList ++ s = (displayBytes right).toList ++ t) :
    left = right ∧ s = t := by
  simp only [toList_displayBytes, List.cons_append, List.cons.injEq, true_and,
    List.append_assoc] at same
  obtain ⟨quotes, rest⟩ := same
  rw [quotes] at rest
  have isQuote := isQuote_quoteFor (right.map fun byte => Char.ofNat byte.toNat)
  exact flatMap_append_inj (displayByte_append_inj isQuote) (displayByte_append_ne isQuote) rest

end TypeCatalog.Text
