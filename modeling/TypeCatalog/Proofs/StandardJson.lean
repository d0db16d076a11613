import TypeCatalog.Proofs.JsonText

/-! # The standard grammar of JSON

The rules of the standard grammar are relations on lists of characters, from the parts of a number
(`TypeCatalog.Json.Grammar.Number`) to whole texts (`TypeCatalog.Json.Grammar.Document`). The text
of a value is derived by them exactly when all numbers of the value are finite
(`TypeCatalog.Json.isStandard_write_iff`): every other text that is written is one of the grammar,
and the words for numbers that are not finite have letters that the grammar has only in quotes
(`TypeCatalog.Json.Counted`).
-/

namespace TypeCatalog

namespace Json

namespace Grammar

/-! ## Numbers -/

/-- `1*DIGIT`. -/
structure Digits (text : List Char) : Prop where
  nonempty : text ≠ []
  all : ∀ c ∈ text, c.isDigit = true

/-- `int = zero / ( digit1-9 *DIGIT )`. -/
inductive Integral : List Char → Prop
  | zero : Integral ['0']
  | positive {leading : Char} {digits : List Char} (isDigit : leading.isDigit = true)
      (nonzero : leading ≠ '0') (all : ∀ c ∈ digits, c.isDigit = true) :
      Integral (leading :: digits)

/-- `[ frac ]`, where `frac = decimal-point 1*DIGIT`. -/
inductive Fraction : List Char → Prop
  | none : Fraction []
  | point {digits : List Char} (behind : Digits digits) : Fraction ('.' :: digits)

/-- `[ exp ]`, where `exp = e [ minus / plus ] 1*DIGIT`. -/
inductive Exponent : List Char → Prop
  | none : Exponent []
  | mark {letter : Char} {sign digits : List Char} (isMark : letter ∈ ['e', 'E'])
      (isSign : sign ∈ [[], ['-'], ['+']]) (behind : Digits digits) :
      Exponent (letter :: (sign ++ digits))

/-- `number = [ minus ] int [ frac ] [ exp ]`. -/
inductive Number : List Char → Prop
  | parts {sign whole fraction exponent : List Char} (isSign : sign ∈ [[], ['-']])
      (integral : Integral whole) (behind : Fraction fraction) (scaled : Exponent exponent) :
      Number (sign ++ (whole ++ (fraction ++ exponent)))

/-! ## Strings -/

/-- `HEXDIG`, in either case. -/
def IsHexDigit (c : Char) : Prop :=
  ('0' ≤ c ∧ c ≤ '9') ∨ ('a' ≤ c ∧ c ≤ 'f') ∨ ('A' ≤ c ∧ c ≤ 'F')

/-- `char`: `unescaped = %x20-21 / %x23-5B / %x5D-10FFFF`, or an escape of one letter or of
`4HEXDIG`. -/
inductive Character : List Char → Prop
  | unescaped {c : Char} (visible : 0x20 ≤ c.toNat) (notQuote : c ≠ '"') (notEscape : c ≠ '\\') :
      Character [c]
  | short {letter : Char} (known : letter ∈ ['"', '\\', '/', 'b', 'f', 'n', 'r', 't']) :
      Character ['\\', letter]
  | unit {digits : List Char} (four : digits.length = 4) (hex : ∀ c ∈ digits, IsHexDigit c) :
      Character ('\\' :: 'u' :: digits)

/-- `*char`. -/
inductive Characters : List Char → Prop
  | nil : Characters []
  | cons {front behind : List Char} (first : Character front) (more : Characters behind) :
      Characters (front ++ behind)

/-- `string = quotation-mark *char quotation-mark`. -/
inductive Quoted : List Char → Prop
  | quoted {text : List Char} (characters : Characters text) : Quoted ('"' :: (text ++ ['"']))

/-! ## Values -/

/-- `ws = *( %x20 / %x09 / %x0A / %x0D )`. -/
def Blanks (text : List Char) : Prop := ∀ c ∈ text, c ∈ [' ', '\t', '\n', '\r']

/-- A structural character: `ws` stands on both of its sides. -/
inductive Structural (c : Char) : List Char → Prop
  | between {front behind : List Char} (before : Blanks front) (after : Blanks behind) :
      Structural c (front ++ c :: behind)

mutual

/-- `value = false / null / true / object / array / number / string`. -/
inductive Value : List Char → Prop
  | false : Value "false".toList
  | null : Value "null".toList
  | true : Value "true".toList
  | number {text : List Char} (number : Number text) : Value text
  | string {text : List Char} (quoted : Quoted text) : Value text
  | emptyArray {opening closing : List Char} (opens : Structural '[' opening)
      (closes : Structural ']' closing) : Value (opening ++ closing)
  | array {opening items closing : List Char} (opens : Structural '[' opening)
      (listed : Items items) (closes : Structural ']' closing) :
      Value (opening ++ (items ++ closing))
  | emptyObject {opening closing : List Char} (opens : Structural '\x7b' opening)
      (closes : Structural '\x7d' closing) : Value (opening ++ closing)
  | object {opening members closing : List Char} (opens : Structural '\x7b' opening)
      (listed : Members members) (closes : Structural '\x7d' closing) :
      Value (opening ++ (members ++ closing))

/-- `value *( value-separator value )`. -/
inductive Items : List Char → Prop
  | last {text : List Char} (value : Value text) : Items text
  | more {text comma rest : List Char} (value : Value text) (separates : Structural ',' comma)
      (others : Items rest) : Items (text ++ (comma ++ rest))

/-- `member *( value-separator member )`, where `member = string name-separator value`. -/
inductive Members : List Char → Prop
  | last {key colon text : List Char} (name : Quoted key) (separates : Structural ':' colon)
      (value : Value text) : Members (key ++ (colon ++ text))
  | more {key colon text comma rest : List Char} (name : Quoted key)
      (separates : Structural ':' colon) (value : Value text) (goesOn : Structural ',' comma)
      (others : Members rest) : Members (key ++ (colon ++ (text ++ (comma ++ rest))))

end

/-- `JSON-text = ws value ws`. -/
inductive Document : List Char → Prop
  | between {front text behind : List Char} (before : Blanks front) (value : Value text)
      (after : Blanks behind) : Document (front ++ (text ++ behind))

end Grammar

/-- The texts of the standard grammar. -/
def IsStandard (text : String) : Prop := Grammar.Document text.toList

/-- Values without infinite numbers and without values that are no numbers. -/
inductive IsFinite : Json → Prop
  | null : IsFinite .null
  | bool (value : Bool) : IsFinite (.bool value)
  | int (value : Int) : IsFinite (.int value)
  | float {value : Binary64} (finite : value.isFinite = true) : IsFinite (.float value)
  | string (value : String) : IsFinite (.string value)
  | array {items : List Json} (each : ∀ item ∈ items, IsFinite item) : IsFinite (.array items)
  | object {members : List (String × Json)} (each : ∀ member ∈ members, IsFinite member.2) :
      IsFinite (.object members)

open Grammar

/-! ## Numbers that are read

The reader takes no number that the grammar does not have, so the text of a finite number is one of
the grammar, as it is read back. -/

theorem digits_takeWhile {text digits : List Char}
    (taken : text.takeWhile Char.isDigit = digits) (nonempty : digits ≠ []) : Digits digits := by
  subst taken
  exact ⟨nonempty, fun c member => List.mem_takeWhile_imp member⟩

theorem fraction_of_readFraction (text : List Char) :
    ∃ part, Fraction part ∧ text = part ++ (readFraction text).2 := by
  unfold readFraction
  split
  · rename_i rest
    split
    · exact ⟨[], .none, rfl⟩
    · rename_i nonempty
      refine ⟨'.' :: rest.takeWhile Char.isDigit, .point (digits_takeWhile rfl nonempty), ?_⟩
      rw [List.cons_append, List.takeWhile_append_dropWhile]
  · exact ⟨[], .none, rfl⟩

/-- Behind its mark and sign an exponent is taken with its digits, or not at all. -/
theorem exponent_of_digits {letter : Char} {sign rest : List Char} (isMark : letter ∈ ['e', 'E'])
    (isSign : sign ∈ [[], ['-'], ['+']]) (value : List Char → Option Int) :
    ∃ part, Exponent part ∧ letter :: (sign ++ rest) = part ++
      (match rest.takeWhile Char.isDigit with
      | [] => ((none : Option Int), letter :: (sign ++ rest))
      | digits => (value digits, rest.dropWhile Char.isDigit)).2 := by
  split
  · exact ⟨[], .none, rfl⟩
  · rename_i nonempty
    refine ⟨letter :: (sign ++ rest.takeWhile Char.isDigit),
      .mark isMark isSign (digits_takeWhile rfl nonempty), ?_⟩
    rw [List.cons_append, List.append_assoc, List.takeWhile_append_dropWhile]

theorem exponent_of_readExponent (text : List Char) :
    ∃ part, Exponent part ∧ text = part ++ (readExponent text).2 := by
  unfold readExponent
  split
  · exact exponent_of_digits (by simp) (by simp : ['-'] ∈ _) _
  · exact exponent_of_digits (by simp) (by simp : ['-'] ∈ _) _
  · exact exponent_of_digits (by simp) (by simp : ['+'] ∈ _) _
  · exact exponent_of_digits (by simp) (by simp : ['+'] ∈ _) _
  · exact exponent_of_digits (by simp) (by simp : [] ∈ _) _
  · exact exponent_of_digits (by simp) (by simp : [] ∈ _) _
  · exact ⟨[], .none, rfl⟩

/-- The digits before the point are taken first, then the fraction, then the exponent. -/
theorem integral_of_readMagnitude? {negative : Bool} {text rest : List Char} {value : Json}
    (read : readMagnitude? negative text = some (value, rest)) :
    ∃ whole behind, Integral whole ∧ text = whole ++ behind ∧
      rest = (readExponent (readFraction behind).2).2 := by
  obtain ⟨c, more, rfl, digit⟩ := exists_digit_of_readMagnitude? read
  have left : ∀ {tested : Bool} {first second : Json} {behind : List Char},
      (if tested then some (first, behind) else some (second, behind)) = some (value, rest) →
        rest = behind := by
    intro tested first second behind same
    cases tested <;> simp_all
  by_cases zero : c = '0'
  · subst zero
    exact ⟨['0'], more, .zero, rfl, left read⟩
  · have other : ∀ tail, c :: more = '0' :: tail → False := fun tail same =>
      zero (List.cons.inj same).1
    have taken : (c :: more).takeWhile Char.isDigit = c :: more.takeWhile Char.isDigit :=
      List.takeWhile_cons_of_pos digit
    have split := @List.takeWhile_append_dropWhile _ Char.isDigit more
    have behind : (c :: more).drop (c :: more.takeWhile Char.isDigit).length =
        more.dropWhile Char.isDigit := by
      rw [List.length_cons, List.drop_succ_cons]
      nth_rewrite 2 [← split]
      exact List.drop_left
    simp only [readMagnitude?, taken, behind, List.isEmpty_cons, Bool.false_eq_true, if_false]
      at read
    refine ⟨c :: more.takeWhile Char.isDigit, more.dropWhile Char.isDigit,
      .positive digit zero fun other member => List.mem_takeWhile_imp member, ?_, left read⟩
    rw [List.cons_append, split]

theorem number_of_readMagnitude? {negative : Bool} {text sign : List Char} {value : Json}
    (isSign : sign ∈ [[], ['-']]) (read : readMagnitude? negative text = some (value, [])) :
    Number (sign ++ text) := by
  obtain ⟨whole, behind, integral, rfl, left⟩ := integral_of_readMagnitude? read
  obtain ⟨fraction, isFraction, split⟩ := fraction_of_readFraction behind
  obtain ⟨exponent, isExponent, ends⟩ := exponent_of_readExponent (readFraction behind).2
  rw [← left, List.append_nil] at ends
  rw [split, ends]
  exact .parts isSign integral isFraction isExponent

/-- The values that the words of the reader stand for. -/
def wordValues : List Json :=
  [.null, .bool true, .bool false, .float .notANumber, .float (.infinity false),
    .float (.infinity true)]

/-- What is read without being a word is a number of the grammar. -/
theorem number_of_readScalar? {text : List Char} {value : Json}
    (read : readScalar? text = some (value, [])) (noWord : value ∉ wordValues) : Number text := by
  have skip : ∀ {spelling : String} {other : Json} {more : Option (Json × List Char)},
      other ∈ wordValues →
      ((afterWord? spelling text).map (fun rest => (other, rest)) <|> more) = some (value, []) →
        more = some (value, []) := by
    intro spelling other more known found
    cases taken : afterWord? spelling text with
    | none => simpa [taken] using found
    | some rest =>
        rw [taken] at found
        obtain ⟨rfl, -⟩ := Prod.mk.inj (Option.some.inj found)
        exact absurd known noWord
  -- one word after the other is not what is read
  iterate 6 replace read := skip (by simp [wordValues]) read
  split at read
  · exact number_of_readMagnitude? (by simp : ['-'] ∈ _) read
  · exact number_of_readMagnitude? (by simp : [] ∈ _) read

theorem number_write_int (value : Int) : Number (write (.int value)).toList := by
  have read := @readScalar?_int value [] (by simp [Follows])
  rw [List.append_nil] at read
  exact number_of_readScalar? read (by simp [wordValues])

theorem number_write_float {value : Binary64} (finite : value.isFinite = true) :
    Number (write (.float value)).toList := by
  have isNumber := Binary64.isNotANumber_of_isFinite finite
  have read := @readScalar?_float value [] isNumber (by simp [Follows])
  rw [List.append_nil] at read
  refine number_of_readScalar? read ?_
  have apart : ∀ other : Binary64, other.isFinite = false → value ≠ other := by
    rintro other infinite rfl
    rw [finite] at infinite
    contradiction
  simp [wordValues, apart .notANumber rfl, apart (.infinity false) rfl,
    apart (.infinity true) rfl]

/-! ## Texts that are written -/

theorem isHexDigit_of_mem_hexText {width value : Nat} {c : Char}
    (member : c ∈ Text.hexText width value) : IsHexDigit c := by
  rcases List.mem_append.mp member with padding | digit
  · obtain rfl := List.eq_of_mem_replicate padding
    exact Or.inl (by decide)
  · have isHex := Text.isHexDigit_of_mem_toDigits digit
    unfold Text.isHexDigit Text.hexValue? at isHex
    split_ifs at isHex with isDigit small large
    · simp only [Char.isDigit, Bool.and_eq_true, decide_eq_true_eq] at isDigit
      exact Or.inl isDigit
    · exact Or.inr (Or.inl small)
    · exact Or.inr (Or.inr large)
    · simp at isHex

theorem character_escapeUnit {unit : Nat} (fits : unit < 0x10000) :
    Character (escapeUnit unit) :=
  .unit (Text.length_hexText (by decide) (by omega)) fun _ member =>
    isHexDigit_of_mem_hexText member

/-- A quoted character goes in front of others. -/
theorem characters_escapeChar (c : Char) {rest : List Char} (more : Characters rest) :
    Characters (escapeChar c ++ rest) := by
  have valid : c.toNat.isValidChar := c.valid
  unfold Nat.isValidChar at valid
  have short : ∀ letter ∈ ['"', '\\', '/', 'b', 'f', 'n', 'r', 't'],
      Characters (['\\', letter] ++ rest) := fun letter known => .cons (.short known) more
  unfold escapeChar
  split_ifs with quote backslash newline carriageReturn tab backspace formFeed printable single
  · exact short '"' (by simp)
  · exact short '\\' (by simp)
  · exact short 'n' (by simp)
  · exact short 'r' (by simp)
  · exact short 't' (by simp)
  · exact short 'b' (by simp)
  · exact short 'f' (by simp)
  · exact .cons (.unescaped printable.1 quote backslash) more
  · exact .cons (character_escapeUnit single) more
  · rw [List.append_assoc]
    exact .cons (character_escapeUnit (by omega)) (.cons (character_escapeUnit (by omega)) more)

theorem quoted_quote (text : String) : Quoted (quote text).toList := by
  have characters : Characters (text.toList.flatMap escapeChar) := by
    induction text.toList with
    | nil => exact .nil
    | cons c rest ih => exact characters_escapeChar c ih
  rw [toList_quote]
  exact .quoted characters

/-- A structural character without blanks. -/
theorem structural_single (c : Char) : Structural c [c] :=
  .between (List.forall_mem_nil _) (List.forall_mem_nil _)

/-- A structural character with the blank that is written behind it. -/
theorem structural_blank (c : Char) : Structural c [c, ' '] :=
  .between (List.forall_mem_nil _) (by simp [Blanks])

theorem items_listed {item : Json} {items : List Json}
    (each : ∀ value ∈ item :: items, Value value.write.toList) :
    Items (", ".intercalate ((item :: items).map write)).toList := by
  have first := each item List.mem_cons_self
  induction items generalizing item with
  | nil =>
      rw [List.map_singleton, toList_listed_single]
      exact .last first
  | cons next items ih =>
      rw [List.map_cons, List.map_cons, toList_listed_more, ← List.map_cons]
      have others := ih (fun value member => each value (List.mem_cons_of_mem _ member))
        (each next (by simp))
      exact @Items.more _ [',', ' '] _ first (structural_blank ',') others

theorem members_listed {entry : String × Json} {members : List (String × Json)}
    (each : ∀ member ∈ entry :: members, Value member.2.write.toList) :
    Members (", ".intercalate ((entry :: members).map writeMember)).toList := by
  have spelled : ∀ member : String × Json, (writeMember member).toList =
      (quote member.1).toList ++ ([':', ' '] ++ member.2.write.toList) := by
    intro member
    simp [writeMember]
  have first := each entry List.mem_cons_self
  induction members generalizing entry with
  | nil =>
      rw [List.map_singleton, toList_listed_single, spelled]
      exact .last (quoted_quote entry.1) (structural_blank ':') first
  | cons next members ih =>
      rw [List.map_cons, List.map_cons, toList_listed_more, ← List.map_cons, spelled,
        List.append_assoc, List.append_assoc]
      have others := ih (fun member listed => each member (List.mem_cons_of_mem _ listed))
        (each next (by simp))
      exact @Members.more _ _ _ [',', ' '] _ (quoted_quote entry.1) (structural_blank ':') first
        (structural_blank ',') others

/-- The text of a value with finite numbers alone is one of the grammar. -/
theorem IsFinite.value_write {value : Json} (finite : value.IsFinite) :
    Value value.write.toList := by
  induction finite with
  | null => exact .null
  | bool value =>
      cases value with
      | true => exact .true
      | false => exact .false
  | int value => exact .number (number_write_int value)
  | float finite => exact .number (number_write_float finite)
  | string text => exact .string (quoted_quote text)
  | @array items _ each =>
      rw [toList_write_array]
      cases items with
      | nil => exact .emptyArray (structural_single '[') (structural_single ']')
      | cons item items =>
          exact .array (structural_single '[') (items_listed each) (structural_single ']')
  | @object members _ each =>
      have sorted : ∀ member ∈ sortMembers members, Value member.2.write.toList :=
        fun member listed => each member ((sortMembers_perm members).mem_iff.mp listed)
      rw [toList_write_object]
      generalize sortMembers members = members at sorted
      cases members with
      | nil => exact .emptyObject (structural_single '\x7b') (structural_single '\x7d')
      | cons entry members =>
          exact .object (structural_single '\x7b') (members_listed sorted)
            (structural_single '\x7d')

/-! ## Letters out of quotes -/

/-- The number of letters `I` and `N` that stand out of quotes, in a text that begins inside of
quotes or out of them. -/
def bareLetters : (quoted : Bool) → List Char → Nat
  | _, [] => 0
  | false, c :: rest =>
      if c = '"' then bareLetters true rest
      else (if c ∈ ['I', 'N'] then 1 else 0) + bareLetters false rest
  | true, '\\' :: _ :: rest => bareLetters true rest
  | true, c :: rest => bareLetters (c != '"') rest

/-- Texts after which quotes are closed, with a number of letters that is zero exactly on a
condition. -/
def Counted (text : List Char) (condition : Prop) : Prop :=
  ∃ count, (∀ rest, bareLetters false (text ++ rest) = count + bareLetters false rest) ∧
    (count = 0 ↔ condition)

theorem Counted.append {front behind : List Char} {first second : Prop}
    (before : Counted front first) (after : Counted behind second) :
    Counted (front ++ behind) (first ∧ second) := by
  obtain ⟨left, leftCount, leftZero⟩ := before
  obtain ⟨right, rightCount, rightZero⟩ := after
  refine ⟨left + right, fun rest => ?_, ?_⟩
  · rw [List.append_assoc, leftCount, rightCount, Nat.add_assoc]
  · rw [Nat.add_eq_zero_iff, leftZero, rightZero]

theorem Counted.congr {text : List Char} {first second : Prop} (counted : Counted text first)
    (same : first ↔ second) : Counted text second := by
  obtain ⟨count, counts, zero⟩ := counted
  exact ⟨count, counts, zero.trans same⟩

theorem Counted.join {front behind : List Char} (before : Counted front True)
    (after : Counted behind True) : Counted (front ++ behind) True :=
  (before.append after).congr (by simp)

/-- Two conditions for one text are the same. -/
theorem Counted.iff {text : List Char} {first second : Prop} (left : Counted text first)
    (right : Counted text second) : first ↔ second := by
  obtain ⟨count, counts, zero⟩ := left
  obtain ⟨other, others, otherZero⟩ := right
  have same : count = other := Nat.add_right_cancel ((counts []).symm.trans (others []))
  rw [← zero, ← otherZero, same]

/-- A text without quotes counts its letters. -/
theorem counted_of_bare {text : List Char} (bare : '"' ∉ text) :
    Counted text (∀ c ∈ text, c ∉ ['I', 'N']) := by
  induction text with
  | nil => exact ⟨0, fun rest => (Nat.zero_add _).symm, by simp⟩
  | cons c text ih =>
      rw [List.mem_cons, not_or] at bare
      obtain ⟨notQuote, bare⟩ := bare
      obtain ⟨count, counts, zero⟩ := ih bare
      refine ⟨(if c ∈ ['I', 'N'] then 1 else 0) + count, fun rest => ?_, ?_⟩
      · rw [List.cons_append, bareLetters, if_neg (Ne.symm notQuote), counts, Nat.add_assoc]
      · rw [Nat.add_eq_zero_iff, zero, List.forall_mem_cons]
        split <;> simp [*]

theorem counted_of_plain {text : List Char} (plain : ∀ c ∈ text, c ∉ ['"', 'I', 'N']) :
    Counted text True :=
  (counted_of_bare fun quote => plain '"' quote (by simp)).congr
    (iff_true_intro fun c member letter => plain c member (List.mem_cons_of_mem _ letter))

/-- Inside of quotes, characters that neither end nor escape count for nothing. -/
theorem bareLetters_quoted {text : List Char} (plain : ∀ c ∈ text, c ∉ ['"', '\\'])
    (rest : List Char) : bareLetters true (text ++ rest) = bareLetters true rest := by
  induction text with
  | nil => rfl
  | cons c text ih =>
      have notEnd := plain c List.mem_cons_self
      simp only [List.mem_cons, List.not_mem_nil, or_false, not_or] at notEnd
      have step : bareLetters true (c :: (text ++ rest)) =
          bareLetters (c != '"') (text ++ rest) := by
        rw [bareLetters]
        simp [notEnd.2]
      rw [List.cons_append, step, show (c != '"') = true by simpa using notEnd.1,
        ih fun other member => plain other (List.mem_cons_of_mem _ member)]

theorem plain_of_isHexDigit {c : Char} (hex : IsHexDigit c) : c ∉ ['"', '\\'] := by
  have none : ∀ other ∈ ['"', '\\'], ¬ IsHexDigit other := by
    simp [IsHexDigit]
  exact fun member => none c member hex

theorem Grammar.Characters.bareLetters_eq {text : List Char} (characters : Characters text)
    (rest : List Char) : bareLetters true (text ++ rest) = bareLetters true rest := by
  induction characters with
  | nil => rfl
  | cons first _ ih =>
      rw [List.append_assoc]
      cases first with
      | unescaped _ notQuote notEscape =>
          rw [bareLetters_quoted (by simp [notQuote, notEscape]), ih]
      | short _ => rw [List.cons_append, List.cons_append, List.nil_append, bareLetters, ih]
      | unit _ hex =>
          rw [List.cons_append, List.cons_append, bareLetters,
            bareLetters_quoted fun c member => plain_of_isHexDigit (hex c member), ih]

theorem Grammar.Quoted.counted {text : List Char} (quoted : Quoted text) : Counted text True := by
  obtain ⟨characters⟩ := quoted
  refine ⟨0, fun rest => ?_, by simp⟩
  rw [List.cons_append, bareLetters, if_pos rfl, List.append_assoc, characters.bareLetters_eq,
    Nat.zero_add]
  rfl

/-- The characters of numbers. -/
def IsNumeral (c : Char) : Prop := c.isDigit = true ∨ c ∈ ['-', '+', '.', 'e', 'E']

theorem Grammar.Number.isNumeral {text : List Char} (number : Number text) :
    ∀ c ∈ text, IsNumeral c := by
  obtain ⟨isSign, integral, behind, scaled⟩ := number
  simp only [List.forall_mem_append]
  refine ⟨?_, ?_, ?_, ?_⟩
  · have signs : ∀ sign ∈ [[], ['-']], ∀ c ∈ sign, IsNumeral c := by simp [IsNumeral]
    exact signs _ isSign
  · cases integral with
    | zero => simp [IsNumeral]
    | positive digit _ all =>
        exact List.forall_mem_cons.mpr ⟨Or.inl digit, fun c member => Or.inl (all c member)⟩
  · cases behind with
    | none => exact List.forall_mem_nil _
    | point digits =>
        exact List.forall_mem_cons.mpr
          ⟨Or.inr (by simp), fun c member => Or.inl (digits.all c member)⟩
  · cases scaled with
    | none => exact List.forall_mem_nil _
    | mark isMark isSign digits =>
        have signs : ∀ sign ∈ [[], ['-'], ['+']], ∀ c ∈ sign, IsNumeral c := by simp [IsNumeral]
        have marks : ∀ letter ∈ ['e', 'E'], IsNumeral letter := by simp [IsNumeral]
        exact List.forall_mem_cons.mpr ⟨marks _ isMark, List.forall_mem_append.mpr
          ⟨signs _ isSign, fun c member => Or.inl (digits.all c member)⟩⟩

theorem Grammar.Number.counted {text : List Char} (number : Number text) : Counted text True := by
  refine counted_of_plain fun c member special => ?_
  have none : ∀ other ∈ ['"', 'I', 'N'], ¬ IsNumeral other := by
    simp [IsNumeral]
  exact none c special (number.isNumeral c member)

theorem Grammar.Blanks.counted {text : List Char} (blanks : Blanks text) : Counted text True := by
  refine counted_of_plain fun c member special => ?_
  have none : ∀ other ∈ ['"', 'I', 'N'], other ∉ [' ', '\t', '\n', '\r'] := by simp
  exact none c special (blanks c member)

theorem Grammar.Structural.counted {c : Char} {text : List Char} (structural : Structural c text)
    (plain : c ∉ ['"', 'I', 'N']) : Counted text True := by
  obtain ⟨before, after⟩ := structural
  have single : Counted [c] True := counted_of_plain (by simpa using plain)
  exact before.counted.join (single.join after.counted)

mutual

theorem Grammar.Value.counted : ∀ {text : List Char}, Value text → Counted text True
  | _, .false => counted_of_plain (by simp)
  | _, .null => counted_of_plain (by simp)
  | _, .true => counted_of_plain (by simp)
  | _, .number number => number.counted
  | _, .string quoted => quoted.counted
  | _, .emptyArray opens closes => (opens.counted (by decide)).join (closes.counted (by decide))
  | _, .array opens listed closes =>
      (opens.counted (by decide)).join (listed.counted.join (closes.counted (by decide)))
  | _, .emptyObject opens closes => (opens.counted (by decide)).join (closes.counted (by decide))
  | _, .object opens listed closes =>
      (opens.counted (by decide)).join (listed.counted.join (closes.counted (by decide)))

theorem Grammar.Items.counted : ∀ {text : List Char}, Items text → Counted text True
  | _, .last value => value.counted
  | _, .more value separates others =>
      value.counted.join ((separates.counted (by decide)).join others.counted)

theorem Grammar.Members.counted : ∀ {text : List Char}, Members text → Counted text True
  | _, .last name separates value =>
      name.counted.join ((separates.counted (by decide)).join value.counted)
  | _, .more name separates value goesOn others =>
      name.counted.join ((separates.counted (by decide)).join (value.counted.join
        ((goesOn.counted (by decide)).join others.counted)))

end

theorem Grammar.Document.counted {text : List Char} (document : Document text) :
    Counted text True := by
  obtain ⟨before, value, after⟩ := document
  exact before.counted.join (value.counted.join after.counted)

/-! ## Which texts are standard -/

section

variable {motive : Json → Prop} (null : motive .null) (bool : ∀ value, motive (.bool value))
  (int : ∀ value, motive (.int value)) (float : ∀ value, motive (.float value))
  (string : ∀ value, motive (.string value))
  (array : ∀ items, (∀ item ∈ items, motive item) → motive (.array items))
  (object : ∀ members, (∀ member ∈ members, motive member.2) → motive (.object members))

include null bool int float string array object

/-- Induction on a value, from its items and the values of its members. -/
@[elab_as_elim]
theorem induct : ∀ value, motive value
  | .null => null
  | .bool value => bool value
  | .int value => int value
  | .float value => float value
  | .string value => string value
  | .array items => array items fun item _ => induct item
  | .object members => object members fun member _ => induct member.2
termination_by value => sizeOf value
decreasing_by
  · have smaller := List.sizeOf_lt_of_mem ‹item ∈ items›
    rw [Json.array.sizeOf_spec]
    omega
  · have smaller := List.sizeOf_lt_of_mem ‹member ∈ members›
    obtain ⟨key, value⟩ := member
    rw [Prod.mk.sizeOf_spec] at smaller
    change sizeOf value < _
    rw [Json.object.sizeOf_spec]
    omega

end

/-- Listed texts are counted one by one. -/
theorem counted_listed {α : Type} {text : α → String} {condition : α → Prop} {items : List α}
    (each : ∀ item ∈ items, Counted (text item).toList (condition item)) :
    Counted (", ".intercalate (items.map text)).toList (∀ item ∈ items, condition item) := by
  induction items with
  | nil => exact (counted_of_plain (List.forall_mem_nil _)).congr (by simp)
  | cons item items ih =>
      have first := each item List.mem_cons_self
      have others := ih fun other member => each other (List.mem_cons_of_mem _ member)
      cases items with
      | nil =>
          rw [List.map_singleton, toList_listed_single]
          exact first.congr (by simp)
      | cons next items =>
          have comma : Counted [',', ' '] True := counted_of_plain (by simp)
          rw [List.map_cons, List.map_cons, toList_listed_more, ← List.map_cons]
          exact (first.append (comma.append others)).congr (by simp)

theorem write_notANumber {value : Binary64} (undefined : value.isNotANumber = true) :
    write (.float value) = "NaN" := by
  rw [write, DecimalStyle.text, DecimalStyle.magnitudeText, undefined]
  simp [DecimalStyle.json]

/-- A number that is not finite is written as a word. -/
theorem write_mem_words {value : Binary64} (infinite : ¬ value.isFinite = true) :
    write (.float value) ∈ ["NaN", "Infinity", "-Infinity"] := by
  by_cases undefined : value.isNotANumber = true
  · rw [write_notANumber undefined]
    simp
  · have isInfinite : value.isInfinite = true := by
      simp only [Binary64.isFinite, Binary64.isNotANumber, Binary64.isInfinite,
        decide_eq_true_eq] at infinite undefined ⊢
      omega
    rw [write, DecimalStyle.text, DecimalStyle.magnitudeText, isInfinite]
    cases value.negative <;> simp [DecimalStyle.json, undefined]

theorem counted_write_float (value : Binary64) :
    Counted (write (.float value)).toList (IsFinite (.float value)) := by
  by_cases finite : value.isFinite = true
  · exact (number_write_float finite).counted.congr (by simp [IsFinite.float finite])
  · have isNot : ¬ IsFinite (.float value) := by
      rintro ⟨⟩
      contradiction
    have words : ∀ word ∈ ["NaN", "Infinity", "-Infinity"], '"' ∉ word.toList ∧
        ¬ ∀ c ∈ word.toList, c ∉ ['I', 'N'] := by simp
    obtain ⟨bare, letter⟩ := words _ (write_mem_words finite)
    exact (counted_of_bare bare).congr (iff_of_false letter isNot)

theorem isFinite_array_iff {items : List Json} :
    IsFinite (.array items) ↔ ∀ item ∈ items, IsFinite item := by
  refine ⟨fun finite => ?_, .array⟩
  cases finite with
  | array each => exact each

theorem isFinite_object_iff {members : List (String × Json)} :
    IsFinite (.object members) ↔ ∀ member ∈ members, IsFinite member.2 := by
  refine ⟨fun finite => ?_, .object⟩
  cases finite with
  | object each => exact each

theorem counted_write (value : Json) : Counted value.write.toList value.IsFinite := by
  induction value using induct with
  | null => exact (counted_of_plain (by simp [write])).congr (by simp [IsFinite.null])
  | bool value =>
      cases value with
      | true => exact (counted_of_plain (by simp [write])).congr (by simp [IsFinite.bool])
      | false => exact (counted_of_plain (by simp [write])).congr (by simp [IsFinite.bool])
  | int value => exact (number_write_int value).counted.congr (by simp [IsFinite.int])
  | float value => exact counted_write_float value
  | string value => exact (quoted_quote value).counted.congr (by simp [IsFinite.string])
  | array items each =>
      have opening : Counted ['['] True := counted_of_plain (by simp)
      have closing : Counted [']'] True := counted_of_plain (by simp)
      rw [toList_write_array]
      exact (opening.append ((counted_listed each).append closing)).congr
        (by simp [isFinite_array_iff])
  | object members each =>
      have opening : Counted ['\x7b'] True := counted_of_plain (by simp)
      have closing : Counted ['\x7d'] True := counted_of_plain (by simp)
      have order := sortMembers_perm members
      have member : ∀ entry ∈ sortMembers members,
          Counted (writeMember entry).toList entry.2.IsFinite := by
        intro entry listed
        have colon : Counted [':', ' '] True := counted_of_plain (by simp)
        have value := each entry (order.mem_iff.mp listed)
        have text : (writeMember entry).toList =
            (quote entry.1).toList ++ ([':', ' '] ++ entry.2.write.toList) := by
          simp [writeMember]
        rw [text]
        exact ((quoted_quote entry.1).counted.append (colon.append value)).congr (by simp)
      rw [toList_write_object]
      exact (opening.append ((counted_listed member).append closing)).congr
        (by simp [isFinite_object_iff, order.mem_iff])

/-- **The text of a value is standard exactly when the numbers of the value are finite.** -/
theorem isStandard_write_iff (value : Json) : IsStandard value.write ↔ value.IsFinite := by
  constructor
  · intro standard
    have plain : Counted value.write.toList True := Grammar.Document.counted standard
    exact (plain.iff (counted_write value)).mp trivial
  · intro finite
    have document := Document.between (List.forall_mem_nil _) finite.value_write
      (List.forall_mem_nil _)
    rwa [List.append_nil] at document

end Json

end TypeCatalog
