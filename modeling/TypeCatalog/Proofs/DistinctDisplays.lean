import TypeCatalog.Proofs.JsonText
import TypeCatalog.Proofs.LiteralValues
import TypeCatalog.Proofs.QuotedTexts
import TypeCatalog.Proofs.RealTexts

/-! # Displays of elements

The values that may be elements of a set are told by their displays, also inside of longer texts:
the first character of a display says what kind of display it is, and each kind says where it ends
(`TypeCatalog.Literal.IsKey.told`). So different elements never have the same display
(`TypeCatalog.Literal.IsKey.display_inj`).
-/

namespace TypeCatalog.Literal

open DecimalStyle Text

/-- What may follow a display inside of a display. -/
def Ends (rest : List Char) : Prop := ∀ c ∈ rest.head?, c = ',' ∨ c = ')'

theorem ends_comma (rest : List Char) : Ends (',' :: rest) := by simp [Ends]

theorem ends_bracket (rest : List Char) : Ends (')' :: rest) := by simp [Ends]

theorem Ends.not_isNumeral {rest : List Char} (ends : Ends rest) :
    ∀ c ∈ rest.head?, isNumeral c = false := by
  intro c first
  rcases ends c first with rfl | rfl <;> decide

/-- A display tells its value, whatever follows it inside of a display. -/
def Told (value : Literal) : Prop :=
  ∀ other s t, IsKey other → Ends s → Ends t →
    (display value).toList ++ s = (display other).toList ++ t → value = other ∧ s = t

/-! ## Kinds of displays -/

/-- What the first character of a display says of it. -/
inductive Opening where
  | word
  | numeral
  | quote
  | mark
  | bracket
  deriving DecidableEq

def openingOf (c : Char) : Opening :=
  if isNumeral c then .numeral
  else if c = '\'' ∨ c = '"' then .quote
  else if c = 'b' then .mark
  else if c = '(' then .bracket
  else .word

/-- How the display of an element begins. -/
def opening : Literal → Opening
  | .null | .bool _ | .ellipsis => .word
  | .int _ | .float _ => .numeral
  | .complex real _ => if real = .zero then .numeral else .bracket
  | .string _ => .quote
  | .bytes _ => .mark
  | _ => .bracket

theorem opening_complex_eq_numeral_iff {real imaginary : Binary64} :
    opening (.complex real imaginary) = .numeral ↔ real = .zero := by
  rw [opening]
  split <;> simp_all

/-- Numerals are displayed by characters of numbers only. -/
theorem display_numeral {value : Literal} (key : IsKey value)
    (numeral : opening value = .numeral) :
    (display value).toList ≠ [] ∧ ∀ c ∈ (display value).toList, isNumeral c = true := by
  cases key with
  | int value =>
      refine ⟨fun empty => ?_, fun c member => (isNumeral_of_mem_toString value c member).1⟩
      have read := readScalar?_toString value
      rw [show (toString value).toList = [] from empty] at read
      exact nomatch read
  | float isNumber =>
      refine ⟨fun empty => ?_, fun c member =>
        (isNumeral_of_mem_text isDisplayStyle_plain isNumber c member).1⟩
      rw [display, toList_text_of_isNumber _ isNumber, List.append_eq_nil_iff] at empty
      obtain ⟨c, rest, shown, _⟩ :=
        (isDisplayStyle_plain.isMagnitude isNumber).exists_cons
      exact nomatch shown.symm.trans empty.2
  | complex areNumbers =>
      rw [display, displayComplex_of_zero (opening_complex_eq_numeral_iff.mp numeral)]
      refine ⟨by simp, fun c member => ?_⟩
      rcases List.mem_append.mp member with inText | inMark
      · exact (isNumeral_of_mem_text isDisplayStyle_complexPart areNumbers.2 c inText).1
      · obtain rfl := List.mem_singleton.mp inMark
        decide
  | _ => exact nomatch numeral

/-! ## Tuples -/

/-- The items of a tuple with the bracket behind the last one. -/
def itemsText : List Literal → List Char
  | [] => [')']
  | [item] => (display item).toList ++ [')']
  | item :: rest => (display item).toList ++ ',' :: ' ' :: itemsText rest

theorem itemsText_single (item : Literal) (s : List Char) :
    itemsText [item] ++ s = (display item).toList ++ ')' :: s := by
  rw [itemsText, List.append_assoc, List.singleton_append]

theorem itemsText_more (item next : Literal) (rest : List Literal) (s : List Char) :
    itemsText (item :: next :: rest) ++ s =
      (display item).toList ++ ',' :: ' ' :: (itemsText (next :: rest) ++ s) := by
  rw [itemsText, List.append_assoc, List.cons_append, List.cons_append]
  exact nofun

theorem toList_intercalate (first : Literal) (rest : List Literal) :
    (", ".intercalate (displayItems (first :: rest))).toList ++ [')'] =
      itemsText (first :: rest) := by
  induction rest generalizing first with
  | nil => rw [displayItems, displayItems, Json.toList_listed_single, itemsText]
  | cons second rest ih =>
      have split := Json.toList_listed_more (display first) (display second) (displayItems rest)
      rw [displayItems, displayItems, split, List.append_assoc, List.cons_append, List.cons_append,
        ← displayItems, ih second]
      rfl

/-- What stands behind the first bracket of a tuple. -/
def tupleText : List Literal → List Char
  | [] => [')']
  | [item] => (display item).toList ++ [',', ')']
  | items => itemsText items

/-- Behind the first item of a tuple comes a comma. -/
theorem exists_tupleText_cons (item : Literal) (rest : List Literal) (s : List Char) :
    ∃ behind, tupleText (item :: rest) ++ s = (display item).toList ++ ',' :: behind := by
  cases rest with
  | nil => exact ⟨')' :: s, by rw [tupleText, List.append_assoc]; rfl⟩
  | cons next rest => exact ⟨_, itemsText_more item next rest s⟩

theorem toList_display_tuple (items : List Literal) :
    (display (.tuple items)).toList = '(' :: tupleText items := by
  match items with
  | [] => rfl
  | [item] =>
      rw [display, String.toList_append, String.toList_append]
      rfl
  | first :: second :: rest =>
      have shown : display (.tuple (first :: second :: rest)) =
          "(" ++ ", ".intercalate (displayItems (first :: second :: rest)) ++ ")" := rfl
      rw [shown, String.toList_append, String.toList_append, List.append_assoc]
      exact congrArg ('(' :: ·) (toList_intercalate first (second :: rest))

/-- The first character of a display says of which kind it is. -/
theorem exists_opening {value : Literal} (key : IsKey value) :
    ∃ c rest, (display value).toList = c :: rest ∧ openingOf c = opening value := by
  by_cases numeral : opening value = .numeral
  · obtain ⟨nonempty, each⟩ := display_numeral key numeral
    obtain ⟨c, rest, shown⟩ := List.exists_cons_of_ne_nil nonempty
    have isNumeral := each c (shown ▸ List.mem_cons_self)
    exact ⟨c, rest, shown, by rw [openingOf, if_pos isNumeral, numeral]⟩
  cases key with
  | null => exact ⟨_, _, rfl, rfl⟩
  | bool value => cases value <;> exact ⟨_, _, rfl, rfl⟩
  | ellipsis => exact ⟨_, _, rfl, rfl⟩
  | int value => exact absurd rfl numeral
  | float isNumber => exact absurd rfl numeral
  | complex areNumbers =>
      have nonzero := mt opening_complex_eq_numeral_iff.mpr numeral
      exact ⟨_, _, displayComplex_of_ne_zero areNumbers.2 nonzero,
        by rw [opening, if_neg nonzero]; rfl⟩
  | string value =>
      refine ⟨_, _, toList_display value, ?_⟩
      rcases isQuote_quoteFor value.toList with quote | quote <;> rw [quote] <;> rfl
  | bytes value => exact ⟨_, _, toList_displayBytes value, rfl⟩
  | tuple _ => exact ⟨_, _, toList_display_tuple _, rfl⟩

theorem opening_eq {value other : Literal} (key : IsKey value) (otherKey : IsKey other)
    {s t : List Char} (same : (display value).toList ++ s = (display other).toList ++ t) :
    opening value = opening other := by
  obtain ⟨c, rest, shown, begins⟩ := exists_opening key
  obtain ⟨d, more, otherShown, otherBegins⟩ := exists_opening otherKey
  rw [shown, otherShown] at same
  rw [← begins, ← otherBegins, (List.cons.inj same).1]

/-! ## Values from their displays -/

/-- A run of characters of one kind is told by what follows it. -/
theorem run_append_inj {test : Char → Bool} {left right s t : List Char}
    (leftRun : ∀ c ∈ left, test c = true) (rightRun : ∀ c ∈ right, test c = true)
    (sEnds : ∀ c ∈ s.head?, test c = false) (tEnds : ∀ c ∈ t.head?, test c = false)
    (same : left ++ s = right ++ t) : left = right ∧ s = t := by
  have front {text rest : List Char} (run : ∀ c ∈ text, test c = true)
      (ends : ∀ c ∈ rest.head?, test c = false) : (text ++ rest).takeWhile test = text := by
    rw [List.takeWhile_append_of_pos run]
    cases rest with
    | nil => simp
    | cons c rest => rw [List.takeWhile_cons_of_neg (by simp [ends c rfl]), List.append_nil]
  have texts : left = right := by
    rw [← front leftRun sEnds, same, front rightRun tEnds]
  subst texts
  exact ⟨rfl, List.append_cancel_left same⟩

/-- Only the displays of imaginary numbers hold a `j`. -/
theorem mem_display_complex {real imaginary : Binary64}
    (numeral : opening (.complex real imaginary) = .numeral) :
    'j' ∈ (display (.complex real imaginary)).toList := by
  rw [display, displayComplex_of_zero (opening_complex_eq_numeral_iff.mp numeral)]
  simp

theorem notMem_display_int (value : Int) : 'j' ∉ (display (.int value)).toList :=
  fun letter => (isNumeral_of_mem_toString value 'j' letter).2 rfl

theorem notMem_display_float {number : Binary64} (isNumber : number.isNotANumber = false) :
    'j' ∉ (display (.float number)).toList :=
  fun letter => (isNumeral_of_mem_text isDisplayStyle_plain isNumber 'j' letter).2 rfl

/-- Numerals with one display are one value. -/
theorem eq_of_numeral {value other : Literal} (key : IsKey value) (otherKey : IsKey other)
    (numeral : opening value = .numeral) (otherNumeral : opening other = .numeral)
    (same : (display value).toList = (display other).toList) : value = other := by
  have texts := String.toList_inj.mp same
  cases key with
  | int value =>
      cases otherKey with
      | int other =>
          have read := readScalar?_toString value
          rw [show toString value = toString other from texts, readScalar?_toString other] at read
          simpa using read.symm
      | float isNumber => exact absurd texts (toString_ne_plain_text value isNumber)
      | complex _ =>
          exact absurd (same.symm ▸ mem_display_complex otherNumeral) (notMem_display_int value)
      | _ => exact nomatch otherNumeral
  | float isNumber =>
      cases otherKey with
      | int other => exact absurd texts.symm (toString_ne_plain_text other isNumber)
      | float otherIsNumber => rw [plain_text_inj isNumber otherIsNumber texts]
      | complex _ =>
          exact absurd (same.symm ▸ mem_display_complex otherNumeral)
            (notMem_display_float isNumber)
      | _ => exact nomatch otherNumeral
  | complex areNumbers =>
      cases otherKey with
      | int other => exact absurd (same ▸ mem_display_complex numeral) (notMem_display_int other)
      | float isNumber =>
          exact absurd (same ▸ mem_display_complex numeral) (notMem_display_float isNumber)
      | complex otherAreNumbers =>
          have zero := opening_complex_eq_numeral_iff.mp numeral
          have otherZero := opening_complex_eq_numeral_iff.mp otherNumeral
          rw [display, display, displayComplex_of_zero zero, displayComplex_of_zero otherZero,
            List.append_cancel_right_eq] at same
          rw [zero, otherZero,
            complexPart_text_inj areNumbers.2 otherAreNumbers.2 (String.toList_inj.mp same)]
      | _ => exact nomatch otherNumeral
  | _ => exact nomatch numeral

theorem told_of_numeral {value : Literal} (key : IsKey value) (numeral : opening value = .numeral) :
    Told value := by
  intro other s t otherKey sEnds tEnds same
  have otherNumeral := (opening_eq key otherKey same).symm.trans numeral
  obtain ⟨texts, rest⟩ := run_append_inj (display_numeral key numeral).2
    (display_numeral otherKey otherNumeral).2 sEnds.not_isNumeral tEnds.not_isNumeral same
  exact ⟨eq_of_numeral key otherKey numeral otherNumeral texts, rest⟩

/-- The values that are displayed by a word. -/
theorem mem_words {value : Literal} (key : IsKey value) (word : opening value = .word) :
    value ∈ [.null, .bool true, .bool false, .ellipsis] := by
  cases key with
  | null => simp
  | bool value => cases value <;> simp
  | ellipsis => simp
  | complex _ =>
      rw [opening] at word
      split at word <;> exact nomatch word
  | _ => exact nomatch word

theorem isAlpha_of_mem_display {value : Literal} (key : IsKey value)
    (word : opening value = .word) : ∀ c ∈ (display value).toList, c.isAlpha = true := by
  have isWord := mem_words key word
  simp only [List.mem_cons, List.not_mem_nil, or_false] at isWord
  rcases isWord with rfl | rfl | rfl | rfl <;> exact List.all_eq_true.mp rfl

theorem eq_of_word {value other : Literal} (key : IsKey value) (otherKey : IsKey other)
    (word : opening value = .word) (otherWord : opening other = .word)
    (same : display value = display other) : value = other := by
  have isWord := mem_words key word
  have otherIsWord := mem_words otherKey otherWord
  simp only [List.mem_cons, List.not_mem_nil, or_false] at isWord otherIsWord
  rcases isWord with rfl | rfl | rfl | rfl <;> rcases otherIsWord with rfl | rfl | rfl | rfl <;>
    first | rfl | exact absurd same (by decide)

theorem Ends.not_isAlpha {rest : List Char} (ends : Ends rest) :
    ∀ c ∈ rest.head?, c.isAlpha = false := by
  intro c first
  rcases ends c first with rfl | rfl <;> decide

theorem told_of_word {value : Literal} (key : IsKey value) (word : opening value = .word) :
    Told value := by
  intro other s t otherKey sEnds tEnds same
  have otherWord := (opening_eq key otherKey same).symm.trans word
  obtain ⟨texts, rest⟩ := run_append_inj (isAlpha_of_mem_display key word)
    (isAlpha_of_mem_display otherKey otherWord) sEnds.not_isAlpha tEnds.not_isAlpha same
  exact ⟨eq_of_word key otherKey word otherWord (String.toList_inj.mp texts), rest⟩

theorem told_string (value : String) : Told (.string value) := by
  intro other s t otherKey _ _ same
  have kind := opening_eq (.string value) otherKey same
  cases otherKey with
  | string other =>
      obtain ⟨rfl, rest⟩ := display_append_inj same
      exact ⟨rfl, rest⟩
  | complex _ =>
      rw [opening, opening] at kind
      split at kind <;> exact nomatch kind
  | _ => exact nomatch kind

theorem told_bytes (value : List UInt8) : Told (.bytes value) := by
  intro other s t otherKey _ _ same
  have kind := opening_eq (.bytes value) otherKey same
  cases otherKey with
  | bytes other =>
      obtain ⟨rfl, rest⟩ := displayBytes_append_inj same
      exact ⟨rfl, rest⟩
  | complex _ =>
      rw [opening, opening] at kind
      split at kind <;> exact nomatch kind
  | _ => exact nomatch kind

/-! ## Displays in brackets -/

/-- What stands in the brackets of a complex number is a numeral. -/
theorem isNumeral_of_mem_innerText {real imaginary : Binary64}
    (areNumbers : real.isNotANumber = false ∧ imaginary.isNotANumber = false) :
    ∀ c ∈ innerText real imaginary, isNumeral c = true := by
  intro c member
  simp only [innerText, signedText, List.mem_append, List.mem_cons, List.not_mem_nil,
    or_false] at member
  rcases member with inReal | (rfl | inImaginary) | rfl
  · exact (isNumeral_of_mem_text isDisplayStyle_complexPart areNumbers.1 c inReal).1
  · split <;> decide
  · have magnitude := isDisplayStyle_complexPart.isMagnitude areNumbers.2
    exact (isNumeral_of_isMagnitude magnitude c inImaginary).1
  · decide

theorem opening_of_isNumeral {value : Literal} (key : IsKey value) {c : Char} {s t : List Char}
    (isNumeral : isNumeral c = true) (same : (display value).toList ++ s = c :: t) :
    opening value = .numeral := by
  obtain ⟨d, rest, shown, begins⟩ := exists_opening key
  rw [shown, List.cons_append, List.cons.injEq] at same
  rw [← begins, same.1, openingOf, if_pos isNumeral]

/-- No tuple is displayed like a complex number. -/
theorem tupleText_ne_innerText {items : List Literal} (keys : ∀ item ∈ items, IsKey item)
    {real imaginary : Binary64}
    (areNumbers : real.isNotANumber = false ∧ imaginary.isNotANumber = false) (s t : List Char) :
    tupleText items ++ s ≠ innerText real imaginary ++ ')' :: t := by
  have numeral := isNumeral_of_mem_innerText areNumbers
  obtain ⟨c, more, shown⟩ : ∃ c more, innerText real imaginary = c :: more :=
    List.exists_cons_of_ne_nil (by simp [innerText])
  have first : isNumeral c = true := numeral c (shown ▸ List.mem_cons_self)
  -- a first item would be a numeral, which a comma follows and no bracket
  have notItem {item : Literal} {rest : List Char} (key : IsKey item) :
      (display item).toList ++ ',' :: rest ≠ innerText real imaginary ++ ')' :: t := by
    intro same
    have opens := opening_of_isNumeral key first (same.trans (by rw [shown, List.cons_append]))
    obtain ⟨_, rests⟩ := run_append_inj (display_numeral key opens).2 numeral
      (ends_comma rest).not_isNumeral (ends_bracket t).not_isNumeral same
    exact absurd (List.cons.inj rests).1 (by decide)
  cases items with
  | nil =>
      intro same
      rw [shown] at same
      rw [← (List.cons.inj same).1] at first
      exact absurd first (by decide)
  | cons item rest =>
      obtain ⟨behind, front⟩ := exists_tupleText_cons item rest s
      rw [front]
      exact notItem (keys item List.mem_cons_self)

theorem told_complex {real imaginary : Binary64}
    (areNumbers : real.isNotANumber = false ∧ imaginary.isNotANumber = false) :
    Told (.complex real imaginary) := by
  by_cases zero : real = .zero
  · exact told_of_numeral (.complex areNumbers) (opening_complex_eq_numeral_iff.mpr zero)
  intro other s t otherKey _ _ same
  have kind := opening_eq (.complex areNumbers) otherKey same
  rw [opening, if_neg zero] at kind
  cases otherKey with
  | complex otherAreNumbers =>
      have otherNonzero := mt opening_complex_eq_numeral_iff.mpr (by rw [← kind]; decide)
      rw [display, display, displayComplex_of_ne_zero areNumbers.2 zero,
        displayComplex_of_ne_zero otherAreNumbers.2 otherNonzero, List.cons_append,
        List.cons_append, List.cons.injEq, List.append_assoc, List.append_assoc] at same
      obtain ⟨inner, rest⟩ := run_append_inj (isNumeral_of_mem_innerText areNumbers)
        (isNumeral_of_mem_innerText otherAreNumbers) (ends_bracket s).not_isNumeral
        (ends_bracket t).not_isNumeral same.2
      obtain ⟨rfl, rfl⟩ := innerText_inj areNumbers otherAreNumbers inner
      exact ⟨rfl, (List.cons.inj rest).2⟩
  | tuple keys =>
      rw [toList_display_tuple, display, displayComplex_of_ne_zero areNumbers.2 zero,
        List.cons_append, List.cons_append, List.cons.injEq, List.append_assoc] at same
      exact absurd same.2.symm (tupleText_ne_innerText keys areNumbers t s)
  | _ => exact nomatch kind

/-- Items are told up to the bracket behind them. -/
theorem itemsText_append_inj {items : List Literal} (told : ∀ item ∈ items, Told item)
    (nonempty : items ≠ []) {others : List Literal} (keys : ∀ other ∈ others, IsKey other)
    (othersNonempty : others ≠ []) {s t : List Char}
    (same : itemsText items ++ s = itemsText others ++ t) : items = others ∧ s = t := by
  induction items generalizing others with
  | nil => exact absurd rfl nonempty
  | cons item rest ih =>
      obtain ⟨other, more, rfl⟩ := List.exists_cons_of_ne_nil othersNonempty
      have first {s t : List Char} := told item List.mem_cons_self other s t
      have otherKey := keys other List.mem_cons_self
      cases rest with
      | nil =>
          cases more with
          | nil =>
              rw [itemsText_single, itemsText_single] at same
              obtain ⟨rfl, rests⟩ := first otherKey (ends_bracket _) (ends_bracket _) same
              exact ⟨rfl, (List.cons.inj rests).2⟩
          | cons _ _ =>
              rw [itemsText_single, itemsText_more] at same
              obtain ⟨_, rests⟩ := first otherKey (ends_bracket _) (ends_comma _) same
              exact absurd (List.cons.inj rests).1 (by decide)
      | cons next rest =>
          cases more with
          | nil =>
              rw [itemsText_single, itemsText_more] at same
              obtain ⟨_, rests⟩ := first otherKey (ends_comma _) (ends_bracket _) same
              exact absurd (List.cons.inj rests).1 (by decide)
          | cons _ _ =>
              rw [itemsText_more, itemsText_more] at same
              obtain ⟨rfl, rests⟩ := first otherKey (ends_comma _) (ends_comma _) same
              simp only [List.cons.injEq, true_and] at rests
              obtain ⟨tails, ends⟩ := ih (fun other member => told other (.tail _ member))
                (List.cons_ne_nil _ _) (fun other member => keys other (.tail _ member))
                (List.cons_ne_nil _ _) rests
              exact ⟨by rw [tails], ends⟩

/-- No display begins with a closing bracket. -/
theorem display_ne_bracket {value : Literal} (key : IsKey value) (s t : List Char) :
    (display value).toList ++ s ≠ ')' :: t := by
  intro same
  obtain ⟨c, rest, shown, begins⟩ := exists_opening key
  have first : c = ')' := by
    rw [shown] at same
    exact (List.cons.inj same).1
  subst first
  have letter := isAlpha_of_mem_display key begins.symm ')' (shown ▸ List.mem_cons_self)
  exact absurd letter (by decide)

/-- The items of a tuple are told, a single one by the comma behind it. -/
theorem tupleText_append_inj {items others : List Literal} (keys : ∀ item ∈ items, IsKey item)
    (told : ∀ item ∈ items, Told item) (otherKeys : ∀ other ∈ others, IsKey other)
    {s t : List Char} (same : tupleText items ++ s = tupleText others ++ t) :
    items = others ∧ s = t := by
  match items, others with
  | [], [] => exact ⟨rfl, (List.cons.inj same).2⟩
  | [], other :: rest =>
      obtain ⟨behind, front⟩ := exists_tupleText_cons other rest t
      rw [front] at same
      exact absurd same.symm (display_ne_bracket (otherKeys other List.mem_cons_self) _ _)
  | item :: rest, [] =>
      obtain ⟨behind, front⟩ := exists_tupleText_cons item rest s
      rw [front] at same
      exact absurd same (display_ne_bracket (keys item List.mem_cons_self) _ _)
  | [item], [other] =>
      rw [tupleText, tupleText, List.append_assoc, List.append_assoc] at same
      obtain ⟨rfl, rests⟩ := told item List.mem_cons_self other _ _
        (otherKeys other List.mem_cons_self) (ends_comma _) (ends_comma _) same
      exact ⟨rfl, (List.cons.inj (List.cons.inj rests).2).2⟩
  | [item], other :: next :: rest =>
      change tupleText [item] ++ s = itemsText (other :: next :: rest) ++ t at same
      rw [tupleText, List.append_assoc, itemsText_more] at same
      obtain ⟨_, rests⟩ := told item List.mem_cons_self other _ _
        (otherKeys other List.mem_cons_self) (ends_comma _) (ends_comma _) same
      simp at rests
  | item :: next :: rest, [other] =>
      change itemsText (item :: next :: rest) ++ s = tupleText [other] ++ t at same
      rw [tupleText, List.append_assoc, itemsText_more] at same
      obtain ⟨_, rests⟩ := told item List.mem_cons_self other _ _
        (otherKeys other List.mem_cons_self) (ends_comma _) (ends_comma _) same
      simp at rests
  | item :: next :: rest, other :: after :: more =>
      exact itemsText_append_inj told (List.cons_ne_nil _ _) otherKeys (List.cons_ne_nil _ _) same

theorem told_tuple {items : List Literal} (keys : ∀ item ∈ items, IsKey item)
    (told : ∀ item ∈ items, Told item) : Told (.tuple items) := by
  intro other s t otherKey _ _ same
  have kind := opening_eq (.tuple keys) otherKey same
  rw [toList_display_tuple, List.cons_append] at same
  cases otherKey with
  | complex areNumbers =>
      have nonzero := mt opening_complex_eq_numeral_iff.mpr (by rw [← kind]; exact nofun)
      rw [display, displayComplex_of_ne_zero areNumbers.2 nonzero, List.cons_append,
        List.cons.injEq, List.append_assoc] at same
      exact absurd same.2 (tupleText_ne_innerText keys areNumbers s t)
  | tuple otherKeys =>
      rw [toList_display_tuple, List.cons_append, List.cons.injEq] at same
      obtain ⟨rfl, rest⟩ := tupleText_append_inj keys told otherKeys same.2
      exact ⟨rfl, rest⟩
  | _ => exact nomatch kind

/-- The display of an element tells it. -/
theorem IsKey.told {value : Literal} (key : IsKey value) : Told value := by
  induction key with
  | null => exact told_of_word .null rfl
  | bool value => exact told_of_word (.bool value) rfl
  | int value => exact told_of_numeral (.int value) rfl
  | float isNumber => exact told_of_numeral (.float isNumber) rfl
  | complex areNumbers => exact told_complex areNumbers
  | string value => exact told_string value
  | bytes value => exact told_bytes value
  | ellipsis => exact told_of_word .ellipsis rfl
  | tuple keys told => exact told_tuple keys told

/-- Different elements have different displays. -/
theorem IsKey.display_inj {value other : Literal} (key : IsKey value) (otherKey : IsKey other)
    (same : display value = display other) : value = other :=
  (key.told other [] [] otherKey (fun _ first => nomatch first) (fun _ first => nomatch first)
    (by rw [same])).1

end TypeCatalog.Literal
