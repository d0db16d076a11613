import TypeCatalog.Literal.Display
import TypeCatalog.Proofs.DecimalText

/-! # Texts of real and complex numbers

Numbers that differ have different texts. For floating-point numbers this follows from reading them
back (`TypeCatalog.DecimalStyle.plain_text_inj`); the parts of a complex number have the same texts
but for the fraction of integral values, which can be completed. The text of a complex number comes
apart before the first sign that stands neither in front nor in an exponent
(`TypeCatalog.Literal.displayComplex_inj`).
-/

namespace TypeCatalog

namespace DecimalStyle

open Json

variable {number other : Binary64}

/-! ## Reading displays back -/

theorem isInfinite_of_not_isFinite (isNumber : number.isNotANumber = false)
    (infinite : ¬ number.isFinite = true) : number.isInfinite = true := by
  simp only [Binary64.isFinite, Binary64.isNotANumber, Binary64.isInfinite, decide_eq_true_eq,
    decide_eq_false_iff_not] at *
  omega

theorem follows_nil : Follows [] := fun _ first => nomatch first

/-- The display of a finite number is its text in JSON. -/
theorem plain_text_of_isFinite (finite : number.isFinite = true) :
    plain.text number = json.text number := by
  have isNumber := Binary64.isNotANumber_of_isFinite finite
  have notInfinite : number.isInfinite = false := by
    simp only [Binary64.isFinite, Binary64.isInfinite, decide_eq_true_eq,
      decide_eq_false_iff_not] at finite ⊢
    omega
  have magnitude : plain.magnitudeText number = json.magnitudeText number := by
    unfold magnitudeText
    rw [isNumber, notInfinite]
    rfl
  rw [text, text, magnitude]

theorem readScalar?_plain (finite : number.isFinite = true) :
    readScalar? (plain.text number).toList = some (.float number, []) := by
  have read := readScalar?_float (Binary64.isNotANumber_of_isFinite finite) follows_nil
  rwa [List.append_nil, ← plain_text_of_isFinite finite] at read

theorem plain_text_of_isInfinite (infinite : number.isInfinite = true) :
    plain.text number = if number.negative then "-inf" else "inf" := by
  have isNumber : number.isNotANumber = false := by
    simp only [Binary64.isNotANumber, Binary64.isInfinite, decide_eq_true_eq,
      decide_eq_false_iff_not] at infinite ⊢
    omega
  rw [text, magnitudeText, isNumber, infinite]
  cases number.negative <;> rfl

/-- An infinite number is displayed as a word that is no number. -/
theorem readScalar?_infinite_plain (infinite : number.isInfinite = true) :
    readScalar? (plain.text number).toList = none := by
  rw [plain_text_of_isInfinite infinite]
  cases number.negative <;> decide

/-- Floating-point numbers with one display are one number. -/
theorem plain_text_inj (isNumber : number.isNotANumber = false)
    (otherIsNumber : other.isNotANumber = false) (same : plain.text number = plain.text other) :
    number = other := by
  by_cases finite : number.isFinite = true <;> by_cases otherFinite : other.isFinite = true
  · have read := readScalar?_plain finite
    rw [same, readScalar?_plain otherFinite] at read
    simpa using read.symm
  · have read := readScalar?_plain finite
    rw [same, readScalar?_infinite_plain (isInfinite_of_not_isFinite otherIsNumber otherFinite)]
      at read
    exact nomatch read
  · have read := readScalar?_plain otherFinite
    rw [← same, readScalar?_infinite_plain (isInfinite_of_not_isFinite isNumber finite)] at read
    exact nomatch read
  · have infinite := isInfinite_of_not_isFinite isNumber finite
    have otherInfinite := isInfinite_of_not_isFinite otherIsNumber otherFinite
    rw [plain_text_of_isInfinite infinite, plain_text_of_isInfinite otherInfinite] at same
    have sign : number.negative = other.negative := by
      cases left : number.negative <;> cases right : other.negative <;> simp_all
    simp only [Binary64.isInfinite, decide_eq_true_eq] at infinite otherInfinite
    cases number
    cases other
    simp only [Binary64.mk.injEq] at sign ⊢
    exact ⟨sign, Fin.ext (infinite.trans otherInfinite.symm)⟩

theorem readScalar?_toString (value : Int) :
    readScalar? (toString value).toList = some (.int value, []) := by
  have read := readScalar?_int value follows_nil
  rwa [List.append_nil] at read

/-- No integer is displayed like a floating-point number. -/
theorem toString_ne_plain_text (value : Int) (isNumber : number.isNotANumber = false) :
    toString value ≠ plain.text number := by
  intro same
  have read := readScalar?_toString value
  rw [same] at read
  by_cases finite : number.isFinite = true
  · rw [readScalar?_plain finite] at read
    simp at read
  · rw [readScalar?_infinite_plain (isInfinite_of_not_isFinite isNumber finite)] at read
    exact nomatch read

/-! ## Layouts -/

section

variable {style : DecimalStyle} {digits : List Char} {point : Int}

theorem layout_behindZero (positional : style.pointFrom ≤ point ∧ point ≤ style.pointTo)
    (small : point ≤ 0) :
    style.layout digits point = "0.".toList ++ zeros (-point).toNat ++ digits := by
  unfold layout
  rw [if_pos positional, if_pos small]

theorem layout_filled (positional : style.pointFrom ≤ point ∧ point ≤ style.pointTo)
    (large : ¬ point ≤ 0) (short : digits.length ≤ point.toNat) :
    style.layout digits point =
      digits ++ zeros (point.toNat - digits.length) ++ style.integralSuffix.toList := by
  unfold layout
  rw [if_pos positional, if_neg large, if_pos short]

theorem layout_among (positional : style.pointFrom ≤ point ∧ point ≤ style.pointTo)
    (large : ¬ point ≤ 0) (long : ¬ digits.length ≤ point.toNat) :
    style.layout digits point = digits.take point.toNat ++ ['.'] ++ digits.drop point.toNat := by
  unfold layout
  rw [if_pos positional, if_neg large, if_neg long]

theorem layout_scientific (outside : ¬ (style.pointFrom ≤ point ∧ point ≤ style.pointTo)) :
    style.layout digits point =
      mantissa digits ++ exponentText style.exponentWidth (point - 1) := by
  unfold layout
  rw [if_neg outside, exponentText, ← List.append_assoc]
  rfl

end

/-! ## Parts of complex numbers -/

/-- A text with the fraction that the text of an integral number lacks. -/
def completed (text : List Char) : List Char :=
  if text.all fun c => c.isDigit || c == '-' then text ++ ['.', '0'] else text

theorem completed_of_all {text : List Char}
    (all : ∀ c ∈ text, c.isDigit = true ∨ c = '-') : completed text = text ++ ['.', '0'] :=
  if_pos (by simpa using all)

theorem completed_of_mem {text : List Char} {c : Char} (member : c ∈ text)
    (other : c.isDigit = false) (notMinus : c ≠ '-') : completed text = text := by
  refine if_neg fun all => ?_
  have c_all := List.all_eq_true.mp all c member
  simp [other, notMinus] at c_all

/-- Notation with a point or an exponent is not completed, integral values are. -/
theorem completed_layout (front : List Char) (sign : ∀ c ∈ front, c = '-') {digits : List Char}
    (all : ∀ c ∈ digits, c.isDigit = true) (point : Int) :
    completed (front ++ complexPart.layout digits point) = front ++ plain.layout digits point := by
  by_cases positional : -3 ≤ point ∧ point ≤ 16
  · by_cases small : point ≤ 0
    · have inPart : complexPart.layout digits point = _ := layout_behindZero positional small
      have inPlain : plain.layout digits point = _ := layout_behindZero positional small
      rw [inPart, inPlain]
      exact completed_of_mem (c := '.') (by simp) rfl (by decide)
    · by_cases short : digits.length ≤ point.toNat
      · have inPart : complexPart.layout digits point = _ := layout_filled positional small short
        have inPlain : plain.layout digits point = _ := layout_filled positional small short
        rw [inPart, inPlain, completed_of_all]
        · simp [complexPart, plain]
        · intro c member
          simp only [complexPart, List.mem_append] at member
          rcases member with inSign | (inDigits | inZeros) | inSuffix
          · exact .inr (sign c inSign)
          · exact .inl (all c inDigits)
          · exact .inl (isDigit_of_mem_zeros c inZeros)
          · exact nomatch inSuffix
      · have inPart : complexPart.layout digits point = _ := layout_among positional small short
        have inPlain : plain.layout digits point = _ := layout_among positional small short
        rw [inPart, inPlain]
        exact completed_of_mem (c := '.') (by simp) rfl (by decide)
  · have inPart : complexPart.layout digits point = _ := layout_scientific positional
    have inPlain : plain.layout digits point = _ := layout_scientific positional
    rw [inPart, inPlain]
    exact completed_of_mem (c := 'e') (by simp [exponentText]) rfl (by decide)

/-- The text of an absolute value, in any style. -/
theorem magnitudeText_cases (isNumber : number.isNotANumber = false) :
    (∀ style : DecimalStyle, style.magnitudeText number = style.infinite) ∨
      (∀ style : DecimalStyle, style.magnitudeText number = "0" ++ style.integralSuffix) ∨
      ∃ digits point, Significant digits ∧
        ∀ style : DecimalStyle,
          (style.magnitudeText number).toList = style.layout digits point := by
  by_cases infinite : number.isInfinite = true
  · left
    intro style
    rw [magnitudeText, isNumber, infinite]
    rfl
  rw [Bool.not_eq_true] at infinite
  by_cases zero : number.rank.val = 0
  · right; left
    intro style
    rw [magnitudeText, isNumber, infinite, if_neg Bool.false_ne_true, if_neg Bool.false_ne_true,
      if_pos zero]
  · right; right
    have positive : 0 < number.shortestDigits.1 := by
      have quotient_pos := (Binary64.nearest_shortestDigits zero).pos zero
      rcases Nat.eq_zero_or_pos number.shortestDigits.1 with none | some
      · simp [none] at quotient_pos
      · exact some
    let written := Nat.toDigits 10 number.shortestDigits.1
    refine ⟨trimZeros written, number.shortestDigits.2 + Int.ofNat written.length,
      (significant_toDigits positive).trimZeros, fun style => ?_⟩
    rw [magnitudeText, isNumber, infinite, if_neg Bool.false_ne_true, if_neg Bool.false_ne_true,
      if_neg zero]
    exact String.toList_ofList

theorem toList_text_of_isNumber (style : DecimalStyle) (isNumber : number.isNotANumber = false) :
    (style.text number).toList =
      (if number.negative then ['-'] else []) ++ (style.magnitudeText number).toList := by
  rw [text, isNumber]
  cases number.negative <;> simp

/-- Completed, a part of a complex number is displayed like any number. -/
theorem completed_complexPart (isNumber : number.isNotANumber = false) :
    completed (complexPart.text number).toList = (plain.text number).toList := by
  have sign : ∀ c ∈ (if number.negative then ['-'] else []), c = '-' := by
    cases number.negative <;> simp
  rw [toList_text_of_isNumber _ isNumber, toList_text_of_isNumber _ isNumber]
  rcases magnitudeText_cases isNumber with infinite | zero | ⟨digits, point, significant, written⟩
  · rw [infinite, infinite]
    exact completed_of_mem (c := 'i') (by simp [complexPart, plain]) rfl (by decide)
  · rw [zero, zero, completed_of_all]
    · simp [complexPart, plain]
    · intro c member
      rcases List.mem_append.mp member with inSign | inDigits
      · exact .inr (sign c inSign)
      · have single : c = '0' := by simpa [complexPart] using inDigits
        exact .inl (single ▸ rfl)
  · rw [written, written]
    exact completed_layout _ sign significant.all point

/-- Parts of complex numbers with one display are one number. -/
theorem complexPart_text_inj (isNumber : number.isNotANumber = false)
    (otherIsNumber : other.isNotANumber = false)
    (same : complexPart.text number = complexPart.text other) : number = other := by
  refine plain_text_inj isNumber otherIsNumber (String.toList_inj.mp ?_)
  rw [← completed_complexPart isNumber, ← completed_complexPart otherIsNumber, same]

/-! ## Forms of magnitudes -/

/-- A character of a magnitude outside its exponent: a digit, a point or a letter of `inf`. -/
def isBare (c : Char) : Bool := c.isDigit || c == '.' || c == 'i' || c == 'n' || c == 'f'

theorem isBare_of_isDigit {c : Char} (digit : c.isDigit = true) : isBare c = true := by
  simp [isBare, digit]

theorem mantissa_ne_nil {digits : List Char} (nonempty : digits ≠ []) : mantissa digits ≠ [] := by
  unfold mantissa
  split
  · exact List.cons_ne_nil _ _
  · exact nonempty

theorem isBare_of_mem_mantissa {digits : List Char} (bare : ∀ c ∈ digits, isBare c = true)
    {c : Char} (member : c ∈ mantissa digits) : isBare c = true := by
  unfold mantissa at member
  split at member
  · rcases List.mem_cons.mp member with rfl | inRest
    · exact bare c List.mem_cons_self
    · rcases List.mem_cons.mp inRest with rfl | inRest
      · rfl
      · exact bare c (List.mem_cons_of_mem _ inRest)
  · exact bare c member

/-- The texts of absolute values: bare characters, with an exponent behind them or without. -/
inductive IsMagnitude : List Char → Prop
  | bare {front : List Char} (nonempty : front ≠ []) (each : ∀ c ∈ front, isBare c = true) :
      IsMagnitude front
  | scientific {front digits : List Char} {sign : Char} (nonempty : front ≠ [])
      (each : ∀ c ∈ front, isBare c = true) (isSign : sign = '+' ∨ sign = '-')
      (all : ∀ c ∈ digits, c.isDigit = true) : IsMagnitude (front ++ 'e' :: sign :: digits)

theorem isMagnitude_layout {style : DecimalStyle} {digits : List Char}
    (suffix : ∀ c ∈ style.integralSuffix.toList, isBare c = true) (significant : Significant digits)
    (point : Int) : IsMagnitude (style.layout digits point) := by
  have bareDigits : ∀ c ∈ digits, isBare c = true := fun c member =>
    isBare_of_isDigit (significant.all c member)
  have bareZeros {count : Nat} : ∀ c ∈ zeros count, isBare c = true := fun c member =>
    isBare_of_isDigit (isDigit_of_mem_zeros c member)
  by_cases positional : style.pointFrom ≤ point ∧ point ≤ style.pointTo
  · by_cases small : point ≤ 0
    · rw [layout_behindZero positional small]
      refine IsMagnitude.bare (by simp) fun c member => ?_
      simp only [List.mem_append] at member
      rcases member with (inFront | inZeros) | inDigits
      · exact (List.all_eq_true.mp rfl : ∀ c ∈ "0.".toList, isBare c = true) c inFront
      · exact bareZeros c inZeros
      · exact bareDigits c inDigits
    · by_cases short : digits.length ≤ point.toNat
      · rw [layout_filled positional small short]
        refine IsMagnitude.bare (by simp [significant.nonempty]) fun c member => ?_
        simp only [List.mem_append] at member
        rcases member with (inDigits | inZeros) | inSuffix
        · exact bareDigits c inDigits
        · exact bareZeros c inZeros
        · exact suffix c inSuffix
      · rw [layout_among positional small short]
        refine IsMagnitude.bare (by simp) fun c member => ?_
        simp only [List.mem_append, List.mem_singleton] at member
        rcases member with (inTake | rfl) | inDrop
        · exact bareDigits c (List.mem_of_mem_take inTake)
        · rfl
        · exact bareDigits c (List.mem_of_mem_drop inDrop)
  · rw [layout_scientific positional]
    refine .scientific (mantissa_ne_nil significant.nonempty)
      (fun c member => isBare_of_mem_mantissa bareDigits member) ?_ exponentDigits_all
    split <;> simp

/-- What the styles of displays have in common. -/
structure IsDisplayStyle (style : DecimalStyle) : Prop where
  infinite : style.infinite = "inf"
  suffix : ∀ c ∈ style.integralSuffix.toList, isBare c = true

theorem isDisplayStyle_plain : plain.IsDisplayStyle := ⟨rfl, List.all_eq_true.mp rfl⟩

theorem isDisplayStyle_complexPart : complexPart.IsDisplayStyle :=
  ⟨rfl, List.all_eq_true.mp rfl⟩

/-- Displays have nothing but magnitudes behind the sign. -/
theorem IsDisplayStyle.isMagnitude {style : DecimalStyle} (display : style.IsDisplayStyle)
    (isNumber : number.isNotANumber = false) :
    IsMagnitude (style.magnitudeText number).toList := by
  rcases magnitudeText_cases isNumber with infinite | zero | ⟨digits, point, significant, written⟩
  · rw [infinite, display.infinite]
    exact .bare (by decide) (List.all_eq_true.mp rfl)
  · rw [zero]
    refine .bare (by simp) fun c member => ?_
    rw [String.toList_append, List.mem_append] at member
    exact member.elim ((List.all_eq_true.mp rfl : ∀ c ∈ "0".toList, isBare c = true) c)
      (display.suffix c)
  · rw [written]
    exact isMagnitude_layout display.suffix significant point

/-! ## Where a number ends -/

/-- The text up to the first sign that stands in no exponent. -/
def untilSign : List Char → List Char
  | 'e' :: sign :: rest => 'e' :: sign :: untilSign rest
  | '+' :: _ => []
  | '-' :: _ => []
  | c :: rest => c :: untilSign rest
  | [] => []

theorem untilSign_cons_of_isBare {c : Char} (bare : isBare c = true) (rest : List Char) :
    untilSign (c :: rest) = c :: untilSign rest := by
  have other : c ≠ 'e' ∧ c ≠ '+' ∧ c ≠ '-' := by
    refine ⟨?_, ?_, ?_⟩ <;> rintro rfl <;> exact absurd bare (by decide)
  simp [untilSign, other]

theorem untilSign_append_of_isBare {front : List Char} (each : ∀ c ∈ front, isBare c = true)
    (rest : List Char) : untilSign (front ++ rest) = front ++ untilSign rest := by
  induction front with
  | nil => rfl
  | cons c front ih =>
      rw [List.cons_append, untilSign_cons_of_isBare (each c List.mem_cons_self),
        ih fun d member => each d (List.mem_cons_of_mem _ member), List.cons_append]

/-- What a sign follows is found again. -/
theorem untilSign_append {text : List Char} (magnitude : IsMagnitude text) {sign : Char}
    (isSign : sign = '+' ∨ sign = '-') (rest : List Char) :
    untilSign (text ++ sign :: rest) = text := by
  have ended : untilSign (sign :: rest) = [] := by
    rcases isSign with rfl | rfl <;> rfl
  cases magnitude with
  | bare _ each => rw [untilSign_append_of_isBare each, ended, List.append_nil]
  | scientific _ each _ all =>
      rw [List.append_assoc, untilSign_append_of_isBare each, List.cons_append, List.cons_append,
        untilSign, untilSign_append_of_isBare fun c member => isBare_of_isDigit (all c member),
        ended, List.append_nil]

theorem IsMagnitude.exists_cons {text : List Char} (magnitude : IsMagnitude text) :
    ∃ c rest, text = c :: rest ∧ isBare c = true := by
  have first {front behind : List Char} (nonempty : front ≠ [])
      (each : ∀ c ∈ front, isBare c = true) :
      ∃ c rest, front ++ behind = c :: rest ∧ isBare c = true := by
    obtain ⟨c, rest, rfl⟩ := List.exists_cons_of_ne_nil nonempty
    exact ⟨c, rest ++ behind, rfl, each c List.mem_cons_self⟩
  cases magnitude with
  | bare nonempty each => exact List.append_nil text ▸ first nonempty each
  | scientific nonempty each _ _ => exact first nonempty each

/-- The text up to the first sign that stands neither in front nor in an exponent. -/
def untilInnerSign : List Char → List Char
  | '-' :: rest => '-' :: untilSign rest
  | text => untilSign text

/-- The real part of a complex number is found again before the sign of the imaginary part. -/
theorem untilInnerSign_text (isNumber : number.isNotANumber = false) {sign : Char}
    (isSign : sign = '+' ∨ sign = '-') (rest : List Char) :
    untilInnerSign ((complexPart.text number).toList ++ sign :: rest) =
      (complexPart.text number).toList := by
  have magnitude : IsMagnitude (complexPart.magnitudeText number).toList :=
    isDisplayStyle_complexPart.isMagnitude isNumber
  rw [toList_text_of_isNumber _ isNumber]
  cases number.negative with
  | true =>
      exact congrArg ('-' :: ·) (untilSign_append magnitude isSign rest)
  | false =>
      obtain ⟨c, more, written, bare⟩ := magnitude.exists_cons
      have notSign : c ≠ '-' := by rintro rfl; exact absurd bare (by decide)
      have same := untilSign_append magnitude isSign rest
      rw [written] at same ⊢
      simpa [untilInnerSign, notSign] using same

end DecimalStyle

namespace Literal

open DecimalStyle

/-! ## Displays of complex numbers -/

section

variable {real imaginary otherReal otherImaginary : Binary64}

/-- The sign and the absolute value of an imaginary part, as they stand behind a real part. -/
def signedText (imaginary : Binary64) : List Char :=
  (if imaginary.negative then '-' else '+') :: (complexPart.magnitudeText imaginary).toList

/-- What stands in the brackets of the display of a complex number. -/
def innerText (real imaginary : Binary64) : List Char :=
  (complexPart.text real).toList ++ (signedText imaginary ++ ['j'])

theorem displayComplex_of_zero (zero : real = .zero) :
    (displayComplex real imaginary).toList = (complexPart.text imaginary).toList ++ ['j'] := by
  rw [displayComplex, if_pos zero, String.toList_append]
  rfl

theorem displayComplex_of_ne_zero (isNumber : imaginary.isNotANumber = false)
    (nonzero : real ≠ .zero) :
    (displayComplex real imaginary).toList = '(' :: (innerText real imaginary ++ [')']) := by
  have signed : ((if imaginary.negative && !imaginary.isNotANumber then "" else "+") ++
      complexPart.text imaginary).toList = signedText imaginary := by
    rw [String.toList_append, toList_text_of_isNumber _ isNumber, isNumber, signedText]
    cases imaginary.negative <;> rfl
  rw [displayComplex, if_neg nonzero, innerText, ← signed]
  simp

/-- The parts of a complex number are told by what stands in the brackets. -/
theorem innerText_inj (isNumber : real.isNotANumber = false ∧ imaginary.isNotANumber = false)
    (otherIsNumber : otherReal.isNotANumber = false ∧ otherImaginary.isNotANumber = false)
    (same : innerText real imaginary = innerText otherReal otherImaginary) :
    real = otherReal ∧ imaginary = otherImaginary := by
  have isSign (number : Binary64) : (if number.negative then '-' else '+') = '+' ∨
      (if number.negative then '-' else '+') = '-' := by
    cases number.negative <;> simp
  have realText : (complexPart.text real).toList = (complexPart.text otherReal).toList := by
    have front := congrArg untilInnerSign same
    rwa [innerText, innerText, signedText, signedText, List.cons_append, List.cons_append,
      untilInnerSign_text isNumber.1 (isSign imaginary),
      untilInnerSign_text otherIsNumber.1 (isSign otherImaginary)] at front
  refine ⟨complexPart_text_inj isNumber.1 otherIsNumber.1 (String.toList_inj.mp realText), ?_⟩
  rw [innerText, innerText, realText, List.append_cancel_left_eq, List.append_cancel_right_eq,
    signedText, signedText, List.cons.injEq] at same
  have sign : imaginary.negative = otherImaginary.negative := by
    have first := same.1
    cases left : imaginary.negative <;> cases right : otherImaginary.negative <;> simp_all
  refine complexPart_text_inj isNumber.2 otherIsNumber.2 (String.toList_inj.mp ?_)
  rw [toList_text_of_isNumber _ isNumber.2, toList_text_of_isNumber _ otherIsNumber.2, sign, same.2]

/-! ## Characters of numbers -/

/-- A character of the display of a number that is not in brackets. -/
def isNumeral (c : Char) : Bool := isBare c || c == 'e' || c == '+' || c == '-' || c == 'j'

theorem isNumeral_of_isMagnitude {text : List Char} (magnitude : IsMagnitude text) :
    ∀ c ∈ text, isNumeral c = true ∧ c ≠ 'j' := by
  have bare {c : Char} (isBare : isBare c = true) : isNumeral c = true ∧ c ≠ 'j' :=
    ⟨by simp [isNumeral, isBare], by rintro rfl; exact absurd isBare (by decide)⟩
  intro c member
  cases magnitude with
  | bare _ each => exact bare (each c member)
  | scientific _ each isSign all =>
      simp only [List.mem_append, List.mem_cons] at member
      rcases member with inFront | rfl | rfl | inDigits
      · exact bare (each c inFront)
      · decide
      · rcases isSign with rfl | rfl <;> decide
      · exact bare (isBare_of_isDigit (all c inDigits))

theorem isNumeral_of_mem_text {style : DecimalStyle} (display : style.IsDisplayStyle)
    (isNumber : real.isNotANumber = false) :
    ∀ c ∈ (style.text real).toList, isNumeral c = true ∧ c ≠ 'j' := by
  intro c member
  rw [toList_text_of_isNumber _ isNumber, List.mem_append] at member
  rcases member with inSign | inMagnitude
  · have minus : c = '-' := by
      cases negative : real.negative <;> simp_all
    subst minus
    decide
  · exact isNumeral_of_isMagnitude (display.isMagnitude isNumber) c inMagnitude

theorem isNumeral_of_mem_toString (value : Int) :
    ∀ c ∈ (toString value).toList, isNumeral c = true ∧ c ≠ 'j' := by
  have digits (n : Nat) : ∀ c ∈ Nat.toDigits 10 n, isNumeral c = true ∧ c ≠ 'j' := by
    intro c member
    have digit := Nat.isDigit_of_mem_toDigits (by decide) (by decide) member
    exact ⟨by simp [isNumeral, isBare, digit], by rintro rfl; exact absurd digit (by decide)⟩
  intro c member
  rw [Int.toString_eq_repr] at member
  cases value with
  | ofNat n =>
      rw [show (Int.ofNat n).repr = n.repr from rfl, Nat.toList_repr] at member
      exact digits n c member
  | negSucc n =>
      rw [show (Int.negSucc n).repr = "-" ++ (n + 1).repr from rfl, String.toList_append,
        Nat.toList_repr, List.mem_append] at member
      rcases member with inSign | inDigits
      · obtain rfl := List.mem_singleton.mp inSign
        decide
      · exact digits _ c inDigits

end

end Literal

end TypeCatalog
