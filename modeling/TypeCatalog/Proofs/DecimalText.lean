import TypeCatalog.Json.Reader
import TypeCatalog.Json.Writer
import TypeCatalog.Proofs.Digits
import TypeCatalog.Proofs.ShortestDecimal

/-! # Reading numbers back

The text of a number comes apart into its digits before and behind the point and its exponent, in
positional notation as in notation with an exponent, and these make the decimal that was written
(`TypeCatalog.DecimalStyle.readsAs_layout`). So floating-point numbers and integers are read
back from their texts (`TypeCatalog.Json.readScalar?_float`, `TypeCatalog.Json.readScalar?_int`),
whatever follows them that does not look like a part of a number.
-/

namespace TypeCatalog

namespace Json

/-- What may follow a value inside of a text: nothing, a comma or a closing bracket. -/
def Follows (rest : List Char) : Prop := ∀ c ∈ rest.head?, c ∈ [',', ']', '}']

/-- A text that does not go on with a digit. -/
def NoDigit (rest : List Char) : Prop := ∀ c ∈ rest.head?, c.isDigit = false

theorem Follows.noDigit {rest : List Char} (follows : Follows rest) : NoDigit rest := by
  intro c first
  have single : ∀ other ∈ [',', ']', '}'], other.isDigit = false := by simp
  exact single c (follows c first)

/-- What follows a value is no part of a number. -/
theorem Follows.plain {rest : List Char} (follows : Follows rest) :
    ∀ c ∈ rest.head?, c ≠ '.' ∧ c ≠ 'e' ∧ c ≠ 'E' := by
  intro c first
  have single : ∀ other ∈ [',', ']', '}'], other ≠ '.' ∧ other ≠ 'e' ∧ other ≠ 'E' := by simp
  exact single c (follows c first)

theorem noDigit_cons {c : Char} (other : c.isDigit = false) (rest : List Char) :
    NoDigit (c :: rest) := by
  intro head first
  rw [List.head?_cons, Option.mem_some_iff] at first
  rw [← first]
  exact other

theorem takeWhile_digits {digits rest : List Char} (all : ∀ c ∈ digits, c.isDigit = true)
    (noDigit : NoDigit rest) : (digits ++ rest).takeWhile Char.isDigit = digits := by
  rw [List.takeWhile_append_of_pos all]
  cases rest with
  | nil => simp
  | cons c rest => rw [List.takeWhile_cons_of_neg (by simp [noDigit c rfl]), List.append_nil]

theorem dropWhile_digits {digits rest : List Char} (all : ∀ c ∈ digits, c.isDigit = true)
    (noDigit : NoDigit rest) : (digits ++ rest).dropWhile Char.isDigit = rest := by
  rw [List.dropWhile_append_of_pos all]
  cases rest with
  | nil => simp
  | cons c rest => rw [List.dropWhile_cons_of_neg (by simp [noDigit c rfl])]

/-! ## Parts of a number -/

theorem readFraction_point {digits rest : List Char} (nonempty : digits ≠ [])
    (all : ∀ c ∈ digits, c.isDigit = true) (noDigit : NoDigit rest) :
    readFraction ('.' :: (digits ++ rest)) = (digits, rest) := by
  simp only [readFraction, takeWhile_digits all noDigit, dropWhile_digits all noDigit]

theorem readFraction_none {text : List Char} (other : ∀ c ∈ text.head?, c ≠ '.') :
    readFraction text = ([], text) := by
  unfold readFraction
  split
  · exact absurd rfl (other '.' rfl)
  · rfl

/-- The exponent that digits stand for behind a sign. -/
theorem readExponent_digits {digits rest : List Char} (negative : Bool) (nonempty : digits ≠ [])
    (all : ∀ c ∈ digits, c.isDigit = true) (noDigit : NoDigit rest) :
    readExponent ('e' :: (if negative then '-' else '+') :: (digits ++ rest)) =
      (some (if negative then -Int.ofNat (Text.numberOfDigits 10 digits)
        else Int.ofNat (Text.numberOfDigits 10 digits)), rest) := by
  cases negative with
  | true =>
      simp only [readExponent, if_true, takeWhile_digits all noDigit,
        dropWhile_digits all noDigit]
  | false =>
      simp only [readExponent, Bool.false_eq_true, if_false, takeWhile_digits all noDigit,
        dropWhile_digits all noDigit]

theorem readExponent_none {text : List Char} (other : ∀ c ∈ text.head?, c ≠ 'e' ∧ c ≠ 'E') :
    readExponent text = (none, text) := by
  cases text with
  | nil => rfl
  | cons c rest =>
      obtain ⟨small, large⟩ := other c rfl
      unfold readExponent
      split <;> simp_all

/-- Digits as they stand before the point: a zero leads only when it stands alone. -/
structure Whole (digits : List Char) : Prop where
  nonempty : digits ≠ []
  all : ∀ c ∈ digits, c.isDigit = true
  leading : ∀ rest, digits = '0' :: rest → rest = []

/-- A number is read from its digits before the point, its fraction and its exponent. -/
theorem readMagnitude?_parts {whole behind fraction middle rest : List Char}
    {exponent : Option Int} (negative : Bool) (digits : Whole whole) (noDigit : NoDigit behind)
    (fractionRead : readFraction behind = (fraction, middle))
    (exponentRead : readExponent middle = (exponent, rest)) :
    readMagnitude? negative (whole ++ behind) =
      if fraction.isEmpty && exponent.isNone then
        let value := Int.ofNat (Text.numberOfDigits 10 whole)
        some (.int (if negative then -value else value), rest)
      else some (.float (.ofDecimal negative (Text.numberOfDigits 10 (whole ++ fraction))
        (exponent.getD 0 - Int.ofNat fraction.length)), rest) := by
  cases whole with
  | nil => exact absurd rfl digits.nonempty
  | cons c more =>
      by_cases zero : c = '0'
      · subst zero
        obtain rfl := digits.leading more rfl
        simp only [readMagnitude?, List.cons_append, List.nil_append, List.isEmpty_cons,
          Bool.false_eq_true, if_false, List.length_singleton, List.drop_succ_cons, List.drop_zero,
          fractionRead, exponentRead]
      · have front := takeWhile_digits digits.all noDigit
        have behind_eq : (c :: more ++ behind).drop (c :: more).length = behind := List.drop_left
        rw [List.cons_append] at front behind_eq ⊢
        have other : ∀ tail, c :: (more ++ behind) = '0' :: tail → False := by
          intro tail same
          exact zero (List.cons.inj same).1
        simp only [readMagnitude?, front, behind_eq, List.isEmpty_cons, Bool.false_eq_true,
          if_false, fractionRead, exponentRead, List.cons_append]

end Json

namespace DecimalStyle

open Json

/-- The decimal that digits stand for, given the position of the point. -/
def decimalOf (digits : List Char) (point : Int) : ℚ :=
  Text.numberOfDigits 10 digits * 10 ^ (point - digits.length)

theorem decimalOf_zeros_append (count : Nat) (digits : List Char) (point : Int) :
    decimalOf (zeros count ++ digits) point = decimalOf digits (point - count) := by
  rw [decimalOf, decimalOf, Text.numberOfDigits_append, zeros, Text.numberOfDigits_zeros,
    List.length_append, List.length_replicate, Nat.zero_mul, Nat.zero_add]
  congr 2
  omega

theorem decimalOf_append_zeros (digits : List Char) (count : Nat) (point : Int) :
    decimalOf (digits ++ zeros count) point = decimalOf digits point := by
  have split : point - digits.length = (count : Int) + (point - (digits.length + count : Nat)) := by
    omega
  rw [decimalOf, decimalOf, Text.numberOfDigits_append, zeros, Text.numberOfDigits_zeros,
    List.length_append, List.length_replicate, split, zpow_add₀ (by norm_num), zpow_natCast]
  push_cast
  ring

/-- A text is read as a decimal, whatever follows it inside of a text. -/
def ReadsAs (negative : Bool) (text : List Char) (decimal : ℚ) : Prop :=
  ∀ rest, Follows rest → ∃ digits exponent,
    readMagnitude? negative (text ++ rest) =
      some (.float (.ofDecimal negative digits exponent), rest) ∧
    (digits * 10 ^ exponent : ℚ) = decimal

/-! ## Layouts -/

/-- Digits as a number is laid out with: some, without a leading zero. -/
structure Significant (digits : List Char) : Prop where
  nonempty : digits ≠ []
  all : ∀ c ∈ digits, c.isDigit = true
  leading : ∀ c ∈ digits.head?, c ≠ '0'

theorem Significant.whole_append {front behind : List Char} (digits : Significant front)
    (all : ∀ c ∈ behind, c.isDigit = true) : Whole (front ++ behind) where
  nonempty := by simp [digits.nonempty]
  all c member := (List.mem_append.mp member).elim (digits.all c) (all c)
  leading rest same := by
    cases front with
    | nil => exact absurd rfl digits.nonempty
    | cons c more =>
        rw [List.cons_append, List.cons.injEq] at same
        exact absurd same.1 (digits.leading c rfl)

theorem isDigit_of_mem_zeros {count : Nat} : ∀ c ∈ zeros count, c.isDigit = true := by
  intro c member
  rw [List.eq_of_mem_replicate member]
  rfl

theorem exponentDigits_all {width exponent : Nat} :
    ∀ c ∈ exponentDigits width exponent, c.isDigit = true := by
  intro c member
  rcases List.mem_append.mp member with zero | written
  · exact isDigit_of_mem_zeros c zero
  · exact Nat.isDigit_of_mem_toDigits (by decide) (by decide) written

theorem numberOfDigits_exponentDigits (width exponent : Nat) :
    Text.numberOfDigits 10 (exponentDigits width exponent) = exponent := by
  rw [exponentDigits, Text.numberOfDigits_append, zeros, Text.numberOfDigits_zeros,
    Text.numberOfDigits_toDigits (by decide) (by decide)]
  omega

/-- The exponent of a number as it is written. -/
def exponentText (width : Nat) (exponent : Int) : List Char :=
  ['e', if exponent < 0 then '-' else '+'] ++ exponentDigits width exponent.natAbs

/-- The exponent behind a mantissa is read back. -/
theorem readExponent_exponentText (width : Nat) (exponent : Int) {rest : List Char}
    (follows : Follows rest) :
    readExponent (exponentText width exponent ++ rest) = (some exponent, rest) := by
  have digits : exponentDigits width exponent.natAbs ≠ [] := by
    simp [exponentDigits, Nat.toDigits_ne_nil]
  have read := readExponent_digits (decide (exponent < 0)) digits exponentDigits_all
    follows.noDigit
  rw [numberOfDigits_exponentDigits] at read
  simp only [decide_eq_true_eq] at read
  rw [exponentText, List.append_assoc, List.cons_append, List.cons_append, List.nil_append, read]
  congr 2
  simp only [Int.ofNat_eq_natCast]
  split <;> omega

/-- A number in positional notation is read as the decimal of its digits. -/
theorem readsAs_positional (negative : Bool) {whole fraction : List Char}
    (digits : Whole whole) (nonempty : fraction ≠ []) (all : ∀ c ∈ fraction, c.isDigit = true) :
    ReadsAs negative (whole ++ '.' :: fraction) (decimalOf (whole ++ fraction) whole.length) := by
  intro rest follows
  have noExponent := readExponent_none fun c first => (follows.plain c first).2
  have some : fraction.isEmpty = false := by simpa using nonempty
  refine ⟨Text.numberOfDigits 10 (whole ++ fraction), -Int.ofNat fraction.length, ?_, ?_⟩
  · rw [List.append_assoc, List.cons_append, readMagnitude?_parts negative digits
      (noDigit_cons rfl _) (readFraction_point nonempty all follows.noDigit) noExponent]
    simp [some]
  · rw [decimalOf, List.length_append]
    congr 2
    simp only [Int.ofNat_eq_natCast]
    omega

section

variable (negative : Bool) (width : Nat) (point : Int) {first : Char}

theorem readsAs_single (digit : first.isDigit = true) :
    ReadsAs negative (first :: exponentText width (point - 1)) (decimalOf [first] point) := by
  intro rest follows
  have exponentRead := readExponent_exponentText width (point - 1) follows
  have whole : Whole [first] := ⟨by simp, by simpa using digit, by simp⟩
  have noFraction : readFraction (exponentText width (point - 1) ++ rest) =
      ([], exponentText width (point - 1) ++ rest) := by
    refine readFraction_none fun c head => ?_
    simp only [exponentText, List.cons_append, List.head?_cons, Option.mem_some_iff] at head
    rw [← head]
    decide
  refine ⟨Text.numberOfDigits 10 [first], point - 1, ?_, rfl⟩
  have read := readMagnitude?_parts negative whole (noDigit_cons rfl _) noFraction exponentRead
  simpa [exponentText] using read

theorem readsAs_several (digit : first.isDigit = true) {fraction : List Char}
    (nonempty : fraction ≠ []) (all : ∀ c ∈ fraction, c.isDigit = true) :
    ReadsAs negative (first :: '.' :: (fraction ++ exponentText width (point - 1)))
      (decimalOf (first :: fraction) point) := by
  intro rest follows
  have exponentRead := readExponent_exponentText width (point - 1) follows
  have whole : Whole [first] := ⟨by simp, by simpa using digit, by simp⟩
  have read := readMagnitude?_parts negative whole (noDigit_cons rfl _)
    (readFraction_point nonempty all (noDigit_cons rfl _)) exponentRead
  refine ⟨Text.numberOfDigits 10 (first :: fraction),
    point - 1 - Int.ofNat fraction.length, ?_, ?_⟩
  · simpa [exponentText] using read
  · rw [decimalOf]
    congr 2
    simp only [List.length_cons, Int.ofNat_eq_natCast]
    omega

end

/-- The digits of a number with an exponent: one before the point, the others behind it. -/
def mantissa : List Char → List Char
  | first :: next :: rest => first :: '.' :: next :: rest
  | single => single

/-- A number with an exponent is read as the decimal of its digits. -/
theorem readsAs_scientific (negative : Bool) {digits : List Char} (width : Nat) (point : Int)
    (significant : Significant digits) :
    ReadsAs negative (mantissa digits ++ exponentText width (point - 1))
      (decimalOf digits point) := by
  match digits, significant with
  | [], significant => exact absurd rfl significant.nonempty
  | [first], significant =>
      exact readsAs_single negative width point (significant.all first List.mem_cons_self)
  | first :: next :: more, significant =>
      exact readsAs_several negative width point (significant.all first List.mem_cons_self)
        (List.cons_ne_nil next more) fun c member =>
          significant.all c (List.mem_cons_of_mem first member)

theorem Significant.take {digits : List Char} (significant : Significant digits) {count : Nat}
    (positive : 0 < count) : Significant (digits.take count) where
  nonempty := by simp [significant.nonempty, positive.ne']
  all c member := significant.all c (List.mem_of_mem_take member)
  leading c first := by
    rw [List.head?_take, if_neg positive.ne'] at first
    exact significant.leading c first

section

variable (negative : Bool) {digits : List Char} {point : Int}

/-- Behind a zero and the point come zeros and all digits. -/
theorem readsAs_behindZero (significant : Significant digits) (small : point ≤ 0) :
    ReadsAs negative ("0.".toList ++ zeros (-point).toNat ++ digits)
      (decimalOf digits point) := by
  have single : Whole ['0'] := ⟨by simp, by simp, by simp⟩
  have all : ∀ c ∈ zeros (-point).toNat ++ digits, c.isDigit = true := fun c member =>
    (List.mem_append.mp member).elim (isDigit_of_mem_zeros c) (significant.all c)
  have read := readsAs_positional negative single (by simp [significant.nonempty]) all
  have value := decimalOf_zeros_append ((-point).toNat + 1) digits 1
  rw [show (1 : Int) - ((-point).toNat + 1 : Nat) = point by omega] at value
  rw [← value]
  simpa [zeros, List.replicate_succ] using read

/-- Zeros fill up the digits to the point. -/
theorem readsAs_filled (significant : Significant digits) (short : digits.length ≤ point.toNat)
    (positive : 0 < point) :
    ReadsAs negative (digits ++ zeros (point.toNat - digits.length) ++ ".0".toList)
      (decimalOf digits point) := by
  have whole : Whole (digits ++ zeros (point.toNat - digits.length)) :=
    significant.whole_append isDigit_of_mem_zeros
  have length : ((digits ++ zeros (point.toNat - digits.length)).length : Int) = point := by
    rw [zeros, List.length_append, List.length_replicate]
    omega
  have read := readsAs_positional negative whole (by simp : ['0'] ≠ []) (by simp)
  rw [show ['0'] = zeros 1 from rfl, decimalOf_append_zeros, decimalOf_append_zeros,
    length] at read
  exact read

/-- The point stands among the digits. -/
theorem readsAs_among (significant : Significant digits) (long : point.toNat < digits.length)
    (positive : 0 < point) :
    ReadsAs negative (digits.take point.toNat ++ ['.'] ++ digits.drop point.toNat)
      (decimalOf digits point) := by
  have whole : Whole (digits.take point.toNat ++ []) :=
    (significant.take (by omega)).whole_append (by simp)
  rw [List.append_nil] at whole
  have nonempty : digits.drop point.toNat ≠ [] := by
    simp only [Ne, List.drop_eq_nil_iff]
    omega
  have all : ∀ c ∈ digits.drop point.toNat, c.isDigit = true := fun c member =>
    significant.all c (List.mem_of_mem_drop member)
  have length : ((digits.take point.toNat).length : Int) = point := by
    rw [List.length_take]
    omega
  have read := readsAs_positional negative whole nonempty all
  rw [List.take_append_drop, length] at read
  simpa using read

end

/-- The layout of digits is read as the decimal that they stand for. -/
theorem readsAs_layout (negative : Bool) {digits : List Char} (point : Int)
    (significant : Significant digits) :
    ReadsAs negative (json.layout digits point) (decimalOf digits point) := by
  unfold layout
  split
  · split
    · exact readsAs_behindZero negative significant ‹_›
    · split
      · exact readsAs_filled negative significant ‹_› (by omega)
      · exact readsAs_among negative significant (by omega) (by omega)
  · have read := readsAs_scientific negative json.exponentWidth point significant
    rw [exponentText, ← List.append_assoc] at read
    exact read

/-! ## Texts of numbers -/

/-- Zeros at the end make up what is trimmed. -/
theorem exists_zeros_of_trimZeros (digits : List Char) :
    ∃ count, digits = trimZeros digits ++ zeros count := by
  have split := List.takeWhile_append_dropWhile (p := (· == '0')) (l := digits.reverse)
  have trailing : digits.reverse.takeWhile (· == '0') =
      zeros (digits.reverse.takeWhile (· == '0')).length := by
    rw [zeros, List.eq_replicate_iff]
    exact ⟨rfl, fun c member => by
      simpa using List.all_eq_true.mp List.all_takeWhile c member⟩
  refine ⟨(digits.reverse.takeWhile (· == '0')).length, ?_⟩
  calc digits = (digits.reverse.takeWhile (· == '0') ++
        digits.reverse.dropWhile (· == '0')).reverse := by rw [split, List.reverse_reverse]
    _ = trimZeros digits ++ (digits.reverse.takeWhile (· == '0')).reverse := by
        rw [List.reverse_append, trimZeros]
    _ = _ := by
        rw [trailing, zeros, List.reverse_replicate, List.length_replicate]
        rfl

theorem Significant.trimZeros {digits : List Char} (significant : Significant digits) :
    Significant (trimZeros digits) := by
  obtain ⟨count, split⟩ := exists_zeros_of_trimZeros digits
  generalize DecimalStyle.trimZeros digits = trimmed at split ⊢
  subst split
  have nonempty : trimmed ≠ [] := by
    rintro rfl
    cases count with
    | zero => exact significant.nonempty rfl
    | succ count => exact significant.leading '0' rfl rfl
  refine ⟨nonempty, fun c member => significant.all c (List.mem_append_left _ member), ?_⟩
  intro c first
  refine significant.leading c ?_
  cases trimmed with
  | nil => exact absurd rfl nonempty
  | cons d more => simpa using first

theorem significant_toDigits {n : Nat} (positive : 0 < n) : Significant (Nat.toDigits 10 n) where
  nonempty := Nat.toDigits_ne_nil
  all _ member := Nat.isDigit_of_mem_toDigits (by decide) (by decide) member
  leading := Text.head?_toDigits (by decide) positive

/-- The text of a finite number other than zero is read as a decimal that rounds to it. -/
theorem readsAs_magnitudeText {number : Binary64} (negative : Bool)
    (finite : number.isFinite = true) (nonzero : number.rank.val ≠ 0) :
    ReadsAs negative (json.magnitudeText number).toList
      (number.shortestDigits.1 * 10 ^ number.shortestDigits.2) := by
  have isNumber : number.isNotANumber = false ∧ number.isInfinite = false := by
    simp only [Binary64.isFinite, Binary64.isNotANumber, Binary64.isInfinite, decide_eq_true_eq,
      decide_eq_false_iff_not] at finite ⊢
    omega
  have positive : 0 < number.shortestDigits.1 := by
    have quotient_pos := (Binary64.nearest_shortestDigits nonzero).pos nonzero
    rcases Nat.eq_zero_or_pos number.shortestDigits.1 with none | some
    · simp [none] at quotient_pos
    · exact some
  have significant := significant_toDigits positive
  obtain ⟨count, split⟩ := exists_zeros_of_trimZeros (Nat.toDigits 10 number.shortestDigits.1)
  have read := readsAs_layout negative (number.shortestDigits.2 +
    Int.ofNat (Nat.toDigits 10 number.shortestDigits.1).length) significant.trimZeros
  have value : decimalOf (trimZeros (Nat.toDigits 10 number.shortestDigits.1))
      (number.shortestDigits.2 + Int.ofNat (Nat.toDigits 10 number.shortestDigits.1).length) =
        number.shortestDigits.1 * 10 ^ number.shortestDigits.2 := by
    rw [← decimalOf_append_zeros _ count, ← split, decimalOf,
      Text.numberOfDigits_toDigits (by decide) (by decide)]
    congr 2
    simp only [Int.ofNat_eq_natCast]
    omega
  rw [value] at read
  rw [magnitudeText, isNumber.1, isNumber.2]
  simpa [nonzero] using read

end DecimalStyle

namespace Json

open DecimalStyle

/-! ## Scalars -/

theorem ne_of_isDigit {c other : Char} (digit : c.isDigit = true)
    (letter : other.isDigit = false) : other ≠ c := by
  rintro rfl
  rw [digit] at letter
  contradiction

/-- What begins with a digit is read as a number. -/
theorem readScalar?_of_digit {c : Char} {text : List Char} (digit : c.isDigit = true) :
    readScalar? (c :: text) = readMagnitude? false (c :: text) := by
  have notMinus : c ≠ '-' := (ne_of_isDigit digit rfl).symm
  simp [readScalar?, afterWord?, List.isPrefixOf, ne_of_isDigit digit (rfl : 'n'.isDigit = _),
    ne_of_isDigit digit (rfl : 't'.isDigit = _), ne_of_isDigit digit (rfl : 'f'.isDigit = _),
    ne_of_isDigit digit (rfl : 'N'.isDigit = _), ne_of_isDigit digit (rfl : 'I'.isDigit = _),
    notMinus.symm]
  split
  · rename_i rest same
    exact absurd (List.cons.inj same).1 notMinus
  · rfl

theorem readScalar?_of_minus {c : Char} {text : List Char} (digit : c.isDigit = true) :
    readScalar? ('-' :: c :: text) = readMagnitude? true (c :: text) := by
  simp [readScalar?, afterWord?, List.isPrefixOf, ne_of_isDigit digit (rfl : 'I'.isDigit = _)]

/-- The text of an absolute value begins with a digit. -/
theorem exists_digit_of_readMagnitude? {negative : Bool} {text : List Char}
    {result : Json × List Char} (read : readMagnitude? negative text = some result) :
    ∃ c rest, text = c :: rest ∧ c.isDigit = true := by
  cases text with
  | nil => simp [readMagnitude?] at read
  | cons c rest =>
      refine ⟨c, rest, rfl, ?_⟩
      by_cases zero : c = '0'
      · rw [zero]
        rfl
      · by_contra other
        have none : (c :: rest).takeWhile Char.isDigit = [] := by
          rw [List.takeWhile_cons_of_neg other]
        simp [readMagnitude?, none, zero] at read

/-- An integer is read back. -/
theorem readMagnitude?_toDigits (negative : Bool) (n : Nat) {rest : List Char}
    (follows : Follows rest) :
    readMagnitude? negative (Nat.toDigits 10 n ++ rest) =
      some (.int (if negative then -Int.ofNat n else Int.ofNat n), rest) := by
  have whole : Whole (Nat.toDigits 10 n) := by
    rcases Nat.eq_zero_or_pos n with rfl | positive
    · exact ⟨by simp, by simp, by simp⟩
    · have whole := (significant_toDigits positive).whole_append (List.forall_mem_nil _)
      rwa [List.append_nil] at whole
  rw [readMagnitude?_parts negative whole follows.noDigit
    (readFraction_none fun c first => (follows.plain c first).1)
    (readExponent_none fun c first => (follows.plain c first).2),
    Text.numberOfDigits_toDigits (by decide) (by decide)]
  simp

/-- A number is read behind its sign. -/
theorem readScalar?_of_readMagnitude? {negative : Bool} {text : List Char}
    {result : Json × List Char} (read : readMagnitude? negative text = some result) :
    readScalar? ((if negative then ['-'] else []) ++ text) = some result := by
  obtain ⟨c, rest, rfl, digit⟩ := exists_digit_of_readMagnitude? read
  cases negative with
  | true => exact (readScalar?_of_minus digit).trans read
  | false => exact (readScalar?_of_digit digit).trans read

theorem readScalar?_int (value : Int) {rest : List Char} (follows : Follows rest) :
    readScalar? ((toString value).toList ++ rest) = some (.int value, rest) := by
  rw [Int.toString_eq_repr]
  cases value with
  | ofNat n =>
      have read := readScalar?_of_readMagnitude? (readMagnitude?_toDigits false n follows)
      rw [show (Int.ofNat n).repr = n.repr from rfl, Nat.toList_repr]
      simpa using read
  | negSucc n =>
      have read := readScalar?_of_readMagnitude? (readMagnitude?_toDigits true (n + 1) follows)
      rw [show (Int.negSucc n).repr = "-" ++ (n + 1).repr from rfl, String.toList_append,
        Nat.toList_repr]
      simpa [Int.negSucc_eq] using read

theorem toList_text {number : Binary64} (isNumber : number.isNotANumber = false) :
    (json.text number).toList =
      (if number.negative then ['-'] else []) ++ (json.magnitudeText number).toList := by
  rw [text, isNumber]
  cases number.negative <;> simp

section

variable {number : Binary64} {rest : List Char}

theorem readScalar?_infinite (infinite : number.isInfinite = true) :
    readScalar? ((json.text number).toList ++ rest) = some (.float number, rest) := by
  have same : number = .infinity number.negative := by
    rw [Binary64.isInfinite, decide_eq_true_eq] at infinite
    have isNumber : number.isNotANumber = false := by simp [Binary64.isNotANumber, infinite]
    rw [Binary64.infinity, ← infinite, Binary64.ofRank_rank isNumber]
  rw [same]
  cases number.negative <;> rfl

/-- A zero keeps its sign. -/
theorem readScalar?_zero (zero : number.rank.val = 0) (follows : Follows rest) :
    readScalar? ((json.text number).toList ++ rest) = some (.float number, rest) := by
  have isNumber : number.isNotANumber = false := by simp [Binary64.isNotANumber, zero]
  have finite : number.isInfinite = false := by
    rw [Binary64.isInfinite, zero]
    rfl
  have whole : Whole ['0'] := ⟨by simp, by simp, by simp⟩
  obtain ⟨digits, exponent, read, value⟩ :=
    readsAs_positional number.negative whole (by simp : ['0'] ≠ []) (by simp) rest follows
  have none : digits = 0 := by
    have nothing : decimalOf (['0'] ++ ['0']) (['0'] : List Char).length = 0 := by
      rw [decimalOf, show Text.numberOfDigits 10 (['0'] ++ ['0']) = 0 by decide]
      simp
    have power : (10 : ℚ) ^ exponent ≠ 0 := by positivity
    rw [nothing] at value
    simpa [power] using value
  have same : Binary64.ofDecimal number.negative digits exponent = number := by
    rw [Binary64.ofDecimal, none, if_pos rfl, ← zero, Binary64.ofRank_rank isNumber]
  have written : (json.magnitudeText number).toList = ['0'] ++ '.' :: ['0'] := by
    rw [magnitudeText, isNumber, finite, zero, if_neg (by decide), if_neg (by decide), if_pos rfl]
    decide
  rw [same] at read
  rw [toList_text isNumber, List.append_assoc, written]
  exact readScalar?_of_readMagnitude? read

theorem readScalar?_finite (finite : number.isFinite = true) (nonzero : number.rank.val ≠ 0)
    (follows : Follows rest) :
    readScalar? ((json.text number).toList ++ rest) = some (.float number, rest) := by
  obtain ⟨digits, exponent, read, value⟩ :=
    readsAs_magnitudeText number.negative finite nonzero rest follows
  have nearest := Binary64.nearest_shortestDigits nonzero
  rw [← value] at nearest
  rw [Binary64.ofDecimal_eq finite nonzero nearest] at read
  rw [toList_text (Binary64.isNotANumber_of_isFinite finite), List.append_assoc]
  exact readScalar?_of_readMagnitude? read

/-- A floating-point number is read back. -/
theorem readScalar?_float (isNumber : number.isNotANumber = false) (follows : Follows rest) :
    readScalar? ((json.text number).toList ++ rest) = some (.float number, rest) := by
  by_cases infinite : number.isInfinite = true
  · exact readScalar?_infinite infinite
  · by_cases zero : number.rank.val = 0
    · exact readScalar?_zero zero follows
    · refine readScalar?_finite ?_ zero follows
      simp only [Binary64.isFinite, Binary64.isNotANumber, Binary64.isInfinite, decide_eq_true_eq,
        decide_eq_false_iff_not] at isNumber infinite ⊢
      omega

end

end Json

end TypeCatalog
