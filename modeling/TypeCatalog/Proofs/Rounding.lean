import Mathlib.Algebra.Order.Field.Power
import Mathlib.Data.Int.Log
import Mathlib.Data.Rat.Floor
import Mathlib.Tactic.FieldSimp
import Mathlib.Tactic.Linarith
import Mathlib.Tactic.Positivity
import Mathlib.Tactic.Ring
import TypeCatalog.Number.Decimal

/-! # Rounding to floating-point numbers

The rank of a quotient depends on its value only, and a quotient between the halfway points around a
number has the rank of that number (`TypeCatalog.Binary64.rankOfQuotient_eq`). Quotients are
rational numbers here; the powers that the program forms as natural numbers are powers with integer
exponents.
-/

namespace TypeCatalog.Binary64

/-! ## Scaled quotients -/

theorem zpow_eq_div (base : Nat) (positive : 0 < base) (exponent : Int) :
    (base : ℚ) ^ exponent = (base : ℚ) ^ exponent.toNat / (base : ℚ) ^ (-exponent).toNat := by
  have nonzero : (base : ℚ) ≠ 0 := by positivity
  rw [← zpow_natCast, ← zpow_natCast, ← zpow_sub₀ nonzero]
  congr 1
  omega

/-- Scaling a quotient by natural powers divides it by the power with an integer exponent. -/
theorem scaled_quotient {base : Nat} (positive : 0 < base) (numerator denominator : Nat)
    (exponent : Int) :
    ((numerator * base ^ (-exponent).toNat : Nat) : ℚ) /
      ((denominator * base ^ exponent.toNat : Nat) : ℚ) =
        (numerator / denominator : ℚ) / (base : ℚ) ^ exponent := by
  rw [zpow_eq_div base positive]
  push_cast
  field_simp

theorem scaled_lt_iff {base numerator denominator : Nat} (positive : 0 < base)
    (nonzero : 0 < denominator) (exponent : Int) :
    numerator * base ^ (-exponent).toNat < denominator * base ^ exponent.toNat ↔
      (numerator / denominator : ℚ) < (base : ℚ) ^ exponent := by
  have power : (0 : ℚ) < (base : ℚ) ^ exponent := by positivity
  have divisor : (0 : ℚ) < ((denominator * base ^ exponent.toNat : Nat) : ℚ) := by positivity
  rw [← one_mul ((base : ℚ) ^ exponent), ← div_lt_iff₀ power, ← scaled_quotient positive,
    div_lt_one divisor, Nat.cast_lt]

theorem natPow_div_natPow {base : Nat} (positive : 0 < base) (above below : Nat) :
    (base : ℚ) ^ above / (base : ℚ) ^ below = (base : ℚ) ^ ((above : Int) - below) := by
  have nonzero : (base : ℚ) ≠ 0 := by positivity
  rw [zpow_sub₀ nonzero, zpow_natCast, zpow_natCast]

section

variable {base numerator denominator above below : Nat}

/-- The orders of its parts leave two orders for a quotient. -/
theorem quotient_bounds (positive : 0 < base)
    (numeratorLow : base ^ above ≤ numerator) (numeratorHigh : numerator < base ^ (above + 1))
    (denominatorLow : base ^ below ≤ denominator)
    (denominatorHigh : denominator < base ^ (below + 1)) :
    (base : ℚ) ^ ((above : Int) - below - 1) ≤ numerator / denominator ∧
      (numerator / denominator : ℚ) < (base : ℚ) ^ ((above : Int) - below + 1) := by
  have denominator_pos : 0 < denominator := Nat.lt_of_lt_of_le (by positivity) denominatorLow
  have low := natPow_div_natPow positive above (below + 1)
  have high := natPow_div_natPow positive (above + 1) below
  push_cast at low high
  rw [← sub_sub] at low
  rw [add_sub_right_comm] at high
  rw [← low, ← high]
  constructor
  · apply div_le_div₀
    · positivity
    · exact_mod_cast numeratorLow
    · positivity
    · exact_mod_cast denominatorHigh.le
  · apply div_lt_div₀
    · exact_mod_cast numeratorHigh
    · exact_mod_cast denominatorLow
    · positivity
    · positivity

/-- The order of a quotient, estimated from those of its parts and corrected by one comparison. -/
theorem order_eq_log (two : 1 < base)
    (numeratorLow : base ^ above ≤ numerator) (numeratorHigh : numerator < base ^ (above + 1))
    (denominatorLow : base ^ below ≤ denominator)
    (denominatorHigh : denominator < base ^ (below + 1)) {estimate : Int}
    (estimated : estimate = (above : Int) - below) :
    (if numerator * base ^ (-estimate).toNat < denominator * base ^ estimate.toNat
      then estimate - 1 else estimate) = Int.log base (numerator / denominator : ℚ) := by
  have base_pos : 0 < base := by omega
  have numerator_pos : 0 < numerator := Nat.lt_of_lt_of_le (by positivity) numeratorLow
  have denominator_pos : 0 < denominator := Nat.lt_of_lt_of_le (by positivity) denominatorLow
  have quotient_pos : (0 : ℚ) < numerator / denominator := by positivity
  obtain ⟨low, high⟩ :=
    quotient_bounds base_pos numeratorLow numeratorHigh denominatorLow denominatorHigh
  rw [← estimated, Int.zpow_le_iff_le_log two quotient_pos] at low
  rw [← estimated, Int.lt_zpow_iff_log_lt two quotient_pos] at high
  by_cases smaller : (numerator / denominator : ℚ) < (base : ℚ) ^ estimate
  · rw [if_pos ((scaled_lt_iff base_pos denominator_pos estimate).mpr smaller)]
    rw [Int.lt_zpow_iff_log_lt two quotient_pos] at smaller
    omega
  · rw [if_neg fun less => smaller ((scaled_lt_iff base_pos denominator_pos estimate).mp less)]
    rw [not_lt, Int.zpow_le_iff_le_log two quotient_pos] at smaller
    omega

end

theorem binaryOrder_eq {numerator denominator : Nat} (numerator_pos : 0 < numerator)
    (denominator_pos : 0 < denominator) :
    binaryOrder numerator denominator = Int.log 2 (numerator / denominator : ℚ) :=
  order_eq_log (by decide) (Nat.log2_self_le numerator_pos.ne') Nat.lt_log2_self
    (Nat.log2_self_le denominator_pos.ne') Nat.lt_log2_self rfl

theorem decimalLength_pos (n : Nat) : 0 < decimalLength n := Nat.length_toDigits_pos

theorem lt_pow_decimalLength (n : Nat) : n < 10 ^ decimalLength n :=
  (Nat.length_toDigits_le_iff (by decide) (decimalLength_pos n)).mp (Nat.le_refl _)

theorem pow_decimalLength_le {n : Nat} (positive : 0 < n) : 10 ^ (decimalLength n - 1) ≤ n := by
  by_contra less
  rw [Nat.not_le] at less
  rcases Nat.eq_zero_or_pos (decimalLength n - 1) with single | several
  · rw [single] at less
    omega
  · have shorter := (Nat.length_toDigits_le_iff (by decide) several).mpr less
    rw [← decimalLength] at shorter
    omega

theorem decimalOrder_eq {numerator denominator : Nat} (numerator_pos : 0 < numerator)
    (denominator_pos : 0 < denominator) :
    decimalOrder numerator denominator = Int.log 10 (numerator / denominator : ℚ) := by
  have numeratorDigits := decimalLength_pos numerator
  have denominatorDigits := decimalLength_pos denominator
  apply order_eq_log (by decide) (pow_decimalLength_le numerator_pos)
  · rw [Nat.sub_add_cancel numeratorDigits]
    exact lt_pow_decimalLength numerator
  · exact pow_decimalLength_le denominator_pos
  · rw [Nat.sub_add_cancel denominatorDigits]
    exact lt_pow_decimalLength denominator
  · simp only [Int.ofNat_eq_natCast]
    omega

/-! ## Rounding to integers -/

/-- An integer at most half away from a quotient is its whole part or the next integer. -/
theorem eq_or_eq_succ_of_half {quotient remainder denominator nearest : Nat}
    (part : remainder < denominator)
    (low : 2 * nearest * denominator ≤ 2 * (denominator * quotient + remainder) + denominator)
    (high : 2 * (denominator * quotient + remainder) ≤ 2 * nearest * denominator + denominator) :
    nearest = quotient ∨ nearest = quotient + 1 := by
  have notBelow : quotient ≤ nearest := by
    by_contra below
    have step : (nearest + 1) * denominator ≤ quotient * denominator :=
      Nat.mul_le_mul_right _ (by omega)
    nlinarith
  have notAbove : nearest ≤ quotient + 1 := by
    by_contra above
    have step : (quotient + 2) * denominator ≤ nearest * denominator :=
      Nat.mul_le_mul_right _ (by omega)
    nlinarith
  omega

/-- A quotient at most half away from an integer, and less unless the integer is even, is rounded to
it. -/
theorem roundHalfEven_eq {numerator denominator nearest : Nat} (positive : 0 < denominator)
    (low : 2 * nearest * denominator ≤ 2 * numerator + denominator)
    (high : 2 * numerator ≤ 2 * nearest * denominator + denominator)
    (ties : nearest % 2 = 0 ∨ 2 * nearest * denominator < 2 * numerator + denominator ∧
      2 * numerator < 2 * nearest * denominator + denominator) :
    roundHalfEven numerator denominator = nearest := by
  have whole := Nat.div_add_mod numerator denominator
  have part := Nat.mod_lt numerator positive
  rw [roundHalfEven]
  generalize numerator / denominator = quotient at whole ⊢
  generalize numerator % denominator = remainder at whole part ⊢
  subst whole
  rcases eq_or_eq_succ_of_half part low high with rfl | rfl
  · have below : 2 * remainder ≤ denominator := by nlinarith
    have tie : nearest % 2 = 0 ∨ 2 * remainder < denominator := by
      rcases ties with even | ⟨_, strict⟩
      · exact Or.inl even
      · exact Or.inr (by nlinarith)
    split
    · rfl
    · rw [if_neg (by omega)]
      omega
  · have above : denominator ≤ 2 * remainder := by nlinarith
    have tie : (quotient + 1) % 2 = 0 ∨ denominator < 2 * remainder := by
      rcases ties with even | ⟨strict, _⟩
      · exact Or.inl even
      · exact Or.inr (by nlinarith)
    rw [if_neg (by omega)]
    split
    · rfl
    · omega

theorem roundHalfEven_of_quotient {numerator denominator nearest : Nat} (positive : 0 < denominator)
    (low : (nearest : ℚ) - 1 / 2 ≤ numerator / denominator)
    (high : (numerator / denominator : ℚ) ≤ nearest + 1 / 2)
    (ties : nearest % 2 = 0 ∨ (nearest : ℚ) - 1 / 2 < numerator / denominator ∧
      (numerator / denominator : ℚ) < nearest + 1 / 2) :
    roundHalfEven numerator denominator = nearest := by
  have divisor : (0 : ℚ) < denominator := by exact_mod_cast positive
  rw [le_div_iff₀ divisor] at low
  rw [div_le_iff₀ divisor] at high
  rw [lt_div_iff₀ divisor, div_lt_iff₀ divisor] at ties
  apply roundHalfEven_eq positive
  · have doubled : (2 * nearest * denominator : ℚ) ≤ 2 * numerator + denominator := by linarith
    exact_mod_cast doubled
  · have doubled : (2 * numerator : ℚ) ≤ 2 * nearest * denominator + denominator := by linarith
    exact_mod_cast doubled
  · refine ties.imp_right fun ⟨strictLow, strictHigh⟩ => ⟨?_, ?_⟩
    · have doubled : (2 * nearest * denominator : ℚ) < 2 * numerator + denominator := by linarith
      exact_mod_cast doubled
    · have doubled : (2 * numerator : ℚ) < 2 * nearest * denominator + denominator := by linarith
      exact_mod_cast doubled

/-! ## Rounding to numbers -/

theorem rank_eq {number : Binary64} : number.rank.val =
    number.significand + (number.exponent + 1074).toNat * twoTo 52 := by
  have unit : twoTo 52 = 4503599627370496 := rfl
  rw [significand, exponent, unit]
  split
  · omega
  · simp only [Int.ofNat_eq_natCast]
    omega

theorem significand_lt (number : Binary64) : number.significand < 2 ^ 53 := by
  have unit : twoTo 52 = 4503599627370496 := rfl
  rw [significand, unit]
  split <;> omega

theorem significand_pos {number : Binary64} (nonzero : number.rank.val ≠ 0) :
    0 < number.significand := by
  have unit : twoTo 52 = 4503599627370496 := rfl
  rw [significand, unit]
  split <;> omega

/-- Above the least exponent significands have their full width. -/
theorem exponent_cases (number : Binary64) :
    number.exponent = -1074 ∨ -1074 ≤ number.exponent ∧ 2 ^ 52 ≤ number.significand := by
  have unit : twoTo 52 = 4503599627370496 := rfl
  rw [exponent, significand, unit]
  split
  · exact Or.inl rfl
  · refine Or.inr ⟨?_, by omega⟩
    simp only [Int.ofNat_eq_natCast]
    omega

theorem exponent_le {number : Binary64} (finite : number.isFinite = true) :
    number.exponent ≤ 971 := by
  have unit : twoTo 52 = 4503599627370496 := rfl
  rw [isFinite, decide_eq_true_eq, infiniteRank, unit] at finite
  rw [exponent, unit]
  split
  · decide
  · simp only [Int.ofNat_eq_natCast]
    omega

theorem lowerGap_cases (number : Binary64) :
    number.lowerGap = 2 ∧ (-1074 < number.exponent → number.significand ≠ 2 ^ 52) ∨
      number.lowerGap = 1 ∧ number.significand = 2 ^ 52 ∧ -1074 < number.exponent := by
  rw [lowerGap]
  split
  · rename_i least
    exact Or.inr ⟨rfl, least⟩
  · rename_i other
    exact Or.inl ⟨rfl, fun higher exact => other ⟨exact, higher⟩⟩

theorem lowerGap_le (number : Binary64) : (number.lowerGap : ℚ) ≤ 2 := by
  rcases number.lowerGap_cases with ⟨two, _⟩ | ⟨one, _⟩
  · rw [two]
    norm_num
  · rw [one]
    norm_num

/-- The absolute value of a finite number. -/
def magnitude (number : Binary64) : ℚ := number.significand * 2 ^ number.exponent

/-- A quotient lies between the halfway points to the neighbours of a number, in quarters of a unit
in the last place; the points themselves count when the significand is even. -/
def Nearest (number : Binary64) (quotient : ℚ) : Prop :=
  let quarters := 4 * (quotient / 2 ^ number.exponent)
  if number.significand % 2 = 0 then
    4 * (number.significand : ℚ) - number.lowerGap ≤ quarters ∧
      quarters ≤ 4 * (number.significand : ℚ) + 2
  else
    4 * (number.significand : ℚ) - number.lowerGap < quarters ∧
      quarters < 4 * (number.significand : ℚ) + 2

namespace Nearest

variable {number : Binary64} {quotient : ℚ}

theorem bounds (nearest : number.Nearest quotient) :
    4 * (number.significand : ℚ) - number.lowerGap ≤ 4 * (quotient / 2 ^ number.exponent) ∧
      4 * (quotient / 2 ^ number.exponent) ≤ 4 * (number.significand : ℚ) + 2 := by
  rw [Nearest] at nearest
  split at nearest
  · exact nearest
  · exact ⟨nearest.1.le, nearest.2.le⟩

theorem strict_of_odd (nearest : number.Nearest quotient) (odd : number.significand % 2 ≠ 0) :
    4 * (number.significand : ℚ) - number.lowerGap < 4 * (quotient / 2 ^ number.exponent) ∧
      4 * (quotient / 2 ^ number.exponent) < 4 * (number.significand : ℚ) + 2 := by
  rwa [Nearest, if_neg odd] at nearest

/-- What is strictly between the halfway points lies between them in any case. -/
theorem of_strict
    (low : 4 * (number.significand : ℚ) - number.lowerGap < 4 * (quotient / 2 ^ number.exponent))
    (high : 4 * (quotient / 2 ^ number.exponent) < 4 * (number.significand : ℚ) + 2) :
    number.Nearest quotient := by
  rw [Nearest]
  split
  · exact ⟨low.le, high.le⟩
  · exact ⟨low, high⟩

theorem scaled_pos (nearest : number.Nearest quotient) (nonzero : number.rank.val ≠ 0) :
    1 / 2 ≤ quotient / 2 ^ number.exponent := by
  have positive : (1 : ℚ) ≤ number.significand := by exact_mod_cast significand_pos nonzero
  linarith [nearest.bounds.1, number.lowerGap_le]

theorem scaled_lt (nearest : number.Nearest quotient) :
    quotient / 2 ^ number.exponent < 2 ^ 53 := by
  have width : (number.significand : ℚ) + 1 ≤ 2 ^ 53 := by exact_mod_cast number.significand_lt
  linarith [nearest.bounds.2]

theorem pos (nearest : number.Nearest quotient) (nonzero : number.rank.val ≠ 0) :
    0 < quotient := by
  have unit : (0 : ℚ) < 2 ^ number.exponent := by positivity
  refine (div_pos_iff_of_pos_right unit).mp ?_
  linarith [nearest.scaled_pos nonzero]

end Nearest

/-- The order of a scaled quotient is that of the quotient less the exponent. -/
theorem log_scaled {quotient : ℚ} (positive : 0 < quotient) (exponent order : Int)
    (low : (2 : ℚ) ^ order ≤ quotient / 2 ^ exponent)
    (high : quotient / 2 ^ exponent < (2 : ℚ) ^ (order + 1)) :
    Int.log 2 quotient = order + exponent := by
  have unit : (0 : ℚ) < 2 ^ exponent := by positivity
  rw [le_div_iff₀ unit, ← zpow_add₀ (by norm_num)] at low
  rw [div_lt_iff₀ unit, ← zpow_add₀ (by norm_num)] at high
  have least := (Int.zpow_le_iff_le_log (by decide : 1 < 2) positive).mp (by exact_mod_cast low)
  have greatest := (Int.lt_zpow_iff_log_lt (by decide : 1 < 2) positive).mp (by exact_mod_cast high)
  omega

/-- A quotient near a number is measured in the unit of the number, or in half of it when the number
is the least with its exponent and the quotient is below. -/
theorem Nearest.unit_cases {number : Binary64} {quotient : ℚ} (nearest : number.Nearest quotient)
    (nonzero : number.rank.val ≠ 0) :
    max (Int.log 2 quotient - 52) (-1074) = number.exponent ∨
      number.significand = 2 ^ 52 ∧ -1074 < number.exponent ∧
      max (Int.log 2 quotient - 52) (-1074) = number.exponent - 1 ∧
      2 ^ 52 - 1 / 4 ≤ quotient / 2 ^ number.exponent ∧
      quotient / 2 ^ number.exponent < 2 ^ 52 := by
  have positive := nearest.pos nonzero
  have unit : (0 : ℚ) < 2 ^ number.exponent := by positivity
  have small : Int.log 2 quotient < 53 + number.exponent := by
    refine (Int.lt_zpow_iff_log_lt (by decide : 1 < 2) positive).mp ?_
    rw [Nat.cast_ofNat, zpow_add₀ (by norm_num), ← div_lt_iff₀ unit]
    exact_mod_cast nearest.scaled_lt
  rcases number.exponent_cases with least | ⟨above, full⟩
  · exact Or.inl (by omega)
  · have wide : (2 : ℚ) ^ 52 ≤ number.significand := by exact_mod_cast full
    have low := nearest.bounds.1
    by_cases reached : (2 : ℚ) ^ 52 ≤ quotient / 2 ^ number.exponent
    · have order := log_scaled positive number.exponent 52 (by exact_mod_cast reached)
        (by exact_mod_cast nearest.scaled_lt)
      exact Or.inl (by omega)
    · -- below the power of two, only the number that is the power itself is near
      rw [not_le] at reached
      rcases number.lowerGap_cases with ⟨two, notLeast⟩ | ⟨one, exact, higher⟩
      · by_cases higher : -1074 < number.exponent
        · have next : (2 : ℚ) ^ 52 + 1 ≤ number.significand := by
            have different := notLeast higher
            exact_mod_cast (by omega : 2 ^ 52 + 1 ≤ number.significand)
          rw [two, Nat.cast_ofNat] at low
          linarith
        · exact Or.inl (by omega)
      · rw [one, exact] at low
        have order := log_scaled positive number.exponent 51 (by norm_num at low ⊢; linarith)
          (by exact_mod_cast reached)
        refine Or.inr ⟨exact, higher, by omega, ?_, reached⟩
        norm_num at low ⊢
        linarith

section

variable {number : Binary64} {numerator denominator : Nat}

/-- The quotient that is rounded to an integer, in units of a power of two. -/
theorem scaled_twoTo (numerator denominator : Nat) (exponent : Int) :
    ((numerator * twoTo (-exponent).toNat : Nat) : ℚ) /
      ((denominator * twoTo exponent.toNat : Nat) : ℚ) =
        (numerator / denominator : ℚ) / 2 ^ exponent :=
  scaled_quotient (by decide) numerator denominator exponent

theorem mul_twoTo_pos (positive : 0 < denominator) (exponent : Nat) :
    0 < denominator * twoTo exponent := Nat.mul_pos positive (Nat.pow_pos (by decide))

/-- In units of its last place, what is nearest to a number is rounded to its significand. -/
theorem Nearest.roundHalfEven_eq (nearest : number.Nearest (numerator / denominator))
    (positive : 0 < denominator) :
    roundHalfEven (numerator * twoTo (-number.exponent).toNat)
      (denominator * twoTo number.exponent.toNat) = number.significand := by
  apply roundHalfEven_of_quotient (mul_twoTo_pos positive _)
  · rw [scaled_twoTo]
    linarith [nearest.bounds.1, number.lowerGap_le]
  · rw [scaled_twoTo]
    linarith [nearest.bounds.2]
  · rw [scaled_twoTo]
    by_cases even : number.significand % 2 = 0
    · exact Or.inl even
    · have strict := nearest.strict_of_odd even
      exact Or.inr ⟨by linarith [strict.1, number.lowerGap_le], by linarith [strict.2]⟩

/-- Just below a power of two the units are halved, and rounding goes up to the power. -/
theorem roundHalfEven_of_half (positive : 0 < denominator) (exponent : Int)
    (low : 2 ^ 52 - 1 / 4 ≤ (numerator / denominator : ℚ) / 2 ^ exponent)
    (high : (numerator / denominator : ℚ) / 2 ^ exponent < 2 ^ 52) :
    roundHalfEven (numerator * twoTo (-(exponent - 1)).toNat)
      (denominator * twoTo (exponent - 1).toNat) = 2 ^ 53 := by
  have doubled : (numerator / denominator : ℚ) / 2 ^ (exponent - 1) =
      2 * ((numerator / denominator : ℚ) / 2 ^ exponent) := by
    rw [zpow_sub₀ (by norm_num), zpow_one]
    field_simp
  apply roundHalfEven_of_quotient (mul_twoTo_pos positive _)
  · rw [scaled_twoTo, doubled]
    norm_num at low ⊢
    linarith
  · rw [scaled_twoTo, doubled]
    norm_num at high ⊢
    linarith
  · exact Or.inl (by decide)

/-- **Rounding back.** A quotient between the halfway points around a number is rounded to it. -/
theorem rankOfQuotient_eq (nonzero : number.rank.val ≠ 0) (denominator_pos : 0 < denominator)
    (nearest : number.Nearest (numerator / denominator)) :
    rankOfQuotient numerator denominator = number.rank.val := by
  have positive := nearest.pos nonzero
  have numerator_pos : 0 < numerator := by
    rcases Nat.eq_zero_or_pos numerator with none | some
    · simp [none] at positive
    · exact some
  rw [rankOfQuotient, if_neg numerator_pos.ne', binaryOrder_eq numerator_pos denominator_pos,
    rank_eq]
  rcases nearest.unit_cases nonzero with same | ⟨least, higher, half, low, high⟩
  · simp only [same, nearest.roundHalfEven_eq denominator_pos]
  · -- the carry out of the significand makes up for the smaller exponent
    simp only [half, roundHalfEven_of_half denominator_pos _ low high, least]
    rw [show twoTo 52 = 4503599627370496 from rfl]
    omega

end

end TypeCatalog.Binary64
