import TypeCatalog.Proofs.Rounding

/-! # Shortest decimals

The candidates for the decimal of a number are compared with the halfway points around it as natural
numbers; a candidate that passes lies between them. The multiple of the last place that is nearest
to a number is off by half of that place at most, and with seventeen digits that is less than half
the distance to the neighbours, so the search ends
(`TypeCatalog.Binary64.nearest_shortestDigits`) and the decimal reads back as the number
(`TypeCatalog.Binary64.ofDecimal_eq`).
-/

namespace TypeCatalog.Binary64

variable {number : Binary64}

/-! ## Reading decimals back -/

theorem decimal_bounds {digits : Nat} (positive : 0 < digits) (exponent : Int) :
    (10 : ℚ) ^ (exponent + decimalLength digits - 1) ≤ digits * 10 ^ exponent ∧
      (digits * 10 ^ exponent : ℚ) < 10 ^ (exponent + decimalLength digits) := by
  have length := decimalLength_pos digits
  have shortest : (10 : ℚ) ^ (decimalLength digits - 1) ≤ digits := by
    exact_mod_cast pow_decimalLength_le positive
  have longest : (digits : ℚ) < 10 ^ decimalLength digits := by
    exact_mod_cast lt_pow_decimalLength digits
  constructor
  · rw [show exponent + decimalLength digits - 1 =
      ((decimalLength digits - 1 : Nat) : Int) + exponent by omega, zpow_add₀ (by norm_num),
      zpow_natCast]
    gcongr
  · rw [add_comm, zpow_add₀ (by norm_num), zpow_natCast]
    gcongr

theorem Nearest.lt_pow {quotient : ℚ} (nearest : number.Nearest quotient)
    (finite : number.isFinite = true) : quotient < 2 ^ (1024 : Int) := by
  have unit : (0 : ℚ) < 2 ^ number.exponent := by positivity
  have scaled := nearest.scaled_lt
  rw [div_lt_iff₀ unit] at scaled
  calc quotient < 2 ^ 53 * 2 ^ number.exponent := scaled
    _ = 2 ^ (53 + number.exponent) := by
      rw [zpow_add₀ (by norm_num)]
      norm_num
    _ ≤ 2 ^ (1024 : Int) := by
      have bound := exponent_le finite
      exact zpow_le_zpow_right₀ (by norm_num) (by omega)

theorem Nearest.pow_le {quotient : ℚ} (nearest : number.Nearest quotient)
    (nonzero : number.rank.val ≠ 0) : (2 : ℚ) ^ (-1075 : Int) ≤ quotient := by
  have unit : (0 : ℚ) < 2 ^ number.exponent := by positivity
  have least : -1074 ≤ number.exponent := by
    rcases number.exponent_cases with same | ⟨higher, _⟩
    · omega
    · exact higher
  have scaled := nearest.scaled_pos nonzero
  rw [le_div_iff₀ unit] at scaled
  calc (2 : ℚ) ^ (-1075 : Int) = 1 / 2 * 2 ^ (-1074 : Int) := by
        rw [show (-1075 : Int) = -1 + -1074 by norm_num, zpow_add₀ (by norm_num)]
        norm_num
    _ ≤ 1 / 2 * 2 ^ number.exponent := by
        gcongr
        norm_num
    _ ≤ quotient := scaled

/-- Decimals near a number are not so large or small that they are decided by their order. -/
theorem Nearest.order_bounds {digits : Nat} {exponent : Int} (positive : 0 < digits)
    (nearest : number.Nearest (digits * 10 ^ exponent)) (finite : number.isFinite = true)
    (nonzero : number.rank.val ≠ 0) :
    -400 ≤ exponent + decimalLength digits ∧ exponent + decimalLength digits ≤ 400 := by
  obtain ⟨low, high⟩ := decimal_bounds positive exponent
  constructor
  · by_contra tiny
    have passed : (10 : ℚ) ^ (exponent + decimalLength digits) ≤ 2 ^ (-1075 : Int) :=
      calc (10 : ℚ) ^ (exponent + decimalLength digits) ≤ 10 ^ (-400 : Int) :=
            zpow_le_zpow_right₀ (by norm_num) (by omega)
        _ ≤ 2 ^ (-1075 : Int) := by
            rw [zpow_neg, zpow_neg]
            gcongr
            exact_mod_cast (by decide +kernel : 2 ^ 1075 ≤ 10 ^ 400)
    linarith [nearest.pow_le nonzero]
  · by_contra huge
    have passed : (2 : ℚ) ^ (1024 : Int) ≤ 10 ^ (exponent + decimalLength digits - 1) :=
      calc (2 : ℚ) ^ (1024 : Int) ≤ 10 ^ (400 : Int) := by
            exact_mod_cast (by decide +kernel : 2 ^ 1024 ≤ 10 ^ 400)
        _ ≤ 10 ^ (exponent + decimalLength digits - 1) :=
          zpow_le_zpow_right₀ (by norm_num) (by omega)
    linarith [nearest.lt_pow finite]

theorem ofRank_rank (isNumber : number.isNotANumber = false) :
    ofRank number.negative number.rank.val = number := by
  rw [isNotANumber, decide_eq_false_iff_not, Nat.not_lt] at isNumber
  obtain ⟨negative, rank, bound⟩ := number
  simp only [ofRank, Binary64.mk.injEq, Fin.mk.injEq, true_and]
  exact Nat.min_eq_left isNumber

theorem isNotANumber_of_isFinite (finite : number.isFinite = true) :
    number.isNotANumber = false := by
  rw [isFinite, decide_eq_true_eq] at finite
  rw [isNotANumber, decide_eq_false_iff_not]
  omega

/-- A decimal between the halfway points around a number is read as the number. -/
theorem ofDecimal_eq (finite : number.isFinite = true) (nonzero : number.rank.val ≠ 0)
    {digits : Nat} {exponent : Int} (nearest : number.Nearest (digits * 10 ^ exponent)) :
    ofDecimal number.negative digits exponent = number := by
  have digits_pos : 0 < digits := by
    rcases Nat.eq_zero_or_pos digits with none | some
    · have positive := nearest.pos nonzero
      simp [none] at positive
    · exact some
  have bounds := nearest.order_bounds digits_pos finite nonzero
  have quotient : ((digits * tenTo exponent.toNat : Nat) : ℚ) / (tenTo (-exponent).toNat : Nat) =
      digits * 10 ^ exponent := by
    rw [show (10 : ℚ) = ((10 : Nat) : ℚ) by norm_num, zpow_eq_div 10 (by decide)]
    simp only [tenTo, Nat.pow_eq]
    push_cast
    ring
  have rank : rankOfQuotient (digits * tenTo exponent.toNat) (tenTo (-exponent).toNat) =
      number.rank.val :=
    rankOfQuotient_eq nonzero (Nat.pow_pos (by decide)) (quotient ▸ nearest)
  simp only [ofDecimal, Int.ofNat_eq_natCast]
  rw [if_neg digits_pos.ne', if_neg (by omega), if_neg (by omega), rank,
    ofRank_rank (isNotANumber_of_isFinite finite)]

/-! ## Candidates -/

/-- A candidate and a number of quarters of a unit, multiplied by what makes both natural. -/
theorem candidate_eq (number : Binary64) (candidate : Nat) (last : Int) :
    ((candidate * (4 * twoTo (-number.exponent).toNat * tenTo last.toNat) : Nat) : ℚ) =
      4 * (candidate * 10 ^ last / 2 ^ number.exponent) *
        ((twoTo number.exponent.toNat * tenTo (-last).toNat : Nat) : ℚ) := by
  rw [show (10 : ℚ) = ((10 : Nat) : ℚ) by norm_num, show (2 : ℚ) = ((2 : Nat) : ℚ) by norm_num,
    zpow_eq_div 10 (by decide), zpow_eq_div 2 (by decide)]
  simp only [twoTo, tenTo, Nat.pow_eq]
  push_cast
  field_simp

/-- The multiple of a step that is nearest to a number is off by half a step at most. -/
theorem exists_nearest_multiple (value : Nat) {step : Nat} (positive : 0 < step) :
    let floor := value / step
    let below := value - floor * step
    let above := (floor + 1) * step - value
    let choices := if below < above ∨ (below = above ∧ floor % 2 = 0) then [floor, floor + 1]
      else [floor + 1, floor]
    ∃ multiple ∈ choices, (2 * (multiple * step : Nat) : ℚ) ≤ 2 * value + step ∧
      (2 * value : ℚ) ≤ 2 * (multiple * step : Nat) + step := by
  intro floor below above choices
  have split : floor * step + value % step = value := by
    rw [Nat.mul_comm]
    exact Nat.div_add_mod value step
  have part : value % step < step := Nat.mod_lt value positive
  have next : (floor + 1) * step = floor * step + step := Nat.succ_mul floor step
  by_cases nearer : below < above ∨ (below = above ∧ floor % 2 = 0)
  · have atMost : below ≤ above := by omega
    simp only [below, above] at atMost
    refine ⟨floor, by simp [choices, if_pos nearer], ?_, ?_⟩
    · exact_mod_cast (by omega : 2 * (floor * step) ≤ 2 * value + step)
    · exact_mod_cast (by omega : 2 * value ≤ 2 * (floor * step) + step)
  · have atLeast : above ≤ below := by omega
    simp only [below, above] at atLeast
    refine ⟨floor + 1, by simp [choices, if_neg nearer], ?_, ?_⟩
    · exact_mod_cast (by omega : 2 * ((floor + 1) * step) ≤ 2 * value + step)
    · exact_mod_cast (by omega : 2 * value ≤ 2 * ((floor + 1) * step) + step)

section

variable (number) (candidate : Nat) (last : Int)

theorem lower_eq (nonzero : number.rank.val ≠ 0) :
    (((4 * number.significand * twoTo number.exponent.toNat -
        number.lowerGap * twoTo number.exponent.toNat) * tenTo (-last).toNat : Nat) : ℚ) =
      (4 * number.significand - number.lowerGap) *
        ((twoTo number.exponent.toNat * tenTo (-last).toNat : Nat) : ℚ) := by
  have positive := significand_pos nonzero
  have gap : number.lowerGap ≤ 4 * number.significand := by
    rcases number.lowerGap_cases with ⟨two, _⟩ | ⟨one, _⟩ <;> omega
  rw [← Nat.sub_mul]
  push_cast [gap]
  ring

theorem upper_eq :
    (((4 * number.significand * twoTo number.exponent.toNat + 2 * twoTo number.exponent.toNat) *
        tenTo (-last).toNat : Nat) : ℚ) =
      (4 * number.significand + 2) *
        ((twoTo number.exponent.toNat * tenTo (-last).toNat : Nat) : ℚ) := by
  push_cast
  ring

/-- The comparisons of a candidate with the ends tell whether it lies between the halfway points. -/
theorem readsBack_iff (nonzero : number.rank.val ≠ 0) :
    let unit := twoTo number.exponent.toNat
    let value := 4 * number.significand * unit
    let grow := tenTo (-last).toNat
    let step := 4 * twoTo (-number.exponent).toNat * tenTo last.toNat
    let lower := (value - number.lowerGap * unit) * grow
    let upper := (value + 2 * unit) * grow
    (if number.significand % 2 = 0 then
      decide (lower ≤ candidate * step) && decide (candidate * step ≤ upper)
    else decide (lower < candidate * step) && decide (candidate * step < upper)) = true ↔
      number.Nearest (candidate * 10 ^ last) := by
  intro unit value grow step lower upper
  have factor : (0 : ℚ) < ((unit * grow : Nat) : ℚ) := by
    have unit_pos : 0 < unit := Nat.pow_pos (by decide)
    have grow_pos : 0 < grow := Nat.pow_pos (by decide)
    exact_mod_cast Nat.mul_pos unit_pos grow_pos
  have middle := candidate_eq number candidate last
  have low := lower_eq number last nonzero
  have high := upper_eq number last
  rw [Nearest]
  split
  · rw [Bool.and_eq_true, decide_eq_true_eq, decide_eq_true_eq, ← Nat.cast_le (α := ℚ),
      ← Nat.cast_le (α := ℚ), middle, low, high, mul_le_mul_iff_of_pos_right factor,
      mul_le_mul_iff_of_pos_right factor]
  · rw [Bool.and_eq_true, decide_eq_true_eq, decide_eq_true_eq, ← Nat.cast_lt (α := ℚ),
      ← Nat.cast_lt (α := ℚ), middle, low, high, mul_lt_mul_iff_of_pos_right factor,
      mul_lt_mul_iff_of_pos_right factor]

end

/-! ## Searching for digits -/

/-- Digits that are found read back as the number. -/
theorem nearest_of_digitsOfLength? (nonzero : number.rank.val ≠ 0) {length digits : Nat}
    {last : Int} (found : number.digitsOfLength? length = some (digits, last)) :
    number.Nearest (digits * 10 ^ last) := by
  obtain ⟨candidate, hit, same⟩ := Option.map_eq_some_iff.mp found
  rw [Prod.mk.injEq] at same
  obtain ⟨rfl, rfl⟩ := same
  have reads := List.find?_some hit
  exact (readsBack_iff number candidate _ nonzero).mp reads

theorem magnitude_pos (nonzero : number.rank.val ≠ 0) : 0 < number.magnitude := by
  have positive : (0 : ℚ) < number.significand := by exact_mod_cast significand_pos nonzero
  rw [magnitude]
  positivity

theorem decimalOrder_magnitude (nonzero : number.rank.val ≠ 0) :
    decimalOrder (4 * number.significand * twoTo number.exponent.toNat)
      (4 * twoTo (-number.exponent).toNat) = Int.log 10 number.magnitude := by
  have positive := significand_pos nonzero
  have power : ∀ exponent, 0 < twoTo exponent := fun exponent => Nat.pow_pos (by decide)
  rw [decimalOrder_eq (Nat.mul_pos (by omega) (power _)) (Nat.mul_pos (by decide) (power _)),
    magnitude, show (2 : ℚ) = ((2 : Nat) : ℚ) by norm_num, zpow_eq_div 2 (by decide)]
  congr 1
  simp only [twoTo, Nat.pow_eq]
  push_cast
  field_simp

/-- The last of seventeen digits stands for little of the unit in the last place of a number. -/
theorem lastPlace_le (nonzero : number.rank.val ≠ 0) :
    (10 : ℚ) ^ (Int.log 10 number.magnitude - 16) / 2 ^ number.exponent * 10 ^ 16 ≤
      number.significand := by
  have unit : (0 : ℚ) < 2 ^ number.exponent := by positivity
  have order := Int.zpow_log_le_self (by decide : 1 < 10) (magnitude_pos nonzero)
  rw [Nat.cast_ofNat] at order
  rw [div_mul_eq_mul_div, div_le_iff₀ unit, zpow_sub₀ (by norm_num)]
  calc (10 : ℚ) ^ Int.log 10 number.magnitude / 10 ^ (16 : Int) * 10 ^ 16
      = 10 ^ Int.log 10 number.magnitude := by
        norm_num
    _ ≤ number.magnitude := order
    _ = number.significand * 2 ^ number.exponent := rfl

/-- A multiple of the last of seventeen places that is off by half of it at most is between the
halfway points: a number has fewer than `10 ^ 16` units in its last place. -/
theorem nearest_of_multiple (nonzero : number.rank.val ≠ 0) {multiple : Nat} {last : Int}
    (seventeenth : last = Int.log 10 number.magnitude - 16)
    (low : 4 * (multiple * 10 ^ last / 2 ^ number.exponent : ℚ) ≤
      4 * number.significand + 2 * (10 ^ last / 2 ^ number.exponent))
    (high : 4 * (number.significand : ℚ) ≤
      4 * (multiple * 10 ^ last / 2 ^ number.exponent) + 2 * (10 ^ last / 2 ^ number.exponent)) :
    number.Nearest (multiple * 10 ^ last) := by
  have place := lastPlace_le nonzero
  rw [← seventeenth] at place
  have width : (number.significand : ℚ) + 1 ≤ 2 ^ 53 := by exact_mod_cast number.significand_lt
  apply Nearest.of_strict
  · rcases number.lowerGap_cases with ⟨two, _⟩ | ⟨one, exact, _⟩
    · rw [two, Nat.cast_ofNat]
      linarith
    · rw [exact] at place high ⊢
      rw [one]
      push_cast at place high ⊢
      linarith
  · linarith

theorem nearest_of_half (nonzero : number.rank.val ≠ 0) {multiple : Nat} {last : Int}
    (seventeenth : last = Int.log 10 number.magnitude - 16) :
    let value := 4 * number.significand * twoTo number.exponent.toNat * tenTo (-last).toNat
    let step := 4 * twoTo (-number.exponent).toNat * tenTo last.toNat
    (2 * (multiple * step : Nat) : ℚ) ≤ 2 * (value : Nat) + (step : Nat) →
      (2 * (value : Nat) : ℚ) ≤ 2 * (multiple * step : Nat) + (step : Nat) →
      number.Nearest (multiple * 10 ^ last) := by
  intro value step low high
  have factor : (0 : ℚ) < ((twoTo number.exponent.toNat * tenTo (-last).toNat : Nat) : ℚ) := by
    exact_mod_cast Nat.mul_pos (Nat.pow_pos (by decide)) (Nat.pow_pos (by decide))
  have multiple_eq := candidate_eq number multiple last
  have step_eq := candidate_eq number 1 last
  have value_eq : (value : ℚ) = 4 * number.significand *
      ((twoTo number.exponent.toNat * tenTo (-last).toNat : Nat) : ℚ) := by
    simp only [value]
    push_cast
    ring
  rw [one_mul, Nat.cast_one, one_mul] at step_eq
  -- The common factor of all three is cancelled.
  rw [multiple_eq, step_eq, value_eq] at low high
  apply nearest_of_multiple nonzero seventeenth
  · refine le_of_mul_le_mul_right ?_ factor
    linarith
  · refine le_of_mul_le_mul_right ?_ factor
    linarith

/-- Seventeen digits always suffice. -/
theorem isSome_digitsOfLength?_seventeen (nonzero : number.rank.val ≠ 0) :
    (number.digitsOfLength? 17).isSome = true := by
  let last := Int.log 10 number.magnitude - 16
  have order : decimalOrder (4 * number.significand * twoTo number.exponent.toNat)
      (4 * twoTo (-number.exponent).toNat) - Int.ofNat 17 + 1 = last := by
    rw [decimalOrder_magnitude nonzero]
    show _ - 17 + 1 = _ - 16
    omega
  have step_pos : 0 < 4 * twoTo (-number.exponent).toNat * tenTo last.toNat :=
    Nat.mul_pos (Nat.mul_pos (by decide) (Nat.pow_pos (by decide))) (Nat.pow_pos (by decide))
  obtain ⟨multiple, listed, low, high⟩ := exists_nearest_multiple
    (4 * number.significand * twoTo number.exponent.toNat * tenTo (-last).toNat) step_pos
  have near : number.Nearest (multiple * 10 ^ last) := nearest_of_half nonzero rfl low high
  rw [digitsOfLength?, Option.isSome_map, List.find?_isSome]
  simp only [order]
  exact ⟨multiple, listed, (readsBack_iff number multiple last nonzero).mpr near⟩

/-- The shortest digits of a number read back as the number. -/
theorem nearest_shortestDigits (nonzero : number.rank.val ≠ 0) :
    number.Nearest (number.shortestDigits.1 * 10 ^ number.shortestDigits.2) := by
  have found : ((List.range 17).findSome? fun index =>
      number.digitsOfLength? (index + 1)).isSome = true := by
    rw [List.findSome?_isSome_iff]
    exact ⟨16, by decide, isSome_digitsOfLength?_seventeen nonzero⟩
  obtain ⟨⟨digits, last⟩, shortest⟩ := Option.isSome_iff_exists.mp found
  obtain ⟨index, _, hit⟩ := List.exists_of_findSome?_eq_some shortest
  rw [shortestDigits, shortest, Option.getD_some]
  exact nearest_of_digitsOfLength? nonzero hit

end TypeCatalog.Binary64
