import Mathlib.Tactic.Ring
import TypeCatalog.Text.Digits

/-! # Digits of numbers

The digits of a number in a base are read back as the number
(`TypeCatalog.Text.numberOfDigits_toDigits`), and a fixed-width hexadecimal text as its value
(`TypeCatalog.Text.takeHex?_hexText`).
-/

namespace TypeCatalog.Text

theorem hexValue?_digitChar {n : Nat} (small : n < 16) : hexValue? n.digitChar = some n := by
  revert n
  decide

private theorem foldl_digits (base value : Nat) (digits : List Char) :
    digits.foldl (fun value digit => value * base + (hexValue? digit).getD 0) value =
      value * base ^ digits.length + numberOfDigits base digits := by
  rw [numberOfDigits]
  induction digits generalizing value with
  | nil => simp
  | cons digit rest ih =>
      rw [List.foldl_cons, List.foldl_cons, ih, ih (0 * base + _), List.length_cons]
      ring

theorem numberOfDigits_append (base : Nat) (front behind : List Char) :
    numberOfDigits base (front ++ behind) =
      numberOfDigits base front * base ^ behind.length + numberOfDigits base behind := by
  rw [numberOfDigits, List.foldl_append, foldl_digits]
  rfl

theorem numberOfDigits_zeros (base count : Nat) :
    numberOfDigits base (List.replicate count '0') = 0 := by
  induction count with
  | zero => rfl
  | succ count ih =>
      have single : numberOfDigits base ['0'] = 0 := by
        simp [numberOfDigits, show hexValue? '0' = some 0 by decide]
      rw [List.replicate_succ', numberOfDigits_append, ih, single]
      omega

theorem numberOfDigits_toDigits {base : Nat} (two : 1 < base) (sixteen : base ≤ 16) (n : Nat) :
    numberOfDigits base (Nat.toDigits base n) = n := by
  have single : ∀ digit, digit < base → numberOfDigits base [digit.digitChar] = digit := by
    intro digit small
    simp [numberOfDigits, hexValue?_digitChar (Nat.lt_of_lt_of_le small sixteen)]
  induction n using Nat.strongRecOn with
  | ind n ih =>
      rw [Nat.toDigits_eq_if two]
      split
      · exact single n ‹_›
      · have shorter : n / base < n := Nat.div_lt_self (by omega) two
        have last : n % base < base := Nat.mod_lt n (by omega)
        rw [numberOfDigits_append, ih _ shorter, single _ last, List.length_singleton, pow_one,
          Nat.mul_comm, Nat.div_add_mod]

/-- A number other than zero is written without a leading zero. -/
theorem head?_toDigits {base n : Nat} (two : 1 < base) (positive : 0 < n) :
    ∀ digit ∈ (Nat.toDigits base n).head?, digit ≠ '0' := by
  induction n using Nat.strongRecOn with
  | ind n ih =>
      rw [Nat.toDigits_eq_if two]
      split
      · intro digit first
        rw [List.head?_cons, Option.mem_some_iff] at first
        rw [← first, Ne, Nat.digitChar_eq_zero]
        omega
      · have shorter : n / base < n := Nat.div_lt_self positive two
        have left : 0 < n / base := Nat.div_pos (by omega) (by omega)
        have front := ih _ shorter left
        cases written : Nat.toDigits base (n / base) with
        | nil => exact absurd written Nat.toDigits_ne_nil
        | cons digit rest =>
            rw [written] at front
            simpa using front

theorem isHexDigit_of_mem_toDigits {n : Nat} {digit : Char}
    (listed : digit ∈ Nat.toDigits 16 n) : isHexDigit digit = true := by
  have single : ∀ value, value < 16 → isHexDigit value.digitChar = true := by
    intro value small
    rw [isHexDigit, hexValue?_digitChar small, Option.isSome_some]
  induction n using Nat.strongRecOn with
  | ind n ih =>
      rw [Nat.toDigits_eq_if (by decide)] at listed
      split at listed
      · rename_i small
        rw [List.mem_singleton.mp listed]
        exact single n small
      · have shorter : n / 16 < n := Nat.div_lt_self (by omega) (by decide)
        rcases List.mem_append.mp listed with front | last
        · exact ih _ shorter front
        · rw [List.mem_singleton.mp last]
          exact single _ (Nat.mod_lt n (by decide))

theorem length_hexText {width value : Nat} (positive : 0 < width) (fits : value < 16 ^ width) :
    (hexText width value).length = width := by
  have short := (Nat.length_toDigits_le_iff (by decide : 1 < 16) positive).mpr fits
  rw [hexText, List.length_append, List.length_replicate]
  omega

/-- A fixed-width hexadecimal text is read back as its value. -/
theorem takeHex?_hexText {width value : Nat} (positive : 0 < width) (fits : value < 16 ^ width)
    (rest : List Char) : takeHex? width (hexText width value ++ rest) = some (value, rest) := by
  have width_eq := length_hexText positive fits
  have front : (hexText width value ++ rest).take width = hexText width value :=
    List.take_left' width_eq
  have behind : (hexText width value ++ rest).drop width = rest := List.drop_left' width_eq
  have digits : (hexText width value).all isHexDigit = true := by
    rw [List.all_eq_true]
    intro digit listed
    rcases List.mem_append.mp listed with zero | written
    · rw [List.eq_of_mem_replicate zero]
      decide
    · exact isHexDigit_of_mem_toDigits written
  have number : numberOfDigits 16 (hexText width value) = value := by
    rw [hexText, numberOfDigits_append, numberOfDigits_zeros,
      numberOfDigits_toDigits (by decide) (by decide)]
    omega
  rw [takeHex?, front, behind]
  simp only [width_eq, digits, number, and_self, if_true]

end TypeCatalog.Text
