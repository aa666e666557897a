import Mathlib.Algebra.Order.Field.Rat
import Mathlib.Data.Int.Log
import Mathlib.Data.Rat.Floor
import Mathlib.Tactic.Linarith

/-!
# Binary floats

The rounding of rational numbers to a binary floating-point format: to the nearest multiple of
the unit in the last place, and of two that are as near to the even one. A format is a precision
and a least exponent (`binary64` is that of a double). The greatest exponent is left out, so
that what is said of a result holds as long as it is in the range of the format; a difference of
two numbers of one sign always is.

Rounding keeps the order of numbers that are not negative (`Format.round_mono`), and changes no
number that the format has (`Format.round_eq_self`).
-/

set_option autoImplicit false

namespace BinaryFloats

/-! ## To the nearest integer -/

/-- The nearest integer, and of two the even one. -/
def nearestEven (x : ℚ) : ℤ :=
  if x - ⌊x⌋ < 1 / 2 then ⌊x⌋
  else if 1 / 2 < x - ⌊x⌋ then ⌊x⌋ + 1
  else if ⌊x⌋ % 2 = 0 then ⌊x⌋ else ⌊x⌋ + 1

variable {x y : ℚ}

theorem floor_le_nearestEven (x : ℚ) : ⌊x⌋ ≤ nearestEven x := by
  unfold nearestEven
  split_ifs <;> omega

theorem nearestEven_le_floor_add_one (x : ℚ) : nearestEven x ≤ ⌊x⌋ + 1 := by
  unfold nearestEven
  split_ifs <;> omega

/-- Integers are kept. -/
theorem nearestEven_intCast (n : ℤ) : nearestEven n = n := by
  have none_left : ((n : ℚ) - (n : ℤ)) < 1 / 2 := by
    rw [sub_self]
    norm_num
  rw [nearestEven, Int.floor_intCast, if_pos none_left]

/-- **The order is kept.** -/
theorem nearestEven_mono (le : x ≤ y) : nearestEven x ≤ nearestEven y := by
  rcases (Int.floor_le_floor le).lt_or_eq with below | same
  · calc nearestEven x ≤ ⌊x⌋ + 1 := nearestEven_le_floor_add_one x
      _ ≤ ⌊y⌋ := below
      _ ≤ nearestEven y := floor_le_nearestEven y
  · unfold nearestEven
    rw [same]
    split_ifs
    all_goals first | omega | linarith

/-! ## Formats -/

/-- A format: the digits of a number, and the least exponent of a last digit. -/
structure Format where
  precision : ℕ
  minExponent : ℤ

/-- The format of a Python `float`. -/
def binary64 : Format := ⟨53, -1074⟩

namespace Format

variable (format : Format)

/-- The exponent of the last digit of a number. -/
def lastExponent (x : ℚ) : ℤ := max (Int.log 2 |x| - (format.precision - 1)) format.minExponent

/-- The unit in the last place. -/
def ulp (x : ℚ) : ℚ := 2 ^ format.lastExponent x

/-- The number of the format that is nearest. -/
def round (x : ℚ) : ℚ := nearestEven (x / format.ulp x) * format.ulp x

/-- The difference of two numbers, as it is computed. -/
def sub (x y : ℚ) : ℚ := format.round (x - y)

variable {format}

theorem ulp_pos (x : ℚ) : 0 < format.ulp x := zpow_pos (by norm_num) _

@[simp] theorem round_zero : format.round 0 = 0 := by
  have zero : nearestEven 0 = 0 := by exact_mod_cast nearestEven_intCast 0
  rw [round, zero_div, zero, Int.cast_zero, zero_mul]

theorem round_nonneg (nonneg : 0 ≤ x) : 0 ≤ format.round x := by
  have scaled : ((0 : ℤ) : ℚ) ≤ x / format.ulp x := by
    rw [Int.cast_zero]
    exact div_nonneg nonneg (ulp_pos x).le
  have rounded := nearestEven_mono scaled
  rw [nearestEven_intCast] at rounded
  exact mul_nonneg (by exact_mod_cast rounded) (ulp_pos x).le

theorem round_nonpos (nonpos : x ≤ 0) : format.round x ≤ 0 := by
  have scaled : x / format.ulp x ≤ ((0 : ℤ) : ℚ) := by
    rw [Int.cast_zero]
    exact div_nonpos_of_nonpos_of_nonneg nonpos (ulp_pos x).le
  have rounded := nearestEven_mono scaled
  rw [nearestEven_intCast] at rounded
  exact mul_nonpos_of_nonpos_of_nonneg (by exact_mod_cast rounded) (ulp_pos x).le

/-! ### Powers of two -/

/-- A power of two that is no less than the unit in the last place is a multiple of it. -/
theorem exists_mul_ulp {e : ℤ} (digit : format.lastExponent x ≤ e) :
    ∃ n : ℕ, (2 : ℚ) ^ e = ((2 ^ n : ℤ) : ℚ) * format.ulp x := by
  obtain ⟨n, sum⟩ := Int.le.dest digit
  refine ⟨n, ?_⟩
  rw [ulp, ← sum, zpow_add₀ two_ne_zero, zpow_natCast, mul_comm]
  norm_cast

/-- Such a power of two is not passed. -/
theorem round_le_zpow {e : ℤ} (digit : format.lastExponent x ≤ e) (le : x ≤ 2 ^ e) :
    format.round x ≤ 2 ^ e := by
  obtain ⟨n, split⟩ := exists_mul_ulp digit
  have scaled : x / format.ulp x ≤ ((2 ^ n : ℤ) : ℚ) := by
    rwa [div_le_iff₀ (ulp_pos x), ← split]
  have rounded := nearestEven_mono scaled
  rw [nearestEven_intCast] at rounded
  rw [split, round]
  exact mul_le_mul_of_nonneg_right (by exact_mod_cast rounded) (ulp_pos x).le

theorem zpow_le_round {e : ℤ} (digit : format.lastExponent x ≤ e) (le : 2 ^ e ≤ x) :
    2 ^ e ≤ format.round x := by
  obtain ⟨n, split⟩ := exists_mul_ulp digit
  have scaled : ((2 ^ n : ℤ) : ℚ) ≤ x / format.ulp x := by
    rwa [le_div_iff₀ (ulp_pos x), ← split]
  have rounded := nearestEven_mono scaled
  rw [nearestEven_intCast] at rounded
  rw [split, round]
  exact mul_le_mul_of_nonneg_right (by exact_mod_cast rounded) (ulp_pos x).le

/-! ### Order -/

theorem lastExponent_mono (positive : 0 < x) (le : x ≤ y) :
    format.lastExponent x ≤ format.lastExponent y := by
  have logs : Int.log 2 |x| ≤ Int.log 2 |y| := by
    rw [abs_of_pos positive, abs_of_pos (positive.trans_le le)]
    exact Int.log_mono_right positive le
  exact max_le_max (by omega) le_rfl

/-- **Rounding keeps the order.** The numbers have the same last digit, or there is a power of
two between them. -/
theorem round_mono (precise : 1 ≤ format.precision) (nonneg : 0 ≤ x) (le : x ≤ y) :
    format.round x ≤ format.round y := by
  rcases nonneg.lt_or_eq with positive | rfl
  · have digits : format.lastExponent x ≤ format.lastExponent y := lastExponent_mono positive le
    rcases digits.lt_or_eq with below | same
    · have last : format.lastExponent y = Int.log 2 |y| - (format.precision - 1) := by
        unfold lastExponent at below ⊢
        omega
      have between : format.lastExponent x ≤ Int.log 2 |y| := by omega
      have first : Int.log 2 |x| + 1 ≤ Int.log 2 |y| := by
        unfold lastExponent at below
        omega
      rw [abs_of_pos positive] at first
      rw [abs_of_pos (positive.trans_le le)] at first between last
      have under : x ≤ 2 ^ Int.log 2 y := by
        have bounded := Int.lt_zpow_succ_log_self (R := ℚ) one_lt_two x
        exact bounded.le.trans (zpow_le_zpow_right₀ one_le_two first)
      have above : 2 ^ Int.log 2 y ≤ y := by
        exact_mod_cast Int.zpow_log_le_self (R := ℚ) one_lt_two (positive.trans_le le)
      exact (round_le_zpow between under).trans (zpow_le_round (by omega) above)
    · have unit : format.ulp x = format.ulp y := by rw [ulp, ulp, same]
      have scaled : x / format.ulp y ≤ y / format.ulp y :=
        div_le_div_of_nonneg_right le (ulp_pos y).le
      rw [round, round, unit]
      exact mul_le_mul_of_nonneg_right (by exact_mod_cast nearestEven_mono scaled) (ulp_pos y).le
  · rw [round_zero]
    exact round_nonneg le

/-! ### Numbers of the format -/

/-- **The numbers of the format are kept.** -/
theorem round_eq_self {m e : ℤ} (digits : |m| < 2 ^ format.precision)
    (least : format.minExponent ≤ e) : format.round (m * 2 ^ e) = m * 2 ^ e := by
  rcases eq_or_ne m 0 with rfl | nonzero
  · rw [Int.cast_zero, zero_mul, round_zero]
  · have size : (0 : ℚ) < |(m : ℚ) * 2 ^ e| :=
      abs_pos.mpr (mul_ne_zero (by exact_mod_cast nonzero) (zpow_ne_zero _ two_ne_zero))
    have small : |(m : ℚ) * 2 ^ e| < ((2 : ℕ) : ℚ) ^ (e + format.precision) := by
      have bound : |(m : ℚ)| < 2 ^ format.precision := by exact_mod_cast digits
      rw [abs_mul, abs_of_pos (zpow_pos two_pos e : (0 : ℚ) < 2 ^ e), Nat.cast_two,
        zpow_add₀ two_ne_zero, mul_comm, zpow_natCast]
      exact mul_lt_mul_of_pos_left bound (zpow_pos two_pos e)
    have log := (Int.lt_zpow_iff_log_lt one_lt_two size).mp small
    have last : format.lastExponent (m * 2 ^ e) ≤ e := by
      unfold lastExponent
      omega
    obtain ⟨n, power⟩ := exists_mul_ulp last
    have split : (m : ℚ) * 2 ^ e = ((m * 2 ^ n : ℤ) : ℚ) * format.ulp (m * 2 ^ e) := by
      rw [Int.cast_mul, mul_assoc, ← power]
    have whole : (m : ℚ) * 2 ^ e / format.ulp (m * 2 ^ e) = ((m * 2 ^ n : ℤ) : ℚ) := by
      rw [div_eq_iff (ulp_pos _).ne', ← split]
    rw [round, whole, nearestEven_intCast, ← split]

end Format

end BinaryFloats
