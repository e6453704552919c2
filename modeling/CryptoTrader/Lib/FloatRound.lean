import Mathlib.Algebra.Order.Floor.Ring
import Mathlib.Data.Int.Log
import Mathlib.Data.Rat.Floor
import Mathlib.Tactic.FieldSimp
import Mathlib.Tactic.Linarith
import Mathlib.Tactic.Ring

/-! Binary floating point by its values: a format has a precision and a least exponent, and
an operation returns the value of the format nearest to the exact result, ties to the even
significand. The exponent is not bounded above. -/

namespace FloatRound

/-- The nearest integer, ties to even. -/
def nearestEven (x : ℚ) : ℤ :=
  if x - ⌊x⌋ < 1 / 2 then ⌊x⌋
  else if 1 / 2 < x - ⌊x⌋ then ⌊x⌋ + 1
  else if ⌊x⌋ % 2 = 0 then ⌊x⌋
  else ⌊x⌋ + 1

theorem abs_nearestEven_sub_le (x : ℚ) : |(nearestEven x : ℚ) - x| ≤ 1 / 2 := by
  have hlow := Int.floor_le x
  have hhigh := Int.lt_floor_add_one x
  unfold nearestEven
  rw [abs_le]
  split_ifs <;> push_cast <;> constructor <;> linarith

theorem nearestEven_intCast (n : ℤ) : nearestEven n = n := by
  unfold nearestEven
  rw [Int.floor_intCast, sub_self, if_pos (by norm_num)]

/-- The nearest integer, ties away from zero. -/
def nearestAway (x : ℚ) : ℤ := if 0 ≤ x then ⌊x + 1 / 2⌋ else -⌊-x + 1 / 2⌋

theorem nearestAway_eq {x : ℚ} {n : ℤ} (h : |x - n| < 1 / 2) : nearestAway x = n := by
  obtain ⟨hlow, hhigh⟩ := abs_lt.1 h
  unfold nearestAway
  split_ifs
  · rw [Int.floor_eq_iff]
    constructor <;> linarith
  · rw [neg_eq_iff_eq_neg, Int.floor_eq_iff]
    push_cast
    constructor <;> linarith

variable (precision : ℕ) (minExp : ℤ)

/-- The exponent of the last place of a value. -/
def lastPlace (x : ℚ) : ℤ := max (Int.log 2 |x| - precision + 1) minExp

/-- The value of the format nearest to a number. -/
def round (x : ℚ) : ℚ := nearestEven (x / 2 ^ lastPlace precision minExp x) * 2 ^ lastPlace precision minExp x

variable {precision minExp} {x : ℚ}

theorem abs_round_sub_le (x : ℚ) : |round precision minExp x - x| ≤ 2 ^ lastPlace precision minExp x / 2 := by
  set place : ℚ := 2 ^ lastPlace precision minExp x with hplace
  have hpos : 0 < place := zpow_pos (by norm_num) _
  have hscaled := abs_nearestEven_sub_le (x / place)
  have hsplit : round precision minExp x - x = (nearestEven (x / place) - x / place) * place := by
    rw [round, ← hplace, sub_mul, div_mul_cancel₀ _ hpos.ne']
  calc |round precision minExp x - x| = |(nearestEven (x / place) : ℚ) - x / place| * place := by
        rw [hsplit, abs_mul, abs_of_pos hpos]
    _ ≤ 1 / 2 * place := by gcongr
    _ = place / 2 := by ring

/-- A number that is not too small is rounded with a relative error. -/
theorem abs_round_sub_le_mul (hnormal : (2 : ℚ) ^ (minExp + precision - 1) ≤ |x|) :
    |round precision minExp x - x| ≤ |x| * 2 ^ (-(precision : ℤ)) := by
  have hpos : 0 < |x| := lt_of_lt_of_le (zpow_pos (by norm_num) _) hnormal
  have hlog : minExp + precision - 1 ≤ Int.log 2 |x| := by
    rw [← Int.zpow_le_iff_le_log (by norm_num) hpos]
    exact_mod_cast hnormal
  have hplace : lastPlace precision minExp x = Int.log 2 |x| - precision + 1 := max_eq_left (by omega)
  have hfloor : (2 : ℚ) ^ Int.log 2 |x| ≤ |x| := by exact_mod_cast Int.zpow_log_le_self (b := 2) (by norm_num) hpos
  calc |round precision minExp x - x| ≤ 2 ^ lastPlace precision minExp x / 2 := abs_round_sub_le x
    _ = 2 ^ Int.log 2 |x| * 2 ^ (-(precision : ℤ)) := by
        rw [hplace, show Int.log 2 |x| - precision + 1 = Int.log 2 |x| + -precision + 1 by ring,
          zpow_add₀ (by norm_num), zpow_add₀ (by norm_num), zpow_one]
        ring
    _ ≤ |x| * 2 ^ (-(precision : ℤ)) := by
        have := zpow_pos (show (0 : ℚ) < 2 by norm_num) (-(precision : ℤ))
        gcongr

/-- An integer of no more bits than the precision is a value of the format. -/
theorem round_intCast {n : ℤ} (hbits : |n| < 2 ^ precision) (hmin : minExp ≤ 0) : round precision minExp n = n := by
  rcases eq_or_ne n 0 with rfl | hne
  · have hzero := nearestEven_intCast 0
    rw [Int.cast_zero] at hzero
    rw [round, Int.cast_zero, zero_div, hzero, Int.cast_zero, zero_mul]
  · have hpos : (0 : ℚ) < |(n : ℚ)| := abs_pos.2 (Int.cast_ne_zero.2 hne)
    have hlog : Int.log 2 |(n : ℚ)| < precision := by
      rw [← Int.lt_zpow_iff_log_lt (by norm_num) hpos, zpow_natCast]
      exact_mod_cast hbits
    have hplace : lastPlace precision minExp (n : ℚ) ≤ 0 := max_le (by omega) hmin
    obtain ⟨shift, hshift⟩ := Int.eq_ofNat_of_zero_le (neg_nonneg.2 hplace)
    -- the last place divides one, so nothing is lost
    have hscaled : (n : ℚ) / 2 ^ lastPlace precision minExp (n : ℚ) = ((n * 2 ^ shift : ℤ) : ℚ) := by
      rw [div_eq_mul_inv, ← zpow_neg, hshift, zpow_natCast]
      push_cast
      rfl
    have hback : (2 : ℚ) ^ lastPlace precision minExp (n : ℚ) ≠ 0 := zpow_ne_zero _ (by norm_num)
    rw [round, hscaled, nearestEven_intCast, ← hscaled, div_mul_cancel₀ _ hback]

end FloatRound
