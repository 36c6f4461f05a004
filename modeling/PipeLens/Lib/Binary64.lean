import Mathlib.Algebra.Order.Field.Power
import Mathlib.Algebra.Order.Field.Rat
import Mathlib.Data.Int.Log
import Mathlib.Data.Rat.Floor
import Mathlib.Tactic.Linarith

/-!
# Floats of 64 bits

A finite float stands for a rational, and the result of an operation is the float that is
nearest to the exact one; of two that are equally near, the one whose last digit is even.
Infinities are left out: nothing here gets near to the largest float.
-/

namespace Binary64

/-- The nearest integer, and from the middle of two the even one. -/
def roundHalfEven (q : Rat) : Int :=
  let rest := q - q.floor
  if rest < 1 / 2 then q.floor
  else if 1 / 2 < rest then q.floor + 1
  else if q.floor % 2 = 0 then q.floor
  else q.floor + 1

/-- What the last of the 53 digits of a float counts, as a power of two. -/
def exponent (q : Rat) : Int := max (Int.log 2 |q|) (-1022) - 52

/-- The nearest float. -/
def round (q : Rat) : Rat := roundHalfEven (q / 2 ^ exponent q) * 2 ^ exponent q

theorem abs_sub_roundHalfEven (q : Rat) : |(roundHalfEven q : Rat) - q| ≤ 1 / 2 := by
  have hfloor : (q.floor : Rat) ≤ q := Rat.floor_le q
  have hnext : q < (q.floor : Rat) + 1 := by
    have h := Rat.lt_floor_add_one q
    push_cast at h
    exact h
  unfold roundHalfEven
  dsimp only
  rw [abs_le]
  split_ifs
  · constructor <;> linarith
  · push_cast
    constructor <;> linarith
  · constructor <;> linarith
  · push_cast
    constructor <;> linarith

theorem roundHalfEven_nonneg {q : Rat} (h : 0 ≤ q) : 0 ≤ roundHalfEven q := by
  have hfloor : 0 ≤ q.floor := Rat.le_floor_iff.mpr h
  unfold roundHalfEven
  dsimp only
  split_ifs <;> omega

theorem round_nonneg {q : Rat} (h : 0 ≤ q) : 0 ≤ round q := by
  have hdigit : (0 : Rat) < 2 ^ exponent q := zpow_pos (by decide) _
  have hrounded := roundHalfEven_nonneg (div_nonneg h hdigit.le)
  exact mul_nonneg (Int.cast_nonneg hrounded) hdigit.le

theorem round_zero : round 0 = 0 := by decide +kernel

/-- A float is off by half of its last digit at most. -/
theorem abs_round_sub (q : Rat) : |round q - q| ≤ 2 ^ exponent q / 2 := by
  have hdigit : (0 : Rat) < 2 ^ exponent q := zpow_pos (by decide) _
  have hscaled : round q - q
      = (roundHalfEven (q / 2 ^ exponent q) - q / 2 ^ exponent q) * 2 ^ exponent q := by
    rw [sub_mul, div_mul_cancel₀ q hdigit.ne']
    rfl
  rw [hscaled, abs_mul, abs_of_pos hdigit]
  have hhalf := mul_le_mul_of_nonneg_right (abs_sub_roundHalfEven (q / 2 ^ exponent q)) hdigit.le
  linarith

/-- The last digit of a float that is not too small is a `2 ^ 52`th of it at most. -/
theorem last_digit_le {q : Rat} (h : (2 : Rat) ^ (-1022 : Int) ≤ |q|) :
    (2 : Rat) ^ exponent q ≤ |q| / 2 ^ 52 := by
  have hpos : 0 < |q| := lt_of_lt_of_le (zpow_pos (by decide) _) h
  have hnormal : -1022 ≤ Int.log 2 |q| := (Int.zpow_le_iff_le_log (by decide) hpos).mp h
  have hexponent : exponent q = Int.log 2 |q| - 52 := by
    unfold exponent
    rw [max_eq_left hnormal]
  have hlog := Int.zpow_log_le_self (R := Rat) (b := 2) (by decide) hpos
  rw [hexponent, zpow_sub₀ (by decide)]
  exact div_le_div_of_nonneg_right hlog (by positivity)

/-- **Relative error.** -/
theorem abs_round_sub_le {q : Rat} (h : (2 : Rat) ^ (-1022 : Int) ≤ |q|) :
    |round q - q| ≤ |q| / 2 ^ 53 := by
  have hdigit := last_digit_le h
  calc |round q - q| ≤ 2 ^ exponent q / 2 := abs_round_sub q
    _ ≤ |q| / 2 ^ 52 / 2 := div_le_div_of_nonneg_right hdigit (by decide)
    _ = |q| / 2 ^ 53 := by rw [div_div, ← pow_succ]

/-- A rational that is 0, or not too small. -/
def Normal (q : Rat) : Prop := q = 0 ∨ (2 : Rat) ^ (-1022 : Int) ≤ q

theorem round_bounds {q : Rat} (h : Normal q) :
    q - q / 2 ^ 53 ≤ round q ∧ round q ≤ q + q / 2 ^ 53 := by
  rcases h with rfl | h
  · rw [round_zero]
    simp
  · have hpos : 0 ≤ q := le_trans (zpow_nonneg (by decide) _) h
    have herror := abs_round_sub_le (q := q) (by rwa [abs_of_nonneg hpos])
    rw [abs_of_nonneg hpos, abs_le] at herror
    constructor <;> linarith [herror.1, herror.2]

/-- **A sum is kept up to the errors**: if two rationals fit into a third one, so do their
floats, but for the rounding of the three. -/
theorem round_add_le {a b c : Rat} (ha : Normal a) (hb : Normal b) (hc : Normal c)
    (h : a + b ≤ c) : (2 ^ 53 - 1) * (round a + round b) ≤ (2 ^ 53 + 1) * round c := by
  have hround_a := (round_bounds ha).2
  have hround_b := (round_bounds hb).2
  have hround_c := (round_bounds hc).1
  linarith

end Binary64
