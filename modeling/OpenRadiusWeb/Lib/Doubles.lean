import Mathlib.Data.Int.Log
import Mathlib.Data.Rat.Floor
import Mathlib.Tactic.Linarith
import Mathlib.Tactic.NormNum
import Mathlib.Tactic.Positivity
import Mathlib.Tactic.Ring

/-! # Doubles

A double is the rational it stands for. An operation on doubles gives the exact result rounded
to 53 binary digits, ties to the even neighbour. Subnormal and infinite results are left out.
-/

namespace Doubles

/-- The nearest integer, and the even one of two. -/
def halfEven (x : ℚ) : ℤ :=
  if x - ⌊x⌋ < 1 / 2 ∨ x - ⌊x⌋ = 1 / 2 ∧ ⌊x⌋ % 2 = 0 then ⌊x⌋ else ⌊x⌋ + 1

/-- The distance of the doubles around a rational. -/
def spacing (q : ℚ) : ℚ := 2 ^ (Int.log 2 |q| - 52)

def round (q : ℚ) : ℚ := halfEven (q / spacing q) * spacing q

theorem abs_halfEven_sub_le (x : ℚ) : |(halfEven x : ℚ) - x| ≤ 1 := by
  have hLow := Int.floor_le x
  have hHigh := Int.lt_floor_add_one x
  rw [halfEven, abs_le]
  split
  · constructor <;> linarith
  · push_cast
    constructor <;> linarith

theorem halfEven_intCast (n : ℤ) : halfEven n = n := by
  have hFloor : ⌊(n : ℚ)⌋ = n := Int.floor_intCast n
  rw [halfEven, hFloor, sub_self, if_pos (.inl (by norm_num))]

theorem spacing_pos (q : ℚ) : 0 < spacing q := zpow_pos (by norm_num) _

theorem spacing_le {q : ℚ} (h : q ≠ 0) : spacing q ≤ |q| / 2 ^ 52 := by
  have hLog : (2 : ℚ) ^ Int.log 2 |q| ≤ |q| := by
    simpa using Int.zpow_log_le_self (b := 2) (by norm_num) (abs_pos.mpr h)
  have hSplit : spacing q = 2 ^ Int.log 2 |q| / 2 ^ 52 := by
    rw [spacing, zpow_sub₀ (by norm_num)]
    norm_num
  rw [hSplit]
  gcongr

/-- Rounding moves a rational by little. -/
theorem abs_round_sub_le (q : ℚ) : |round q - q| ≤ |q| / 2 ^ 52 := by
  rcases eq_or_ne q 0 with rfl | h
  · rw [round, zero_div, sub_zero]
    have hZero : halfEven 0 = 0 := halfEven_intCast 0
    rw [hZero]
    simp
  · have hPos := spacing_pos q
    calc |round q - q|
        = |(halfEven (q / spacing q) - q / spacing q) * spacing q| := by
          rw [round, sub_mul, div_mul_cancel₀ _ hPos.ne']
      _ = |(halfEven (q / spacing q) : ℚ) - q / spacing q| * spacing q := by
          rw [abs_mul, abs_of_pos hPos]
      _ ≤ 1 * spacing q := mul_le_mul_of_nonneg_right (abs_halfEven_sub_le _) hPos.le
      _ ≤ |q| / 2 ^ 52 := by
          rw [one_mul]
          exact spacing_le h

/-- An integer of at most 53 binary digits is a double. -/
theorem round_natCast {n : ℕ} (h : n < 2 ^ 53) : round n = n := by
  rcases Nat.eq_zero_or_pos n with rfl | hPos
  · rw [Nat.cast_zero, round, zero_div]
    have hZero : halfEven 0 = 0 := halfEven_intCast 0
    rw [hZero]
    simp
  · have hLog : Int.log 2 |(n : ℚ)| = Nat.log 2 n := by
      rw [abs_of_nonneg (Nat.cast_nonneg n), Int.log_natCast]
    have hSmall : Nat.log 2 n ≤ 52 := by
      have := Nat.log_lt_of_lt_pow hPos.ne' h
      omega
    have hSpacing : spacing n = (2 ^ (52 - Nat.log 2 n) : ℚ)⁻¹ := by
      rw [spacing, hLog, ← zpow_natCast, ← zpow_neg]
      congr 1
      omega
    have hWhole : (n : ℚ) / spacing n = (n * 2 ^ (52 - Nat.log 2 n) : ℤ) := by
      rw [hSpacing, div_inv_eq_mul]
      push_cast
      rfl
    rw [round, hWhole, halfEven_intCast, ← hWhole, div_mul_cancel₀ _ (spacing_pos _).ne']

end Doubles
