import Mathlib.Algebra.Order.Round
import Mathlib.Data.Rat.Floor

/-! Division of naturals to the nearest: half of the divisor is added first. -/

namespace Rounding

def roundDiv (a b : ℕ) : ℕ := (a + b / 2) / b

theorem roundDiv_eq_iff {a b n : ℕ} (hb : 0 < b) :
    roundDiv a b = n ↔ 2 * (n * b) ≤ 2 * a + b ∧ 2 * a < 2 * (n * b) + b := by
  have hhalf : 2 * (b / 2) ≤ b := Nat.mul_div_le b 2
  have hhalf' : b < 2 * (b / 2) + 2 := Nat.lt_mul_div_succ b (by decide)
  have hsucc : (n + 1) * b = n * b + b := Nat.succ_mul n b
  rw [roundDiv, Nat.div_eq_iff hb]
  constructor
  · rintro ⟨hlow, hhigh⟩
    omega
  · rintro ⟨hlow, hhigh⟩
    omega

theorem roundDiv_eq_round {a b : ℕ} (hb : 0 < b) :
    (roundDiv a b : ℤ) = round ((a : ℚ) / b) := by
  have hpos : (0 : ℚ) < b := Nat.cast_pos.mpr hb
  obtain ⟨hlow, hhigh⟩ := (roundDiv_eq_iff hb).mp (Eq.refl (roundDiv a b))
  have hlow' : (2 : ℚ) * (roundDiv a b * b) ≤ 2 * a + b := by exact_mod_cast hlow
  have hhigh' : (2 : ℚ) * a < 2 * (roundDiv a b * b) + b := by exact_mod_cast hhigh
  symm
  rw [round_eq_iff, Set.mem_Ico, le_div_iff₀ hpos, div_lt_iff₀ hpos, Int.cast_natCast]
  constructor
  · linarith
  · linarith

theorem roundDiv_le {a b n : ℕ} (hb : 0 < b) (h : a ≤ n * b) : roundDiv a b ≤ n := by
  have hlt : a + b / 2 < (n + 1) * b := by
    rw [Nat.succ_mul]
    exact Nat.add_lt_add_of_le_of_lt h (Nat.div_lt_self hb (by decide))
  exact Nat.lt_succ_iff.mp ((Nat.div_lt_iff_lt_mul hb).mpr hlt)

theorem round_le_round {x y : ℚ} (h : x ≤ y) : round x ≤ round y := by
  rw [round_eq, round_eq]
  exact Int.floor_le_floor (add_le_add_left h _)

end Rounding
