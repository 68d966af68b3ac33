import Mathlib.Data.Int.ModEq
import Mathlib.Logic.Function.Iterate
import Mathlib.Tactic.SplitIfs

/-! Counters that run from 1 to `m` and then start over at 1. -/

namespace OneBased
variable {m : ℕ}

def next (m x : ℕ) : ℕ := if x = m then 1 else x + 1

/-- The value `n` steps after `x`. -/
def after (m x n : ℕ) : ℕ := (x - 1 + n) % m + 1

theorem after_succ {x : ℕ} (hm : 1 ≤ m) (n : ℕ) : after m x (n + 1) = next m (after m x n) := by
  have hlt := Nat.mod_lt (x - 1 + n) hm
  unfold after next
  rw [← Nat.add_assoc, Nat.add_mod]
  split_ifs with h
  · -- the residue is the last one, and the next one is 0
    have hlast : (x - 1 + n) % m = m - 1 := by omega
    rw [hlast, Nat.add_mod_mod, Nat.sub_add_cancel hm, Nat.mod_self]
  · rw [Nat.add_mod_mod, Nat.mod_eq_of_lt (by omega)]

theorem iterate_next {x : ℕ} (hx : 1 ≤ x) (hxm : x ≤ m) (n : ℕ) :
    (next m)^[n] x = after m x n := by
  induction n with
  | zero =>
    have hlt : x - 1 + 0 < m := by omega
    rw [Function.iterate_zero_apply, after, Nat.mod_eq_of_lt hlt]
    omega
  | succ n ih => rw [Function.iterate_succ_apply', ih, after_succ (Nat.le_trans hx hxm)]

theorem after_cases {x : ℕ} (hx : 1 ≤ x) (hxm : x ≤ m) {n : ℕ} (hn : n < m) :
    after m x n = x + n ∨ after m x n + m = x + n := by
  -- below `m` steps the counter has either gone up by the steps or passed `m` once
  unfold after
  rcases Nat.lt_or_ge (x - 1 + n) m with hlt | hge
  · left
    rw [Nat.mod_eq_of_lt hlt]
    omega
  · right
    have hlt : x - 1 + n - m < m := by omega
    rw [Nat.mod_eq_sub_mod hge, Nat.mod_eq_of_lt hlt]
    omega

theorem after_eq_self_iff {x : ℕ} (hx : 1 ≤ x) (hxm : x ≤ m) {n : ℕ} (hn : n < m) :
    after m x n = x ↔ n = 0 := by
  have hpos : 1 ≤ after m x n := Nat.le_add_left 1 _
  rcases after_cases hx hxm hn with h | h <;> omega

theorem after_mod_ne {x d : ℕ} (hx : 1 ≤ x) (hxm : x ≤ m) (hd : d ∣ m + 1) {n : ℕ}
    (hn : 1 ≤ n) (hnd : n + 1 < d) : after m x n % d ≠ x % d := by
  -- the residue changes too, because one turn of the counter is one short of a multiple of the
  -- modulus
  have hdm : d ≤ m + 1 := Nat.le_of_dvd (Nat.succ_pos m) hd
  intro hmod
  rcases after_cases hx hxm (show n < m by omega) with h | h
  · rw [h] at hmod
    have hdvd : d ∣ x + n - x := (Nat.modEq_iff_dvd' (Nat.le_add_right x n)).mp hmod.symm
    rw [Nat.add_sub_cancel_left] at hdvd
    have hle := Nat.le_of_dvd hn hdvd
    omega
  · -- modulo `d` the counter has gone up by `n + 1`
    have hdvd : d ∣ x + n + 1 - x := by
      refine (Nat.modEq_iff_dvd' (by omega)).mp ?_
      have hsum : x + n + 1 = after m x n + (m + 1) := by omega
      rw [hsum]
      show x % d = (after m x n + (m + 1)) % d
      rw [Nat.add_mod, Nat.mod_eq_zero_of_dvd hd, Nat.add_zero, Nat.mod_mod, hmod]
    have hle := Nat.le_of_dvd (by omega) hdvd
    omega

end OneBased
