import Mathlib.Algebra.CharP.Two
import Mathlib.Algebra.Field.ZMod
import Mathlib.Algebra.Polynomial.FieldDivision

/-! Error patterns of cyclic codes. The exponents of a polynomial over the field of two
elements are the bits that an error has changed; a code with generator `G` misses exactly
the patterns that `G` divides. -/

namespace ErrorPattern
open Polynomial

noncomputable def pattern (F : Finset ℕ) : (ZMod 2)[X] := ∑ e ∈ F, X ^ e

theorem coeff_pattern (F : Finset ℕ) (n : ℕ) :
    (pattern F).coeff n = if n ∈ F then 1 else 0 := by
  simp only [pattern, finsetSum_coeff, coeff_X_pow]
  exact Finset.sum_ite_eq F n fun _ => 1

theorem mem_iff_coeff_pattern {F : Finset ℕ} {n : ℕ} : n ∈ F ↔ (pattern F).coeff n ≠ 0 := by
  rw [coeff_pattern, ne_eq, ite_eq_right_iff, Classical.not_imp]
  exact (and_iff_left one_ne_zero).symm

theorem eq_empty_of_pattern_eq_zero {F : Finset ℕ} (h : pattern F = 0) : F = ∅ := by
  refine Finset.eq_empty_of_forall_notMem fun n hn => ?_
  rw [mem_iff_coeff_pattern, h] at hn
  exact hn (coeff_zero n)

variable {G : (ZMod 2)[X]} {F : Finset ℕ}

theorem even_card_of_dvd (hroot : G.eval 1 = 0) (h : G ∣ pattern F) : Even F.card := by
  have heval : (pattern F).eval 1 = F.card := by
    simp only [pattern, eval_finsetSum, eval_pow, eval_X, one_pow, Finset.sum_const,
      nsmul_eq_mul, mul_one]
  have hzero : (pattern F).eval 1 = 0 := eval_eq_zero_of_dvd_of_eval_eq_zero h hroot
  rw [heval] at hzero
  exact (ZMod.natCast_eq_zero_iff_even).mp hzero

theorem pattern_eq_X_pow_mul {k : ℕ} (h : ∀ e ∈ F, k ≤ e) :
    pattern F = X ^ k * pattern (F.image fun e => e - k) := by
  have hinj : Set.InjOn (fun e => e - k) F := by
    intro a ha b hb hab
    have hka := h a ha
    have hkb := h b hb
    simp only at hab
    omega
  unfold pattern
  rw [Finset.sum_image hinj, Finset.mul_sum]
  refine Finset.sum_congr rfl fun e he => ?_
  rw [← pow_add, Nat.add_sub_cancel' (h e he)]

theorem degree_pattern_lt {n : ℕ} (h : ∀ e ∈ F, e < n) : (pattern F).degree < n := by
  rw [degree_lt_iff_coeff_zero]
  intro m hm
  rw [coeff_pattern, if_neg fun hmem => absurd (h m hmem) (Nat.not_lt.mpr hm)]

theorem eq_empty_of_burst (hX : IsCoprime G X) {k : ℕ}
    (hF : ∀ e ∈ F, k ≤ e ∧ e < k + G.natDegree) (h : G ∣ pattern F) : F = ∅ := by
  apply eq_empty_of_pattern_eq_zero
  rw [pattern_eq_X_pow_mul fun e he => (hF e he).1] at h ⊢
  have hdvd : G ∣ pattern (F.image fun e => e - k) := (hX.pow_right).dvd_of_dvd_mul_left h
  have hlow : ∀ e ∈ F.image (fun e => e - k), e < G.natDegree := by
    intro e he
    obtain ⟨d, hd, rfl⟩ := Finset.mem_image.mp he
    have hbounds := hF d hd
    omega
  have hzero : pattern (F.image fun e => e - k) = 0 := by
    by_cases hG : G = 0
    · rwa [hG, zero_dvd_iff] at hdvd
    · refine eq_zero_of_dvd_of_degree_lt hdvd ?_
      rw [degree_eq_natDegree hG]
      exact degree_pattern_lt hlow
  rw [hzero, mul_zero]

/-- Two changed bits are missed if the power of `X` between them is one. -/
theorem dvd_pattern_pair_iff (hX : IsCoprime G X) {i j : ℕ} (hij : i < j) :
    G ∣ pattern {i, j} ↔ G ∣ X ^ (j - i) + 1 := by
  have hpair : pattern {i, j} = X ^ i * (X ^ (j - i) + 1) := by
    rw [pattern, Finset.sum_pair hij.ne, mul_add, mul_one, ← pow_add,
      Nat.add_sub_cancel' hij.le, add_comm]
  rw [hpair]
  exact ⟨fun h => (hX.pow_right).dvd_of_dvd_mul_left h, fun h => dvd_mul_of_dvd_right h _⟩

end ErrorPattern
