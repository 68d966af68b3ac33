import Mathlib.Data.BitVec

/-! Maps of bit vectors that respect exclusive or. Such a map is given by its values on the
vectors with a single bit. -/

namespace ExclusiveOr
variable {m n k : ℕ}

def Linear (f : BitVec m → BitVec n) : Prop := ∀ u v, f (u ^^^ v) = f u ^^^ f v

theorem Linear.map_zero {f : BitVec m → BitVec n} (h : Linear f) : f 0 = 0 := by
  have hzero := h 0 0
  rwa [BitVec.xor_self, BitVec.xor_self] at hzero

theorem linear_id : Linear (id : BitVec m → BitVec m) := fun _ _ => rfl

theorem Linear.comp {g : BitVec n → BitVec k} {f : BitVec m → BitVec n} (hg : Linear g)
    (hf : Linear f) : Linear (g ∘ f) := by
  intro u v
  rw [Function.comp_apply, hf, hg]
  rfl

theorem xor_xor_xor_comm (a b c d : BitVec n) :
    (a ^^^ b) ^^^ (c ^^^ d) = (a ^^^ c) ^^^ (b ^^^ d) := by
  rw [BitVec.xor_assoc, BitVec.xor_assoc, ← BitVec.xor_assoc b, BitVec.xor_comm b,
    BitVec.xor_assoc c]

theorem Linear.xor {f g : BitVec m → BitVec n} (hf : Linear f) (hg : Linear g) :
    Linear fun v => f v ^^^ g v := by
  intro u v
  change f (u ^^^ v) ^^^ g (u ^^^ v) = _
  rw [hf, hg, xor_xor_xor_comm]

theorem linear_ite_bit (i : ℕ) (c : BitVec n) :
    Linear fun v : BitVec m => if v.getLsbD i then c else 0 := by
  intro u v
  simp only [BitVec.getLsbD_xor]
  cases u.getLsbD i <;> cases v.getLsbD i <;> simp

theorem linear_setWidth : Linear (BitVec.setWidth n : BitVec m → BitVec n) := by
  intro u v
  exact BitVec.setWidth_xor

theorem linear_shiftLeft (i : ℕ) : Linear fun v : BitVec m => v <<< i := by
  intro u v
  exact BitVec.shiftLeft_xor_distrib u v i

theorem linear_iterate {f : BitVec m → BitVec m} (h : Linear f) (i : ℕ) : Linear f^[i] := by
  induction i with
  | zero => exact linear_id
  | succ i ih => exact ih.comp h

/-! ## Single bits -/

theorem Linear.ext {f g : BitVec m → BitVec n} (hf : Linear f) (hg : Linear g)
    (h : ∀ i < m, f (BitVec.twoPow m i) = g (BitVec.twoPow m i)) (v : BitVec m) : f v = g v := by
  have hlow : ∀ k ≤ m, ∀ v : BitVec m, (∀ i, k ≤ i → v.getLsbD i = false) → f v = g v := by
    intro k
    induction k with
    | zero =>
      intro _ v hv
      have hzero : v = 0 := BitVec.eq_of_getLsbD_eq fun i _ => by
        rw [hv i (Nat.zero_le i), BitVec.ofNat_eq_ofNat, BitVec.getLsbD_zero]
      rw [hzero, hf.map_zero, hg.map_zero]
    | succ k ih =>
      intro hk v hv
      cases hbit : v.getLsbD k with
      | false =>
        refine ih (Nat.le_of_lt hk) v fun i hi => ?_
        rcases Nat.eq_or_lt_of_le hi with rfl | hlt
        · exact hbit
        · exact hv i hlt
      | true =>
        -- without its highest bit the vector is shorter
        have hrest : f (v ^^^ BitVec.twoPow m k) = g (v ^^^ BitVec.twoPow m k) := by
          refine ih (Nat.le_of_lt hk) _ fun i hi => ?_
          rw [BitVec.getLsbD_xor, BitVec.getLsbD_twoPow]
          rcases Nat.eq_or_lt_of_le hi with rfl | hlt
          · simp [hbit, Nat.lt_of_succ_le hk]
          · simp [hv i hlt, hlt.ne]
        rw [hf, hg, h k hk] at hrest
        exact (BitVec.xor_left_inj _).mp hrest
  exact hlow m (Nat.le_refl m) v fun i hi => BitVec.getLsbD_of_ge v i hi

/-- The map with these values on the single bits from bit `i` on. -/
def combine : List (BitVec n) → ℕ → BitVec m → BitVec n
  | [], _, _ => 0
  | c :: columns, i, v => (if v.getLsbD i then c else 0) ^^^ combine columns (i + 1) v

theorem linear_combine (columns : List (BitVec n)) (i : ℕ) :
    Linear (combine columns i : BitVec m → BitVec n) := by
  induction columns generalizing i with
  | nil => exact fun _ _ => (BitVec.xor_self).symm
  | cons c columns ih => exact (linear_ite_bit i c).xor (ih (i + 1))

end ExclusiveOr
