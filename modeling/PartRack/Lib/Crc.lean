import Mathlib.Data.BitVec
import Mathlib.RingTheory.AdjoinRoot
import PartRack.Lib.ErrorPatterns

/-! Cyclic redundancy checks with a register of `w` bits, the most significant bit first.
The register holds the remainder of the data by the generator polynomial, so that two
data of one length have the same checksum when the generator divides their difference. -/

namespace Crc
open Polynomial ErrorPattern

variable {w : ℕ}

/-! ## Registers as polynomials -/

def exponents (v : BitVec w) : Finset ℕ := (Finset.range w).filter fun i => v.getLsbD i

noncomputable def poly (v : BitVec w) : (ZMod 2)[X] := pattern (exponents v)

theorem coeff_poly (v : BitVec w) (i : ℕ) :
    (poly v).coeff i = if v.getLsbD i then 1 else 0 := by
  rw [poly, coeff_pattern]
  refine if_congr ?_ rfl rfl
  rw [exponents, Finset.mem_filter, Finset.mem_range]
  exact and_iff_right_of_imp fun h => BitVec.lt_of_getLsbD h

theorem ite_xor (a b : Bool) :
    (if a ^^ b then 1 else 0 : ZMod 2) = (if a then 1 else 0) + if b then 1 else 0 := by
  cases a <;> cases b <;> decide

theorem poly_xor (u v : BitVec w) : poly (u ^^^ v) = poly u + poly v := by
  ext i
  rw [coeff_add, coeff_poly, coeff_poly, coeff_poly, BitVec.getLsbD_xor, ite_xor]

theorem degree_poly_lt (v : BitVec w) : (poly v).degree < w :=
  degree_pattern_lt fun _ he => Finset.mem_range.mp (Finset.mem_of_mem_filter _ he)

theorem poly_injective : Function.Injective (poly (w := w)) := by
  intro u v h
  apply BitVec.eq_of_getLsbD_eq
  intro i _
  have hcoeff := congrArg (fun p : (ZMod 2)[X] => p.coeff i) h
  simp only [coeff_poly] at hcoeff
  cases hu : u.getLsbD i <;> cases hv : v.getLsbD i <;> simp_all

theorem poly_one (hw : 0 < w) : poly (1 : BitVec w) = 1 := by
  ext i
  rw [coeff_poly, coeff_one, BitVec.ofNat_eq_ofNat, BitVec.getLsbD_one]
  cases i <;> simp [hw]

theorem X_mul_poly (v : BitVec w) :
    X * poly v = poly (v <<< 1) + if v.msb then X ^ w else 0 := by
  have hmsb : ∀ i, w = i + 1 → v.msb = v.getLsbD i := by
    rintro i rfl
    exact BitVec.msb_eq_getLsbD_last v
  ext i
  have htop : (if v.msb then X ^ w else (0 : (ZMod 2)[X])).coeff i =
      if v.msb ∧ i = w then 1 else 0 := by
    rw [apply_ite (fun p : (ZMod 2)[X] => p.coeff i), coeff_X_pow, coeff_zero, ← ite_and]
  rw [coeff_add, htop, coeff_poly, BitVec.getLsbD_shiftLeft]
  cases i with
  | zero =>
    have hzero : ¬(v.msb = true ∧ 0 = w) := by
      rintro ⟨h, rfl⟩
      rw [BitVec.of_length_zero (x := v)] at h
      exact Bool.noConfusion h
    rw [coeff_X_mul_zero, if_neg hzero]
    simp
  | succ i =>
    rw [coeff_X_mul, coeff_poly]
    rcases Nat.lt_trichotomy (i + 1) w with hlt | heq | hgt
    · simp [hlt, hlt.ne]
    · simp [heq.symm, hmsb i heq.symm]
    · have hout : v.getLsbD i = false := BitVec.getLsbD_of_ge v i (by omega)
      simp [hout, hgt.ne']

/-! ## The generator -/

noncomputable def generator (g : BitVec w) : (ZMod 2)[X] := X ^ w + poly g

theorem monic_generator (g : BitVec w) : (generator g).Monic := monic_X_pow_add (degree_poly_lt g)

theorem natDegree_generator (g : BitVec w) : (generator g).natDegree = w := by
  have hlt : (poly g).degree < ((X : (ZMod 2)[X]) ^ w).degree := by
    rw [degree_X_pow]
    exact degree_poly_lt g
  rw [generator, natDegree_add_eq_left_of_degree_lt hlt, natDegree_X_pow]

theorem isCoprime_generator (hw : 0 < w) {g : BitVec w} (hg : g.getLsbD 0 = true) :
    IsCoprime (generator g) X := by
  refine IsCoprime.symm ((irreducible_X.coprime_iff_not_dvd).mpr ?_)
  rw [X_dvd_iff, generator, coeff_add, coeff_X_pow, coeff_poly, if_neg hw.ne, if_pos hg, zero_add]
  exact one_ne_zero

theorem eval_one_generator {g : BitVec w} (h : Odd (exponents g).card) :
    (generator g).eval 1 = 0 := by
  have hcast : ((exponents g).card : ZMod 2) = 1 := ZMod.natCast_eq_one_iff_odd.mpr h
  have heval : (poly g).eval 1 = 1 := by
    simp only [poly, pattern, eval_finsetSum, eval_pow, eval_X, one_pow, Finset.sum_const,
      nsmul_eq_mul, mul_one, hcast]
  rw [generator, eval_add, eval_pow, eval_X, one_pow, heval]
  exact CharTwo.add_self_eq_zero 1

/-- The remainder of a polynomial by the generator. -/
noncomputable def residue (g : BitVec w) : (ZMod 2)[X] →+* AdjoinRoot (generator g) :=
  AdjoinRoot.mk (generator g)

theorem residue_eq_iff (g : BitVec w) {p q : (ZMod 2)[X]} :
    residue g p = residue g q ↔ generator g ∣ p + q := by
  rw [residue, AdjoinRoot.mk_eq_mk, CharTwo.sub_eq_add]

theorem residue_poly_inj (g : BitVec w) {u v : BitVec w} :
    residue g (poly u) = residue g (poly v) ↔ u = v := by
  refine ⟨fun h => ?_, fun h => congrArg (fun v => residue g (poly v)) h⟩
  rw [residue_eq_iff, ← poly_xor] at h
  have hdegree : (poly (u ^^^ v)).degree < (generator g).degree := by
    rw [degree_eq_natDegree (monic_generator g).ne_zero, natDegree_generator]
    exact degree_poly_lt _
  have hzero : poly (u ^^^ v) = 0 := eq_zero_of_dvd_of_degree_lt h hdegree
  rw [poly_xor, ← CharTwo.sub_eq_add, sub_eq_zero] at hzero
  exact poly_injective hzero

/-! ## The register -/

/-- One turn of the loop over the bits of an octet. -/
def step (g v : BitVec w) : BitVec w := if v.msb then v <<< 1 ^^^ g else v <<< 1

theorem residue_step (g v : BitVec w) :
    residue g (poly (step g v)) = residue g (X * poly v) := by
  have hshift := X_mul_poly v
  rw [residue_eq_iff, hshift, step]
  split_ifs with h
  · refine ⟨1, ?_⟩
    rw [poly_xor, generator, mul_one]
    calc poly (v <<< 1) + poly g + (poly (v <<< 1) + X ^ w)
        = poly (v <<< 1) + poly (v <<< 1) + (X ^ w + poly g) := by ring
      _ = X ^ w + poly g := by rw [CharTwo.add_self_eq_zero, zero_add]
  · rw [add_zero, CharTwo.add_self_eq_zero]
    exact dvd_zero _

theorem residue_iterate_step (g v : BitVec w) (n : ℕ) :
    residue g (poly ((step g)^[n] v)) = residue g (X ^ n * poly v) := by
  induction n with
  | zero => rw [Function.iterate_zero_apply, pow_zero, one_mul]
  | succ n ih =>
    rw [Function.iterate_succ_apply', residue_step, map_mul, ih, ← map_mul, pow_succ', mul_assoc]

/-- One turn of the loop over the data. -/
def octet (g v : BitVec w) (b : BitVec 8) : BitVec w :=
  (step g)^[8] (v ^^^ b.setWidth w <<< (w - 8))

def crc (g init : BitVec w) (data : List (BitVec 8)) : BitVec w := data.foldl (octet g) init

theorem poly_setWidth_shiftLeft (hw : 8 ≤ w) (b : BitVec 8) :
    poly (b.setWidth w <<< (w - 8)) = X ^ (w - 8) * poly b := by
  ext i
  rw [coeff_X_pow_mul', coeff_poly, BitVec.getLsbD_shiftLeft, BitVec.getLsbD_setWidth]
  by_cases hi : w - 8 ≤ i
  · rw [if_pos hi, coeff_poly]
    by_cases hlt : i < w
    · have hlow : i - (w - 8) < w := by omega
      simp [hlt, hlow, Nat.not_lt.mpr hi]
    · have hout : b.getLsbD (i - (w - 8)) = false := BitVec.getLsbD_of_ge b _ (by omega)
      simp [hlt, hout]
  · simp [hi, Nat.not_le.mp hi]

theorem residue_octet (hw : 8 ≤ w) (g v : BitVec w) (b : BitVec 8) :
    residue g (poly (octet g v b)) = residue g (X ^ 8 * poly v + X ^ w * poly b) := by
  have hpow : (X : (ZMod 2)[X]) ^ 8 * X ^ (w - 8) = X ^ w := by
    rw [← pow_add, Nat.add_sub_cancel' hw]
  rw [octet, residue_iterate_step, poly_xor, poly_setWidth_shiftLeft hw, mul_add, ← mul_assoc, hpow]

/-! ## Data as polynomials -/

noncomputable def message : List (BitVec 8) → (ZMod 2)[X]
  | [] => 0
  | b :: data => X ^ (8 * data.length) * poly b + message data

theorem message_append (data data' : List (BitVec 8)) :
    message (data ++ data') = X ^ (8 * data'.length) * message data + message data' := by
  induction data with
  | nil => rw [List.nil_append, message, mul_zero, zero_add]
  | cons b data ih =>
    rw [List.cons_append, message, message, ih, List.length_append, mul_add (8 : ℕ), pow_add]
    ring

theorem residue_crc (hw : 8 ≤ w) (g init : BitVec w) (data : List (BitVec 8)) :
    residue g (poly (crc g init data)) =
      residue g (X ^ (8 * data.length) * poly init + X ^ w * message data) := by
  unfold crc
  induction data generalizing init with
  | nil =>
    have hnil : X ^ (8 * List.length ([] : List (BitVec 8))) * poly init + X ^ w * message [] =
        poly init := by
      rw [List.length_nil, message, mul_zero, mul_zero, add_zero, pow_zero, one_mul]
    rw [List.foldl_nil, hnil]
  | cons b data ih =>
    have hcons : X ^ (8 * data.length) * (X ^ 8 * poly init + X ^ w * poly b) +
        X ^ w * message data =
          X ^ (8 * (b :: data).length) * poly init + X ^ w * message (b :: data) := by
      rw [message, List.length_cons, mul_add (8 : ℕ), pow_add]
      ring
    rw [List.foldl_cons, ih, map_add, map_mul, residue_octet hw, ← map_mul, ← map_add, hcons]

/-- Data with their checksum `c` behind them: another word of this length carries its own
checksum when the generator divides the difference. -/
theorem crc_eq_iff_dvd (hw : 8 ≤ w) {g init : BitVec w} {data data' sum sum' : List (BitVec 8)}
    {c c' : BitVec w} (hlen : data'.length = data.length) (hwidth : 8 * sum.length = w)
    (hwidth' : 8 * sum'.length = w) (hsum : poly c = message sum) (hsum' : poly c' = message sum')
    (h : crc g init data = c) :
    crc g init data' = c' ↔
      generator g ∣ message (data ++ sum) + message (data' ++ sum') := by
  have hold := residue_crc hw g init data
  rw [h, hsum, eq_comm, residue_eq_iff] at hold
  rw [← residue_poly_inj g, residue_crc hw, hsum', residue_eq_iff, hlen, message_append,
    message_append, hwidth, hwidth', ← dvd_add_right hold]
  have hcancel : X ^ (8 * data.length) * poly init + X ^ w * message data + message sum +
      (X ^ (8 * data.length) * poly init + X ^ w * message data' + message sum') =
        X ^ w * message data + message sum + (X ^ w * message data' + message sum') := by
    calc _ = X ^ (8 * data.length) * poly init + X ^ (8 * data.length) * poly init +
          (X ^ w * message data + message sum + (X ^ w * message data' + message sum')) := by ring
      _ = _ := by rw [CharTwo.add_self_eq_zero, zero_add]
  rw [hcancel]

/-! ## Powers of `X` -/

theorem dvd_X_pow_add_one_iff (hw : 0 < w) (g : BitVec w) (n : ℕ) :
    generator g ∣ X ^ n + 1 ↔ (step g)^[n] 1 = 1 := by
  rw [← residue_poly_inj g, residue_iterate_step, poly_one hw, mul_one, residue_eq_iff]

/-- None of the `n` registers after `v` is one. -/
def avoidsOne (g : BitVec w) : ℕ → BitVec w → Bool
  | 0, _ => true
  | n + 1, v => if step g v = 1 then false else avoidsOne g n (step g v)

theorem iterate_step_ne_one {g v : BitVec w} {n : ℕ} (h : avoidsOne g n v = true) {k : ℕ}
    (hk : k < n) : (step g)^[k + 1] v ≠ 1 := by
  induction n generalizing v k with
  | zero => exact absurd hk (Nat.not_lt_zero k)
  | succ n ih =>
    rw [avoidsOne] at h
    split_ifs at h with hone
    rw [Function.iterate_succ_apply]
    cases k with
    | zero => exact hone
    | succ k => exact ih h (Nat.lt_of_succ_lt_succ hk)

/-! ## The least significant bit first -/

/-- One turn of the inner loop with the register and the generator reversed. -/
def stepReversed (g v : BitVec w) : BitVec w :=
  if v.getLsbD 0 then v >>> 1 ^^^ g else v >>> 1

def octetReversed (g v : BitVec w) (b : BitVec 8) : BitVec w :=
  (stepReversed g)^[8] (v ^^^ b.setWidth w)

def crcReversed (g init : BitVec w) (data : List (BitVec 8)) : BitVec w :=
  data.foldl (octetReversed g) init

theorem reverse_xor (u v : BitVec w) : (u ^^^ v).reverse = u.reverse ^^^ v.reverse := by
  apply BitVec.eq_of_getLsbD_eq
  intro i _
  rw [BitVec.getLsbD_xor, BitVec.getLsbD_reverse, BitVec.getLsbD_reverse, BitVec.getLsbD_reverse,
    BitVec.getMsbD_xor]

theorem reverse_shiftRight_one (v : BitVec w) : (v >>> 1).reverse = v.reverse <<< 1 := by
  apply BitVec.eq_of_getLsbD_eq
  intro i hi
  rw [BitVec.getLsbD_reverse, BitVec.getMsbD_ushiftRight, BitVec.getLsbD_shiftLeft,
    BitVec.getLsbD_reverse]
  simp [hi]

theorem reverse_stepReversed (g v : BitVec w) :
    (stepReversed g v).reverse = step g.reverse v.reverse := by
  unfold stepReversed step
  rw [BitVec.msb_reverse, apply_ite BitVec.reverse, reverse_xor, reverse_shiftRight_one]

theorem reverse_iterate_stepReversed (g v : BitVec w) (n : ℕ) :
    ((stepReversed g)^[n] v).reverse = (step g.reverse)^[n] v.reverse := by
  induction n with
  | zero => rfl
  | succ n ih =>
    rw [Function.iterate_succ_apply', Function.iterate_succ_apply', reverse_stepReversed, ih]

theorem reverse_setWidth (hw : 8 ≤ w) (b : BitVec 8) :
    (b.setWidth w).reverse = b.reverse.setWidth w <<< (w - 8) := by
  apply BitVec.eq_of_getLsbD_eq
  intro i hi
  rw [BitVec.getLsbD_reverse, BitVec.getMsbD_eq_getLsbD, BitVec.getLsbD_shiftLeft,
    BitVec.getLsbD_setWidth, BitVec.getLsbD_setWidth, BitVec.getLsbD_reverse,
    BitVec.getMsbD_eq_getLsbD]
  by_cases hlow : i < w - 8
  · have hout : b.getLsbD (w - 1 - i) = false := BitVec.getLsbD_of_ge b _ (by omega)
    rw [hout, decide_eq_true hlow]
    simp
  · have hindex : 8 - 1 - (i - (w - 8)) = w - 1 - i := by omega
    have hbit : i - (w - 8) < 8 := by omega
    have hwidth : i - (w - 8) < w := by omega
    have hmirror : w - 1 - i < w := by omega
    rw [hindex, decide_eq_false hlow, decide_eq_true hi, decide_eq_true hbit,
      decide_eq_true hwidth, decide_eq_true hmirror]
    simp

theorem reverse_crcReversed (hw : 8 ≤ w) (g init : BitVec w) (data : List (BitVec 8)) :
    (crcReversed g init data).reverse =
      crc g.reverse init.reverse (data.map BitVec.reverse) := by
  unfold crcReversed crc
  induction data generalizing init with
  | nil => rfl
  | cons b data ih =>
    have hoctet : (octetReversed g init b).reverse = octet g.reverse init.reverse b.reverse := by
      rw [octetReversed, reverse_iterate_stepReversed, reverse_xor, reverse_setWidth hw, octet]
    rw [List.foldl_cons, ih, hoctet, List.map_cons, List.foldl_cons]

end Crc
