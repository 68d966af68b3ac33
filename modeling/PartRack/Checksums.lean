import PartRack.Lib.ChangedBits
import PartRack.Protocol

/-! The two checksums of the protocol as remainders: CRC-16 takes the most significant bit of
an octet first, CRC-8 the least significant one. -/

namespace PartRack
open Polynomial Crc ErrorPattern

theorem repeat_eq_iterate {α : Type*} (f : α → α) (n : ℕ) : Nat.repeat f n = f^[n] := by
  funext a
  induction n with
  | zero => rfl
  | succ n ih => rw [Nat.repeat, ih, Function.iterate_succ_apply']

/-! ## CRC-16 -/

def crc16Generator : BitVec 16 := 0x1021

theorem crc16Bit_eq_step : crc16Bit = step crc16Generator := by
  funext crc
  have htop : crc &&& 0x8000 = if crc.getLsbD 15 then 0x8000 else 0 := BitVec.and_twoPow crc 15
  have hmsb : crc.msb = crc.getLsbD 15 := BitVec.msb_eq_getLsbD_last crc
  unfold crc16Bit step
  rw [htop, hmsb]
  cases crc.getLsbD 15 with
  | false => rfl
  | true => rfl

theorem crc16CcittFalse_eq (data : List Byte) :
    crc16CcittFalse data = crc crc16Generator 0xFFFF data := by
  have hbyte : crc16Byte = octet crc16Generator := by
    funext crc b
    rw [crc16Byte, repeat_eq_iterate, crc16Bit_eq_step, octet]
  rw [crc16CcittFalse, hbyte, crc]

theorem odd_crc16Generator : Odd (exponents crc16Generator).card := by decide +kernel

theorem crc16_iterate_ne_one {k : ℕ} (hk : k < 3311) : (step crc16Generator)^[k + 1] 1 ≠ 1 :=
  iterate_step_ne_one (by decide +kernel : avoidsOne crc16Generator 3311 1 = true) hk

theorem poly_word (c : BitVec 16) :
    poly c = message [BitVec.ofNat 8 (c.toNat / 256), BitVec.ofNat 8 c.toNat] := by
  ext i
  have hlow : (BitVec.ofNat 8 c.toNat).getLsbD i = (decide (i < 8) && c.getLsbD i) := by
    rw [BitVec.getLsbD_ofNat, BitVec.testBit_toNat]
  have hhigh : 8 ≤ i → (BitVec.ofNat 8 (c.toNat / 256)).getLsbD (i - 8) = c.getLsbD i := by
    intro h
    rw [BitVec.getLsbD_ofNat, show 256 = 2 ^ 8 from rfl, Nat.testBit_div_two_pow,
      Nat.sub_add_cancel h, BitVec.testBit_toNat]
    by_cases hi : i < 16
    · rw [decide_eq_true (by omega), Bool.true_and]
    · rw [BitVec.getLsbD_of_ge c i (by omega), Bool.and_false]
  rw [message, message, message, List.length_singleton, List.length_nil, mul_one, mul_zero,
    pow_zero, one_mul, add_zero, coeff_add, coeff_X_pow_mul', coeff_poly, coeff_poly, coeff_poly,
    hlow]
  by_cases h : 8 ≤ i
  · rw [if_pos h, hhigh h, decide_eq_false (Nat.not_lt.mpr h), Bool.false_and,
      if_neg Bool.false_ne_true, add_zero]
  · rw [if_neg h, zero_add, decide_eq_true (Nat.not_le.mp h), Bool.true_and]

/-! ## CRC-8 -/

def crc8Generator : Byte := 0x31

theorem crc8Bit_eq_stepReversed : crc8Bit = stepReversed 0x8C := by
  funext crc
  have hlow : crc &&& 0x01 = if crc.getLsbD 0 then 0x01 else 0 := BitVec.and_twoPow crc 0
  unfold crc8Bit stepReversed
  rw [hlow]
  cases crc.getLsbD 0 with
  | false => rfl
  | true => rfl

theorem reverse_crc8Maxim (data : List Byte) :
    (crc8Maxim data).reverse = crc crc8Generator 0 (data.map BitVec.reverse) := by
  have hbyte : crc8Byte = octetReversed 0x8C := by
    funext crc b
    rw [crc8Byte, repeat_eq_iterate, crc8Bit_eq_stepReversed, octetReversed, BitVec.setWidth_eq]
  have hgenerator : BitVec.reverse (0x8C : Byte) = crc8Generator := by decide
  have hreverse := reverse_crcReversed (Nat.le_refl 8) 0x8C 0x00 data
  rw [hgenerator] at hreverse
  rw [crc8Maxim, hbyte]
  exact hreverse

theorem odd_crc8Generator : Odd (exponents crc8Generator).card := by decide +kernel

theorem crc8_iterate_eq_one_iff {n : ℕ} (hn : 0 < n) (hlt : n < 128) :
    (step crc8Generator)^[n] 1 = 1 ↔ n = 127 := by
  constructor
  · intro h
    obtain ⟨k, rfl⟩ : ∃ k, n = k + 1 := ⟨n - 1, by omega⟩
    by_contra hne
    have hk : k < 126 := by omega
    exact iterate_step_ne_one (by decide +kernel : avoidsOne crc8Generator 126 1 = true) hk h
  · rintro rfl
    decide +kernel

end PartRack
