import Mathlib.Data.List.GetD
import PartRack.Lib.Crc

/-! Changed bits in data under a cyclic redundancy check. Which changes the check misses is
a question about the generator only. -/

namespace Crc
open Polynomial ErrorPattern

variable {w : ℕ}

/-- Positions of the bits within an octet. -/
def msbFirst (n : ℕ) : ℕ := 7 - n

def lsbFirst (n : ℕ) : ℕ := n

def mask (place : ℕ → ℕ) (F : Finset ℕ) (i : ℕ) : BitVec 8 :=
  (BitVec.ofBoolListLE ((List.range 8).map fun n => decide (8 * i + place n ∈ F))).setWidth 8

def flipBits (place : ℕ → ℕ) (F : Finset ℕ) (data : List (BitVec 8)) : List (BitVec 8) :=
  data.mapIdx fun i b => b ^^^ mask place F i

theorem length_flipBits (place : ℕ → ℕ) (F : Finset ℕ) (data : List (BitVec 8)) :
    (flipBits place F data).length = data.length := List.length_mapIdx

theorem flipBits_append (place : ℕ → ℕ) (F : Finset ℕ) (data data' : List (BitVec 8)) :
    flipBits place F (data ++ data') = flipBits place F data ++
      data'.mapIdx fun i b => b ^^^ mask place F (i + data.length) := List.mapIdx_append

theorem getLsbD_mask (place : ℕ → ℕ) (F : Finset ℕ) (i : ℕ) {n : ℕ} (hn : n < 8) :
    (mask place F i).getLsbD n = decide (8 * i + place n ∈ F) := by
  have hlen : n < ((List.range 8).map fun n => decide (8 * i + place n ∈ F)).length := by
    rwa [List.length_map, List.length_range]
  rw [mask, BitVec.getLsbD_setWidth, BitVec.getLsbD_ofBoolListLE, List.getD_eq_getElem _ _ hlen,
    List.getElem_map, List.getElem_range, decide_eq_true hn, Bool.true_and]

/-- The bit of the data whose coefficient in the message is that of the `n`-th power. -/
def bitAt (data : List (BitVec 8)) (n : ℕ) : Bool :=
  decide (n < 8 * data.length) && (data.getD (data.length - 1 - n / 8) 0).getLsbD (n % 8)

theorem bitAt_cons (b : BitVec 8) (data : List (BitVec 8)) (n : ℕ) :
    bitAt (b :: data) n = if 8 * data.length ≤ n then b.getLsbD (n - 8 * data.length)
      else bitAt data n := by
  unfold bitAt
  rw [List.length_cons]
  split_ifs with h
  · by_cases hlt : n < 8 * (data.length + 1)
    · have hindex : data.length + 1 - 1 - n / 8 = 0 := by omega
      have hbit : n % 8 = n - 8 * data.length := by omega
      rw [hindex, hbit, List.getD_cons_zero, decide_eq_true hlt, Bool.true_and]
    · have hout : b.getLsbD (n - 8 * data.length) = false := BitVec.getLsbD_of_ge b _ (by omega)
      rw [hout, decide_eq_false hlt, Bool.false_and]
  · have hindex : data.length + 1 - 1 - n / 8 = data.length - 1 - n / 8 + 1 := by omega
    have hlt : n < 8 * (data.length + 1) := by omega
    rw [hindex, List.getD_cons_succ, decide_eq_true hlt, decide_eq_true (Nat.not_le.mp h)]

theorem coeff_message (data : List (BitVec 8)) (n : ℕ) :
    (message data).coeff n = if bitAt data n then 1 else 0 := by
  induction data with
  | nil => exact coeff_zero n
  | cons b data ih =>
    rw [message, coeff_add, coeff_X_pow_mul', coeff_poly, ih, bitAt_cons]
    by_cases h : 8 * data.length ≤ n
    · have hout : bitAt data n = false := by
        rw [bitAt, decide_eq_false (Nat.not_lt.mpr h), Bool.false_and]
      rw [if_pos h, if_pos h, hout, if_neg Bool.false_ne_true, add_zero]
    · rw [if_neg h, if_neg h, zero_add]

theorem bitAt_flipBits (F : Finset ℕ) (data : List (BitVec 8)) {n : ℕ}
    (hn : n < 8 * data.length) :
    bitAt (flipBits msbFirst F data) n =
      (bitAt data n ^^ decide (8 * data.length - 1 - n ∈ F)) := by
  have hindex : data.length - 1 - n / 8 < data.length := by omega
  have hplace : 8 * (data.length - 1 - n / 8) + msbFirst (n % 8) = 8 * data.length - 1 - n := by
    unfold msbFirst
    omega
  have hlen := length_flipBits msbFirst F data
  have hmask := getLsbD_mask msbFirst F (data.length - 1 - n / 8) (Nat.mod_lt n (by decide : 0 < 8))
  unfold bitAt
  rw [hlen, decide_eq_true hn, Bool.true_and, Bool.true_and, List.getD_eq_getElem _ _ hindex,
    List.getD_eq_getElem _ _ (by rwa [hlen]), ← hplace, ← hmask, ← BitVec.getLsbD_xor]
  simp only [flipBits, List.getElem_mapIdx]

/-- The exponents at which a change of the bits at `F` is seen in `length` octets. -/
def mirror (length : ℕ) (F : Finset ℕ) : Finset ℕ := F.image fun p => 8 * length - 1 - p

theorem message_flipBits {F : Finset ℕ} {data : List (BitVec 8)}
    (hF : ∀ p ∈ F, p < 8 * data.length) :
    message (flipBits msbFirst F data) = message data + pattern (mirror data.length F) := by
  ext n
  rw [coeff_add, coeff_message, coeff_message, coeff_pattern]
  by_cases hn : n < 8 * data.length
  · have hmem : n ∈ mirror data.length F ↔ 8 * data.length - 1 - n ∈ F := by
      rw [mirror, Finset.mem_image]
      constructor
      · rintro ⟨p, hp, rfl⟩
        have hlt := hF p hp
        rwa [show 8 * data.length - 1 - (8 * data.length - 1 - p) = p by omega]
      · intro h
        exact ⟨_, h, by omega⟩
    rw [bitAt_flipBits F data hn, ite_xor]
    simp only [hmem, decide_eq_true_eq]
  · have hout : n ∉ mirror data.length F := by
      rw [mirror, Finset.mem_image]
      rintro ⟨p, hp, rfl⟩
      have hlt := hF p hp
      omega
    simp [bitAt, length_flipBits, hn, hout]

/-! ## What the check finds -/

theorem card_mirror {length : ℕ} {F : Finset ℕ} (hF : ∀ p ∈ F, p < 8 * length) :
    (mirror length F).card = F.card := by
  refine Finset.card_image_of_injOn ?_
  intro p hp q hq hpq
  have hplt := hF p hp
  have hqlt := hF q hq
  simp only at hpq
  omega

theorem not_dvd_of_odd {g : BitVec w} (hg : Odd (exponents g).card) {length : ℕ} {F : Finset ℕ}
    (hF : ∀ p ∈ F, p < 8 * length) (hodd : Odd F.card) :
    ¬generator g ∣ pattern (mirror length F) := by
  intro h
  have heven := even_card_of_dvd (eval_one_generator hg) h
  rw [card_mirror hF] at heven
  exact (Nat.not_even_iff_odd.mpr hodd) heven

theorem not_dvd_of_burst (hw : 0 < w) {g : BitVec w} (hg : g.getLsbD 0 = true) {length : ℕ}
    {F : Finset ℕ} (hF : ∀ p ∈ F, p < 8 * length) (hne : F.Nonempty) {k : ℕ}
    (hburst : ∀ p ∈ F, k ≤ p ∧ p < k + w) : ¬generator g ∣ pattern (mirror length F) := by
  intro h
  have hempty : mirror length F = ∅ := by
    refine eq_empty_of_burst (isCoprime_generator hw hg) (k := 8 * length - (k + w)) ?_ h
    intro e he
    obtain ⟨p, hp, rfl⟩ := Finset.mem_image.mp he
    have hlt := hF p hp
    have hrange := hburst p hp
    rw [natDegree_generator]
    omega
  exact (hne.image _).ne_empty hempty

theorem exists_pair_of_card_eq_two {F : Finset ℕ} (h : F.card = 2) :
    ∃ i j, i < j ∧ F = {i, j} := by
  obtain ⟨i, j, hij, rfl⟩ := Finset.card_eq_two.mp h
  rcases Nat.lt_or_gt_of_ne hij with hlt | hgt
  · exact ⟨i, j, hlt, rfl⟩
  · exact ⟨j, i, hgt, Finset.pair_comm i j⟩

theorem dvd_mirror_pair_iff (hw : 0 < w) {g : BitVec w} (hg : g.getLsbD 0 = true)
    {length i j : ℕ} (hij : i < j) (hj : j < 8 * length) :
    generator g ∣ pattern (mirror length {i, j}) ↔ (step g)^[j - i] 1 = 1 := by
  have hpair : mirror length {i, j} = {8 * length - 1 - j, 8 * length - 1 - i} := by
    rw [mirror, Finset.image_insert, Finset.image_singleton, Finset.pair_comm]
  have hdist : 8 * length - 1 - i - (8 * length - 1 - j) = j - i := by omega
  rw [hpair, dvd_pattern_pair_iff (isCoprime_generator hw hg) (by omega), hdist,
    dvd_X_pow_add_one_iff hw]

theorem crc_eq_iff_of_flipBits (hw : 8 ≤ w) {g init : BitVec w} {data data' : List (BitVec 8)}
    {sum sum' : List (BitVec 8)} {c c' : BitVec w} (hwidth : 8 * sum.length = w)
    (hwidth' : 8 * sum'.length = w) (hsum : poly c = message sum) (hsum' : poly c' = message sum')
    {F : Finset ℕ} (hF : ∀ p ∈ F, p < 8 * (data ++ sum).length)
    (hflip : data' ++ sum' = flipBits msbFirst F (data ++ sum)) (h : crc g init data = c) :
    crc g init data' = c' ↔ generator g ∣ pattern (mirror (data ++ sum).length F) := by
  have hlen : data'.length = data.length := by
    have htotal := congrArg List.length hflip
    rw [length_flipBits, List.length_append, List.length_append] at htotal
    omega
  rw [crc_eq_iff_dvd hw hlen hwidth hwidth' hsum hsum' h, hflip, message_flipBits hF, ← add_assoc,
    CharTwo.add_self_eq_zero, zero_add]

/-! ## The least significant bit first -/

theorem reverse_mask (F : Finset ℕ) (i : ℕ) :
    (mask lsbFirst F i).reverse = mask msbFirst F i := by
  apply BitVec.eq_of_getLsbD_eq
  intro n hn
  have hmirror : 8 - 1 - n < 8 := by omega
  rw [BitVec.getLsbD_reverse, BitVec.getMsbD_eq_getLsbD, getLsbD_mask _ _ _ hmirror,
    getLsbD_mask _ _ _ hn, decide_eq_true hn, Bool.true_and]
  rfl

theorem map_reverse_flipBits (F : Finset ℕ) (data : List (BitVec 8)) :
    (flipBits lsbFirst F data).map BitVec.reverse =
      flipBits msbFirst F (data.map BitVec.reverse) := by
  apply List.ext_getElem
  · rw [List.length_map, length_flipBits, length_flipBits, List.length_map]
  · intro i _ _
    simp only [flipBits, List.getElem_map, List.getElem_mapIdx, reverse_xor, reverse_mask]

end Crc
