import PartRack.Checksums
import PartRack.Persistence.Restore

/-! Snapshots with changed bits. The stored checksum has its octets the wrong way round for a
remainder, so the image is compared with the one whose last two octets are swapped. -/

namespace PartRack
open Crc ErrorPattern LittleEndian

namespace Snapshot

/-- The octets of a snapshot with the checksum as a big-endian word. -/
def checked (s : Snapshot) : List Byte := s.body ++ (bytes 2 s.crc16Le.toNat).reverse

/-- The position of a bit of the image after the swap of the last two octets. -/
def swapTail (p : ℕ) : ℕ :=
  if p < 8 * 412 then p else if p < 8 * 413 then p + 8 else p - 8

theorem swapTail_lt {p : ℕ} (hp : p < 8 * 414) : swapTail p < 8 * 414 := by
  unfold swapTail
  split_ifs <;> omega

theorem swapTail_swapTail {p : ℕ} (hp : p < 8 * 414) : swapTail (swapTail p) = p := by
  unfold swapTail
  split_ifs <;> omega

section Swapped
variable {F : Finset ℕ} (hF : ∀ p ∈ F, p < 8 * 414)
include hF

theorem lt_of_mem_image_swapTail : ∀ p ∈ F.image swapTail, p < 8 * 414 := by
  intro p hp
  obtain ⟨q, hq, rfl⟩ := Finset.mem_image.mp hp
  exact swapTail_lt (hF q hq)

theorem mem_image_swapTail {p : ℕ} (hp : p < 8 * 414) :
    p ∈ F.image swapTail ↔ swapTail p ∈ F := by
  rw [Finset.mem_image]
  constructor
  · rintro ⟨q, hq, rfl⟩
    rwa [swapTail_swapTail (hF q hq)]
  · intro h
    exact ⟨swapTail p, h, swapTail_swapTail hp⟩

theorem card_image_swapTail : (F.image swapTail).card = F.card := by
  refine Finset.card_image_of_injOn ?_
  intro p hp q hq hpq
  rw [← swapTail_swapTail (hF p hp), ← swapTail_swapTail (hF q hq), hpq]

theorem mask_image_swapTail {i j : ℕ} (hi : i < 414)
    (hij : ∀ n, n < 8 → swapTail (8 * i + n) = 8 * j + n) :
    mask msbFirst (F.image swapTail) i = mask msbFirst F j := by
  apply BitVec.eq_of_getLsbD_eq
  intro n hn
  have hplace : msbFirst n < 8 := by
    unfold msbFirst
    omega
  rw [getLsbD_mask _ _ _ hn, getLsbD_mask _ _ _ hn, ← hij _ hplace]
  refine decide_eq_decide.mpr (mem_image_swapTail hF ?_)
  omega

theorem checked_of_toBytes {s s' : Snapshot} (h : s'.toBytes = flipBits msbFirst F s.toBytes) :
    s'.checked = flipBits msbFirst (F.image swapTail) s.checked := by
  have hlow : mask msbFirst (F.image swapTail) 413 = mask msbFirst F 412 := by
    refine mask_image_swapTail hF (by decide) fun n hn => ?_
    unfold swapTail
    rw [if_neg (by omega), if_neg (by omega)]
    omega
  have hhigh : mask msbFirst (F.image swapTail) 412 = mask msbFirst F 413 := by
    refine mask_image_swapTail hF (by decide) fun n hn => ?_
    unfold swapTail
    rw [if_neg (by omega), if_pos (by omega)]
    omega
  have hbody : flipBits msbFirst (F.image swapTail) s.body = flipBits msbFirst F s.body := by
    unfold flipBits
    refine List.mapIdx_eq_mapIdx_iff.mpr fun i hi => ?_
    have hlt : i < 412 := by rwa [length_body] at hi
    rw [mask_image_swapTail hF (i := i) (j := i) (by omega)]
    intro n hn
    unfold swapTail
    rw [if_pos (by omega)]
  have hsplit : s'.body ++ bytes 2 s'.crc16Le.toNat = flipBits msbFirst F s.body ++
      [BitVec.ofNat 8 s.crc16Le.toNat ^^^ mask msbFirst F 412,
        BitVec.ofNat 8 (s.crc16Le.toNat / 256) ^^^ mask msbFirst F 413] := by
    have happend := flipBits_append msbFirst F s.body (bytes 2 s.crc16Le.toNat)
    rw [length_body] at happend
    exact h.trans happend
  obtain ⟨hdata, hsum⟩ := List.append_inj hsplit (by rw [length_flipBits, length_body, length_body])
  have hchecked := flipBits_append msbFirst (F.image swapTail) s.body
    (bytes 2 s.crc16Le.toNat).reverse
  rw [length_body, hbody] at hchecked
  rw [checked, checked, hdata, hsum, hchecked]
  refine congrArg (flipBits msbFirst F s.body ++ ·) ?_
  show [BitVec.ofNat 8 (s.crc16Le.toNat / 256) ^^^ mask msbFirst F 413,
      BitVec.ofNat 8 s.crc16Le.toNat ^^^ mask msbFirst F 412] =
    [BitVec.ofNat 8 (s.crc16Le.toNat / 256) ^^^ mask msbFirst (F.image swapTail) 412,
      BitVec.ofNat 8 s.crc16Le.toNat ^^^ mask msbFirst (F.image swapTail) 413]
  rw [hlow, hhigh]

theorem dvd_of_toBytes_encode {records records' : Records} {tableSeq tableSeq' : BitVec 32}
    (h : (encode records' tableSeq').toBytes =
      flipBits msbFirst F (encode records tableSeq).toBytes) :
    generator crc16Generator ∣ pattern (mirror 414 (F.image swapTail)) := by
  have hpoly : ∀ s : Snapshot, poly s.crc16Le = message (bytes 2 s.crc16Le.toNat).reverse :=
    fun s => poly_word s.crc16Le
  have hcrc : ∀ records tableSeq, crc crc16Generator 0xFFFF (encode records tableSeq).body =
      (encode records tableSeq).crc16Le := by
    intro records tableSeq
    rw [crc16Le_encode, snapshotCrc16, crc16CcittFalse_eq]
  have hlen : ((encode records tableSeq).body ++
      (bytes 2 (encode records tableSeq).crc16Le.toNat).reverse).length = 414 := by
    rw [List.length_append, length_body, List.length_reverse, length_bytes]
  have himage := lt_of_mem_image_swapTail hF
  rw [← hlen]
  refine (crc_eq_iff_of_flipBits (by decide) (by rw [List.length_reverse, length_bytes])
    (by rw [List.length_reverse, length_bytes]) (hpoly _) (hpoly _) (by rwa [hlen])
    (checked_of_toBytes hF h) (hcrc records tableSeq)).mp (hcrc records' tableSeq')

end Swapped

/-- The decoder rejects every image that differs from an encoded one in two bits, in an odd
number of bits, or within 16 consecutive bits under the checksum. -/
theorem decode_rejects_changed_bits (records : Records) (tableSeq : BitVec 32) {F : Finset ℕ}
    (hF : ∀ p ∈ F, p < 8 * 414) (hne : F.Nonempty)
    (hkind : F.card = 2 ∨ Odd F.card ∨
      ∃ k, k + 16 ≤ 8 * 412 ∧ ∀ p ∈ F, k ≤ p ∧ p < k + 16) :
    ∃ err, err ≠ 0 ∧
      (ofBytes (flipBits msbFirst F (encode records tableSeq).toBytes)).decode 414 =
        .error err := by
  have hlen : (flipBits msbFirst F (encode records tableSeq).toBytes).length = 414 := by
    rw [length_flipBits, length_toBytes]
  have himage := lt_of_mem_image_swapTail hF
  cases hdecode : (ofBytes (flipBits msbFirst F (encode records tableSeq).toBytes)).decode 414 with
  | error err => exact ⟨err, decode_error_ne_zero hdecode, rfl⟩
  | ok result =>
    obtain ⟨records', tableSeq'⟩ := result
    have hbytes := (decode_ofBytes_iff _ records' tableSeq').mp (by rwa [hlen])
    have hdvd := dvd_of_toBytes_encode hF hbytes.symm
    exfalso
    rcases hkind with htwo | hodd | ⟨k, hk, hburst⟩
    · rw [← card_image_swapTail hF] at htwo
      obtain ⟨i, j, hij, hpair⟩ := exists_pair_of_card_eq_two htwo
      have hmem : j ∈ F.image swapTail := by
        rw [hpair]
        exact Finset.mem_insert_of_mem (Finset.mem_singleton_self j)
      have hj : j < 8 * 414 := himage j hmem
      rw [hpair, dvd_mirror_pair_iff (by decide) (by decide) hij hj] at hdvd
      obtain ⟨d, hd⟩ : ∃ d, j - i = d + 1 := ⟨j - i - 1, by omega⟩
      rw [hd] at hdvd
      exact crc16_iterate_ne_one (by omega) hdvd
    · rw [← card_image_swapTail hF] at hodd
      exact not_dvd_of_odd odd_crc16Generator himage hodd hdvd
    · refine not_dvd_of_burst (by decide) (by decide) himage (hne.image swapTail) (k := k) ?_ hdvd
      intro p hp
      obtain ⟨q, hq, rfl⟩ := Finset.mem_image.mp hp
      have hrange := hburst q hq
      rwa [swapTail, if_pos (by omega)]

theorem decode_rejects_changed_bits_ends : ∃ err, err ≠ 0 ∧
    (ofBytes (flipBits msbFirst {0, 3311} (encode BindingTable.emptyRecords 1).toBytes)).decode
      414 = .error err :=
  decode_rejects_changed_bits BindingTable.emptyRecords 1 (by decide) (by decide)
    (Or.inl (by decide))

end Snapshot
end PartRack
