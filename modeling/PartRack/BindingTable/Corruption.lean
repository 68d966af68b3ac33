import PartRack.Checksums
import PartRack.BindingTable.Repeat

/-! Records with changed bits. The generator of CRC-8 has the order 127, which is one less
than the number of bits in a record, so that one pair of changed bits is not seen. -/

namespace PartRack
open Crc ErrorPattern LittleEndian

namespace SlotRecord

/-- The record with the bits at `F` changed, counted from the least significant bit of each
octet on. -/
def changed (r : SlotRecord) (F : Finset ℕ) : SlotRecord :=
  ofBytes (flipBits lsbFirst F r.toBytes)

theorem toBytes_changed (r : SlotRecord) (F : Finset ℕ) :
    (r.changed F).toBytes = flipBits lsbFirst F r.toBytes :=
  toBytes_ofBytes (by rw [length_flipBits, length_toBytes])

theorem crcOk_iff (r : SlotRecord) :
    r.crcOk ↔ crc crc8Generator 0 (r.body.map BitVec.reverse) = r.crc8.reverse := by
  rw [crcOk, beq_iff_eq, ← reverse_crc8Maxim, eq_comm]
  constructor
  · exact congrArg BitVec.reverse
  · intro h
    rw [← BitVec.reverse_reverse_eq (x := r.crc8), ← h, BitVec.reverse_reverse_eq]

section Changed
variable {r : SlotRecord} (hr : r.crcOk) {F : Finset ℕ} (hF : ∀ p ∈ F, p < 8 * 16)
include hr hF

theorem crcOk_changed_iff :
    (r.changed F).crcOk ↔ generator crc8Generator ∣ pattern (mirror 16 F) := by
  have hsum : ∀ b : Byte, poly b = message [b] := by
    intro b
    rw [message, message, List.length_nil, mul_zero, pow_zero, one_mul, add_zero]
  have hwidth : ∀ b : Byte, 8 * [b].length = 8 := fun _ => rfl
  have hsplit : ∀ s : SlotRecord, s.toBytes.map BitVec.reverse =
      s.body.map BitVec.reverse ++ [s.crc8.reverse] := by
    intro s
    rw [toBytes, List.map_append, List.map_singleton]
  have hlen : (r.body.map BitVec.reverse ++ [r.crc8.reverse]).length = 16 := by
    rw [← hsplit, List.length_map, length_toBytes]
  have hflip : (r.changed F).body.map BitVec.reverse ++ [(r.changed F).crc8.reverse] =
      flipBits msbFirst F (r.body.map BitVec.reverse ++ [r.crc8.reverse]) := by
    rw [← hsplit, ← hsplit, toBytes_changed, map_reverse_flipBits]
  have hcheck := crc_eq_iff_of_flipBits (Nat.le_refl 8) (hwidth _) (hwidth _) (hsum _) (hsum _)
    (by rwa [hlen]) hflip ((crcOk_iff r).mp hr)
  rw [crcOk_iff, hcheck, hlen]

theorem crcOk_changed_of_odd (hodd : Odd F.card) : (r.changed F).crcOk = false := by
  rw [← Bool.not_eq_true, crcOk_changed_iff hr hF]
  exact not_dvd_of_odd odd_crc8Generator hF hodd

theorem crcOk_changed_of_burst (hne : F.Nonempty) {k : ℕ}
    (hburst : ∀ p ∈ F, k ≤ p ∧ p < k + 8) : (r.changed F).crcOk = false := by
  rw [← Bool.not_eq_true, crcOk_changed_iff hr hF]
  exact not_dvd_of_burst (by decide) (by decide) hF hne hburst

theorem crcOk_changed_pair_iff (htwo : F.card = 2) : (r.changed F).crcOk ↔ F = {0, 127} := by
  obtain ⟨i, j, hij, rfl⟩ := exists_pair_of_card_eq_two htwo
  have hj : j < 8 * 16 := hF j (Finset.mem_insert_of_mem (Finset.mem_singleton_self j))
  rw [crcOk_changed_iff hr hF, dvd_mirror_pair_iff (by decide) (by decide) hij hj,
    crc8_iterate_eq_one_iff (by omega) (by omega)]
  constructor
  · intro h
    obtain ⟨rfl, rfl⟩ : i = 0 ∧ j = 127 := by omega
    rfl
  · intro h
    have hi : i ∈ ({0, 127} : Finset ℕ) := h ▸ Finset.mem_insert_self i {j}
    have hj : j ∈ ({0, 127} : Finset ℕ) :=
      h ▸ Finset.mem_insert_of_mem (Finset.mem_singleton_self j)
    simp only [Finset.mem_insert, Finset.mem_singleton] at hi hj
    omega

end Changed

theorem changed_ends (r : SlotRecord) :
    r.changed {0, 127} = { r with slot := r.slot ^^^ 1, crc8 := r.crc8 ^^^ 0x80 } := by
  have hmask : ∀ i, i < 14 → mask lsbFirst {0, 127} (i + 1) = 0 := by decide
  have hinner : ∀ inner : List Byte, inner.length = 14 →
      (inner.mapIdx fun i b => b ^^^ mask lsbFirst {0, 127} (i + 1)) = inner := by
    intro inner hlen
    refine List.ext_getElem List.length_mapIdx fun i _ hi => ?_
    rw [List.getElem_mapIdx, hmask i (by omega)]
    exact BitVec.xor_zero
  have hbytes : flipBits lsbFirst {0, 127} r.toBytes =
      ({ r with slot := r.slot ^^^ 1, crc8 := r.crc8 ^^^ 0x80 } : SlotRecord).toBytes := by
    have hlen : (r.partId.toList ++ (bytes 2 r.qtyLe.toNat ++ [r.flags, r.reserved])).length =
        14 := by simp
    unfold flipBits toBytes body
    rw [List.cons_append, List.mapIdx_cons, List.mapIdx_append, hinner _ hlen, hlen]
    rfl
  rw [changed, hbytes, ofBytes_toBytes]

end SlotRecord

namespace TableOp
open BindingTable

theorem run_writeOne_of_invalid {r : SlotRecord} (h : ¬(ValidSlot r.slot ∧ r.crcOk))
    (save : Option SaveCb) (model : BindingTable) :
    (writeOne r).run save model = ⟨-Errno.EINVAL, model, []⟩ := by
  have hplan : (writeOne r).plan model.records = .reject (-Errno.EINVAL) := dif_neg h
  rw [run, hplan]
  rfl

theorem run_insertAt_of_invalid {r : SlotRecord} {slot : Byte} (h : ¬(ValidSlot slot ∧ r.crcOk))
    (save : Option SaveCb) (model : BindingTable) :
    (insertAt slot r).run save model = ⟨-Errno.EINVAL, model, []⟩ := by
  have hplan : (insertAt slot r).plan model.records = .reject (-Errno.EINVAL) := dif_neg h
  rw [run, hplan]
  rfl

theorem run_writeOne_of_valid {r : SlotRecord} (hslot : ValidSlot r.slot) (hcrc : r.crcOk)
    {save : Option SaveCb} (hsave : ∀ cb, save = some cb → ∀ next tableSeq, cb next tableSeq = 0)
    (model : BindingTable) :
    ((writeOne r).run save model).err = 0 ∧
    ((writeOne r).run save model).model.records =
      model.records.set (r.slot.toNat - 1) (r.part.record r.slot) := by
  have hplan : (writeOne r).plan model.records =
      .commit (model.records.set (r.slot.toNat - 1) (r.normalizeSlot r.slot)) :=
    dif_pos ⟨hslot, hcrc⟩
  have hvalid : (writeOne r).Valid model.records := ⟨hslot, hcrc⟩
  obtain ⟨herr, hrecords⟩ := run_of_saved hsave model (ne_reject_of_valid hvalid)
  rw [herr, hrecords, apply_of_commit hplan, SlotRecord.normalizeSlot_eq]
  exact ⟨rfl, rfl⟩

theorem neighbour_slot (slot : Byte) :
    (slot ^^^ 1).toNat = slot.toNat + 1 ∨ slot.toNat = (slot ^^^ 1).toNat + 1 := by
  revert slot
  decide +kernel

/-- Odd numbers and short bursts of changed bits are rejected. Of all pairs only one passes,
and with it the record goes to a neighbouring slot. -/
theorem changed_record_rejected {r : SlotRecord} (hr : r.crcOk) {F : Finset ℕ}
    (hF : ∀ p ∈ F, p < 8 * 16) (hne : F.Nonempty) :
    ((Odd F.card ∨ ∃ k, k + 8 ≤ 8 * 16 ∧ ∀ p ∈ F, k ≤ p ∧ p < k + 8) →
      (r.changed F).crcOk = false) ∧
    (F.card = 2 → ((r.changed F).crcOk = false ↔ F ≠ {0, 127})) ∧
    ((r.changed F).crcOk = false → ∀ (slot : Byte) (save : Option SaveCb) (model : BindingTable),
      (writeOne (r.changed F)).run save model = ⟨-Errno.EINVAL, model, []⟩ ∧
      (insertAt slot (r.changed F)).run save model = ⟨-Errno.EINVAL, model, []⟩) ∧
    (F = {0, 127} →
      (r.changed F).slot = r.slot ^^^ 1 ∧
      ((r.slot ^^^ 1).toNat = r.slot.toNat + 1 ∨ r.slot.toNat = (r.slot ^^^ 1).toNat + 1) ∧
      ∀ (save : Option SaveCb) (model : BindingTable),
        (¬ValidSlot (r.slot ^^^ 1) →
          (writeOne (r.changed F)).run save model = ⟨-Errno.EINVAL, model, []⟩) ∧
        ∀ hslot : ValidSlot (r.slot ^^^ 1),
          (∀ cb, save = some cb → ∀ next tableSeq, cb next tableSeq = 0) →
          ((writeOne (r.changed F)).run save model).err = 0 ∧
          ((writeOne (r.changed F)).run save model).model.records =
            model.records.set ((r.slot ^^^ 1).toNat - 1) (r.part.record (r.slot ^^^ 1))) := by
  refine ⟨?_, ?_, ?_, ?_⟩
  · rintro (hodd | ⟨k, -, hburst⟩)
    · exact SlotRecord.crcOk_changed_of_odd hr hF hodd
    · exact SlotRecord.crcOk_changed_of_burst hr hF hne hburst
  · intro htwo
    rw [← Bool.not_eq_true, not_iff_not]
    exact SlotRecord.crcOk_changed_pair_iff hr hF htwo
  · intro hbad slot save model
    have hcrc : ¬(r.changed F).crcOk = true := Bool.not_eq_true _ ▸ hbad
    exact ⟨run_writeOne_of_invalid (fun h => hcrc h.2) save model,
      run_insertAt_of_invalid (fun h => hcrc h.2) save model⟩
  · rintro rfl
    have hpass : (r.changed {0, 127}).crcOk :=
      (SlotRecord.crcOk_changed_pair_iff hr hF (by decide)).mpr rfl
    have hchanged := SlotRecord.changed_ends r
    have hslot_eq : (r.changed {0, 127}).slot = r.slot ^^^ 1 := by rw [hchanged]
    have hpart : (r.changed {0, 127}).part = r.part := by
      rw [hchanged]
      rfl
    refine ⟨hslot_eq, neighbour_slot r.slot, fun save model => ⟨?_, ?_⟩⟩
    · intro hslot
      refine run_writeOne_of_invalid (fun h => hslot ?_) save model
      rw [← hslot_eq]
      exact h.1
    · intro hslot hsave
      have hrun := run_writeOne_of_valid (hslot_eq.symm ▸ hslot) hpass hsave model
      simp only [hslot_eq, hpart] at hrun
      exact hrun

def corruptPart : Part := ⟨Vector.replicate 10 0x41, 5, 0⟩

/-- A record for slot 2 goes to slot 3 when its first and its last bit change, and is refused
when its first three bits do. -/
theorem changed_record_rejected_slot :
    ((writeOne ((corruptPart.record 2).changed {0, 127})).run none secondBound).err = 0 ∧
    ((writeOne ((corruptPart.record 2).changed {0, 127})).run none secondBound).model.records =
      secondBound.records.set 2 (corruptPart.record 3) ∧
    (writeOne ((corruptPart.record 2).changed {0, 1, 2})).run none secondBound =
      ⟨-Errno.EINVAL, secondBound, []⟩ := by
  have hr : (corruptPart.record 2).crcOk := corruptPart.crcOk_record 2
  have hsave : ∀ cb : SaveCb, none = some cb → ∀ next tableSeq, cb next tableSeq = 0 :=
    fun _ hcb => absurd hcb.symm (Option.some_ne_none _)
  have hpair := (changed_record_rejected hr (F := {0, 127}) (by decide) (by decide)).2.2.2 rfl
  have hwrite := (hpair.2.2 none secondBound).2 (by decide) hsave
  have hthree := changed_record_rejected hr (F := {0, 1, 2}) (by decide) (by decide)
  have hbad := hthree.1 (Or.inl (by decide))
  exact ⟨hwrite.1, hwrite.2, (hthree.2.2.1 hbad 2 none secondBound).1⟩

end TableOp
end PartRack
