import PartRack.BindingTable.Repeat
import PartRack.Checksums
import PartRack.Lib.CrcDifference

/-! What the CRC-16 of Table Info sees of an update. A record reaches it as the remainder that
it leaves in an empty register, and carries its own CRC-8 into it. -/

namespace PartRack
open Crc ExclusiveOr LittleEndian

theorem crc16Generator_getLsbD_zero : crc16Generator.getLsbD 0 = true := rfl

/-! ## CRC-8 is linear too -/

theorem map_reverse_difference (data data' : List Byte) :
    (difference data data').map BitVec.reverse =
      difference (data.map BitVec.reverse) (data'.map BitVec.reverse) := by
  unfold difference
  induction data generalizing data' with
  | nil => rfl
  | cons b data ih =>
    cases data' with
    | nil => rfl
    | cons b' data' =>
      rw [List.zipWith_cons_cons, List.map_cons, ih, reverse_xor, List.map_cons, List.map_cons,
        List.zipWith_cons_cons]

theorem crc8Maxim_difference {data data' : List Byte} (h : data.length = data'.length) :
    crc8Maxim (difference data data') = crc8Maxim data ^^^ crc8Maxim data' := by
  have hreverse : (crc8Maxim (difference data data')).reverse =
      (crc8Maxim data ^^^ crc8Maxim data').reverse := by
    rw [reverse_xor, reverse_crc8Maxim, reverse_crc8Maxim, reverse_crc8Maxim,
      map_reverse_difference,
      ← crc_difference crc8Generator (by rw [List.length_map, List.length_map, h])]
  rw [← BitVec.reverse_reverse_eq (x := crc8Maxim (difference data data')), hreverse,
    BitVec.reverse_reverse_eq]

/-! ## One record of the table -/

namespace SlotRecord

def fingerprint (r : SlotRecord) : BitVec 16 := crc crc16Generator 0 r.toBytes

end SlotRecord

namespace BindingTable

theorem crc16_set_iff (records : Records) {k : ℕ} (hk : k < 25) (r : SlotRecord)
    (tableSeq tableSeq' : BitVec 32) :
    (getInfo ⟨records.set k r, tableSeq'⟩).crc16Le = (getInfo ⟨records, tableSeq⟩).crc16Le ↔
      r.fingerprint = records[k].fingerprint := by
  have hlt : k < records.toList.length := by rwa [Vector.length_toList]
  have hold : records.toList.flatMap SlotRecord.toBytes =
      (records.toList.take k).flatMap SlotRecord.toBytes ++ records[k].toBytes ++
        (records.toList.drop (k + 1)).flatMap SlotRecord.toBytes := by
    conv_lhs => rw [← List.take_append_drop k records.toList, List.drop_eq_getElem_cons hlt]
    rw [List.flatMap_append, List.flatMap_cons, Vector.getElem_toList, List.append_assoc]
  have hnew : (records.set k r).toList.flatMap SlotRecord.toBytes =
      (records.toList.take k).flatMap SlotRecord.toBytes ++ r.toBytes ++
        (records.toList.drop (k + 1)).flatMap SlotRecord.toBytes := by
    rw [Vector.toList_set, List.set_eq_take_append_cons_drop, if_pos hlt, List.flatMap_append,
      List.flatMap_cons, List.append_assoc]
  have hlen : r.toBytes.length = records[k].toBytes.length := by
    rw [SlotRecord.length_toBytes, SlotRecord.length_toBytes]
  unfold getInfo
  dsimp only
  rw [hold, hnew, crc16CcittFalse_eq, crc16CcittFalse_eq]
  exact crc_eq_iff_of_middle crc16Generator_getLsbD_zero _ hlen _ _

end BindingTable

/-! ## The quantity -/

theorem bytes_two (v : BitVec 16) : bytes 2 v.toNat = [v.setWidth 8, (v >>> 8).setWidth 8] := by
  have hhigh : BitVec.ofNat 8 (v.toNat / 256) = (v >>> 8).setWidth 8 := by
    apply BitVec.eq_of_toNat_eq
    rw [BitVec.toNat_ofNat, BitVec.toNat_setWidth, BitVec.toNat_ushiftRight,
      Nat.shiftRight_eq_div_pow]
  rw [bytes, bytes, bytes, hhigh, BitVec.ofNat_toNat]

/-- The difference between two bodies that only differ in their quantities. -/
def qtyBody (v : BitVec 16) : List Byte :=
  List.replicate 11 (0 : Byte) ++ [v.setWidth 8, (v >>> 8).setWidth 8, 0, 0]

/-- What such a difference leaves in the register, with that of the two CRC-8 behind it. -/
def qtyTrace (v : BitVec 16) : BitVec 16 :=
  crc crc16Generator 0 (qtyBody v ++ [crc8Maxim (qtyBody v)])

theorem length_qtyBody (v : BitVec 16) : (qtyBody v).length = 15 := rfl

theorem qtyBody_xor (u v : BitVec 16) :
    qtyBody (u ^^^ v) = difference (qtyBody u) (qtyBody v) := by
  have hhigh : ((u ^^^ v) >>> 8).setWidth 8 = (u >>> 8).setWidth 8 ^^^ (v >>> 8).setWidth 8 := by
    rw [BitVec.ushiftRight_xor_distrib, BitVec.setWidth_xor]
  unfold qtyBody
  rw [difference_append rfl, difference_self, List.length_replicate, BitVec.setWidth_xor, hhigh]
  rfl

theorem linear_qtyTrace : Linear qtyTrace := by
  intro u v
  unfold qtyTrace
  have hlen : (qtyBody u).length = (qtyBody v).length := by
    rw [length_qtyBody, length_qtyBody]
  have hsum : (qtyBody u ++ [crc8Maxim (qtyBody u)]).length =
      (qtyBody v ++ [crc8Maxim (qtyBody v)]).length := by
    rw [List.length_append, List.length_append, hlen, List.length_singleton,
      List.length_singleton]
  have htail : ∀ b b' : Byte, difference [b] [b'] = [b ^^^ b'] := fun _ _ => rfl
  rw [qtyBody_xor, crc8Maxim_difference hlen, ← crc_difference crc16Generator hsum,
    difference_append hlen, htail]

/-- A map that undoes `qtyTrace` up to the one quantity that it loses. -/
def qtyColumns : List (BitVec 16) :=
  [0, 0x6D96, 0x6ED7, 0x1E92, 0x5F30, 0x0419, 0x65A4, 0x7EB3, 0x489D, 0x24C1, 0x5D51, 0x00DB,
    0x1565, 0x475C, 0x4206, 0x3E75]

theorem combine_qtyTrace (v : BitVec 16) :
    combine qtyColumns 0 (qtyTrace v) = v ^^^ if v.getLsbD 15 then 0xD7EF else 0 := by
  refine ((linear_combine qtyColumns 0).comp linear_qtyTrace).ext
    (linear_id.xor (linear_ite_bit 15 0xD7EF)) ?_ v
  decide +kernel

theorem qtyTrace_eq_zero_iff (v : BitVec 16) : qtyTrace v = 0 ↔ v = 0 ∨ v = 0xD7EF := by
  constructor
  · intro h
    have hundone := combine_qtyTrace v
    rw [h, (linear_combine qtyColumns 0).map_zero] at hundone
    have hv := BitVec.xor_eq_zero_iff.mp hundone.symm
    cases hbit : v.getLsbD 15 with
    | false =>
      rw [hbit] at hv
      exact Or.inl hv
    | true =>
      rw [hbit] at hv
      exact Or.inr hv
  · rintro (rfl | rfl)
    · exact linear_qtyTrace.map_zero
    · decide +kernel

namespace Part

theorem body_record_qty (p : Part) (qty : BitVec 16) (slot : Byte) :
    difference (Part.record ⟨p.partId, qty, p.flags⟩ slot).body (p.record slot).body =
      qtyBody (qty ^^^ p.qtyLe) := by
  have hbody : ∀ q : BitVec 16, (Part.record ⟨p.partId, q, p.flags⟩ slot).body =
      (slot :: p.partId.toList) ++ [q.setWidth 8, (q >>> 8).setWidth 8, p.flags, 0] := by
    intro q
    rw [← List.append_nil [q.setWidth 8, (q >>> 8).setWidth 8, p.flags, 0]]
    change slot :: (p.partId.toList ++ (bytes 2 q.toNat ++ [p.flags, 0])) = _
    rw [bytes_two]
    rfl
  have hfirst : (slot :: p.partId.toList).length = 11 := by
    rw [List.length_cons, Vector.length_toList]
  have hold : (p.record slot).body = (Part.record ⟨p.partId, p.qtyLe, p.flags⟩ slot).body := rfl
  rw [hold, hbody, hbody, difference_append rfl, difference_self, hfirst, qtyBody,
    BitVec.ushiftRight_xor_distrib, BitVec.setWidth_xor, BitVec.setWidth_xor]
  simp only [difference, List.zipWith_cons_cons, List.zipWith_nil_left, BitVec.xor_self]
  rfl

theorem fingerprint_qty_iff (p : Part) (qty : BitVec 16) (slot : Byte) :
    (Part.record ⟨p.partId, qty, p.flags⟩ slot).fingerprint = (p.record slot).fingerprint ↔
      qty = p.qtyLe ∨ qty ^^^ p.qtyLe = 0xD7EF := by
  have hlen : ∀ q : Part, (q.record slot).body.length = 15 := fun q =>
    SlotRecord.length_body (q.record slot)
  have hcrc8 : (Part.record ⟨p.partId, qty, p.flags⟩ slot).crc8 ^^^ (p.record slot).crc8 =
      crc8Maxim (qtyBody (qty ^^^ p.qtyLe)) := by
    rw [← p.body_record_qty qty slot, crc8Maxim_difference (by rw [hlen, hlen])]
    rfl
  have htrace : (Part.record ⟨p.partId, qty, p.flags⟩ slot).fingerprint ^^^
      (p.record slot).fingerprint = qtyTrace (qty ^^^ p.qtyLe) := by
    unfold SlotRecord.fingerprint qtyTrace SlotRecord.toBytes
    have hwhole : ∀ q : Part, ((q.record slot).body ++ [(q.record slot).crc8]).length = 16 :=
      fun q => SlotRecord.length_toBytes (q.record slot)
    rw [← crc_difference crc16Generator (by rw [hwhole, hwhole]),
      difference_append (by rw [hlen, hlen]), p.body_record_qty, ← hcrc8]
    rfl
  rw [← BitVec.xor_eq_zero_iff, htrace, ← BitVec.ofNat_eq_ofNat, qtyTrace_eq_zero_iff]
  exact or_congr_left BitVec.xor_eq_zero_iff

end Part

namespace TableOp
open BindingTable

/-- SET_QTY on a bound slot changes the checksum of Table Info, unless the quantity is the old
one or differs from it in exactly these bits. -/
theorem setQty_crc16 {model : BindingTable} (hwf : WellFormed model.records) {slot : Byte}
    (hslot : ValidSlot slot) {part : Part}
    (hpart : (contents model.records)[slot.toNat - 1]? = some (some part)) (qty : BitVec 16)
    (save : Option SaveCb) (hsave : ∀ cb, save = some cb → ∀ next tableSeq, cb next tableSeq = 0) :
    ((setQty slot qty).run save model).model.getInfo.crc16Le = model.getInfo.crc16Le ↔
      qty = part.qtyLe ∨ qty ^^^ part.qtyLe = 0xD7EF := by
  have hlt : slot.toNat - 1 < 25 := by
    have hle := hslot.2
    omega
  have hrecord : model.records[slot.toNat - 1] = part.record slot := by
    rw [getElem_eq_place hwf _ hlt, hpart, Option.getD_some, place, ofNat_slot hslot]
  have hne : slot ≠ 0 := by
    rintro rfl
    exact absurd hslot.1 (by decide)
  have hplan : (setQty slot qty).plan model.records = .commit
      (model.records.set (slot.toNat - 1) (Part.record ⟨part.partId, qty, part.flags⟩ slot)) := by
    simp only [plan, BindingTable.setQty, dif_pos hslot, hrecord, Part.record_slot, if_neg hne]
    rfl
  obtain ⟨-, hrecords⟩ := run_of_saved hsave model fun err heq =>
    Plan.noConfusion (hplan.symm.trans heq)
  rw [apply_of_commit hplan] at hrecords
  have hmodel : ((setQty slot qty).run save model).model =
      ⟨model.records.set (slot.toNat - 1) (Part.record ⟨part.partId, qty, part.flags⟩ slot),
        ((setQty slot qty).run save model).model.tableSeq⟩ := by
    rw [← hrecords]
  rw [hmodel, crc16_set_iff model.records hlt _ model.tableSeq, hrecord]
  exact part.fingerprint_qty_iff qty slot

/-- A table with 12 of a part in slot 1. -/
def twelve : BindingTable :=
  ⟨ofContents (some ⟨Vector.replicate 10 0x30, 12, 0⟩ :: List.replicate 24 none), 1⟩

theorem setQty_crc16_twelve :
    ((setQty 1 0xD7E3).run none twelve).model.getInfo.crc16Le = twelve.getInfo.crc16Le := by
  have hpart : (contents twelve.records)[(1 : Byte).toNat - 1]? =
      some (some ⟨Vector.replicate 10 0x30, 12, 0⟩) := by
    rw [twelve, contents_ofContents rfl]
    rfl
  have hwf : WellFormed twelve.records := wellFormed_ofContents _
  have hslot : ValidSlot 1 := by decide
  exact (setQty_crc16 hwf hslot hpart 0xD7E3 none fun cb h =>
    absurd h.symm (Option.some_ne_none _)).mpr (Or.inr rfl)

end TableOp
end PartRack
