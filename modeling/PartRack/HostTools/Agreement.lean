import PartRack.ControlPoint.Status
import PartRack.HostTools.SlotRecord

/-! A record encoded by the host, written to the table and read back. The table may be in
any state; what READ_ONE gives afterwards are the bytes of the host's own encoding. -/

namespace PartRack
open LittleEndian BindingTable

namespace ControlPoint

/-- READ_ONE for `slot` is answered OK with these bytes. -/
def Reads (save : Option SaveCb) (table : BindingTable) (slot : Byte) (bs : List Byte) : Prop :=
  (handle save [BindingOp.readOne.code, slot] ⟨table, []⟩).log =
    [.notify BindingOp.readOne.code .ok bs]

theorem reads_of_getElem (table : BindingTable) {slot : Byte} (hslot : ValidSlot slot)
    (hi : slot.toNat - 1 < 25) (save : Option SaveCb) :
    Reads save table slot table.records[slot.toNat - 1].toBytes := by
  have hframe : Request.ofFrame BindingOp.readOne.code [slot] = .readOne slot := by
    rw [Request.ofFrame, BindingOp.ofCode?_code]
    rfl
  unfold Reads
  rw [handle_eq_answer, hframe]
  exact congrArg (fun e => [] ++ [e]) (readOneReply_of_valid table _ hslot hi)

/-- A mutating frame is answered OK and leaves these records. -/
structure Stores (save : Option SaveCb) (table : BindingTable) (frame : List Byte)
    (next : Records) : Prop where
  reply : replies (handle save frame ⟨table, []⟩).log = [.ok]
  records_eq : (handle save frame ⟨table, []⟩).table.records = next

theorem stores_of_plan {save : Option SaveCb} (hsave : SaveSucceeds save) {table : BindingTable}
    {code : Byte} {args : List Byte} {op : TableOp}
    (hframe : Request.ofFrame code args = .mutate op) {next : Records}
    (hplan : op.plan table.records = .commit next) : Stores save table (code :: args) next := by
  have hrun : op.run save table = commitTable save table next := by
    rw [TableOp.run, hplan]
    rfl
  obtain ⟨herr, hrecords⟩ := commitTable_of_saveSucceeds hsave table next
  refine ⟨?_, ?_⟩
  · rw [handle_mutate save hframe, List.nil_append, replies_mutate, hrun, herr]
    rfl
  · rw [handle_mutate save hframe, hrun, hrecords]

/-! ## The three frames -/

theorem ofFrame_writeOne (p : Part) (slot : Byte) :
    Request.ofFrame BindingOp.writeOne.code (p.record slot).toBytes =
      .mutate (.writeOne (p.record slot)) := by
  rw [Request.ofFrame, BindingOp.ofCode?_code]
  show Request.ofArgs .writeOne _ = _
  rw [Request.ofArgs_writeOne, if_pos (SlotRecord.length_toBytes _), SlotRecord.ofBytes_toBytes]

theorem ofFrame_insertAt (p : Part) (slot target : Byte) :
    Request.ofFrame BindingOp.insertAt.code (target :: (p.record slot).toBytes) =
      .mutate (.insertAt target (p.record slot)) := by
  rw [Request.ofFrame, BindingOp.ofCode?_code]
  show Request.ofArgs .insertAt _ = _
  rw [Request.ofArgs_insertAt, if_pos (SlotRecord.length_toBytes _), SlotRecord.ofBytes_toBytes]

theorem ofFrame_setQty (slot : Byte) {qty : ℕ} (hqty : qty ≤ 65535) :
    Request.ofFrame BindingOp.setQty.code (slot :: bytes 2 qty) =
      .mutate (.setQty slot (BitVec.ofNat 16 qty)) := by
  have hvalue : value (bytes 2 qty) = qty := value_bytes_of_lt (Nat.lt_succ_of_le hqty)
  have hread : getLe16 (BitVec.ofNat 8 qty) (BitVec.ofNat 8 (qty / 256)) =
      BitVec.ofNat 16 qty := (getLe16_eq _ _).trans (congrArg _ hvalue)
  rw [Request.ofFrame, BindingOp.ofCode?_code]
  exact congrArg (fun q => Request.mutate (.setQty slot q)) hread

section Slot
variable {slot : Byte} (hslot : ValidSlot slot) (hi : slot.toNat - 1 < 25)
include hslot hi

theorem plan_writeOne (records : Records) (p : Part) :
    (TableOp.writeOne (p.record slot)).plan records =
      .commit (records.set (slot.toNat - 1) (p.record slot)) :=
  dif_pos ⟨hslot, p.crcOk_record slot⟩

theorem plan_setQty {records : Records} {p : Part} (h : records[slot.toNat - 1] = p.record slot)
    (qty : BitVec 16) : (TableOp.setQty slot qty).plan records =
      .commit (records.set (slot.toNat - 1) (Part.record { p with qtyLe := qty } slot)) := by
  have hplan : (TableOp.setQty slot qty).plan records = _ := dif_pos hslot
  have hne : slot ≠ 0 := by
    rintro rfl
    exact absurd hslot.1 (by decide)
  rw [hplan, h, if_neg (show ¬(p.record slot).slot = 0 from hne)]
  rfl

theorem plan_insertAt {records : Records} (hroom : ¬NoRoom records slot) (p : Part) (r : Byte) :
    ∃ next : Records, (TableOp.insertAt slot (p.record r)).plan records = .commit next ∧
      next[slot.toNat - 1] = p.record slot := by
  have hplan : (TableOp.insertAt slot (p.record r)).plan records = _ :=
    dif_pos ⟨hslot, p.crcOk_record r⟩
  cases hfind : findEmpty records (26 - slot.toNat) (slot.toNat - 1) (by omega) with
  | none => exact absurd (fun j hle hj => findEmpty_none hfind j hle hj) hroom
  | some e =>
    simp only [hfind] at hplan
    exact ⟨_, hplan, Vector.getElem_set_self _⟩

end Slot

/-! ## Host and firmware -/

theorem validSlot_ofNat {s : ℕ} (hs : 1 ≤ s ∧ s ≤ 25) : ValidSlot (BitVec.ofNat 8 s) := by
  have hmod : (BitVec.ofNat 8 s).toNat = s := by
    rw [BitVec.toNat_ofNat]
    omega
  rwa [ValidSlot, hmod]

theorem reads_record {table : BindingTable} {slot : Byte} (hslot : ValidSlot slot)
    (hi : slot.toNat - 1 < 25) {p : Part} (h : table.records[slot.toNat - 1] = p.record slot)
    (save : Option SaveCb) : Reads save table slot (p.record slot).toBytes := by
  have hread := reads_of_getElem table hslot hi save
  rwa [h] at hread

theorem not_noRoom {records : Records} {s : ℕ} (hs : 1 ≤ s ∧ s ≤ 25)
    (h : ∃ i : Fin 25, s - 1 ≤ i ∧ records[i].slot = 0) :
    ¬NoRoom records (BitVec.ofNat 8 s) := by
  obtain ⟨i, hle, hempty⟩ := h
  have hmod : (BitVec.ofNat 8 s).toNat = s := by
    rw [BitVec.toNat_ofNat]
    omega
  intro hno
  exact hno i (by rwa [hmod]) i.isLt hempty

/-- Host and firmware agree on the bytes of a record: after a write, after a new quantity
and after an insertion READ_ONE gives what the host encodes for the slot. -/
theorem host_firmware_agree {save : Option SaveCb} (hsave : SaveSucceeds save)
    (table : BindingTable) {s r : ℕ} (hs : 1 ≤ s ∧ s ≤ 25) (hr : r ≤ 25) {partId : String}
    (hpart : HostTools.PartIdOk partId) {qty qty' : ℕ} (hqty : qty ≤ 65535)
    (hqty' : qty' ≤ 65535) (flags : ℕ) :
    ∃ record record' fromHost : List Byte,
      HostTools.SlotRecord.encode ⟨s, partId, qty, flags⟩ = .ok record ∧
      HostTools.SlotRecord.encode ⟨s, partId, qty', flags⟩ = .ok record' ∧
      HostTools.SlotRecord.encode ⟨r, partId, qty, flags⟩ = .ok fromHost ∧
      let written := handle save (BindingOp.writeOne.code :: record) ⟨table, []⟩
      let patched := handle save (BindingOp.setQty.code :: BitVec.ofNat 8 s :: bytes 2 qty')
        ⟨written.table, []⟩
      let inserted := handle save (BindingOp.insertAt.code :: BitVec.ofNat 8 s :: fromHost)
        ⟨table, []⟩
      (replies written.log = [.ok] ∧
        Reads save written.table (BitVec.ofNat 8 s) record) ∧
      (replies patched.log = [.ok] ∧
        Reads save patched.table (BitVec.ofNat 8 s) record') ∧
      ((∃ i : Fin 25, s - 1 ≤ i ∧ table.records[i].slot = 0) →
        replies inserted.log = [.ok] ∧
        Reads save inserted.table (BitVec.ofNat 8 s) record) := by
  have hslot := validSlot_ofNat hs
  have hi : (BitVec.ofNat 8 s).toNat - 1 < 25 := by omega
  let p := HostTools.partOf partId qty flags
  have hwrite := stores_of_plan hsave (ofFrame_writeOne p (BitVec.ofNat 8 s))
    (plan_writeOne hslot hi table.records p)
  refine ⟨_, _, _, HostTools.encode_eq flags hs.2 hpart hqty,
    HostTools.encode_eq flags hs.2 hpart hqty', HostTools.encode_eq flags hr hpart hqty, ?_, ?_, ?_⟩
  · refine ⟨hwrite.reply, reads_record hslot hi ?_ save⟩
    rw [hwrite.records_eq]
    exact Vector.getElem_set_self _
  · have hheld : (handle save (BindingOp.writeOne.code :: (p.record (BitVec.ofNat 8 s)).toBytes)
        ⟨table, []⟩).table.records[(BitVec.ofNat 8 s).toNat - 1] =
          p.record (BitVec.ofNat 8 s) := by
      rw [hwrite.records_eq]
      exact Vector.getElem_set_self _
    have hpatch := stores_of_plan hsave (ofFrame_setQty (BitVec.ofNat 8 s) hqty')
      (plan_setQty hslot hi hheld (BitVec.ofNat 16 qty'))
    refine ⟨hpatch.reply, reads_record hslot hi ?_ save⟩
    rw [hpatch.records_eq]
    exact Vector.getElem_set_self _
  · intro hhole
    obtain ⟨next, hplan, hget⟩ := plan_insertAt hslot hi (not_noRoom hs hhole) p
      (BitVec.ofNat 8 r)
    have hinsert := stores_of_plan hsave
      (ofFrame_insertAt p (BitVec.ofNat 8 r) (BitVec.ofNat 8 s)) hplan
    refine ⟨hinsert.reply, reads_record hslot hi ?_ save⟩
    rw [hinsert.records_eq, hget]

theorem host_firmware_agree_vector :
    ∃ record, HostTools.SlotRecord.encode ⟨1, "C1234567", 12, 0⟩ = .ok record ∧
      Reads (some fun _ _ => 0) (handle (some fun _ _ => 0)
        (BindingOp.writeOne.code :: record) ⟨BindingTable.init, []⟩).table 1 record := by
  have hpart : HostTools.PartIdOk "C1234567" :=
    HostTools.partIdOk_of_all (by decide +kernel) (by decide +kernel)
  have hs : 1 ≤ 1 ∧ 1 ≤ 25 := by decide
  have hqty : 12 ≤ 65535 := by decide
  have hqty' : 42 ≤ 65535 := by decide
  obtain ⟨record, -, -, hencode, -, -, hwrite, -⟩ := host_firmware_agree saveSucceeds_zero
    BindingTable.init hs (Nat.zero_le 25) hpart hqty hqty' 0
  exact ⟨record, hencode, hwrite.2⟩

end ControlPoint
end PartRack
