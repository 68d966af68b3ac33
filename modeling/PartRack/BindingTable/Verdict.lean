import PartRack.BindingTable.Loops

/-! Which calls of a mutating operation the table accepts, and with which error it
refuses the others. -/

namespace PartRack
namespace BindingTable

/-- No empty slot from `slot` up. -/
def NoRoom (records : Records) (slot : Byte) : Prop :=
  ∀ i, slot.toNat - 1 ≤ i → (h : i < 25) → records[i].slot ≠ 0

end BindingTable

namespace TableOp
open BindingTable

/-- Slots and block in range, the record's checksum right, the slot bound for a new
quantity, the right magic, and room for an insertion. -/
def Valid (records : Records) : TableOp → Prop
  | .writeOne record => ValidSlot record.slot ∧ record.crcOk
  | .clearOne slot => ValidSlot slot
  | .insertAt slot record => ValidSlot slot ∧ record.crcOk ∧ ¬NoRoom records slot
  | .removeAt slot => ValidSlot slot
  | .moveBlock fromSlot toSlot len => ValidSlot fromSlot ∧ ValidSlot toSlot ∧ len ≠ 0 ∧
      fromSlot.toNat + len.toNat - 1 ≤ 25 ∧ toSlot.toNat + len.toNat - 1 ≤ 25
  | .setQty slot _ => ValidSlot slot ∧
      ∃ _ : slot.toNat - 1 < 25, records[slot.toNat - 1].slot ≠ 0
  | .factoryReset magic => magic = factoryResetMagic

/-- An insertion that lacks nothing but room. -/
def Full (records : Records) : TableOp → Prop
  | .insertAt slot record => ValidSlot slot ∧ record.crcOk ∧ NoRoom records slot
  | _ => False

theorem not_full_of_valid {records : Records} {op : TableOp} (h : op.Valid records) :
    ¬op.Full records := by
  cases op with
  | insertAt slot record => exact fun hfull => h.2.2 hfull.2.2
  | _ => exact id

/-- A valid operation is never refused, a full table is `-ENOSPC`, all else `-EINVAL`. -/
inductive Verdict (records : Records) (op : TableOp) : Prop
  | accept (valid : op.Valid records) (plan : ∀ err, op.plan records ≠ .reject err)
  | full (full : op.Full records) (plan : op.plan records = .reject (-Errno.ENOSPC))
  | invalid (valid : ¬op.Valid records) (full : ¬op.Full records)
      (plan : op.plan records = .reject (-Errno.EINVAL))

theorem verdict_insertAt (records : Records) (slot : Byte) (record : SlotRecord) :
    Verdict records (.insertAt slot record) := by
  by_cases h : ValidSlot slot ∧ record.crcOk
  · have hplan : (TableOp.insertAt slot record).plan records = _ := dif_pos h
    cases hfind : findEmpty records (26 - slot.toNat) (slot.toNat - 1) (by omega) with
    | none =>
      simp only [hfind] at hplan
      exact .full ⟨h.1, h.2, findEmpty_none hfind⟩ hplan
    | some e =>
      simp only [hfind] at hplan
      obtain ⟨hle, hempty, -⟩ := findEmpty_some hfind
      refine .accept ⟨h.1, h.2, fun hno => hno e hle e.isLt hempty⟩ ?_
      rw [hplan]
      exact fun err => Plan.noConfusion
  · exact .invalid (fun hv => h ⟨hv.1, hv.2.1⟩) (fun hf => h ⟨hf.1, hf.2.1⟩) (dif_neg h)

theorem ne_reject_of_commit {p : Plan} {next : Records} (h : p = .commit next) (err : Int) :
    p ≠ .reject err := by
  rw [h]
  exact Plan.noConfusion

theorem verdict_of_guard {records : Records} {op : TableOp} (hfull : ¬op.Full records)
    (hok : op.Valid records → ∀ err, op.plan records ≠ .reject err)
    (hno : ¬op.Valid records → op.plan records = .reject (-Errno.EINVAL)) :
    Verdict records op := by
  by_cases h : op.Valid records
  · exact .accept h (hok h)
  · exact .invalid h hfull (hno h)

theorem verdict (records : Records) (op : TableOp) : Verdict records op := by
  cases op with
  | writeOne record =>
    exact verdict_of_guard id (fun h => ne_reject_of_commit (dif_pos h)) fun h => dif_neg h
  | clearOne slot =>
    exact verdict_of_guard id (fun h => ne_reject_of_commit (dif_pos h)) fun h => dif_neg h
  | insertAt slot record => exact verdict_insertAt records slot record
  | removeAt slot =>
    exact verdict_of_guard id (fun h => ne_reject_of_commit (dif_pos h)) fun h => dif_neg h
  | moveBlock fromSlot toSlot len =>
    refine verdict_of_guard id (fun h => ?_) fun h => if_neg h
    have hplan : (TableOp.moveBlock fromSlot toSlot len).plan records = _ := if_pos h
    rw [hplan]
    split_ifs <;> exact fun err => Plan.noConfusion
  | setQty slot qty =>
    refine verdict_of_guard id ?_ ?_
    · rintro ⟨hslot, hi, hbound⟩
      have hplan : (TableOp.setQty slot qty).plan records = _ := dif_pos hslot
      rw [if_neg hbound] at hplan
      exact ne_reject_of_commit hplan
    · intro h
      by_cases hslot : ValidSlot slot
      · have hi : slot.toNat - 1 < 25 := by omega
        have hplan : (TableOp.setQty slot qty).plan records = _ := dif_pos hslot
        have hempty : records[slot.toNat - 1].slot = 0 := by
          by_contra hbound
          exact h ⟨hslot, hi, hbound⟩
        rwa [if_pos hempty] at hplan
      · exact dif_neg hslot
  | factoryReset magic =>
    exact verdict_of_guard id (fun h => ne_reject_of_commit (if_pos h)) fun h => if_neg h

end TableOp
end PartRack
