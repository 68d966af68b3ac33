import Mathlib.Data.List.GetD
import PartRack.BindingTable.Contents

/-! Every commit on a well-formed table carries out the shift of the row of parts that
the operation is for. -/

namespace PartRack
namespace TableOp

/-- What an accepted operation means for the row of parts. -/
def act : TableOp → List (Option Part) → List (Option Part)
  | .writeOne record, l => l.set (record.slot.toNat - 1) (some record.part)
  | .clearOne slot, l => l.set (slot.toNat - 1) none
  | .insertAt slot record, l => Slots.insertAt (slot.toNat - 1) record.part l
  | .removeAt slot, l => Slots.removeAt (slot.toNat - 1) l
  | .moveBlock fromSlot toSlot len, l =>
    Slots.moveBlock (fromSlot.toNat - 1) (toSlot.toNat - 1) len.toNat l
  | .setQty slot qty, l => l.modify (slot.toNat - 1) (Option.map fun p => { p with qtyLe := qty })
  | .factoryReset _, _ => List.replicate 25 none

end TableOp

namespace BindingTable

theorem ofNat_slot {slot : Byte} (h : ValidSlot slot) :
    BitVec.ofNat 8 (slot.toNat - 1 + 1) = slot := by
  rw [Nat.sub_add_cancel h.1, BitVec.ofNat_toNat, BitVec.setWidth_eq]

theorem set_eq_ofContents {records : Records} (hwf : WellFormed records) {i : ℕ} (hi : i < 25)
    (o : Option Part) :
    records.set i (place (i + 1) o) = ofContents ((contents records).set i o) := by
  apply eq_ofContents
  intro j hj
  rw [Vector.getElem_set, List.getElem?_set]
  by_cases hij : i = j
  · subst hij
    simp [hi]
  · simp only [hij, if_false]
    exact getElem_eq_place hwf j hj

/-! ## Insertion and removal -/

theorem firstHole_contents {records : Records} {i e : ℕ} (he : e < 25) (hle : i ≤ e)
    (hempty : records[e].slot = 0)
    (hfull : ∀ j, i ≤ j → j < e → ∀ _ : j < 25, records[j].slot ≠ 0) :
    Slots.FirstHole (contents records) i e := by
  have hcontent : records[e].content = none := if_pos hempty
  refine ⟨hle, (getElem?_contents records e he).trans (congrArg some hcontent), ?_⟩
  intro j hij hj hnone
  have hlt : j < 25 := Nat.lt_trans hj he
  rw [getElem?_contents records j hlt, Option.some.injEq] at hnone
  rw [SlotRecord.content, if_neg (hfull j hij hj hlt)] at hnone
  exact Option.some_ne_none _ hnone

theorem firstHole_of_findEmpty {records : Records} {k i : ℕ} {h : i + k = 25} {e : Fin 25}
    (hsome : findEmpty records k i h = some e) : Slots.FirstHole (contents records) i e := by
  obtain ⟨hle, hempty, hfull⟩ := findEmpty_some hsome
  exact firstHole_contents e.isLt hle hempty fun j hij hj _ => hfull j hij hj

theorem shiftUp_refines {records : Records} (hwf : WellFormed records) {slot : Byte}
    (hslot : ValidSlot slot) (p : Part) {e : Fin 25}
    (hhole : Slots.FirstHole (contents records) (slot.toNat - 1) e) (hs : slot.toNat - 1 < 25) :
    (shiftUp slot.toNat e e.isLt records).set (slot.toNat - 1) (p.record slot) =
      ofContents (Slots.insertAt (slot.toNat - 1) p (contents records)) := by
  apply eq_ofContents
  intro j hj
  rw [Slots.getElem?_insertAt hhole, Vector.getElem_set, getElem_shiftUp _ _ _ hslot.1]
  rcases Nat.lt_trichotomy j (slot.toNat - 1) with hlt | rfl | hgt
  · have hkept : ¬(slot.toNat ≤ j ∧ j ≤ e) := by omega
    rw [if_neg hlt.ne', if_neg hkept, if_pos hlt]
    exact getElem_eq_place hwf j hj
  · rw [if_pos rfl, if_neg (Nat.lt_irrefl _), if_pos rfl, Option.getD_some, place,
      ofNat_slot hslot]
  · have hge : slot.toNat ≤ j := by omega
    rw [if_neg hgt.ne, if_neg hgt.not_gt, if_neg hgt.ne']
    -- up to the hole each place has the record of the place before, above it its own
    by_cases hje : j ≤ e
    · have hprev : j - 1 < 25 := by omega
      rw [if_pos ⟨hge, hje⟩, if_pos hje]
      exact getElem_renumber hwf (j - 1) (j + 1) hprev
    · rw [if_neg fun h => hje h.2, if_neg hje]
      exact getElem_eq_place hwf j hj

theorem insertAt_refines {records next : Records} (hwf : WellFormed records) {slot : Byte}
    {record : SlotRecord} (h : insertAt records slot record = .commit next) :
    next = ofContents (Slots.insertAt (slot.toNat - 1) record.part (contents records)) := by
  simp only [insertAt] at h
  split_ifs at h with hvalid
  split at h
  · cases h
  · rename_i e he
    have hi : slot.toNat - 1 < 25 := by omega
    rw [← Plan.commit.inj h, SlotRecord.normalizeSlot_eq]
    exact shiftUp_refines hwf hvalid.1 record.part (firstHole_of_findEmpty he) hi

theorem removeAt_refines {records next : Records} (hwf : WellFormed records) {slot : Byte}
    (h : removeAt records slot = .commit next) :
    next = ofContents (Slots.removeAt (slot.toNat - 1) (contents records)) := by
  simp only [removeAt] at h
  split_ifs at h with hvalid
  have hlen := length_contents records
  have hslot : slot.toNat - 1 < (contents records).length := by omega
  rw [← Plan.commit.inj h]
  apply eq_ofContents
  intro j hj
  rw [Slots.getElem?_removeAt hslot, hlen, Vector.getElem_set, getElem_shiftDown]
  by_cases hj24 : 24 = j
  · subst hj24
    have hge : ¬24 < slot.toNat - 1 := by omega
    rw [if_pos rfl, if_neg hge, if_neg (Nat.lt_irrefl _), if_pos rfl]
    rfl
  · have hj' : j < 24 := by omega
    rw [if_neg hj24]
    by_cases hlt : j < slot.toNat - 1
    · rw [dif_neg fun h => Nat.not_lt.mpr h.1 hlt, if_pos hlt]
      exact getElem_eq_place hwf j hj
    · have hnext : j + 1 < 25 := Nat.succ_lt_succ hj'
      rw [dif_pos ⟨Nat.not_lt.mp hlt, hj'⟩, if_neg hlt, if_pos hnext]
      exact getElem_renumber hwf (j + 1) (j + 1) hnext

/-! ## Block moves -/

section Block
variable {fromSlot len : ℕ}

theorem filter_outside_block (l : List SlotRecord) (k : ℕ)
    (h : k + l.length < fromSlot ∨ fromSlot + len ≤ k + 1) :
    (l.zipIdx k).filter (fun p =>
      !(decide (fromSlot ≤ p.2 + 1) && decide (p.2 + 1 < fromSlot + len))) = l.zipIdx k := by
  -- the copy loop keeps every record whose slot lies before or after the block
  rw [List.filter_eq_self]
  intro p hp
  obtain ⟨hlow, hhigh, -⟩ := List.mem_zipIdx hp
  simp only [Bool.not_eq_true', Bool.and_eq_false_iff, decide_eq_false_iff_not]
  omega

theorem filter_inside_block (l : List SlotRecord) (k : ℕ) (hlow : fromSlot ≤ k + 1)
    (hhigh : k + l.length < fromSlot + len) :
    (l.zipIdx k).filter (fun p =>
      !(decide (fromSlot ≤ p.2 + 1) && decide (p.2 + 1 < fromSlot + len))) = [] := by
  rw [List.filter_eq_nil_iff]
  intro p hp
  obtain ⟨hge, hlt, -⟩ := List.mem_zipIdx hp
  simp only [Bool.not_eq_true', Bool.and_eq_false_iff, decide_eq_false_iff_not]
  omega

theorem restRecords_eq (records : Records) (hfrom : 1 ≤ fromSlot)
    (hend : fromSlot + len - 1 ≤ 25) :
    restRecords records fromSlot len = Slots.cut (fromSlot - 1) len records.toList := by
  have hlen : records.toList.length = 25 := by simp
  have hsplit : records.toList = records.toList.take (fromSlot - 1) ++
      ((records.toList.drop (fromSlot - 1)).take len ++
        records.toList.drop (fromSlot - 1 + len)) := by
    rw [← List.drop_drop, List.take_append_drop, List.take_append_drop]
  have hleft : (records.toList.take (fromSlot - 1)).length = fromSlot - 1 := by simp; omega
  have hmid : ((records.toList.drop (fromSlot - 1)).take len).length = len := by simp; omega
  have hbefore : 0 + (records.toList.take (fromSlot - 1)).length < fromSlot := by omega
  have hafter : fromSlot + len ≤ 0 + (fromSlot - 1) + len + 1 := by omega
  unfold restRecords Slots.cut
  conv_lhs => rw [hsplit]
  rw [List.zipIdx_append, List.zipIdx_append, hleft, hmid, List.filter_append,
    List.filter_append, filter_outside_block _ 0 (Or.inl hbefore),
    filter_inside_block _ _ (by omega) (by omega), filter_outside_block _ _ (Or.inr hafter),
    List.nil_append, List.map_append, List.zipIdx_map_fst, List.zipIdx_map_fst]

end Block

theorem mem_toList_wellFormed {records : Records} (hwf : WellFormed records) {r : SlotRecord}
    (hr : r ∈ records.toList) : ∃ slot, slot ≠ 0 ∧ r.WellFormedAt slot := by
  obtain ⟨i, hi, rfl⟩ := List.mem_iff_getElem.mp hr
  have hi' : i < 25 := by rwa [Vector.length_toList] at hi
  refine ⟨BitVec.ofNat 8 (i + 1), ofNat_slot_ne_zero (by omega), ?_⟩
  rw [Vector.getElem_toList]
  exact hwf i hi'

theorem movedRecords_eq (records : Records) {fromSlot toSlot len : ℕ} (hfrom : 1 ≤ fromSlot)
    (hfromEnd : fromSlot + len - 1 ≤ 25) (htoEnd : toSlot + len - 1 ≤ 25) :
    movedRecords records fromSlot toSlot len = (fillRecords
      (Slots.moveBlock (fromSlot - 1) (toSlot - 1) len records.toList)).mapIdx
        fun i r => r.renumber (i + 1) := by
  have hlen : records.toList.length = 25 := by simp
  have hcut := Slots.length_cut (l := records.toList) (show fromSlot - 1 + len ≤ _ by omega)
  have hinsert : toSlot - 1 ≤ (Slots.cut (fromSlot - 1) len records.toList).length := by omega
  rw [movedRecords, restRecords_eq records hfrom hfromEnd]
  simp only [Nat.min_eq_left hinsert]
  rfl

theorem movedRecords_refines {records : Records} (hwf : WellFormed records)
    {fromSlot toSlot len : ℕ}
    (hfrom : 1 ≤ fromSlot) (hfromEnd : fromSlot + len - 1 ≤ 25) (htoEnd : toSlot + len - 1 ≤ 25) :
    movedRecords records fromSlot toSlot len =
      ofContents (Slots.moveBlock (fromSlot - 1) (toSlot - 1) len (contents records)) := by
  have hlen : records.toList.length = 25 := by simp
  have hmoved := Slots.length_moveBlock (l := records.toList) (toSlot - 1)
    (show fromSlot - 1 + len ≤ _ by omega)
  rw [movedRecords_eq records hfrom hfromEnd htoEnd]
  apply eq_ofContents
  intro j hj
  have hjm : j < (Slots.moveBlock (fromSlot - 1) (toSlot - 1) len records.toList).length := by
    omega
  obtain ⟨slot, hslot, hr⟩ := mem_toList_wellFormed hwf
    (Slots.mem_of_mem_moveBlock (List.getElem_mem hjm))
  rw [Vector.getElem_mapIdx, getElem_fillRecords, List.getD_eq_getElem _ _ hjm,
    SlotRecord.renumber_eq_place hr hslot, contents, ← Slots.map_moveBlock, List.getElem?_map,
    List.getElem?_eq_getElem hjm]
  rfl

theorem moveBlock_refines {records next : Records} (hwf : WellFormed records)
    {fromSlot toSlot len : Byte} (h : moveBlock records fromSlot toSlot len = .commit next) :
    next = ofContents (Slots.moveBlock (fromSlot.toNat - 1) (toSlot.toNat - 1) len.toNat
      (contents records)) := by
  simp only [moveBlock] at h
  split_ifs at h with hvalid hidle
  obtain ⟨hfrom, -, -, hfromEnd, htoEnd⟩ := hvalid
  rw [← Plan.commit.inj h]
  exact movedRecords_refines hwf hfrom.1 hfromEnd htoEnd

theorem place_of_slot {slot : Byte} (h : ValidSlot slot) (p : Part) :
    place (slot.toNat - 1 + 1) (some p) = p.record slot := by
  rw [place, ofNat_slot h]

theorem emptyRecords_eq : emptyRecords = ofContents (List.replicate 25 none) := by
  apply eq_ofContents
  intro j hj
  rw [emptyRecords, Vector.getElem_replicate, List.getElem?_replicate, if_pos hj]
  rfl

theorem wellFormed_emptyRecords : WellFormed emptyRecords := by
  rw [emptyRecords_eq]
  exact wellFormed_ofContents _

end BindingTable

namespace TableOp
open BindingTable

/-- A commit stores the table of the shifted row. -/
theorem plan_commit_refines {records : Records} (hwf : WellFormed records) {op : TableOp}
    {next : Records} (h : op.plan records = .commit next) :
    next = ofContents (op.act (contents records)) := by
  cases op with
  | writeOne record =>
    simp only [plan, BindingTable.writeOne] at h
    split_ifs at h with hv
    rw [← Plan.commit.inj h, SlotRecord.normalizeSlot_eq, ← place_of_slot hv.1]
    exact set_eq_ofContents hwf (by omega) _
  | clearOne slot =>
    simp only [plan, BindingTable.clearOne] at h
    split_ifs at h with hv
    rw [← Plan.commit.inj h]
    exact set_eq_ofContents hwf (by omega) none
  | insertAt slot record => exact insertAt_refines hwf h
  | removeAt slot => exact removeAt_refines hwf h
  | moveBlock fromSlot toSlot len => exact moveBlock_refines hwf h
  | setQty slot qty =>
    simp only [plan, BindingTable.setQty] at h
    split_ifs at h with hv hs
    have hi : slot.toNat - 1 < 25 := by omega
    have hget := getElem?_contents records (slot.toNat - 1) hi
    rw [SlotRecord.content, if_neg hs] at hget
    rw [← Plan.commit.inj h, SlotRecord.normalizeSlot_eq, ← place_of_slot hv,
      set_eq_ofContents hwf hi, act, List.modify_eq_set_getElem?, hget]
    rfl
  | factoryReset magic =>
    simp only [plan, BindingTable.factoryReset] at h
    split_ifs at h
    rw [← Plan.commit.inj h]
    exact emptyRecords_eq

theorem wellFormed_of_plan_commit {records : Records} (hwf : WellFormed records) {op : TableOp}
    {next : Records} (h : op.plan records = .commit next) : WellFormed next := by
  rw [plan_commit_refines hwf h]
  exact wellFormed_ofContents _

end TableOp
end PartRack
