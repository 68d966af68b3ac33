import PartRack.BindingTable.Repeat

/-! Insertion and removal record by record. An insertion shifts the records up to the next
empty slot and a removal shifts all records above the slot, so that the one undoes the
other only where nothing stands above the slot that was filled. -/

namespace PartRack
namespace BindingTable

/-- The first empty slot from `slot` on is the one at index `e`. -/
structure FirstEmpty (records : Records) (slot : Byte) (e : Fin 25) : Prop where
  le : slot.toNat - 1 ≤ e
  empty : records[e].slot = 0
  bound : ∀ j, slot.toNat - 1 ≤ j → (hj : j < e) → records[j].slot ≠ 0

theorem FirstEmpty.firstHole {records : Records} {slot : Byte} {e : Fin 25}
    (h : FirstEmpty records slot e) :
    Slots.FirstHole (contents records) (slot.toNat - 1) e :=
  firstHole_contents e.isLt h.le h.empty fun j hij hj _ => h.bound j hij hj

theorem FirstEmpty.not_noRoom {records : Records} {slot : Byte} {e : Fin 25}
    (h : FirstEmpty records slot e) : ¬NoRoom records slot :=
  fun hno => hno e h.le e.isLt h.empty

/-- The records after an insertion that fills the slot at index `e`. -/
structure Inserted (records next : Records) (slot : Byte) (record : SlotRecord) (e : Fin 25) :
    Prop where
  inserted : ∀ (i : ℕ) (_ : i < 25), i + 1 = slot.toNat → next[i] = record.normalizeSlot slot
  shifted : ∀ (i : ℕ) (_ : i < 25), slot.toNat ≤ i → i ≤ e →
    next[i] = records[i - 1].normalizeSlot (BitVec.ofNat 8 (i + 1))
  kept : ∀ (i : ℕ) (_ : i < 25), i + 1 < slot.toNat ∨ e < i → next[i] = records[i]
  parts : (contents next).reduceOption =
    ((contents records).take (slot.toNat - 1)).reduceOption ++
      record.part :: ((contents records).drop (slot.toNat - 1)).reduceOption

/-- The records after a removal. -/
structure Removed (records next : Records) (slot : Byte) : Prop where
  kept : ∀ (i : ℕ) (_ : i < 25), i + 1 < slot.toNat → next[i] = records[i]
  shifted : ∀ (i : ℕ) (_ : i < 25) (_ : i + 1 < 25), slot.toNat ≤ i + 1 →
    next[i] = records[i + 1].renumber (i + 1)
  last : ∀ (i : ℕ) (_ : i < 25), i = 24 → next[i] = SlotRecord.zero

end BindingTable

namespace TableOp
open BindingTable

section Rows
variable {records : Records} (hwf : WellFormed records)
include hwf

theorem getElem_apply {op : TableOp} (h : op.Valid records) {i : ℕ} (hi : i < 25) :
    (op.apply records)[i] = place (i + 1) ((op.act (contents records))[i]?.getD none) := by
  rw [getElem_eq_place (wellFormed_apply hwf op) i hi, contents_apply hwf h]

theorem inserted_apply {slot : Byte} {record : SlotRecord} {e : Fin 25}
    (h : (TableOp.insertAt slot record).Valid records) (he : FirstEmpty records slot e) :
    Inserted records ((TableOp.insertAt slot record).apply records) slot record e := by
  have hslot : ValidSlot slot := h.1
  have hget : ∀ (i : ℕ) (_ : i < 25), ((TableOp.insertAt slot record).apply records)[i] =
      place (i + 1) ((Slots.insertAt (slot.toNat - 1) record.part (contents records))[i]?.getD
        none) := fun i hi => getElem_apply hwf h hi
  have hle := he.le
  refine ⟨?_, ?_, ?_, ?_⟩
  · intro i hi hislot
    obtain rfl : i = slot.toNat - 1 := by omega
    rw [hget _ hi, Slots.getElem?_insertAt he.firstHole, if_neg (Nat.lt_irrefl _), if_pos rfl,
      SlotRecord.normalizeSlot_eq, Option.getD_some, place_of_slot hslot]
  · intro i hi hlow hhigh
    have hprev : i - 1 < 25 := by omega
    have hbound : records[i - 1].slot ≠ 0 := he.bound (i - 1) (by omega) (by omega)
    have hrenumber : records[i - 1].renumber (i + 1) =
        records[i - 1].normalizeSlot (BitVec.ofNat 8 (i + 1)) := if_pos hbound
    rw [hget i hi, Slots.getElem?_insertAt he.firstHole, if_neg (by omega), if_neg (by omega),
      if_pos hhigh, ← hrenumber]
    exact (getElem_renumber hwf (i - 1) (i + 1) hprev).symm
  · intro i hi hout
    rw [hget i hi, Slots.getElem?_insertAt he.firstHole, getElem_eq_place hwf i hi]
    rcases hout with hlow | hhigh
    · rw [if_pos (by omega)]
    · rw [if_neg (by omega), if_neg (by omega), if_neg (by omega)]
  · rw [contents_apply hwf h]
    exact Slots.reduceOption_insertAt _ _ _

theorem removed_apply {slot : Byte} (h : ValidSlot slot) :
    Removed records ((TableOp.removeAt slot).apply records) slot := by
  have hvalid : (TableOp.removeAt slot).Valid records := h
  have hlen := length_contents records
  have hlt : slot.toNat - 1 < (contents records).length := by omega
  have hget : ∀ (i : ℕ) (_ : i < 25), ((TableOp.removeAt slot).apply records)[i] =
      place (i + 1) ((Slots.removeAt (slot.toNat - 1) (contents records))[i]?.getD none) :=
    fun i hi => getElem_apply hwf hvalid hi
  refine ⟨?_, ?_, ?_⟩
  · intro i hi hlow
    rw [hget i hi, Slots.getElem?_removeAt hlt, if_pos (by omega), ← getElem_eq_place hwf i hi]
  · intro i hlt' hi hlow
    rw [hget i hlt', Slots.getElem?_removeAt hlt, hlen, if_neg (by omega), if_pos hi,
      getElem_renumber hwf (i + 1) (i + 1) hi]
  · rintro i hi rfl
    rw [hget 24 hi, Slots.getElem?_removeAt hlt, hlen, if_neg (by omega),
      if_neg (Nat.lt_irrefl _), if_pos rfl]
    rfl

theorem removeAt_insertAt_apply_eq_iff {slot : Byte} {record : SlotRecord} {e : Fin 25}
    (h : (TableOp.insertAt slot record).Valid records) (he : FirstEmpty records slot e) :
    (TableOp.removeAt slot).apply ((TableOp.insertAt slot record).apply records) = records ↔
      ∀ (i : ℕ) (_ : i < 25), e < i → records[i].slot = 0 := by
  have hwf' := wellFormed_apply hwf (.insertAt slot record)
  have hremove : (TableOp.removeAt slot).Valid ((TableOp.insertAt slot record).apply records) :=
    h.1
  have hcontents : contents ((TableOp.removeAt slot).apply
      ((TableOp.insertAt slot record).apply records)) = Slots.removeAt (slot.toNat - 1)
        (Slots.insertAt (slot.toNat - 1) record.part (contents records)) := by
    rw [contents_apply hwf' hremove, contents_apply hwf h]
    rfl
  have hrow : (TableOp.removeAt slot).apply ((TableOp.insertAt slot record).apply records) =
      records ↔ Slots.removeAt (slot.toNat - 1)
        (Slots.insertAt (slot.toNat - 1) record.part (contents records)) = contents records := by
    rw [← hcontents]
    exact ⟨congrArg contents, contents_injective (wellFormed_apply hwf' _) hwf⟩
  rw [hrow, Slots.removeAt_insertAt_eq_iff he.firstHole, forall_drop_contents_iff]
  constructor
  · intro hall i hi hei
    refine hall _ (List.mem_drop_iff_getElem.mpr ⟨i - (e + 1), ?_, ?_⟩)
    · rw [Vector.length_toList]
      omega
    · rw [Vector.getElem_toList]
      congr 1
      omega
  · intro hall r hr
    obtain ⟨j, hj, rfl⟩ := List.mem_drop_iff_getElem.mp hr
    rw [Vector.length_toList] at hj
    have hlt : e + 1 + j < 25 := by omega
    rw [Vector.getElem_toList]
    exact hall (e + 1 + j) hlt (by omega)

end Rows

/-! ## The two operations -/

/-- A part in slot 2 only. -/
def insertPart : Part := ⟨Vector.replicate 10 0x41, 5, 0⟩

def gapAtThree : BindingTable := ⟨ofContents [none, some insertPart], 1⟩

theorem firstEmpty_gapAtThree : FirstEmpty gapAtThree.records 2 2 := by
  have hsecond : gapAtThree.records[1].slot ≠ 0 := by decide +kernel
  refine ⟨by decide, by decide +kernel, ?_⟩
  intro j hlow hhigh
  have hj : j = 1 := Nat.le_antisymm (Nat.lt_succ_iff.mp hhigh) hlow
  subst hj
  exact hsecond

section Runs
variable {model : BindingTable} (hwf : WellFormed model.records)
include hwf

/-- INSERT_AT without an empty slot from its slot up is refused. Else it shifts the records
up to the first empty slot and no further. -/
theorem insertAt_shifts_to_hole {slot : Byte} (hslot : ValidSlot slot) {record : SlotRecord}
    (hcrc : record.crcOk) :
    ((∀ i, slot.toNat - 1 ≤ i → (hi : i < 25) → model.records[i].slot ≠ 0) →
      ∀ save : Option SaveCb, (insertAt slot record).run save model = ⟨-Errno.ENOSPC, model, []⟩) ∧
    ∀ e, FirstEmpty model.records slot e →
      ∀ save : Option SaveCb, (∀ cb, save = some cb → ∀ next tableSeq, cb next tableSeq = 0) →
        ((insertAt slot record).run save model).err = 0 ∧
        Inserted model.records ((insertAt slot record).run save model).model.records slot
          record e := by
  constructor
  · intro hno save
    have hfull : (TableOp.insertAt slot record).Full model.records := ⟨hslot, hcrc, hno⟩
    have hplan : (insertAt slot record).plan model.records = .reject (-Errno.ENOSPC) := by
      cases verdict model.records (insertAt slot record) with
      | accept valid _ => exact absurd hfull (not_full_of_valid valid)
      | full _ plan => exact plan
      | invalid _ full _ => exact absurd hfull full
    rw [run, hplan]
    rfl
  · intro e he save hsave
    have hvalid : (insertAt slot record).Valid model.records := ⟨hslot, hcrc, he.not_noRoom⟩
    obtain ⟨herr, hrecords⟩ := run_of_saved hsave model (ne_reject_of_valid hvalid)
    rw [herr, hrecords]
    exact ⟨rfl, inserted_apply hwf hvalid he⟩

omit hwf in
theorem insertAt_shifts_to_hole_gap :
    Inserted gapAtThree.records
      ((insertAt 2 (insertPart.record 0)).run none gapAtThree).model.records 2
        (insertPart.record 0) 2 :=
  (((insertAt_shifts_to_hole (wellFormed_ofContents [none, some insertPart]) (by decide)
    (insertPart.crcOk_record 0)).2 2 firstEmpty_gapAtThree none)
      (fun _ hcb => absurd hcb.symm (Option.some_ne_none _))).2

/-- REMOVE_AT moves every record above its slot down by one. It undoes an insertion exactly
when all slots above the one that the insertion has filled were empty. -/
theorem removeAt_closes_gap {slot : Byte} (hslot : ValidSlot slot) :
    (∀ save : Option SaveCb, (∀ cb, save = some cb → ∀ next tableSeq, cb next tableSeq = 0) →
      ((removeAt slot).run save model).err = 0 ∧
      Removed model.records ((removeAt slot).run save model).model.records slot) ∧
    ∀ record : SlotRecord, record.crcOk → ∀ e, FirstEmpty model.records slot e →
      ∀ save : Option SaveCb, (∀ cb, save = some cb → ∀ next tableSeq, cb next tableSeq = 0) →
        (((removeAt slot).run save
          ((insertAt slot record).run save model).model).model.records = model.records ↔
            ∀ (i : ℕ) (_ : i < 25), e < i → model.records[i].slot = 0) := by
  have hremove : ∀ records, (removeAt slot).Valid records := fun _ => hslot
  constructor
  · intro save hsave
    obtain ⟨herr, hrecords⟩ := run_of_saved hsave model (ne_reject_of_valid (hremove _))
    rw [herr, hrecords]
    exact ⟨rfl, removed_apply hwf hslot⟩
  · intro record hcrc e he save hsave
    have hvalid : (insertAt slot record).Valid model.records := ⟨hslot, hcrc, he.not_noRoom⟩
    have hinsert := (run_of_saved hsave model (ne_reject_of_valid hvalid)).2
    have hback := (run_of_saved hsave ((insertAt slot record).run save model).model
      (ne_reject_of_valid (hremove _))).2
    rw [hback, hinsert]
    exact removeAt_insertAt_apply_eq_iff hwf hvalid he

omit hwf in
theorem removeAt_closes_gap_gap :
    ((removeAt 2).run none
      ((insertAt 2 (insertPart.record 0)).run none gapAtThree).model).model.records =
        gapAtThree.records := by
  have hempty : ∀ (i : ℕ) (_ : i < 25), 2 < i → gapAtThree.records[i].slot = 0 := by
    decide +kernel
  exact ((removeAt_closes_gap (wellFormed_ofContents [none, some insertPart]) (by decide)).2
    (insertPart.record 0) (insertPart.crcOk_record 0) 2 firstEmpty_gapAtThree none
      (fun _ hcb => absurd hcb.symm (Option.some_ne_none _))).mpr hempty

end Runs

end TableOp
end PartRack
