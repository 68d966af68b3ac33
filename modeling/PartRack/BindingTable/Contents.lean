import PartRack.BindingTable.Loops
import PartRack.Lib.Slots

/-! The table as the row of parts it stands for. A well-formed table is determined by
which places hold which part: numbers, reserved bytes and checksums follow from the
place. Each operation that commits acts on the row as one of the shifts of `Slots`. -/

namespace PartRack

/-- What a bound record says about the part in its slot. -/
structure Part where
  partId : Vector Byte 10
  qtyLe : BitVec 16
  flags : Byte
deriving DecidableEq, Repr

def Part.record (p : Part) (slot : Byte) : SlotRecord :=
  SlotRecord.normalizeSlot ⟨slot, p.partId, p.qtyLe, p.flags, 0, 0⟩ slot

namespace SlotRecord

def part (r : SlotRecord) : Part := ⟨r.partId, r.qtyLe, r.flags⟩

def content (r : SlotRecord) : Option Part := if r.slot = 0 then none else some r.part

/-- All zero, or numbered `slot` with reserved byte 0 and a checksum that fits. -/
def WellFormedAt (r : SlotRecord) (slot : Byte) : Prop :=
  r = zero ∨ r.slot = slot ∧ r.reserved = 0 ∧ r.crc8 = crc8Maxim r.body

instance (r : SlotRecord) (slot : Byte) : Decidable (r.WellFormedAt slot) :=
  inferInstanceAs (Decidable (_ ∨ _))

theorem normalizeSlot_eq (r : SlotRecord) (slot : Byte) :
    r.normalizeSlot slot = r.part.record slot := rfl

end SlotRecord

@[simp] theorem Part.record_slot (p : Part) (slot : Byte) : (p.record slot).slot = slot := rfl

@[simp] theorem Part.part_record (p : Part) (slot : Byte) : (p.record slot).part = p := rfl

theorem Part.wellFormedAt_record (p : Part) (slot : Byte) :
    (p.record slot).WellFormedAt slot := Or.inr ⟨rfl, rfl, rfl⟩

theorem Part.crcOk_record (p : Part) (slot : Byte) : (p.record slot).crcOk = true :=
  beq_self_eq_true _

/-- The record that place `n` of a well-formed table holds. -/
def place (n : ℕ) : Option Part → SlotRecord
  | none => SlotRecord.zero
  | some p => p.record (BitVec.ofNat 8 n)

theorem ofNat_slot_ne_zero {n : ℕ} (h : 1 ≤ n ∧ n ≤ 25) : BitVec.ofNat 8 n ≠ 0 := by
  intro hz
  have hn : n % 256 = 0 := by simpa using congrArg BitVec.toNat hz
  omega

theorem content_place {n : ℕ} (h : 1 ≤ n ∧ n ≤ 25) (o : Option Part) :
    (place n o).content = o := by
  cases o with
  | none => rfl
  | some p => rw [place, SlotRecord.content, Part.record_slot, if_neg (ofNat_slot_ne_zero h),
      Part.part_record]

theorem wellFormedAt_place (n : ℕ) (o : Option Part) :
    (place n o).WellFormedAt (BitVec.ofNat 8 n) := by
  cases o with
  | none => exact Or.inl rfl
  | some p => exact p.wellFormedAt_record _

namespace SlotRecord

theorem eq_zero_of_slot {r : SlotRecord} {slot : Byte} (h : r.WellFormedAt slot)
    (hslot : slot ≠ 0) (hr : r.slot = 0) : r = zero := by
  rcases h with h | ⟨hs, -, -⟩
  · exact h
  · exact absurd (hs.symm.trans hr) hslot

theorem eq_place {r : SlotRecord} {n : ℕ} (h : r.WellFormedAt (BitVec.ofNat 8 n))
    (hn : 1 ≤ n ∧ n ≤ 25) : r = place n r.content := by
  by_cases hr : r.slot = 0
  · rw [eq_zero_of_slot h (ofNat_slot_ne_zero hn) hr]
    rfl
  · rcases h with rfl | ⟨hs, hres, hcrc⟩
    · exact absurd rfl hr
    · simp only [content, hr, if_false, place]
      rw [← hs]
      obtain ⟨slot, partId, qtyLe, flags, reserved, crc8⟩ := r
      obtain rfl : reserved = 0 := hres
      exact congrArg (SlotRecord.mk slot partId qtyLe flags 0) hcrc

theorem renumber_eq_place {r : SlotRecord} {slot : Byte} (h : r.WellFormedAt slot)
    (hslot : slot ≠ 0) (n : ℕ) : r.renumber n = place n r.content := by
  by_cases hr : r.slot = 0
  · rw [eq_zero_of_slot h hslot hr]
    rfl
  · simp only [renumber, content, hr, ne_eq, not_false_eq_true, if_true, if_false, place]
    exact normalizeSlot_eq r _

end SlotRecord

namespace BindingTable

def WellFormed (records : Records) : Prop :=
  ∀ (i : ℕ) (h : i < 25), records[i].WellFormedAt (BitVec.ofNat 8 (i + 1))

def contents (records : Records) : List (Option Part) :=
  records.toList.map SlotRecord.content

def ofContents (l : List (Option Part)) : Records :=
  Vector.ofFn fun i => place (i + 1) (l.getD i none)

@[simp] theorem length_contents (records : Records) : (contents records).length = 25 := by
  simp [contents]

theorem getElem?_contents (records : Records) (j : ℕ) (hj : j < 25) :
    (contents records)[j]? = some records[j].content := by
  rw [contents, List.getElem?_map, Vector.getElem?_toList, Vector.getElem?_eq_getElem hj]
  rfl

@[simp] theorem getElem_ofContents (l : List (Option Part)) (j : ℕ) (hj : j < 25) :
    (ofContents l)[j] = place (j + 1) (l.getD j none) := by
  rw [ofContents, Vector.getElem_ofFn]

theorem wellFormed_ofContents (l : List (Option Part)) : WellFormed (ofContents l) := by
  intro i hi
  rw [getElem_ofContents]
  exact wellFormedAt_place _ _

/-- A table with one record, in slot 2. -/
def secondBound : BindingTable := ⟨ofContents [none, some ⟨Vector.replicate 10 0x41, 5, 0⟩], 1⟩

theorem wellFormed_secondBound : WellFormed secondBound.records := wellFormed_ofContents _

theorem contents_ofContents {l : List (Option Part)} (hl : l.length = 25) :
    contents (ofContents l) = l := by
  apply List.ext_getElem (by simp [hl])
  intro j h₁ h₂
  have hj : j < 25 := by rwa [length_contents] at h₁
  have hget := getElem?_contents (ofContents l) j hj
  rw [getElem_ofContents, content_place (by omega), List.getD_eq_getElem _ _ h₂] at hget
  exact (List.getElem?_eq_some_iff.mp hget).2

theorem eq_ofContents {records : Records} {l : List (Option Part)}
    (h : ∀ (j : ℕ) (hj : j < 25), records[j] = place (j + 1) (l[j]?.getD none)) :
    records = ofContents l := by
  apply Vector.ext
  intro j hj
  rw [getElem_ofContents, List.getD_eq_getElem?_getD]
  exact h j hj

theorem getElem_eq_place {records : Records} (hwf : WellFormed records) (j : ℕ) (hj : j < 25) :
    records[j] = place (j + 1) ((contents records)[j]?.getD none) := by
  rw [getElem?_contents records j hj]
  exact SlotRecord.eq_place (hwf j hj) (by omega)

theorem ofContents_contents {records : Records} (hwf : WellFormed records) :
    ofContents (contents records) = records :=
  (eq_ofContents (getElem_eq_place hwf)).symm

theorem contents_injective {a b : Records} (ha : WellFormed a) (hb : WellFormed b)
    (h : contents a = contents b) : a = b := by
  rw [← ofContents_contents ha, ← ofContents_contents hb, h]

theorem getElem_renumber {records : Records} (hwf : WellFormed records) (j n : ℕ) (hj : j < 25) :
    records[j].renumber n = place n ((contents records)[j]?.getD none) := by
  rw [getElem?_contents records j hj]
  exact SlotRecord.renumber_eq_place (hwf j hj) (ofNat_slot_ne_zero (by omega)) n

end BindingTable
end PartRack
