import Mathlib.Data.List.Indexes
import PartRack.BindingTable.Repeat
import PartRack.Lib.Buffers

/-! `vbrk_binding_table_model_move_block` with its three local arrays, its copies and its
8-bit counters, and the list model of the move in tools/binding_table_model_test.py. -/

namespace PartRack
open Buffers

namespace LocalArrays
open BindingTable

/-- The copy loop at index `i`, with `k` turns left; it fails on an access outside
`rest` or `model->records`. -/
def copyRest (records : List SlotRecord) (fromSlot len : Byte) :
    (k : ℕ) → (i : Byte) → (rest : List SlotRecord) → (restCount : Byte) →
      Option (List SlotRecord × Byte)
  | 0, _, rest, restCount => some (rest, restCount)
  | k + 1, i, rest, restCount =>
    let slot := i + 1
    if fromSlot.toNat ≤ slot.toNat ∧ slot.toNat < fromSlot.toNat + len.toNat then
      copyRest records fromSlot len k (i + 1) rest restCount
    else do
      let record ← records[i.toNat]?
      let rest ← store rest restCount.toNat record
      copyRest records fromSlot len k (i + 1) rest (restCount + 1)

/-- The renumbering loop at index `i`, with `k` turns left. -/
def normalizeAll : (k : ℕ) → (i : Byte) → (next : List SlotRecord) → Option (List SlotRecord)
  | 0, _, next => some next
  | k + 1, i, next => do
    let record ← next[i.toNat]?
    if record.slot ≠ 0 then
      let next ← store next i.toNat (record.normalizeSlot (i + 1))
      normalizeAll k (i + 1) next
    else
      normalizeAll k (i + 1) next

/-- `move_block` up to its commit; `block` is what the first array holds before it is
written to. -/
def moveBlock (block : Records) (records : Records) (fromSlot toSlot len : Byte) :
    Option Plan :=
  if ¬ValidSlot fromSlot ∨ ¬ValidSlot toSlot ∨ len = 0 ∨
      25 < fromSlot.toNat + len.toNat - 1 ∨ 25 < toSlot.toNat + len.toNat - 1 then
    some (.reject (-Errno.EINVAL))
  else if fromSlot = toSlot then
    some .keep
  else do
    let block ← memcpy block.toList 0 records.toList (fromSlot.toNat - 1) len.toNat
    let rest := emptyRecords.toList
    let next := emptyRecords.toList
    let (rest, restCount) ← copyRest records.toList fromSlot len 25 0 rest 0
    let insertAt := if restCount.toNat < (toSlot - 1).toNat then restCount else toSlot - 1
    let next ← memcpy next 0 rest 0 insertAt.toNat
    let next ← memcpy next insertAt.toNat block 0 len.toNat
    let next ← memcpy next (insertAt.toNat + len.toNat) rest insertAt.toNat
      (restCount.toNat - insertAt.toNat)
    let next ← normalizeAll 25 0 next
    return .commit (fillRecords next)

/-! ## What the loops do -/

/-- The elements of `todo`, standing from index `n` on, whose slots are not in the block. -/
def outside (fromSlot len n : ℕ) (todo : List SlotRecord) : List SlotRecord :=
  ((todo.zipIdx n).filter fun p =>
    !(decide (fromSlot ≤ p.2 + 1) && decide (p.2 + 1 < fromSlot + len))).map Prod.fst

theorem outside_cons (fromSlot len n : ℕ) (r : SlotRecord) (todo : List SlotRecord) :
    outside fromSlot len n (r :: todo) =
      if fromSlot ≤ n + 1 ∧ n + 1 < fromSlot + len then outside fromSlot len (n + 1) todo
      else r :: outside fromSlot len (n + 1) todo := by
  unfold outside
  rw [List.zipIdx_cons, List.filter_cons]
  by_cases h : fromSlot ≤ n + 1 ∧ n + 1 < fromSlot + len
  · simp [h]
  · have hkept : (!(decide (fromSlot ≤ n + 1) && decide (n + 1 < fromSlot + len))) = true := by
      simp only [Bool.not_eq_true', Bool.and_eq_false_iff, decide_eq_false_iff_not]
      omega
    rw [if_neg h, if_pos hkept, List.map_cons]

theorem toNat_succ {i : Byte} {n : ℕ} (hi : i.toNat = n) (hn : n < 25) :
    (i + 1).toNat = n + 1 := by
  rw [BitVec.toNat_add, hi]
  exact Nat.mod_eq_of_lt (show n + 1 < 256 by omega)

theorem copyRest_eq (fromSlot len : Byte) (z : SlotRecord) (todo : List SlotRecord)
    (done kept : List SlotRecord) (hlen : (done ++ todo).length = 25)
    (hkept : kept.length ≤ done.length) (i restCount : Byte) (hi : i.toNat = done.length)
    (hcount : restCount.toNat = kept.length) :
    copyRest (done ++ todo) fromSlot len todo.length i (filled 25 z kept) restCount =
      some (filled 25 z (kept ++ outside fromSlot.toNat len.toNat done.length todo),
        BitVec.ofNat 8 (kept ++ outside fromSlot.toNat len.toNat done.length todo).length) := by
  -- after the turns for `todo` the records kept are the first ones of `rest`
  induction todo generalizing done kept i restCount with
  | nil =>
    have hnil : outside fromSlot.toNat len.toNat done.length [] = [] := rfl
    rw [hnil, List.append_nil kept, ← hcount, BitVec.ofNat_toNat, BitVec.setWidth_eq]
    rfl
  | cons r todo ih =>
    have hdone : done.length + (todo.length + 1) = 25 := by
      rwa [List.length_append, List.length_cons] at hlen
    have hnext := toNat_succ hi (by omega)
    have hsplit : done ++ r :: todo = (done ++ [r]) ++ todo := by simp
    have hdone' : (done ++ [r]).length = done.length + 1 := by simp
    rw [List.length_cons, copyRest]
    simp only [hnext]
    rw [outside_cons]
    split_ifs with h
    · rw [hsplit, ih (done ++ [r]) kept (by rw [← hsplit, hlen]) (by omega) _ _
        (by rw [hnext, hdone']) hcount, hdone']
    · have hget : (done ++ r :: todo)[i.toNat]? = some r := by
        rw [hi, List.getElem?_append_right (Nat.le_refl _), Nat.sub_self]
        rfl
      have hstore := store_filled z (show kept.length < 25 by omega) r
      rw [hget, hcount]
      simp only [Option.bind_eq_bind, Option.bind_some, hstore]
      rw [hsplit, ih (done ++ [r]) (kept ++ [r]) (by rw [← hsplit, hlen])
        (by rw [hdone', List.length_append]; exact Nat.succ_le_succ hkept) _ _
        (by rw [hnext, hdone'])
        (by rw [toNat_succ hcount (by omega), List.length_append]; rfl), hdone',
        List.append_assoc]
      rfl

theorem normalizeAll_eq (todo done : List SlotRecord) (hlen : (done ++ todo).length = 25)
    (i : Byte) (hi : i.toNat = done.length) :
    normalizeAll todo.length i (done ++ todo) =
      some (done ++ todo.mapIdx fun j r => r.renumber (done.length + j + 1)) := by
  induction todo generalizing done i with
  | nil => rfl
  | cons r todo ih =>
    have hdone : done.length + (todo.length + 1) = 25 := by
      rwa [List.length_append, List.length_cons] at hlen
    have hnext := toNat_succ hi (by omega)
    have hslot : i + 1 = BitVec.ofNat 8 (done.length + 1) := by
      rw [← hnext, BitVec.ofNat_toNat, BitVec.setWidth_eq]
    have hget : (done ++ r :: todo)[i.toNat]? = some r := by
      rw [hi, List.getElem?_append_right (Nat.le_refl _), Nat.sub_self]
      rfl
    -- whether or not it is written back, element `i` is now the renumbered one
    have hturn : normalizeAll (todo.length + 1) i (done ++ r :: todo) =
        normalizeAll todo.length (i + 1) ((done ++ [r.renumber (done.length + 1)]) ++ todo) := by
      rw [normalizeAll, hget]
      simp only [Option.bind_eq_bind, Option.bind_some]
      split_ifs with hr
      · have hlt : i.toNat < (done ++ r :: todo).length := by omega
        have hset : (done ++ r :: todo).set i.toNat (r.normalizeSlot (i + 1)) =
            (done ++ [r.renumber (done.length + 1)]) ++ todo := by
          rw [hi, List.set_append_right _ _ (Nat.le_refl _), Nat.sub_self, List.set_cons_zero,
            SlotRecord.renumber, if_pos hr, hslot, List.append_assoc]
          rfl
        rw [store, if_pos hlt, Option.bind_some, hset]
      · have hsame : r.renumber (done.length + 1) = r := by
          rw [SlotRecord.renumber, if_neg hr]
        rw [hsame, List.append_assoc]
        rfl
    have hlen' : ((done ++ [r.renumber (done.length + 1)]) ++ todo).length = 25 := by
      simpa using hlen
    have hnext' : (i + 1).toNat = (done ++ [r.renumber (done.length + 1)]).length := by
      rw [hnext, List.length_append]
      rfl
    rw [List.length_cons, hturn, ih _ hlen' _ hnext']
    simp [List.mapIdx_cons, Nat.add_assoc, Nat.add_comm 1]

theorem fillRecords_mapIdx {l : List SlotRecord} (hl : l.length = 25)
    (f : ℕ → SlotRecord → SlotRecord) :
    fillRecords (l.mapIdx f) = (fillRecords l).mapIdx f := by
  apply Vector.ext
  intro j hj
  have hj' : j < l.length := by rwa [hl]
  rw [Vector.getElem_mapIdx, getElem_fillRecords, getElem_fillRecords, List.getD_eq_getElem _ _ hj',
    List.getD_eq_getElem _ _ (by rwa [List.length_mapIdx]), List.getElem_mapIdx]

theorem copies_eq {blockBuf rest blk : List SlotRecord} {n : ℕ} (hn : n ≤ rest.length)
    (hlen : rest.length + blk.length = 25) (hblk : blk <+: blockBuf) :
    ∃ next₁ next₂,
      memcpy emptyRecords.toList 0 (filled 25 SlotRecord.zero rest) 0 n = some next₁ ∧
      memcpy next₁ n blockBuf 0 blk.length = some next₂ ∧
      memcpy next₂ (n + blk.length) (filled 25 SlotRecord.zero rest) n (rest.length - n) =
        some (rest.take n ++ blk ++ rest.drop n) := by
  have hrest := length_filled SlotRecord.zero (show rest.length ≤ 25 by omega)
  have htake : (rest.take n).length = n := List.length_take_of_le hn
  have hpre : (rest.take n ++ blk).length = n + blk.length := by rw [List.length_append, htake]
  have hall : (rest.take n ++ blk ++ rest.drop n).length = 25 := by
    rw [List.length_append, hpre, List.length_drop]
    omega
  have h₁ : memcpy emptyRecords.toList 0 (filled 25 SlotRecord.zero rest) 0 n =
      some (filled 25 SlotRecord.zero (rest.take n)) := by
    have h := memcpy_filled SlotRecord.zero (show ([] : List SlotRecord).length + n ≤ 25 by
      rw [List.length_nil]; omega) (show 0 + n ≤ (filled 25 SlotRecord.zero rest).length by omega)
    rwa [List.drop_zero, take_filled _ hn] at h
  have h₂ : memcpy (filled 25 SlotRecord.zero (rest.take n)) n blockBuf 0 blk.length =
      some (filled 25 SlotRecord.zero (rest.take n ++ blk)) := by
    have hle := hblk.length_le
    have h := memcpy_filled SlotRecord.zero (show (rest.take n).length + blk.length ≤ 25 by omega)
      (show 0 + blk.length ≤ blockBuf.length by omega)
    rwa [htake, List.drop_zero, ← List.prefix_iff_eq_take.mp hblk] at h
  have h₃ : memcpy (filled 25 SlotRecord.zero (rest.take n ++ blk)) (n + blk.length)
      (filled 25 SlotRecord.zero rest) n (rest.length - n) =
        some (filled 25 SlotRecord.zero (rest.take n ++ blk ++ rest.drop n)) := by
    have h := memcpy_filled SlotRecord.zero
      (show (rest.take n ++ blk).length + (rest.length - n) ≤ 25 by omega)
      (show n + (rest.length - n) ≤ (filled 25 SlotRecord.zero rest).length by omega)
    rwa [hpre, drop_filled _ hn] at h
  -- the three parts fill the buffer
  have hfull : filled 25 SlotRecord.zero (rest.take n ++ blk ++ rest.drop n) =
      rest.take n ++ blk ++ rest.drop n := by
    rw [filled, hall]
    exact List.append_nil _
  rw [hfull] at h₃
  exact ⟨_, _, h₁, h₂, h₃⟩

theorem copyRest_records (records : Records) (fromSlot len : Byte) :
    copyRest records.toList fromSlot len 25 0 emptyRecords.toList 0 =
      some (filled 25 SlotRecord.zero (restRecords records fromSlot.toNat len.toNat),
        BitVec.ofNat 8 (restRecords records fromSlot.toNat len.toNat).length) := by
  have h := copyRest_eq fromSlot len SlotRecord.zero records.toList [] [] (by simp)
    (Nat.le_refl _) 0 0 rfl rfl
  rwa [Vector.length_toList] at h

theorem normalizeAll_full {next : List SlotRecord} (h : next.length = 25) :
    normalizeAll 25 0 next = some (next.mapIdx fun j r => r.renumber (j + 1)) := by
  have hall := normalizeAll_eq next [] h 0 rfl
  simpa [h] using hall

theorem memcpy_block (block records : Records) {start n : ℕ} (h : start + n ≤ 25) :
    ∃ tail, memcpy block.toList 0 records.toList start n =
      some ((records.toList.drop start).take n ++ tail) := by
  refine ⟨block.toList.drop (0 + n), ?_⟩
  rw [memcpy, if_pos (by simp; omega)]
  rfl

theorem guard_iff (fromSlot toSlot len : Byte) :
    (¬ValidSlot fromSlot ∨ ¬ValidSlot toSlot ∨ len = 0 ∨
      25 < fromSlot.toNat + len.toNat - 1 ∨ 25 < toSlot.toNat + len.toNat - 1) ↔
    ¬(ValidSlot fromSlot ∧ ValidSlot toSlot ∧ len ≠ 0 ∧
      fromSlot.toNat + len.toNat - 1 ≤ 25 ∧ toSlot.toNat + len.toNat - 1 ≤ 25) := by
  simp only [not_and_or, not_not, ne_eq, Nat.not_le]

/-- No access leaves an array, and the table that is committed is the one of the model. -/
theorem moveBlock_eq (block records : Records) (fromSlot toSlot len : Byte) :
    moveBlock block records fromSlot toSlot len =
      some (BindingTable.moveBlock records fromSlot toSlot len) := by
  unfold moveBlock BindingTable.moveBlock
  simp only [guard_iff, ite_not]
  split_ifs with hvalid hidle
  · rfl
  · obtain ⟨hfrom, hto, -, hfromEnd, htoEnd⟩ := hvalid
    have hrest : (restRecords records fromSlot.toNat len.toNat).length = 25 - len.toNat := by
      rw [restRecords_eq records hfrom.1 hfromEnd, Slots.length_cut (by simp; omega),
        Vector.length_toList]
    have hblk : ((records.toList.drop (fromSlot.toNat - 1)).take len.toNat).length =
        len.toNat := by
      rw [List.length_take, List.length_drop, Vector.length_toList]
      omega
    have htoSlot : (toSlot - 1).toNat = toSlot.toNat - 1 :=
      BitVec.toNat_sub_of_le (show 1 ≤ toSlot.toNat from hto.1)
    have hcount : (BitVec.ofNat 8 (restRecords records fromSlot.toNat len.toNat).length).toNat =
        (restRecords records fromSlot.toNat len.toNat).length := by
      rw [BitVec.toNat_ofNat]
      omega
    obtain ⟨tail, hcopy⟩ := memcpy_block block records
      (show fromSlot.toNat - 1 + len.toNat ≤ 25 by omega)
    have hinsert : ¬(restRecords records fromSlot.toNat len.toNat).length <
        toSlot.toNat - 1 := by omega
    obtain ⟨next₁, next₂, h₁, h₂, h₃⟩ := copies_eq
      (show toSlot.toNat - 1 ≤ (restRecords records fromSlot.toNat len.toNat).length by omega)
      (show _ + ((records.toList.drop (fromSlot.toNat - 1)).take len.toNat).length = 25 by omega)
      (List.prefix_append _ tail)
    rw [hblk] at h₂ h₃
    have hfull : ((restRecords records fromSlot.toNat len.toNat).take (toSlot.toNat - 1) ++
        (records.toList.drop (fromSlot.toNat - 1)).take len.toNat ++
        (restRecords records fromSlot.toNat len.toNat).drop (toSlot.toNat - 1)).length = 25 := by
      rw [List.length_append, List.length_append, List.length_take, List.length_drop, hblk]
      omega
    simp only [hcopy, copyRest_records, Option.bind_eq_bind, Option.bind_some, hcount, htoSlot,
      if_neg hinsert, h₁, h₂, h₃, normalizeAll_full hfull, fillRecords_mapIdx hfull]
    rw [movedRecords, Nat.min_eq_left (Nat.not_lt.mp hinsert)]
    rfl
  · rfl

end LocalArrays

/-! ## The list model -/

namespace HostTools

/-- `move_block` of tools/binding_table_model_test.py, with the text of its `ValueError`. -/
def moveBlock {α : Type} (items : List α) (fromSlot toSlot length : ℤ) :
    Except String (List α) :=
  if fromSlot < 1 ∨ toSlot < 1 ∨ length < 1 then .error "invalid move"
  else if fromSlot + length - 1 > items.length ∨ toSlot + length - 1 > items.length then
    .error "invalid move"
  else
    let start := (fromSlot - 1).toNat
    let block := (items.drop start).take length.toNat
    let rest := items.take start ++ items.drop (start + length.toNat)
    let insertAt := (toSlot - 1).toNat
    .ok (rest.take insertAt ++ block ++ rest.drop insertAt)

theorem moveBlock_cases {α : Type} {items : List α} (hitems : items.length = 25)
    (records : Records) (fromSlot toSlot len : Byte) :
    (TableOp.moveBlock fromSlot toSlot len).Valid records ∧
      moveBlock items fromSlot.toNat toSlot.toNat len.toNat = .ok (Slots.moveBlock
        (fromSlot.toNat - 1) (toSlot.toNat - 1) len.toNat items) ∨
    ¬(TableOp.moveBlock fromSlot toSlot len).Valid records ∧
      moveBlock items fromSlot.toNat toSlot.toNat len.toNat = .error "invalid move" := by
  have hlen : len ≠ 0 ↔ len.toNat ≠ 0 := by
    rw [ne_eq, ← BitVec.toNat_inj]
    rfl
  simp only [TableOp.Valid, hlen]
  unfold moveBlock
  split_ifs with h₁ h₂
  · right
    refine ⟨?_, rfl⟩
    omega
  · right
    refine ⟨?_, rfl⟩
    omega
  · left
    have hfrom : ((fromSlot.toNat : ℤ) - 1).toNat = fromSlot.toNat - 1 := by omega
    have hto : ((toSlot.toNat : ℤ) - 1).toNat = toSlot.toNat - 1 := by omega
    refine ⟨by omega, ?_⟩
    simp only [hfrom, hto, Int.toNat_natCast]
    rfl

end HostTools

namespace TableOp
open BindingTable

theorem mapIdx_renumber_self {records : Records} (hwf : WellFormed records) :
    records.toList.mapIdx (fun i r => r.renumber (i + 1)) = records.toList := by
  apply List.ext_getElem
  · rw [List.length_mapIdx]
  · intro j h _
    have hj : j < 25 := by simpa using h
    rw [List.getElem_mapIdx, Vector.getElem_toList, getElem_renumber hwf j (j + 1) hj,
      ← getElem_eq_place hwf j hj]

theorem toList_movedRecords (records : Records) {fromSlot toSlot len : ℕ} (hfrom : 1 ≤ fromSlot)
    (hfromEnd : fromSlot + len - 1 ≤ 25) (htoEnd : toSlot + len - 1 ≤ 25) :
    (movedRecords records fromSlot toSlot len).toList =
      (Slots.moveBlock (fromSlot - 1) (toSlot - 1) len records.toList).mapIdx
        fun i r => r.renumber (i + 1) := by
  have hmoved := Slots.length_moveBlock (l := records.toList) (toSlot - 1)
    (show fromSlot - 1 + len ≤ _ by rw [Vector.length_toList]; omega)
  rw [movedRecords_eq records hfrom hfromEnd htoEnd]
  apply List.ext_getElem
  · rw [Vector.length_toList, List.length_mapIdx, hmoved, Vector.length_toList]
  · intro j h₁ h₂
    have hj : j < 25 := by rwa [Vector.length_toList] at h₁
    have hjm : j < (Slots.moveBlock (fromSlot - 1) (toSlot - 1) len records.toList).length := by
      rwa [List.length_mapIdx] at h₂
    rw [Vector.getElem_toList, Vector.getElem_mapIdx, getElem_fillRecords,
      List.getD_eq_getElem _ _ hjm, List.getElem_mapIdx]

/-- A move that is carried out: the splice, renumbered, and a way back. -/
structure Moved (save : Option SaveCb) (model : BindingTable) (fromSlot toSlot len : Byte)
    (spliced : List SlotRecord) : Prop where
  err_eq : ((moveBlock fromSlot toSlot len).run save model).err = 0
  records_eq : ((moveBlock fromSlot toSlot len).run save model).model.records.toList =
    spliced.mapIdx fun i r => r.renumber (i + 1)
  perm : (contents ((moveBlock fromSlot toSlot len).run save model).model.records).Perm
    (contents model.records)
  back : ((moveBlock toSlot fromSlot len).run save
    ((moveBlock fromSlot toSlot len).run save model).model).model.records = model.records

theorem plan_moveBlock {records : Records} {fromSlot toSlot len : Byte}
    (h : (moveBlock fromSlot toSlot len).Valid records) :
    (moveBlock fromSlot toSlot len).plan records = if fromSlot = toSlot then .keep
      else .commit (movedRecords records fromSlot.toNat toSlot.toNat len.toNat) := if_pos h

theorem apply_moveBlock {records : Records} (hwf : WellFormed records)
    {fromSlot toSlot len : Byte} (h : (moveBlock fromSlot toSlot len).Valid records) :
    ((moveBlock fromSlot toSlot len).apply records).toList =
      (Slots.moveBlock (fromSlot.toNat - 1) (toSlot.toNat - 1) len.toNat records.toList).mapIdx
        fun i r => r.renumber (i + 1) := by
  have hplan := plan_moveBlock h
  obtain ⟨hfrom, -, -, hfromEnd, htoEnd⟩ := h
  by_cases hidle : fromSlot = toSlot
  · subst hidle
    rw [if_pos rfl] at hplan
    have hlen : fromSlot.toNat - 1 ≤ records.toList.length := by
      rw [Vector.length_toList]
      omega
    rw [apply_of_keep hplan, Slots.moveBlock, Slots.paste_cut hlen, mapIdx_renumber_self hwf]
  · rw [if_neg hidle] at hplan
    rw [apply_of_commit hplan, toList_movedRecords records hfrom.1 hfromEnd htoEnd]

theorem valid_moveBlock_symm {records next : Records} {fromSlot toSlot len : Byte}
    (h : (moveBlock fromSlot toSlot len).Valid records) :
    (moveBlock toSlot fromSlot len).Valid next := ⟨h.2.1, h.1, h.2.2.1, h.2.2.2.2, h.2.2.2.1⟩

theorem apply_moveBlock_back {records : Records} (hwf : WellFormed records)
    {fromSlot toSlot len : Byte} (h : (moveBlock fromSlot toSlot len).Valid records) :
    (moveBlock toSlot fromSlot len).apply ((moveBlock fromSlot toSlot len).apply records) =
      records := by
  have hwf' := wellFormed_apply hwf (moveBlock fromSlot toSlot len)
  have hlen := length_contents records
  apply contents_injective (wellFormed_apply hwf' _) hwf
  rw [contents_apply hwf' (valid_moveBlock_symm h), contents_apply hwf h]
  obtain ⟨hfrom, hto, -, hfromEnd, htoEnd⟩ := h
  exact Slots.moveBlock_moveBlock (by omega) (by omega)

theorem moved {model : BindingTable} (hwf : WellFormed model.records) {save : Option SaveCb}
    (hsave : ∀ cb, save = some cb → ∀ next tableSeq, cb next tableSeq = 0)
    {fromSlot toSlot len : Byte} (h : (moveBlock fromSlot toSlot len).Valid model.records) :
    Moved save model fromSlot toSlot len (Slots.moveBlock (fromSlot.toNat - 1)
      (toSlot.toNat - 1) len.toNat model.records.toList) := by
  obtain ⟨herr, hrecords⟩ := run_of_saved hsave model (ne_reject_of_valid h)
  have hback := (run_of_saved hsave ((moveBlock fromSlot toSlot len).run save model).model
    (ne_reject_of_valid (valid_moveBlock_symm h))).2
  refine ⟨herr, ?_, ?_, ?_⟩
  · rw [hrecords, apply_moveBlock hwf h]
  · rw [hrecords, contents_apply hwf h]
    exact Slots.moveBlock_perm _ _
  · rw [hback, hrecords, apply_moveBlock_back hwf h]

/-- MOVE_BLOCK stays inside its arrays; it is refused where the list model raises, and is
the splice of the list model elsewhere, undone by the move back. -/
theorem moveBlock_refines_list {model : BindingTable} (hwf : WellFormed model.records)
    (block : Records) (fromSlot toSlot len : Byte) :
    LocalArrays.moveBlock block model.records fromSlot toSlot len =
      some ((moveBlock fromSlot toSlot len).plan model.records) ∧
    ((moveBlock fromSlot toSlot len).plan model.records = .reject (-Errno.EINVAL) ↔
      ∃ message, HostTools.moveBlock model.records.toList fromSlot.toNat toSlot.toNat
        len.toNat = .error message) ∧
    ∀ save : Option SaveCb, (∀ cb, save = some cb → ∀ next tableSeq, cb next tableSeq = 0) →
      (((moveBlock fromSlot toSlot len).run save model).err = -Errno.EINVAL ↔
        ∃ message, HostTools.moveBlock model.records.toList fromSlot.toNat toSlot.toNat
          len.toNat = .error message) ∧
      ∀ spliced, HostTools.moveBlock model.records.toList fromSlot.toNat toSlot.toNat
        len.toNat = .ok spliced → Moved save model fromSlot toSlot len spliced := by
  have hlen : model.records.toList.length = 25 := by simp
  refine ⟨LocalArrays.moveBlock_eq _ _ _ _ _, ?_⟩
  rcases HostTools.moveBlock_cases hlen model.records fromSlot toSlot len with
    ⟨hvalid, hok⟩ | ⟨hvalid, herror⟩
  · have hraises : ¬∃ message : String, Except.ok (Slots.moveBlock (fromSlot.toNat - 1)
        (toSlot.toNat - 1) len.toNat model.records.toList) = Except.error message := by
      rintro ⟨message, hmessage⟩
      cases hmessage
    rw [hok]
    refine ⟨iff_of_false (ne_reject_of_valid hvalid _) hraises, ?_⟩
    intro save hsave
    have hmoved := moved hwf hsave hvalid
    refine ⟨iff_of_false ?_ hraises, ?_⟩
    · rw [hmoved.err_eq]
      decide
    · intro spliced hspliced
      rwa [← Except.ok.inj hspliced]
  · have hplan : (moveBlock fromSlot toSlot len).plan model.records = .reject (-Errno.EINVAL) :=
      if_neg hvalid
    rw [herror]
    refine ⟨iff_of_true hplan ⟨_, rfl⟩, ?_⟩
    intro save _
    refine ⟨?_, ?_⟩
    · rw [run, hplan]
      exact iff_of_true rfl ⟨_, rfl⟩
    · intro spliced hspliced
      cases hspliced

theorem moveBlock_refines_list_secondBound :
    ((moveBlock 5 2 2).run none ((moveBlock 2 5 2).run none secondBound).model).model.records =
      secondBound.records := by
  have hwf : WellFormed secondBound.records := wellFormed_secondBound
  have hvalid : (moveBlock 2 5 2).Valid secondBound.records := by
    refine ⟨?_, ?_, ?_, ?_, ?_⟩ <;> decide
  have hsave : ∀ cb : SaveCb, none = some cb → ∀ next tableSeq, cb next tableSeq = 0 :=
    fun _ hcb => absurd hcb.symm (Option.some_ne_none _)
  have hmove := ((moveBlock_refines_list hwf emptyRecords 2 5 2).2.2 none hsave).2
  rcases HostTools.moveBlock_cases Vector.length_toList secondBound.records 2 5 2 with
    ⟨-, hok⟩ | ⟨hinvalid, -⟩
  · exact (hmove _ hok).back
  · exact absurd hvalid hinvalid

end TableOp
end PartRack
