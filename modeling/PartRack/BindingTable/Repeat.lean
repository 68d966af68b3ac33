import PartRack.BindingTable.Commit
import PartRack.BindingTable.Refinement
import PartRack.BindingTable.Verdict

/-! Carrying out an accepted operation once more on the table it left. What the second
call does follows from what shifting the row of parts twice does. -/

namespace PartRack
namespace TableOp
open BindingTable

/-- The records after a call whose save, if any, succeeds. -/
def apply (records : Records) (op : TableOp) : Records :=
  match op.plan records with
  | .commit next => next
  | _ => records

theorem apply_of_commit {records : Records} {op : TableOp} {next : Records}
    (h : op.plan records = .commit next) : op.apply records = next := by
  simp only [apply, h]

theorem apply_of_reject {records : Records} {op : TableOp} {err : Int}
    (h : op.plan records = .reject err) : op.apply records = records := by
  simp only [apply, h]

theorem apply_of_keep {records : Records} {op : TableOp} (h : op.plan records = .keep) :
    op.apply records = records := by
  simp only [apply, h]

theorem plan_commit_of_valid {records : Records} {op : TableOp} (h : op.Valid records)
    (hidle : ¬op.IdleMove) : ∃ next, op.plan records = .commit next := by
  cases hp : op.plan records with
  | commit next => exact ⟨next, rfl⟩
  | keep => exact absurd ((plan_keep_iff _ _).mp hp) hidle
  | reject err =>
    cases verdict records op with
    | accept _ plan => exact absurd hp (plan err)
    | full full _ => exact absurd full (not_full_of_valid h)
    | invalid valid _ _ => exact absurd h valid

theorem valid_of_plan_commit {records : Records} {op : TableOp} {next : Records}
    (h : op.plan records = .commit next) : op.Valid records := by
  cases verdict records op with
  | accept valid _ => exact valid
  | full _ plan => exact nomatch plan.symm.trans h
  | invalid _ _ plan => exact nomatch plan.symm.trans h

theorem ne_reject_of_valid {records : Records} {op : TableOp} (h : op.Valid records) (err : Int) :
    op.plan records ≠ .reject err := by
  cases verdict records op with
  | accept _ plan => exact plan err
  | full full _ => exact absurd full (not_full_of_valid h)
  | invalid valid _ _ => exact absurd h valid

theorem run_of_saved {save : Option SaveCb}
    (hsave : ∀ cb, save = some cb → ∀ next tableSeq, cb next tableSeq = 0) (model : BindingTable)
    {op : TableOp} (hok : ∀ err, op.plan model.records ≠ .reject err) :
    (op.run save model).err = 0 ∧ (op.run save model).model.records = op.apply model.records := by
  unfold run
  cases hp : op.plan model.records with
  | reject err => exact absurd hp (hok err)
  | keep => exact ⟨rfl, (apply_of_keep hp).symm⟩
  | commit next =>
    rw [apply_of_commit hp]
    rcases commitTable_cases save model next with ⟨cb, hcb, herr, -⟩ | ⟨-, heq⟩
    · exact absurd (hsave cb hcb _ _) herr
    · rw [Plan.run, heq]
      exact ⟨rfl, rfl⟩

theorem run_taken_or_refused (save : Option SaveCb) (model : BindingTable) (op : TableOp) :
    (op.run save model).err = 0 ∧ op.Valid model.records ∧
        (op.run save model).model.records = op.apply model.records ∨
      (op.run save model).err ≠ 0 ∧ (op.run save model).model = model := by
  unfold run
  cases hp : op.plan model.records with
  | reject err =>
    refine Or.inr ⟨?_, rfl⟩
    show err ≠ 0
    rcases plan_reject hp with rfl | rfl <;> decide
  | keep =>
    refine Or.inl ⟨rfl, ?_, (apply_of_keep hp).symm⟩
    obtain ⟨slot, len, rfl, hslot, hlen, hend⟩ := (plan_keep_iff _ _).mp hp
    exact ⟨hslot, hslot, hlen, hend, hend⟩
  | commit next =>
    rcases commitTable_cases save model next with ⟨cb, -, herr, heq⟩ | ⟨-, heq⟩
    · right
      rw [Plan.run, heq]
      exact ⟨herr, rfl⟩
    · left
      rw [Plan.run, heq, apply_of_commit hp]
      exact ⟨rfl, valid_of_plan_commit hp, rfl⟩

/-! ## The row after a commit -/

theorem none_mem_drop_contents_iff (records : Records) (slot : Byte) :
    none ∈ (contents records).drop (slot.toNat - 1) ↔ ¬NoRoom records slot := by
  constructor
  · intro hmem hno
    obtain ⟨j, hget⟩ := List.mem_iff_getElem?.mp hmem
    rw [List.getElem?_drop] at hget
    have hj := (List.getElem?_eq_some_iff.mp hget).1
    rw [length_contents] at hj
    rw [getElem?_contents records _ hj, Option.some.injEq, SlotRecord.content,
      if_neg (hno _ (Nat.le_add_right _ _) hj)] at hget
    exact Option.some_ne_none _ hget
  · intro hroom
    by_contra hmem
    refine hroom fun i hle hi hslot => hmem ?_
    have hcontent := getElem?_contents records i hi
    rw [SlotRecord.content, if_pos hslot, ← Nat.add_sub_cancel' hle,
      ← List.getElem?_drop] at hcontent
    exact List.mem_of_getElem? hcontent

theorem length_act {records : Records} {op : TableOp} (h : op.Valid records) :
    (op.act (contents records)).length = 25 := by
  have hlen := length_contents records
  cases op with
  | writeOne record => rw [act, List.length_set, hlen]
  | clearOne slot => rw [act, List.length_set, hlen]
  | insertAt slot record =>
    rw [act, Slots.length_insertAt _ ((none_mem_drop_contents_iff _ _).mpr h.2.2), hlen]
  | removeAt slot =>
    have hslot : ValidSlot slot := h
    rw [act, Slots.length_removeAt (by omega), hlen]
  | moveBlock fromSlot toSlot len =>
    obtain ⟨hfrom, -, -, hend, -⟩ := h
    rw [act, Slots.length_moveBlock _ (by omega), hlen]
  | setQty slot qty => rw [act, List.length_modify, hlen]
  | factoryReset magic => rw [act, List.length_replicate]

theorem contents_of_plan_commit {records : Records} (hwf : WellFormed records) {op : TableOp}
    {next : Records} (h : op.plan records = .commit next) :
    contents next = op.act (contents records) := by
  rw [plan_commit_refines hwf h, contents_ofContents (length_act (valid_of_plan_commit h))]

theorem act_of_idleMove {records : Records} {op : TableOp} (h : op.IdleMove) :
    op.act (contents records) = contents records := by
  obtain ⟨slot, len, rfl, hslot, -⟩ := h
  have hlen := length_contents records
  exact Slots.paste_cut (by omega)

theorem contents_apply {records : Records} (hwf : WellFormed records) {op : TableOp}
    (h : op.Valid records) : contents (op.apply records) = op.act (contents records) := by
  by_cases hidle : op.IdleMove
  · rw [apply_of_keep ((plan_keep_iff records op).mpr hidle), act_of_idleMove hidle]
  · obtain ⟨next, hp⟩ := plan_commit_of_valid h hidle
    rw [apply_of_commit hp, contents_of_plan_commit hwf hp]

theorem wellFormed_apply {records : Records} (hwf : WellFormed records) (op : TableOp) :
    WellFormed (op.apply records) := by
  cases hp : op.plan records with
  | reject err => rwa [apply_of_reject hp]
  | keep => rwa [apply_of_keep hp]
  | commit next =>
    rw [apply_of_commit hp]
    exact wellFormed_of_plan_commit hwf hp

theorem commit_eq_self_iff {records : Records} (hwf : WellFormed records) {op : TableOp}
    {next : Records} (h : op.plan records = .commit next) :
    next = records ↔ op.act (contents records) = contents records := by
  rw [← contents_of_plan_commit hwf h]
  constructor
  · rintro rfl
    rfl
  · exact contents_injective (wellFormed_of_plan_commit hwf h) hwf

/-! ## The second call -/

/-- What makes repeating an accepted call harmless. -/
def Repeatable (records : Records) : TableOp → Prop
  | .insertAt slot _ => (records.toList.drop (slot.toNat - 1)).countP (fun r => r.slot = 0) = 1
  | .removeAt slot => ∀ r ∈ records.toList.drop slot.toNat, r.slot = 0
  | .moveBlock fromSlot toSlot len =>
    Slots.moveBlock (fromSlot.toNat - 1) (toSlot.toNat - 1) len.toNat (contents records) =
      contents records
  | _ => True

theorem isNone_content (r : SlotRecord) : r.content.isNone = decide (r.slot = 0) := by
  unfold SlotRecord.content
  by_cases h : r.slot = 0
  · rw [if_pos h, decide_eq_true h]
    rfl
  · rw [if_neg h, decide_eq_false h]
    rfl

theorem countP_drop_contents (records : Records) (i : ℕ) :
    ((contents records).drop i).countP Option.isNone =
      (records.toList.drop i).countP fun r => r.slot = 0 := by
  rw [contents, ← List.map_drop, List.countP_map]
  refine congrArg (fun p => List.countP p (records.toList.drop i)) ?_
  funext r
  exact isNone_content r

theorem forall_drop_contents_iff (records : Records) (i : ℕ) :
    (∀ x ∈ (contents records).drop i, x = none) ↔
      ∀ r ∈ records.toList.drop i, r.slot = 0 := by
  rw [contents, ← List.map_drop, List.forall_mem_map]
  refine forall₂_congr fun r _ => ?_
  rw [← Option.isNone_iff_eq_none, isNone_content, decide_eq_true_eq]

theorem apply_eq_self_of_act {records : Records} (hwf : WellFormed records) {op : TableOp}
    (h : op.act (contents records) = contents records) : op.apply records = records := by
  -- if shifting twice is shifting once, the second call changes nothing
  cases hp : op.plan records with
  | reject err => exact apply_of_reject hp
  | keep => exact apply_of_keep hp
  | commit next =>
    rw [apply_of_commit hp]
    exact (commit_eq_self_iff hwf hp).mpr h

theorem apply_eq_self_iff {records : Records} (hwf : WellFormed records) (op : TableOp)
    (hvalid : op.Valid records) (hidle : ¬op.IdleMove) :
    op.apply records = records ↔ op.act (contents records) = contents records := by
  obtain ⟨next, hp⟩ := plan_commit_of_valid hvalid hidle
  rw [apply_of_commit hp]
  exact commit_eq_self_iff hwf hp

section Second
variable {records next : Records} (hwf : WellFormed records)
include hwf

theorem insertAt_apply_eq_iff {slot : Byte} {record : SlotRecord}
    (h : (TableOp.insertAt slot record).plan records = .commit next) :
    (TableOp.insertAt slot record).apply next = next ↔
      (TableOp.insertAt slot record).Repeatable records := by
  have hnext := contents_of_plan_commit hwf h
  have hvalid : (TableOp.insertAt slot record).Valid records := valid_of_plan_commit h
  have hroom := (none_mem_drop_contents_iff records slot).mpr hvalid.2.2
  have hcount := Slots.countP_drop_insertAt record.part hroom
  rw [Repeatable, ← countP_drop_contents, ← hcount]
  change contents next = Slots.insertAt (slot.toNat - 1) record.part (contents records) at hnext
  rw [← hnext]
  -- without a hole the second insertion is refused, with one it shifts the row again
  by_cases hno : NoRoom next slot
  · have hmem : none ∉ (contents next).drop (slot.toNat - 1) :=
      fun hmem => (none_mem_drop_contents_iff next slot).mp hmem hno
    have hzero : ((contents next).drop (slot.toNat - 1)).countP Option.isNone = 0 := by
      rw [List.countP_eq_zero]
      intro x hx hnone
      exact hmem (Option.isNone_iff_eq_none.mp hnone ▸ hx)
    refine iff_of_true ?_ (by rw [hzero])
    cases verdict next (TableOp.insertAt slot record) with
    | accept valid _ => exact absurd hno valid.2.2
    | full _ plan => exact apply_of_reject plan
    | invalid _ _ plan => exact apply_of_reject plan
  · have hmem := (none_mem_drop_contents_iff next slot).mpr hno
    have hpos : 0 < ((contents next).drop (slot.toNat - 1)).countP Option.isNone :=
      List.countP_pos_iff.mpr ⟨none, hmem, rfl⟩
    refine iff_of_false ?_ (by omega)
    rw [apply_eq_self_iff (wellFormed_of_plan_commit hwf h) (.insertAt slot record)
      ⟨hvalid.1, hvalid.2.1, hno⟩ (fun ⟨_, _, hop, _⟩ => nomatch hop)]
    show Slots.insertAt (slot.toNat - 1) record.part (contents next) ≠ contents next
    rw [hnext]
    rw [hnext] at hmem
    exact Slots.insertAt_insertAt_ne record.part hmem

theorem removeAt_apply_eq_iff {slot : Byte}
    (h : (TableOp.removeAt slot).plan records = .commit next) :
    (TableOp.removeAt slot).apply next = next ↔ (TableOp.removeAt slot).Repeatable records := by
  have hnext := contents_of_plan_commit hwf h
  have hslot : ValidSlot slot := valid_of_plan_commit h
  have hlen := length_contents records
  rw [apply_eq_self_iff (wellFormed_of_plan_commit hwf h) (.removeAt slot) hslot
    (fun ⟨_, _, hop, _⟩ => nomatch hop), hnext, Repeatable, ← forall_drop_contents_iff]
  show Slots.removeAt _ (Slots.removeAt _ _) = Slots.removeAt _ _ ↔ _
  rw [Slots.removeAt_removeAt_eq_iff (by omega), Nat.sub_add_cancel hslot.1]

theorem moveBlock_apply_eq_iff {fromSlot toSlot len : Byte}
    (h : (TableOp.moveBlock fromSlot toSlot len).plan records = .commit next) :
    (TableOp.moveBlock fromSlot toSlot len).apply next = next ↔
      (TableOp.moveBlock fromSlot toSlot len).Repeatable records := by
  have hnext := contents_of_plan_commit hwf h
  have hvalid : (TableOp.moveBlock fromSlot toSlot len).Valid records := valid_of_plan_commit h
  have hidle : ¬(TableOp.moveBlock fromSlot toSlot len).IdleMove := by
    intro hidle
    rw [(plan_keep_iff records _).mpr hidle] at h
    exact nomatch h
  have hlen := length_contents records
  rw [apply_eq_self_iff (wellFormed_of_plan_commit hwf h) (.moveBlock fromSlot toSlot len)
    hvalid hidle, hnext]
  obtain ⟨hfrom, hto, -, hfromEnd, htoEnd⟩ := hvalid
  exact Slots.moveBlock_moveBlock_eq_iff (by omega) (by omega)

theorem apply_apply_eq_iff (op : TableOp) (hvalid : op.Valid records) :
    op.apply (op.apply records) = op.apply records ↔ op.Repeatable records := by
  by_cases hidle : op.IdleMove
  · -- no commit either time, and the shift that it stands for moves nothing
    have hkeep := (plan_keep_iff records op).mpr hidle
    have hact : op.act (contents records) = contents records := act_of_idleMove hidle
    rw [apply_of_keep hkeep, apply_of_keep hkeep]
    obtain ⟨slot, len, rfl, -⟩ := hidle
    exact iff_of_true rfl hact
  · obtain ⟨next, hp⟩ := plan_commit_of_valid hvalid hidle
    have hnext := contents_of_plan_commit hwf hp
    have hwfNext := wellFormed_of_plan_commit hwf hp
    rw [apply_of_commit hp]
    cases op with
    | insertAt slot record => exact insertAt_apply_eq_iff hwf hp
    | removeAt slot => exact removeAt_apply_eq_iff hwf hp
    | moveBlock fromSlot toSlot len => exact moveBlock_apply_eq_iff hwf hp
    | writeOne record =>
      refine iff_of_true (apply_eq_self_of_act hwfNext ?_) trivial
      rw [hnext, act, act, List.set_set]
    | clearOne slot =>
      refine iff_of_true (apply_eq_self_of_act hwfNext ?_) trivial
      rw [hnext, act, act, List.set_set]
    | setQty slot qty =>
      refine iff_of_true (apply_eq_self_of_act hwfNext ?_) trivial
      rw [hnext, act, act, List.modify_modify_eq, Option.map_comp_map]
      rfl
    | factoryReset magic =>
      refine iff_of_true (apply_eq_self_of_act hwfNext ?_) trivial
      rw [hnext]
      rfl

end Second

end TableOp
end PartRack
