import PartRack.BindingTable.Repeat
import PartRack.BindingTable.VersionStamp
import PartRack.Lib.Stock

/-! The parts in the table, whatever their places. No operation loses or makes up a part: what
there is after a run is what there was, and what has come in, less what has gone out. And the
moves of blocks alone lead to every order of the slots. -/

namespace PartRack
open BindingTable Slots

/-! ## What comes in and goes out -/

namespace TableOp
variable (row : List (Option Part))

/-- What an accepted operation brings into a row. -/
def incoming : TableOp → Multiset Part
  | .writeOne record => {record.part}
  | .insertAt _ record => {record.part}
  | .setQty slot qty => (stockAt row (slot.toNat - 1)).map fun p => { p with qtyLe := qty }
  | .clearOne _ | .removeAt _ | .moveBlock _ _ _ | .factoryReset _ => 0

/-- What an accepted operation takes out of a row. -/
def outgoing : TableOp → Multiset Part
  | .writeOne record => stockAt row (record.slot.toNat - 1)
  | .clearOne slot | .removeAt slot | .setQty slot _ => stockAt row (slot.toNat - 1)
  | .insertAt _ _ | .moveBlock _ _ _ => 0
  | .factoryReset _ => stock row

theorem stock_act {records : Records} {op : TableOp} (h : op.Valid records) :
    stock (op.act (contents records)) + op.outgoing (contents records) =
      stock (contents records) + op.incoming (contents records) := by
  have hlen := length_contents records
  have hlt : ∀ {slot : Byte}, ValidSlot slot → slot.toNat - 1 < (contents records).length := by
    intro slot hslot
    omega
  cases op with
  | writeOne record => exact stock_set (hlt h.1) (some record.part)
  | clearOne slot => exact stock_set (hlt h) none
  | insertAt slot record =>
    rw [act, outgoing, incoming, add_zero, stock_insertAt]
  | removeAt slot =>
    rw [act, outgoing, incoming, add_zero, stock_removeAt (hlt h)]
  | moveBlock fromSlot toSlot len =>
    rw [act, outgoing, incoming, stock_moveBlock]
  | setQty slot qty => exact stock_modify (hlt h.1) _
  | factoryReset magic =>
    have hempty : stock (List.replicate 25 (none : Option Part)) = 0 :=
      congrArg _ List.reduceOption_replicate_none
    rw [act, outgoing, incoming, hempty, zero_add, add_zero]

theorem wellFormed_run {model : BindingTable} (hwf : WellFormed model.records)
    (save : Option SaveCb) (op : TableOp) : WellFormed (op.run save model).model.records := by
  rcases op.run_taken_or_refused save model with ⟨-, -, hrecords⟩ | ⟨-, hmodel⟩
  · rw [hrecords]
    exact wellFormed_apply hwf op
  · rwa [hmodel]

theorem stock_run {model : BindingTable} (hwf : WellFormed model.records) (save : Option SaveCb)
    (op : TableOp) :
    stock (contents (op.run save model).model.records) +
        (if (op.run save model).err = 0 then op.outgoing (contents model.records) else 0) =
      stock (contents model.records) +
        (if (op.run save model).err = 0 then op.incoming (contents model.records) else 0) := by
  rcases op.run_taken_or_refused save model with ⟨herr, hvalid, hrecords⟩ | ⟨herr, hmodel⟩
  · rw [if_pos herr, if_pos herr, hrecords, contents_apply hwf hvalid]
    exact stock_act hvalid
  · rw [if_neg herr, if_neg herr, hmodel]

end TableOp

namespace TableRun

def incoming : BindingTable → List TableCall → Multiset Part
  | _, [] => 0
  | model, c :: calls =>
    let o := c.2.run c.1 model
    (if o.err = 0 then c.2.incoming (contents model.records) else 0) + incoming o.model calls

def outgoing : BindingTable → List TableCall → Multiset Part
  | _, [] => 0
  | model, c :: calls =>
    let o := c.2.run c.1 model
    (if o.err = 0 then c.2.outgoing (contents model.records) else 0) + outgoing o.model calls

/-- Nothing is lost or made up: over any run, with any results of the saves, the parts there are
and those that have gone out are the parts there were and those that have come in. -/
theorem run_conserves {model : BindingTable} (hwf : WellFormed model.records)
    (calls : List TableCall) :
    stock (contents (run model calls).records) + outgoing model calls =
      stock (contents model.records) + incoming model calls := by
  induction calls generalizing model with
  | nil => rfl
  | cons c calls ih =>
    have hstep := TableOp.stock_run hwf c.1 c.2
    have hrest := ih (TableOp.wellFormed_run hwf c.1 c.2)
    have hrun : run model (c :: calls) = run (c.2.run c.1 model).model calls := rfl
    rw [hrun, outgoing, incoming, add_left_comm, hrest, ← add_assoc, ← add_assoc, ← hstep]
    abel

theorem run_conserves_moved : ∃ calls : List TableCall,
    calls.length = 3 ∧ stock (contents (run BindingTable.init calls).records) +
      outgoing BindingTable.init calls = stock (contents emptyRecords) +
        incoming BindingTable.init calls :=
  ⟨[(none, .insertAt 1 SlotRecord.zero), (none, .setQty 1 7), (none, .moveBlock 1 3 1)], rfl,
    run_conserves wellFormed_emptyRecords _⟩

/-! ## Every order -/

/-- A move of one place. -/
def moveOne (m : ℕ × ℕ) : TableOp :=
  .moveBlock (BitVec.ofNat 8 (m.1 + 1)) (BitVec.ofNat 8 (m.2 + 1)) 1

theorem valid_moveOne (records : Records) {m : ℕ × ℕ} (hm : m.1 < 25 ∧ m.2 < 25) :
    (moveOne m).Valid records := by
  have hfrom : (BitVec.ofNat 8 (m.1 + 1)).toNat = m.1 + 1 := by
    rw [BitVec.toNat_ofNat]
    omega
  have hto : (BitVec.ofNat 8 (m.2 + 1)).toNat = m.2 + 1 := by
    rw [BitVec.toNat_ofNat]
    omega
  have hlen : (1 : Byte).toNat = 1 := rfl
  refine ⟨?_, ?_, by decide, ?_, ?_⟩
  all_goals omega

theorem act_moveOne {m : ℕ × ℕ} (hm : m.1 < 25 ∧ m.2 < 25) (row : List (Option Part)) :
    (moveOne m).act row = Slots.moveBlock m.1 m.2 1 row := by
  have hfrom : (BitVec.ofNat 8 (m.1 + 1)).toNat - 1 = m.1 := by
    rw [BitVec.toNat_ofNat]
    omega
  have hto : (BitVec.ofNat 8 (m.2 + 1)).toNat - 1 = m.2 := by
    rw [BitVec.toNat_ofNat]
    omega
  rw [moveOne, TableOp.act, hfrom, hto]
  rfl

theorem not_idleMove_moveOne {m : ℕ × ℕ} (hm : m.1 < 25 ∧ m.2 < 25) (hne : m.1 ≠ m.2) :
    ¬(moveOne m).IdleMove := by
  refine TableOp.not_idleMove fun slot len heq => hne ?_
  obtain ⟨hfrom, hto, -⟩ := TableOp.moveBlock.inj heq
  have hnat := congrArg BitVec.toNat (hfrom.trans hto.symm)
  rw [BitVec.toNat_ofNat, BitVec.toNat_ofNat] at hnat
  omega

section Moves
variable {save : Option SaveCb}
  (hsave : ∀ cb, save = some cb → ∀ next tableSeq, cb next tableSeq = 0)
include hsave

theorem stored_of_valid {model : BindingTable} {op : TableOp} (h : op.Valid model.records)
    (hidle : ¬op.IdleMove) : (op.run save model).effects.countP Effect.isStore = 1 := by
  rcases TableOp.run_refused_or_committed_or_skipped save model op with hr | hc | hs
  · exact absurd (TableOp.run_of_saved hsave model (TableOp.ne_reject_of_valid h)).1 hr.err_ne
  · rw [hc.effects]
    cases save <;> rfl
  · exact absurd hs.idle hidle

theorem run_moves {model : BindingTable} (hwf : WellFormed model.records) {moves : List (ℕ × ℕ)}
    (hmoves : ∀ m ∈ moves, m.2 < m.1 ∧ m.1 < 25) :
    (run model (moves.map fun m => (save, moveOne m))).records =
        ofContents (moveAll moves (contents model.records)) ∧
      commits model (moves.map fun m => (save, moveOne m)) = moves.length := by
  induction moves generalizing model with
  | nil => exact ⟨(ofContents_contents hwf).symm, rfl⟩
  | cons m moves ih =>
    obtain ⟨⟨hlt, hbound⟩, hrest⟩ := List.forall_mem_cons.mp hmoves
    have hm : m.1 < 25 ∧ m.2 < 25 := ⟨hbound, hlt.trans hbound⟩
    have hvalid := valid_moveOne model.records hm
    obtain ⟨-, hrecords⟩ := TableOp.run_of_saved hsave model (TableOp.ne_reject_of_valid hvalid)
    obtain ⟨hrun, hcommits⟩ := ih (TableOp.wellFormed_run hwf save (moveOne m)) hrest
    have hstored := stored_of_valid hsave hvalid (not_idleMove_moveOne hm (Nat.ne_of_gt hlt))
    rw [hrecords, TableOp.contents_apply hwf hvalid, act_moveOne hm] at hrun
    refine ⟨hrun, ?_⟩
    rw [List.map_cons, commits, hstored, hcommits, List.length_cons, Nat.add_comm]

end Moves

/-- Every order of the slots, holes included, is reached by at most 24 moves of one slot each,
all of which are accepted and stored. -/
theorem exists_moves {model : BindingTable} (hwf : WellFormed model.records)
    {row : List (Option Part)} (h : row.Perm (contents model.records)) (save : Option SaveCb)
    (hsave : ∀ cb, save = some cb → ∀ next tableSeq, cb next tableSeq = 0) :
    ∃ calls : List TableCall, calls.length ≤ 24 ∧
      (∀ c ∈ calls, ∃ fromSlot toSlot, c = (save, .moveBlock fromSlot toSlot 1)) ∧
      (run model calls).records = ofContents row ∧ commits model calls = calls.length := by
  obtain ⟨moves, hcount, hmoves, heq⟩ := exists_moveAll [] h.symm
  rw [h.length_eq, length_contents] at hcount
  rw [List.nil_append, length_contents] at hmoves
  obtain ⟨hrun, hcommits⟩ := run_moves hsave hwf hmoves
  refine ⟨moves.map fun m => (save, moveOne m), ?_, ?_, ?_, ?_⟩
  · rwa [List.length_map]
  · intro c hc
    obtain ⟨m, -, rfl⟩ := List.mem_map.mp hc
    exact ⟨_, _, rfl⟩
  · rw [hrun]
    exact congrArg ofContents heq
  · rw [hcommits, List.length_map]

theorem exists_moves_reverse : ∃ calls : List TableCall, calls.length ≤ 24 ∧
    (run ⟨ofContents [none, some SlotRecord.zero.part], 1⟩ calls).records =
      ofContents (contents (ofContents [none, some SlotRecord.zero.part])).reverse := by
  let model : BindingTable := ⟨ofContents [none, some SlotRecord.zero.part], 1⟩
  have hwf : WellFormed model.records := wellFormed_ofContents _
  have hreverse := List.reverse_perm (contents model.records)
  obtain ⟨calls, hcount, -, hrun, -⟩ := exists_moves hwf hreverse none fun cb h =>
    absurd h.symm (Option.some_ne_none cb)
  exact ⟨calls, hcount, hrun⟩

end TableRun
end PartRack
