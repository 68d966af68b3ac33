import PartRack.BindingTable.Commit
import PartRack.BindingTable.Refinement

/-! Whole runs of the binding table: initialisations, operations with any outcome of the
save, and loads of any table that the run has handed to the save callback before. -/

namespace PartRack

abbrev SavedTable := Records × BitVec 32

/-- The tables that a call handed to the save callback. -/
def savedTables (effects : List Effect) : List SavedTable :=
  effects.filterMap fun
    | .save records tableSeq _ => some (records, tableSeq)
    | .store _ _ => none

structure History where
  table : BindingTable
  saved : List SavedTable
deriving DecidableEq, Repr

inductive HistoryEvent
  | init
  | call (save : Option SaveCb) (op : TableOp)
  | load (index : ℕ)

namespace History
open BindingTable

def step (s : History) : HistoryEvent → History
  | .init => ⟨BindingTable.init, s.saved⟩
  | .call save op =>
    let outcome := op.run save s.table
    ⟨outcome.model, s.saved ++ savedTables outcome.effects⟩
  | .load index =>
    match s.saved[index]? with
    | none => s
    | some (records, tableSeq) => ⟨BindingTable.load records tableSeq, s.saved⟩

def run (events : List HistoryEvent) : History :=
  events.foldl step ⟨BindingTable.init, []⟩

/-- The table is well formed, and so is every table that a load may bring back. -/
structure Invariant (s : History) : Prop where
  table : WellFormed s.table.records
  saved : ∀ p ∈ s.saved, WellFormed p.1

theorem wellFormed_call {model : BindingTable} (hwf : WellFormed model.records)
    (save : Option SaveCb) (op : TableOp) :
    WellFormed (op.run save model).model.records ∧
      ∀ p ∈ savedTables (op.run save model).effects, WellFormed p.1 := by
  unfold TableOp.run
  cases hp : op.plan model.records with
  | reject err => exact ⟨hwf, by simp [Plan.run, savedTables]⟩
  | keep => exact ⟨hwf, by simp [Plan.run, savedTables]⟩
  | commit next =>
    have hnext := TableOp.wellFormed_of_plan_commit hwf hp
    rw [Plan.run]
    rcases commitTable_cases save model next with ⟨cb, -, -, heq⟩ | ⟨-, heq⟩
    · rw [heq]
      exact ⟨hwf, by simpa [savedTables] using hnext⟩
    · rw [heq]
      refine ⟨hnext, ?_⟩
      intro p hmem
      have hp : p.1 = next := by
        cases save <;> simp_all [savedTables]
      rw [hp]
      exact hnext

theorem step_invariant {s : History} (hs : s.Invariant) (e : HistoryEvent) :
    (s.step e).Invariant := by
  obtain ⟨htable, hsaved⟩ := hs
  cases e with
  | init => exact ⟨wellFormed_emptyRecords, hsaved⟩
  | call save op =>
    obtain ⟨hcall, hcallSaved⟩ := wellFormed_call htable save op
    refine ⟨hcall, ?_⟩
    intro p hp
    rcases List.mem_append.mp hp with hp | hp
    · exact hsaved p hp
    · exact hcallSaved p hp
  | load index =>
    cases hget : s.saved[index]? with
    | none =>
      have hstep : s.step (.load index) = s := by simp only [step, hget]
      rw [hstep]
      exact ⟨htable, hsaved⟩
    | some p =>
      have hstep : s.step (.load index) = ⟨BindingTable.load p.1 p.2, s.saved⟩ := by
        simp only [step, hget]
      rw [hstep]
      exact ⟨hsaved p (List.mem_of_getElem? hget), hsaved⟩

theorem run_invariant (events : List HistoryEvent) : (run events).Invariant := by
  have hinit : (⟨BindingTable.init, []⟩ : History).Invariant :=
    ⟨wellFormed_emptyRecords, by simp⟩
  exact List.foldlRecOn events step hinit fun s hs e _ => step_invariant hs e

/-- In every reachable table each slot holds 16 zero bytes or a record under its own
number, with reserved byte 0 and the right checksum. -/
theorem run_slot_wellFormed (events : List HistoryEvent) (i : Fin 25) :
    let r := (run events).table.records[i]
    r.toBytes = List.replicate 16 0 ∨
      r.slot = BitVec.ofNat 8 (i + 1) ∧ r.reserved = 0 ∧
        r.crc8 = crc8Maxim (r.toBytes.take 15) := by
  intro r
  have hr : r.WellFormedAt (BitVec.ofNat 8 (i + 1)) := (run_invariant events).table i i.isLt
  rcases hr with hzero | ⟨hs, hres, hcrc⟩
  · left
    rw [hzero]
    decide
  · refine Or.inr ⟨hs, hres, ?_⟩
    rw [hcrc, SlotRecord.toBytes, List.take_append_of_le_length (by simp),
      List.take_of_length_le (by simp)]

end History
end PartRack
