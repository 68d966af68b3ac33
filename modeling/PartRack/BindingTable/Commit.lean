import Mathlib.Tactic.Basic
import PartRack.BindingTable.Model

/-! What one call can do to the table: it is refused, it commits a whole proposed table
after saving exactly that table, or it is a move of a block onto itself. -/

namespace PartRack
namespace BindingTable

theorem nextSeq_eq (s : BitVec 32) :
    nextSeq s = if s = 0xFFFFFFFF then 1 else s + 1 := by
  have h : s + 1 = 0 ↔ s = 0xFFFFFFFF := by
    constructor
    · intro h
      bv_omega
    · rintro rfl
      rfl
  simp only [nextSeq, h]

theorem nextSeq_ne_zero (s : BitVec 32) : nextSeq s ≠ 0 := by
  unfold nextSeq
  split_ifs with h
  · decide
  · exact h

theorem nextSeq_ne_self (s : BitVec 32) : nextSeq s ≠ s := by
  rw [nextSeq_eq]
  split_ifs with h
  · rw [h]
    decide
  · intro hs
    bv_omega

theorem commitTable_cases (save : Option SaveCb) (model : BindingTable) (next : Records) :
    (∃ cb, save = some cb ∧ cb next (nextSeq model.tableSeq) ≠ 0 ∧
      commitTable save model next =
        ⟨cb next (nextSeq model.tableSeq), model,
          [.save next (nextSeq model.tableSeq) (cb next (nextSeq model.tableSeq))]⟩) ∨
    ((∀ cb, save = some cb → cb next (nextSeq model.tableSeq) = 0) ∧
      commitTable save model next =
        ⟨0, ⟨next, nextSeq model.tableSeq⟩,
          (if save.isSome then [.save next (nextSeq model.tableSeq) 0] else []) ++
            [.store next (nextSeq model.tableSeq)]⟩) := by
  cases save with
  | none => exact Or.inr ⟨by simp, rfl⟩
  | some cb =>
    by_cases h : cb next (nextSeq model.tableSeq) = 0
    · refine Or.inr ⟨?_, ?_⟩
      · intro cb' hcb
        rw [← Option.some.inj hcb]
        exact h
      · simp [commitTable, h]
    · refine Or.inl ⟨cb, rfl, h, ?_⟩
      simp [commitTable, h]

end BindingTable

namespace TableOp
open BindingTable

/-- A move that is in range and stays where it is. -/
def IdleMove (op : TableOp) : Prop :=
  ∃ slot len : Byte, op = .moveBlock slot slot len ∧ ValidSlot slot ∧ len ≠ 0 ∧
    slot.toNat + len.toNat - 1 ≤ 25

theorem not_idleMove {op : TableOp} (h : ∀ slot len, op ≠ .moveBlock slot slot len) :
    ¬op.IdleMove :=
  fun ⟨slot, len, hop, _⟩ => h slot len hop

theorem plan_reject {records : Records} {op : TableOp} {err : Int}
    (h : op.plan records = .reject err) : err = -Errno.EINVAL ∨ err = -Errno.ENOSPC := by
  cases op with
  | insertAt slot record =>
    simp only [plan, BindingTable.insertAt] at h
    split_ifs at h
    · split at h
      · exact Or.inr (Plan.reject.inj h).symm
      · exact nomatch h
    · exact Or.inl (Plan.reject.inj h).symm
  | _ =>
    simp only [plan, BindingTable.writeOne, BindingTable.clearOne, BindingTable.removeAt,
      BindingTable.moveBlock, BindingTable.setQty, BindingTable.factoryReset] at h
    split_ifs at h
    all_goals exact Or.inl (Plan.reject.inj h).symm

theorem plan_keep_iff (records : Records) (op : TableOp) :
    op.plan records = .keep ↔ op.IdleMove := by
  constructor
  · intro h
    cases op with
    | moveBlock fromSlot toSlot len =>
      simp only [plan, BindingTable.moveBlock] at h
      split_ifs at h with hv hs
      subst hs
      exact ⟨fromSlot, len, rfl, hv.1, hv.2.2.1, hv.2.2.2.1⟩
    | insertAt slot record =>
      simp only [plan, BindingTable.insertAt] at h
      split_ifs at h
      split at h <;> exact nomatch h
    | _ =>
      simp only [plan, BindingTable.writeOne, BindingTable.clearOne, BindingTable.removeAt,
        BindingTable.setQty, BindingTable.factoryReset] at h
      split_ifs at h
  · rintro ⟨slot, len, rfl, hslot, hlen, hend⟩
    simp only [plan, BindingTable.moveBlock, if_true]
    exact if_pos ⟨hslot, hslot, hlen, hend, hend⟩

/-- A refused call: no effect but at most one save, whose result is the one returned. -/
structure Refused (save : Option SaveCb) (model : BindingTable) (o : Outcome) : Prop where
  err_ne : o.err ≠ 0
  model_eq : o.model = model
  effects : o.effects = [] ∧ (o.err = -Errno.EINVAL ∨ o.err = -Errno.ENOSPC) ∨
    ∃ cb records tableSeq, save = some cb ∧ cb records tableSeq = o.err ∧
      o.effects = [.save records tableSeq o.err]

/-- A commit: the table held afterwards is the one that was saved just before. -/
structure Committed (save : Option SaveCb) (model : BindingTable) (o : Outcome) : Prop where
  err_eq : o.err = 0
  seq_eq : o.model.tableSeq = if model.tableSeq = 0xFFFFFFFF then 1 else model.tableSeq + 1
  save_eq : ∀ cb, save = some cb → cb o.model.records o.model.tableSeq = 0
  effects : o.effects =
    (if save.isSome then [.save o.model.records o.model.tableSeq 0] else []) ++
      [.store o.model.records o.model.tableSeq]

/-- A move of a block onto itself: success, and nothing else. -/
structure Skipped (op : TableOp) (model : BindingTable) (o : Outcome) : Prop where
  idle : op.IdleMove
  outcome_eq : o = ⟨0, model, []⟩

theorem commitTable_refused_or_committed (save : Option SaveCb) (model : BindingTable)
    (next : Records) :
    Refused save model (commitTable save model next) ∨
      Committed save model (commitTable save model next) := by
  rcases commitTable_cases save model next with ⟨cb, hcb, herr, heq⟩ | ⟨hok, heq⟩
  · left
    rw [heq]
    exact ⟨herr, rfl, Or.inr ⟨cb, next, _, hcb, rfl, rfl⟩⟩
  · right
    rw [heq]
    exact ⟨rfl, nextSeq_eq _, hok, rfl⟩

theorem run_refused_or_committed_or_skipped (save : Option SaveCb) (model : BindingTable)
    (op : TableOp) :
    Refused save model (op.run save model) ∨ Committed save model (op.run save model) ∨
      Skipped op model (op.run save model) := by
  unfold run
  cases hp : op.plan model.records with
  | reject err =>
    have herr := plan_reject hp
    refine Or.inl ⟨?_, rfl, Or.inl ⟨rfl, herr⟩⟩
    show err ≠ 0
    rcases herr with rfl | rfl <;> decide
  | keep => exact Or.inr (Or.inr ⟨(plan_keep_iff _ _).mp hp, rfl⟩)
  | commit next =>
    rcases commitTable_refused_or_committed save model next with h | h
    · exact Or.inl h
    · exact Or.inr (Or.inl h)

/-- Commit discipline: every call is exactly one of refused, committed and skipped. -/
theorem run_commit_discipline (save : Option SaveCb) (model : BindingTable) (op : TableOp) :
    (Refused save model (op.run save model) ∨ Committed save model (op.run save model) ∨
      Skipped op model (op.run save model)) ∧
    ¬(Refused save model (op.run save model) ∧ Committed save model (op.run save model)) ∧
    ¬(Refused save model (op.run save model) ∧ Skipped op model (op.run save model)) ∧
    ¬(Committed save model (op.run save model) ∧ Skipped op model (op.run save model)) := by
  refine ⟨run_refused_or_committed_or_skipped save model op, ?_, ?_, ?_⟩
  · rintro ⟨hr, hc⟩
    exact hr.err_ne hc.err_eq
  · rintro ⟨hr, hs⟩
    exact hr.err_ne (congrArg Outcome.err hs.outcome_eq)
  · rintro ⟨hc, hs⟩
    have heffects := hc.effects
    rw [hs.outcome_eq] at heffects
    exact absurd heffects (by simp)

end TableOp
end PartRack
