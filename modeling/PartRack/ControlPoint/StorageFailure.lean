import PartRack.ControlPoint.Status

/-! A request that only the settings store turns down. Its reply blames the request
unless the store says that it is busy, or reports a checksum. -/

namespace PartRack

theorem statusFromErrno_eq_ok_iff (err : Int) : statusFromErrno err = .ok ↔ err = 0 := by
  unfold statusFromErrno
  split_ifs <;> simp_all

theorem statusFromErrno_not_request_iff {err : Int} (herr : err ≠ 0) :
    statusFromErrno err ≠ .errParam ∧ statusFromErrno err ≠ .errFull ↔
      err = -Errno.EBUSY ∨ err = -Errno.EILSEQ := by
  unfold statusFromErrno
  rw [if_neg herr]
  split_ifs with hfull hbusy hcrc
  · rw [hfull]
    decide
  · simp [hbusy]
  · simp [hcrc]
  · simp [hbusy, hcrc]

namespace ControlPoint
open BindingTable

/-- The settings store fails with `err`: one reply that does not blame the request, no
Table Info, and the table as before. -/
structure FailureReported (err : Int) (frame : List Byte) (table : BindingTable) : Prop where
  reply : ∃ s, replies (handle (some fun _ _ => err) frame ⟨table, []⟩).log = [s] ∧
    s ≠ .errParam ∧ s ≠ .errFull
  quiet : tableInfos (handle (some fun _ _ => err) frame ⟨table, []⟩).log = []
  table_eq : (handle (some fun _ _ => err) frame ⟨table, []⟩).table = table

theorem code_ne_of_mutate {code : Byte} {args : List Byte} {op : TableOp}
    (h : Request.ofFrame code args = .mutate op) : code ≠ BindingOp.readAll.code := by
  rintro rfl
  rw [Request.ofFrame, BindingOp.ofCode?_code] at h
  cases args with
  | nil => exact Request.noConfusion h
  | cons a args => exact Request.noConfusion h

theorem status_mutate (save : Option SaveCb) (table : BindingTable) (op : TableOp) :
    status save table (.mutate op) = statusFromErrno (op.run save table).err := rfl

theorem run_of_failed_save {err : Int} (herr : err ≠ 0) {table : BindingTable} {op : TableOp}
    {next : Records} (h : op.plan table.records = .commit next) :
    op.run (some fun _ _ => err) table =
      ⟨err, table, [.save next (nextSeq table.tableSeq) err]⟩ := by
  rw [TableOp.run, h, Plan.run, commitTable]
  simp only [herr, ne_eq, not_false_eq_true, if_true]

theorem failureReported_of_commit {err : Int} (herr : err ≠ 0) {table : BindingTable}
    {code : Byte} {args : List Byte} {op : TableOp}
    (hframe : Request.ofFrame code args = .mutate op) {next : Records}
    (h : op.plan table.records = .commit next) :
    FailureReported err (code :: args) table ↔ err = -Errno.EBUSY ∨ err = -Errno.EILSEQ := by
  -- a change turned down by the store: the store's own error decides the reply
  have hrun := run_of_failed_save herr h
  have hreply := replies_handle (some fun _ _ => err) table args (code_ne_of_mutate hframe)
  rw [hframe, status_mutate, hrun] at hreply
  rw [← statusFromErrno_not_request_iff herr]
  constructor
  · rintro ⟨⟨s, hs, hblame⟩, -, -⟩
    rw [hreply] at hs
    rwa [(List.cons.inj hs).1]
  · intro hblame
    refine ⟨⟨_, hreply, hblame⟩, ?_, ?_⟩
    · rw [handle_mutate _ hframe, hrun, List.nil_append, tableInfos_append,
        tableInfos_map_table, mutateReplies_of_err_ne code herr]
      rfl
    · rw [handle_mutate _ hframe, hrun]

theorem not_failureReported_of_idleMove (err : Int) (table : BindingTable) {code : Byte}
    {args : List Byte} {op : TableOp} (hframe : Request.ofFrame code args = .mutate op)
    (h : op.IdleMove) : ¬FailureReported err (code :: args) table := by
  rintro ⟨-, hquiet, -⟩
  rw [handle_mutate _ hframe, run_of_idleMove h] at hquiet
  exact absurd hquiet (List.cons_ne_nil _ _)

theorem plan_ne_reject_of_ok {table : BindingTable} {code : Byte} {args : List Byte}
    {op : TableOp} (hframe : Request.ofFrame code args = .mutate op)
    (hok : replies (handle (some fun _ _ => 0) (code :: args) ⟨table, []⟩).log = [.ok])
    (err : Int) : op.plan table.records ≠ .reject err := by
  intro hplan
  rw [replies_handle _ _ args (code_ne_of_mutate hframe), hframe, status_mutate,
    err_of_reject hplan] at hok
  have herr := (statusFromErrno_eq_ok_iff err).mp (List.cons.inj hok).1
  rcases TableOp.plan_reject hplan with h | h
  · exact absurd (herr.symm.trans h) (by decide)
  · exact absurd (herr.symm.trans h) (by decide)

/-- For a frame that would be answered OK, the failure of the store is reported as such
exactly when the store is busy or names a checksum, and there is something to store. -/
theorem failureReported_iff (table : BindingTable) {code : Byte} {args : List Byte}
    {op : TableOp} (hframe : Request.ofFrame code args = .mutate op)
    (hok : replies (handle (some fun _ _ => 0) (code :: args) ⟨table, []⟩).log = [.ok])
    {err : Int} (herr : err ≠ 0) :
    FailureReported err (code :: args) table ↔
      (err = -Errno.EBUSY ∨ err = -Errno.EILSEQ) ∧ ¬IdleMoveFrame (code :: args) := by
  have hidle : IdleMoveFrame (code :: args) ↔ op.IdleMove := by
    rw [idleMoveFrame_iff, hframe]
    simp
  rw [hidle, ← TableOp.plan_keep_iff table.records]
  -- the plan does not depend on the save, so `hok` rules out a refusal
  cases hplan : op.plan table.records with
  | reject e => exact absurd hplan (plan_ne_reject_of_ok hframe hok e)
  | keep =>
    have hkeep := not_failureReported_of_idleMove err table hframe
      ((TableOp.plan_keep_iff _ _).mp hplan)
    simp [hkeep]
  | commit next =>
    rw [failureReported_of_commit herr hframe hplan]
    simp

theorem failureReported_clearOne :
    FailureReported (-Errno.EBUSY) [0x11, 0x01] BindingTable.init := by
  have hframe : Request.ofFrame 0x11 [0x01] = .mutate (.clearOne 0x01) := rfl
  have hok : replies (handle (some fun _ _ => 0) [0x11, 0x01] ⟨BindingTable.init, []⟩).log =
      [.ok] := rfl
  refine (failureReported_iff BindingTable.init hframe hok (by decide)).mpr ⟨Or.inl rfl, ?_⟩
  rintro ⟨slot, len, hidle, -⟩
  exact nomatch hidle

/-- CLEAR_ONE 1 is accepted by the table, and with no space left in the store it is
answered as if the slots were full. -/
theorem not_failureReported_noSpace :
    replies (handle (some fun _ _ => 0) [0x11, 0x01] ⟨BindingTable.init, []⟩).log = [.ok] ∧
      ¬FailureReported (-Errno.ENOSPC) [0x11, 0x01] BindingTable.init := by
  refine ⟨rfl, ?_⟩
  have hframe : Request.ofFrame 0x11 [0x01] = .mutate (.clearOne 0x01) := rfl
  have hplan : (TableOp.clearOne 0x01).plan BindingTable.init.records =
      .commit (emptyRecords.set 0 SlotRecord.zero) := rfl
  rw [failureReported_of_commit (by decide) hframe hplan]
  decide

end ControlPoint
end PartRack
