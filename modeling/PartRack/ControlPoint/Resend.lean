import PartRack.BindingTable.Repeat
import PartRack.ControlPoint.StorageFailure

/-! Sending an accepted frame again, as an app does that has lost the connection before
the reply. There is no token by which the table could tell a frame it has already
carried out, so a second insertion, removal or move acts on the shifted table. -/

namespace PartRack
namespace ControlPoint
open BindingTable

theorem records_run {save : Option SaveCb} (hsave : SaveSucceeds save) (table : BindingTable)
    (op : TableOp) : (op.run save table).model.records = op.apply table.records := by
  unfold TableOp.run
  cases hp : op.plan table.records with
  | reject err =>
    rw [TableOp.apply_of_reject hp]
    rfl
  | keep =>
    rw [TableOp.apply_of_keep hp]
    rfl
  | commit next =>
    rw [TableOp.apply_of_commit hp]
    exact (commitTable_of_saveSucceeds hsave table next).2

theorem records_handle {save : Option SaveCb} (hsave : SaveSucceeds save) {code : Byte}
    {args : List Byte} {op : TableOp} (hframe : Request.ofFrame code args = .mutate op)
    (s : ControlPoint) :
    (handle save (code :: args) s).table.records = op.apply s.table.records := by
  rw [handle_mutate save hframe]
  exact records_run hsave s.table op

theorem valid_of_ok {save : Option SaveCb} (hsave : SaveSucceeds save) {table : BindingTable}
    {code : Byte} {args : List Byte} {op : TableOp}
    (hframe : Request.ofFrame code args = .mutate op)
    (hok : replies (handle save (code :: args) ⟨table, []⟩).log = [.ok]) :
    op.Valid table.records := by
  rw [replies_handle _ _ args (code_ne_of_mutate hframe), hframe] at hok
  have hstatus := (List.cons.inj hok).1
  rcases status_cases hsave table (.mutate op) with ⟨hv, -⟩ | ⟨-, hs⟩ | ⟨-, -, hs⟩
  · exact hv
  · exact nomatch hstatus.symm.trans hs
  · exact nomatch hstatus.symm.trans hs

/-- Resending a frame that was answered OK leaves the slots as they are exactly when the
frame writes one slot, sets a quantity or resets the table, inserts where one empty slot
was left, removes below empty slots only, or moves nothing. -/
theorem resend_iff {table : BindingTable} (hwf : WellFormed table.records)
    {save resave : Option SaveCb} (hsave : SaveSucceeds save) (hresave : SaveSucceeds resave)
    {code : Byte} {args : List Byte} {op : TableOp}
    (hframe : Request.ofFrame code args = .mutate op)
    (hok : replies (handle save (code :: args) ⟨table, []⟩).log = [.ok]) :
    (handle resave (code :: args) (handle save (code :: args) ⟨table, []⟩)).table.records =
        (handle save (code :: args) ⟨table, []⟩).table.records ↔
      op.Repeatable table.records := by
  rw [records_handle hresave hframe, records_handle hsave hframe]
  exact TableOp.apply_apply_eq_iff hwf op (valid_of_ok hsave hframe hok)

theorem resend_removeAt :
    (handle (some fun _ _ => 0) [0x21, 0x02]
      (handle (some fun _ _ => 0) [0x21, 0x02] ⟨secondBound, []⟩)).table.records =
        (handle (some fun _ _ => 0) [0x21, 0x02] ⟨secondBound, []⟩).table.records ∧
    (handle (some fun _ _ => 0) [0x21, 0x02] ⟨secondBound, []⟩).table.records ≠
      secondBound.records := by
  have hframe : Request.ofFrame 0x21 [0x02] = .mutate (.removeAt 0x02) := rfl
  have hok : replies (handle (some fun _ _ => 0) [0x21, 0x02] ⟨secondBound, []⟩).log = [.ok] := by
    decide +kernel
  have habove : (TableOp.removeAt 0x02).Repeatable secondBound.records := by
    show ∀ r ∈ secondBound.records.toList.drop 2, r.slot = 0
    decide +kernel
  exact ⟨(resend_iff wellFormed_secondBound saveSucceeds_zero saveSucceeds_zero hframe hok).mpr
    habove, by decide +kernel⟩

/-- An INSERT_AT 1 frame with a record of zero bytes but for its slot and checksum. -/
def insertFrame : List Byte := [0x20, 0x01, 0x01] ++ List.replicate 14 0x00 ++ [0x80]

theorem not_resend_insertAt :
    WellFormed BindingTable.init.records ∧
    replies (handle (some fun _ _ => 0) insertFrame ⟨BindingTable.init, []⟩).log = [.ok] ∧
    (handle (some fun _ _ => 0) insertFrame
      (handle (some fun _ _ => 0) insertFrame ⟨BindingTable.init, []⟩)).table.records ≠
    (handle (some fun _ _ => 0) insertFrame ⟨BindingTable.init, []⟩).table.records := by
  refine ⟨wellFormed_emptyRecords, by decide +kernel, by decide +kernel⟩

end ControlPoint
end PartRack
