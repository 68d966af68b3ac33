import Mathlib.Data.List.Basic
import PartRack.BindingTable.Commit
import PartRack.ControlPoint.Dispatcher

/-! The dispatcher over the binding table model, with everything it does on record: the
effects on the table, the replies, and one Table Info notification for each call of
`table_changed`. -/

namespace PartRack

inductive CpEvent
  | table (effect : Effect)
  | notify (op : Byte) (status : Status) (payload : List Byte)
  | tableInfo (info : BindingTable.TableInfo)
deriving DecidableEq, Repr

/-- The state behind the callbacks; the log is in program order. -/
structure ControlPoint where
  table : BindingTable
  log : List CpEvent
deriving DecidableEq, Repr

namespace ControlPoint
open BindingTable

def push (s : ControlPoint) (events : List CpEvent) : ControlPoint :=
  { s with log := s.log ++ events }

def mutate (save : Option SaveCb) (op : TableOp) : StateM ControlPoint Int := fun s =>
  let outcome := op.run save s.table
  (outcome.err, ⟨outcome.model, s.log ++ outcome.effects.map .table⟩)

def dispatcher (save : Option SaveCb) : Dispatcher ControlPoint where
  readOne slot := fun s => (s.table.readOne slot SlotRecord.zero, s)
  writeOne record := mutate save (.writeOne record)
  clearOne slot := mutate save (.clearOne slot)
  insertAt slot record := mutate save (.insertAt slot record)
  removeAt slot := mutate save (.removeAt slot)
  moveBlock fromSlot toSlot len := mutate save (.moveBlock fromSlot toSlot len)
  setQty slot qty := mutate save (.setQty slot qty)
  factoryReset magic := mutate save (.factoryReset magic)
  notifyBinding op status payload := fun s => (0, s.push [.notify op status payload])
  tableChanged := fun s => ((), s.push [.tableInfo s.table.getInfo])

def handle (save : Option SaveCb) (frame : List Byte) (s : ControlPoint) : ControlPoint :=
  ((dispatcher save).dispatchBindingCp frame s).2

/-! ## The answer to a request -/

def readOneReply (table : BindingTable) (code slot : Byte) : CpEvent :=
  let (err, record) := table.readOne slot SlotRecord.zero
  .notify code (statusFromErrno err) (if err = 0 then record.toBytes else [])

def readAllReplies (records : List SlotRecord) : List CpEvent :=
  records.map (fun r => .notify BindingOp.readAll.code .ok r.toBytes) ++
    [.notify BindingOp.readAll.code .ok [readAllEndMarker]]

def mutateReplies (code : Byte) (o : Outcome) : List CpEvent :=
  .notify code (statusFromErrno o.err) [] ::
    if o.err = 0 then [.tableInfo o.model.getInfo] else []

/-- The table after a request, and what is sent for it. -/
def answer (save : Option SaveCb) (table : BindingTable) (code : Byte) :
    Request → BindingTable × List CpEvent
  | .readOne slot => (table, [readOneReply table code slot])
  | .readAll => (table, readAllReplies table.records.toList)
  | .mutate op =>
    let o := op.run save table
    (o.model, o.effects.map .table ++ mutateReplies code o)
  | .malformed => (table, [.notify code .errParam []])

theorem readOneReply_of_valid (table : BindingTable) (code : Byte) {slot : Byte}
    (h : ValidSlot slot) (hi : slot.toNat - 1 < 25) : readOneReply table code slot =
      .notify code .ok table.records[slot.toNat - 1].toBytes := by
  have hread : table.readOne slot SlotRecord.zero = (0, table.records[slot.toNat - 1]) :=
    dif_pos h
  simp only [readOneReply, hread, if_true]
  rfl

theorem readOneReply_of_not_valid (table : BindingTable) (code : Byte) {slot : Byte}
    (h : ¬ValidSlot slot) : readOneReply table code slot = .notify code .errParam [] := by
  have hread : table.readOne slot SlotRecord.zero = (-Errno.EINVAL, SlotRecord.zero) := dif_neg h
  simp only [readOneReply, hread]
  rfl

theorem answer_mutate (save : Option SaveCb) (table : BindingTable) (code : Byte)
    (op : TableOp) :
    answer save table code (.mutate op) = ((op.run save table).model,
      (op.run save table).effects.map .table ++ mutateReplies code (op.run save table)) := rfl

theorem mutateReplies_of_err_eq (code : Byte) {o : Outcome} (h : o.err = 0) :
    mutateReplies code o = [.notify code .ok [], .tableInfo o.model.getInfo] := by
  rw [mutateReplies, h]
  rfl

theorem mutateReplies_of_err_ne (code : Byte) {o : Outcome} (h : o.err ≠ 0) :
    mutateReplies code o = [.notify code (statusFromErrno o.err) []] := by
  rw [mutateReplies, if_neg h]

@[simp] theorem push_push (s : ControlPoint) (a b : List CpEvent) :
    (s.push a).push b = s.push (a ++ b) := by
  simp only [push, List.append_assoc]

theorem readOne_ofNat (table : BindingTable) {i : ℕ} (hi : i < 25) (record : SlotRecord) :
    table.readOne (BitVec.ofNat 8 (i + 1)) record = (0, table.records[i]) := by
  have hslot : (BitVec.ofNat 8 (i + 1)).toNat = i + 1 := by
    rw [BitVec.toNat_ofNat]
    omega
  unfold readOne
  rw [dif_pos ⟨by omega, by omega⟩]
  simp only [hslot, Nat.add_sub_cancel]

theorem readOne_dispatcher (save : Option SaveCb) (i : ℕ) (hi : i < 25) (s : ControlPoint) :
    (dispatcher save).readOne (BitVec.ofNat 8 (i + 1)) s = ((0, s.table.records[i]), s) :=
  congrArg (fun p => (p, s)) (readOne_ofNat s.table hi SlotRecord.zero)

theorem readAllFrom_dispatcher (save : Option SaveCb) (k i : ℕ) (h : i + k = 25)
    (s : ControlPoint) :
    (dispatcher save).readAllFrom k (i + 1) s =
      (0, s.push (readAllReplies (s.table.records.toList.drop i))) := by
  induction k generalizing i s with
  | zero =>
    rw [List.drop_of_length_le (by rw [Vector.length_toList]; omega)]
    rfl
  | succ k ih =>
    have hi : i < 25 := by omega
    have hlen : i < s.table.records.toList.length := by rwa [Vector.length_toList]
    have hstep : (dispatcher save).readAllFrom (k + 1) (i + 1) s =
        (dispatcher save).readAllFrom k (i + 1 + 1)
          (s.push [.notify BindingOp.readAll.code .ok s.table.records[i].toBytes]) := by
      show (let p := (dispatcher save).readOne (BitVec.ofNat 8 (i + 1)) s
        let s' := ((dispatcher save).notify _ p.1.1 p.1.2.toBytes p.2).2
        (if p.1.1 ≠ 0 then (pure 0 : StateM ControlPoint Int)
          else (dispatcher save).readAllFrom k (i + 1 + 1)) s') = _
      rw [readOne_dispatcher save i hi]
      rfl
    rw [hstep, ih (i + 1) (by omega), push_push, List.drop_eq_getElem_cons hlen,
      Vector.getElem_toList]
    rfl

theorem call_dispatcher (save : Option SaveCb) (op : TableOp) :
    (dispatcher save).call op = mutate save op := by
  cases op <;> rfl

theorem dispatchMutatingStatus_dispatcher (save : Option SaveCb) (code : Byte) (err : Int)
    (s : ControlPoint) :
    (dispatcher save).dispatchMutatingStatus code err s =
      (0, s.push (.notify code (statusFromErrno err) [] ::
        if err = 0 then [.tableInfo s.table.getInfo] else [])) := by
  unfold Dispatcher.dispatchMutatingStatus
  by_cases herr : err = 0
  · rw [if_pos herr, if_pos herr, ← List.singleton_append, ← push_push, herr]
    rfl
  · rw [if_neg herr, if_neg herr]
    show (0, s.push [.notify code (statusFromErrno err) (if err = 0 then [] else [])]) = _
    rw [if_neg herr]

theorem serve_mutate (save : Option SaveCb) (code : Byte) (op : TableOp) (s : ControlPoint) :
    (dispatcher save).serve code (.mutate op) s =
      (dispatcher save).dispatchMutatingStatus code ((dispatcher save).call op s).1
        ((dispatcher save).call op s).2 := rfl

theorem handle_eq_answer (save : Option SaveCb) (code : Byte) (args : List Byte)
    (s : ControlPoint) :
    handle save (code :: args) s =
      ⟨(answer save s.table code (Request.ofFrame code args)).1,
        s.log ++ (answer save s.table code (Request.ofFrame code args)).2⟩ := by
  rw [handle, Dispatcher.dispatchBindingCp_eq_serve]
  cases Request.ofFrame code args with
  | readOne slot => rfl
  | readAll => exact congrArg Prod.snd (readAllFrom_dispatcher save 25 0 rfl s)
  | malformed => rfl
  | mutate op =>
    rw [serve_mutate, call_dispatcher, dispatchMutatingStatus_dispatcher]
    simp only [mutate, answer, push, mutateReplies, List.append_assoc]
    rfl

theorem handle_mutate (save : Option SaveCb) {code : Byte} {args : List Byte} {op : TableOp}
    (hframe : Request.ofFrame code args = .mutate op) (s : ControlPoint) :
    handle save (code :: args) s = ⟨(op.run save s.table).model,
      s.log ++ ((op.run save s.table).effects.map .table ++
        mutateReplies code (op.run save s.table))⟩ := by
  rw [handle_eq_answer, hframe, answer_mutate]

end ControlPoint
end PartRack
