import PartRack.BindingTable.Repeat
import PartRack.HostTools.Agreement

/-! The destructive binding flow of the host's smoke test (tools/ble_gatt_smoke_test.py):
the frames it sends, the notifications it collects for each phase, and its validator. The
script runs here against the dispatcher over the binding table model. -/

namespace PartRack
namespace HostTools
open LittleEndian BindingTable

/-- What the script raises. -/
inductive SmokeError
  | encodeError (err : EncodeError)
  | smokeValidationError (text : String)
deriving DecidableEq, Repr

abbrev Notifications := List (List Byte)

def hexByte (b : Byte) : String :=
  String.ofList [Nat.digitChar (b.toNat / 16), Nat.digitChar (b.toNat % 16)]

def hexBytes (data : List Byte) : String := (" ".intercalate (data.map hexByte)).toUpper

/-- The notifications as the error texts show them. -/
def observed (notifications : Notifications) : String :=
  let text := ", ".intercalate (notifications.map hexBytes)
  if text = "" then "<none>" else text

def expectedSlot1Record (qty : ℤ) : Except SmokeError (List Byte) :=
  (SlotRecord.encode ⟨1, "C1234567", qty, 0⟩).mapError .encodeError

/-- The vectors of `make_test_vectors` that the flow sends. -/
structure TestVectors where
  writeSlot1 : List Byte
  readSlot1 : List Byte
  clearSlot1 : List Byte
  insertSlot1 : List Byte
  removeSlot1 : List Byte
  moveSlot1To2Len1 : List Byte
  setSlot1Qty42 : List Byte
  factoryReset : List Byte
deriving DecidableEq, Repr

def makeTestVectors : Except SmokeError TestVectors := do
  let record ← expectedSlot1Record 12
  return {
    writeSlot1 := [0x10] ++ record
    readSlot1 := [0x01, 0x01]
    clearSlot1 := [0x11, 0x01]
    insertSlot1 := [0x20, 0x01] ++ record
    removeSlot1 := [0x21, 0x01]
    moveSlot1To2Len1 := [0x22, 0x01, 0x02, 0x01]
    setSlot1Qty42 := [0x30, 0x01, 0x2A, 0x00]
    factoryReset := [0xF0] ++ [0xA5, 0xA5, 0x5A, 0x5A] }

/-! ## The validator -/

def validateReadOneNotifications (notifications : Notifications) (expectedRecord : List Byte) :
    Except SmokeError Unit :=
  if [0x01, 0x00] ++ expectedRecord ∈ notifications then .ok ()
  else .error (.smokeValidationError
    ("READ_ONE success notification with expected payload was not observed; observed: " ++
      observed notifications))

def validateStatusNotification (notifications : Notifications) (op status : Byte) :
    Except SmokeError Unit :=
  if [op, status] ∈ notifications then .ok ()
  else .error (.smokeValidationError ("status notification " ++ hexBytes [op, status] ++
    " was not observed; observed: " ++ observed notifications))

-- the slot is patched into the record of slot 1
def recordForSlot (slot qty : ℤ) : Except SmokeError (List Byte) := do
  let record ← expectedSlot1Record qty
  if slot < 0 ∨ 255 < slot then
    .error (.encodeError (.valueError "byte must be in range(0, 256)"))
  else return record.set 0 (BitVec.ofInt 8 slot)

inductive Phase
  | clear
  | insert
  | setQty
  | move
  | remove
  | factoryReset
deriving DecidableEq, Repr

def Phase.name : Phase → String
  | .clear => "clear"
  | .insert => "insert"
  | .setQty => "set_qty"
  | .move => "move"
  | .remove => "remove"
  | .factoryReset => "factory_reset"

def requiredPhases : List Phase := [.clear, .insert, .setQty, .move, .remove, .factoryReset]

/-- The dictionary of the phases, as far as the validator looks into it. -/
abbrev PhaseNotifications := Phase → Option Notifications

def validateDestructiveBindingFlow (phaseNotifications : PhaseNotifications) :
    Except SmokeError Unit := do
  requiredPhases.forM fun phase =>
    if phaseNotifications phase = none then
      .error (.smokeValidationError ("destructive phase missing: " ++ phase.name))
    else .ok ()
  -- every phase is there from here on
  let phase := fun p => (phaseNotifications p).getD []
  validateStatusNotification (phase .clear) 0x11 0
  validateReadOneNotifications (phase .clear) (List.replicate 16 0)
  validateStatusNotification (phase .insert) 0x20 0
  validateReadOneNotifications (phase .insert) (← expectedSlot1Record 12)
  validateStatusNotification (phase .setQty) 0x30 0
  validateReadOneNotifications (phase .setQty) (← expectedSlot1Record 42)
  validateStatusNotification (phase .move) 0x22 0
  validateReadOneNotifications (phase .move) (List.replicate 16 0)
  validateReadOneNotifications (phase .move) (← recordForSlot 2 42)
  validateStatusNotification (phase .remove) 0x21 0
  validateReadOneNotifications (phase .remove) (← expectedSlot1Record 42)
  validateStatusNotification (phase .factoryReset) 0xF0 0
  validateReadOneNotifications (phase .factoryReset) (List.replicate 16 0)

/-! ## The script -/

/-- The bytes of a reply on the control point. -/
def notification : CpEvent → Option (List Byte)
  | .notify op status payload => some (op :: status.code :: payload)
  | _ => none

/-- The frames written one after the other, with the notifications that come back. -/
def exchange (save : Option SaveCb) : List (List Byte) → BindingTable →
    Notifications × BindingTable
  | [], table => ([], table)
  | frame :: frames, table =>
    let answered := ControlPoint.handle save frame ⟨table, []⟩
    let later := exchange save frames answered.table
    (answered.log.filterMap notification ++ later.1, later.2)

/-- `run_destructive_binding` from its vectors to the call of its validator. -/
def phasesOf (save : Option SaveCb) (vectors : TestVectors) (table : BindingTable) :
    Except SmokeError PhaseNotifications := do
  let write := exchange save [vectors.writeSlot1] table
  validateStatusNotification write.1 0x10 0
  let clear := exchange save [vectors.clearSlot1, vectors.readSlot1] write.2
  let insert := exchange save [vectors.insertSlot1, vectors.readSlot1] clear.2
  let setQty := exchange save [vectors.setSlot1Qty42, vectors.readSlot1] insert.2
  let move := exchange save [vectors.moveSlot1To2Len1, vectors.readSlot1, [0x01, 0x02]] setQty.2
  let remove := exchange save [vectors.removeSlot1, vectors.readSlot1] move.2
  let factoryReset := exchange save [vectors.factoryReset, vectors.readSlot1] remove.2
  return fun
    | .clear => some clear.1
    | .insert => some insert.1
    | .setQty => some setQty.1
    | .move => some move.1
    | .remove => some remove.1
    | .factoryReset => some factoryReset.1

def collectPhases (save : Option SaveCb) (table : BindingTable) :
    Except SmokeError PhaseNotifications := do
  let vectors ← makeTestVectors
  phasesOf save vectors table

def runDestructiveBinding (save : Option SaveCb) (table : BindingTable) :
    Except SmokeError Unit := do
  let phases ← collectPhases save table
  validateDestructiveBindingFlow phases

/-! ## The table along the flow -/

/-- A well-formed table that holds this row of parts. -/
structure Row (table : BindingTable) (l : List (Option Part)) : Prop where
  wellFormed : WellFormed table.records
  contents_eq : contents table.records = l

theorem Row.getElem {table : BindingTable} {l : List (Option Part)} (h : Row table l) {i : ℕ}
    (hi : i < 25) : table.records[i] = place (i + 1) (l[i]?.getD none) := by
  rw [getElem_eq_place h.wellFormed i hi, h.contents_eq]

theorem Row.bytes_place {table : BindingTable} {l : List (Option Part)} (h : Row table l)
    {o : Option Part} {i : ℕ} (hi : i < 25) (ho : l[i]? = some o) :
    table.records[i].toBytes = (place (i + 1) o).toBytes := by
  rw [h.getElem hi, ho]
  rfl

theorem exchange_readOne {save : Option SaveCb} {table : BindingTable} {l : List (Option Part)}
    (h : Row table l) {slot : Byte} (hslot : ValidSlot slot) {o : Option Part}
    (ho : l[slot.toNat - 1]? = some o) (frames : List (List Byte)) :
    exchange save ([0x01, slot] :: frames) table =
      (([0x01, 0x00] ++ (place (slot.toNat - 1 + 1) o).toBytes) :: (exchange save frames table).1,
        (exchange save frames table).2) := by
  have hi : slot.toNat - 1 < 25 := by omega
  have hframe : Request.ofFrame 0x01 [slot] = .readOne slot := rfl
  have hhandle : ControlPoint.handle save [0x01, slot] ⟨table, []⟩ =
      ⟨table, [.notify 0x01 .ok (place (slot.toNat - 1 + 1) o).toBytes]⟩ := by
    rw [ControlPoint.handle_eq_answer, hframe, ← h.bytes_place hi ho]
    exact congrArg (fun e => ControlPoint.mk table ([] ++ [e]))
      (ControlPoint.readOneReply_of_valid table _ hslot hi)
  rw [exchange, hhandle]
  rfl

theorem filterMap_notification_table (effects : List Effect) :
    (effects.map CpEvent.table).filterMap notification = [] := by
  rw [List.filterMap_map, List.filterMap_eq_nil_iff]
  exact fun _ _ => rfl

theorem exchange_mutate {save : Option SaveCb} (hsave : ControlPoint.SaveSucceeds save)
    {table : BindingTable} {l : List (Option Part)} (h : Row table l) {code : Byte}
    {args : List Byte} {op : TableOp} (hframe : Request.ofFrame code args = .mutate op)
    (hvalid : op.Valid table.records) (hidle : ¬op.IdleMove) :
    ∃ table', Row table' (op.act l) ∧ ∀ frames, exchange save ((code :: args) :: frames) table =
      ([code, 0x00] :: (exchange save frames table').1, (exchange save frames table').2) := by
  obtain ⟨next, hplan⟩ := TableOp.plan_commit_of_valid hvalid hidle
  have hrun : op.run save table = commitTable save table next := by
    rw [TableOp.run, hplan]
    rfl
  obtain ⟨herr, hrecords⟩ := ControlPoint.commitTable_of_saveSucceeds hsave table next
  refine ⟨(op.run save table).model, ⟨?_, ?_⟩, fun frames => ?_⟩
  · rw [hrun, hrecords]
    exact TableOp.wellFormed_of_plan_commit h.wellFormed hplan
  · rw [hrun, hrecords, TableOp.contents_of_plan_commit h.wellFormed hplan, h.contents_eq]
  · have hreplies : ControlPoint.mutateReplies code (op.run save table) =
        [.notify code .ok [], .tableInfo (op.run save table).model.getInfo] :=
      ControlPoint.mutateReplies_of_err_eq code (by rw [hrun, herr])
    rw [exchange, ControlPoint.handle_mutate save hframe, hreplies]
    simp only [List.nil_append, List.filterMap_append, filterMap_notification_table]
    rfl

/-! ## The phases -/

/-- The part of the flow, in a quantity. -/
def flowPart (qty : ℕ) : Part := partOf "C1234567" qty 0

theorem partIdOk_flow : PartIdOk "C1234567" :=
  partIdOk_of_all (by decide +kernel) (by decide +kernel)

theorem expectedSlot1Record_eq {qty : ℕ} (h : qty ≤ 65535) :
    expectedSlot1Record qty = .ok ((flowPart qty).record 1).toBytes := by
  have hencode : SlotRecord.encode ⟨1, "C1234567", qty, 0⟩ =
      .ok ((flowPart qty).record 1).toBytes := encode_eq 0 (by decide) partIdOk_flow h
  rw [expectedSlot1Record, hencode]
  rfl

def readOneReply (slot : ℕ) (o : Option Part) : List Byte := [0x01, 0x00] ++ (place slot o).toBytes

/-- The notifications of the flow, the same for every table. -/
def flowNotifications : Phase → Notifications
  | .clear => [[0x11, 0x00], readOneReply 1 none]
  | .insert => [[0x20, 0x00], readOneReply 1 (some (flowPart 12))]
  | .setQty => [[0x30, 0x00], readOneReply 1 (some (flowPart 42))]
  | .move => [[0x22, 0x00], readOneReply 1 none, readOneReply 2 (some (flowPart 42))]
  | .remove => [[0x21, 0x00], readOneReply 1 (some (flowPart 42))]
  | .factoryReset => [[0xF0, 0x00], readOneReply 1 none]

def flowVectors : TestVectors where
  writeSlot1 := 0x10 :: ((flowPart 12).record 1).toBytes
  readSlot1 := [0x01, 0x01]
  clearSlot1 := [0x11, 0x01]
  insertSlot1 := 0x20 :: 0x01 :: ((flowPart 12).record 1).toBytes
  removeSlot1 := [0x21, 0x01]
  moveSlot1To2Len1 := [0x22, 0x01, 0x02, 0x01]
  setSlot1Qty42 := [0x30, 0x01, 0x2A, 0x00]
  factoryReset := [0xF0, 0xA5, 0xA5, 0x5A, 0x5A]

theorem makeTestVectors_eq : makeTestVectors = .ok flowVectors := by
  have hrecord : expectedSlot1Record 12 = .ok ((flowPart 12).record 1).toBytes :=
    expectedSlot1Record_eq (by decide)
  rw [makeTestVectors, hrecord]
  rfl

theorem ok_bind {α β : Type} (a : α) (f : α → Except SmokeError β) :
    (Except.ok a >>= f) = f a := rfl

section Flow
variable {save : Option SaveCb} (hsave : ControlPoint.SaveSucceeds save) {table : BindingTable}
  {l : List (Option Part)}
include hsave

theorem exchange_phase (h : Row table l) {code : Byte} {args : List Byte} {op : TableOp}
    (hframe : Request.ofFrame code args = .mutate op) (hvalid : op.Valid table.records)
    (hidle : ¬op.IdleMove) {o : Option Part} (ho : (op.act l)[0]? = some o) :
    ∃ table', Row table' (op.act l) ∧ exchange save [code :: args, [0x01, 0x01]] table =
      ([[code, 0x00], readOneReply 1 o], table') := by
  obtain ⟨table', hrow, hmutate⟩ := exchange_mutate hsave h hframe hvalid hidle
  have hslot : ValidSlot (0x01 : Byte) := by decide
  refine ⟨table', hrow, ?_⟩
  rw [hmutate, exchange_readOne hrow hslot ho]
  rfl

theorem exchange_write {o : Option Part} (h : Row table (o :: l)) (p : Part) :
    ∃ table', Row table' (some p :: l) ∧
      exchange save [0x10 :: (p.record 1).toBytes] table = ([[0x10, 0x00]], table') := by
  have hvalid : (TableOp.writeOne (p.record 1)).Valid table.records :=
    ⟨(by decide : ValidSlot 1), p.crcOk_record 1⟩
  obtain ⟨table', hrow, hmutate⟩ := exchange_mutate hsave h
    (ControlPoint.ofFrame_writeOne p 1) hvalid (TableOp.not_idleMove fun _ _ => TableOp.noConfusion)
  exact ⟨table', hrow, hmutate []⟩

theorem exchange_clear {o : Option Part} (h : Row table (o :: l)) :
    ∃ table', Row table' (none :: l) ∧
      exchange save [[0x11, 0x01], [0x01, 0x01]] table =
        ([[0x11, 0x00], readOneReply 1 none], table') := by
  have hvalid : (TableOp.clearOne 1).Valid table.records := by
    show ValidSlot (1 : Byte)
    decide
  exact exchange_phase hsave h rfl hvalid (TableOp.not_idleMove fun _ _ => TableOp.noConfusion) rfl

theorem exchange_insert (h : Row table (none :: l)) (p : Part) :
    ∃ table', Row table' (some p :: l) ∧
      exchange save [0x20 :: 0x01 :: (p.record 1).toBytes, [0x01, 0x01]] table =
        ([[0x20, 0x00], readOneReply 1 (some p)], table') := by
  have hempty : table.records[0].slot = 0 := by
    rw [h.getElem (by decide : 0 < 25)]
    rfl
  have hroom : ¬NoRoom table.records 1 := fun hno => hno 0 (by decide) (by decide) hempty
  have hvalid : (TableOp.insertAt 1 (p.record 1)).Valid table.records :=
    ⟨by decide, p.crcOk_record 1, hroom⟩
  exact exchange_phase hsave h (ControlPoint.ofFrame_insertAt p 1 1) hvalid
    (TableOp.not_idleMove fun _ _ => TableOp.noConfusion) rfl

theorem exchange_setQty {p : Part} (h : Row table (some p :: l)) :
    ∃ table', Row table' (some { p with qtyLe := 42 } :: l) ∧
      exchange save [[0x30, 0x01, 0x2A, 0x00], [0x01, 0x01]] table =
        ([[0x30, 0x00], readOneReply 1 (some { p with qtyLe := 42 })], table') := by
  have hbound : table.records[0].slot ≠ 0 := by
    rw [h.getElem (by decide : 0 < 25)]
    show (1 : Byte) ≠ 0
    decide
  have hvalid : (TableOp.setQty 1 42).Valid table.records := ⟨by decide, by decide, hbound⟩
  exact exchange_phase hsave h rfl hvalid (TableOp.not_idleMove fun _ _ => TableOp.noConfusion) rfl

theorem exchange_move {p : Part} (h : Row table (some p :: none :: l)) :
    ∃ table', Row table' (none :: some p :: l) ∧
      exchange save [[0x22, 0x01, 0x02, 0x01], [0x01, 0x01], [0x01, 0x02]] table =
        ([[0x22, 0x00], readOneReply 1 none, readOneReply 2 (some p)], table') := by
  have hvalid : (TableOp.moveBlock 1 2 1).Valid table.records := by
    show ValidSlot (1 : Byte) ∧ ValidSlot (2 : Byte) ∧ (1 : Byte) ≠ 0 ∧ _ ∧ _
    decide
  have hidle : ¬(TableOp.moveBlock 1 2 1).IdleMove := by
    refine TableOp.not_idleMove fun slot len hop => ?_
    obtain ⟨hfrom, hto, -⟩ := TableOp.moveBlock.inj hop
    exact absurd (hfrom.trans hto.symm) (by decide)
  have hframe : Request.ofFrame 0x22 [0x01, 0x02, 0x01] = .mutate (.moveBlock 1 2 1) := rfl
  obtain ⟨table', hrow, hmutate⟩ := exchange_mutate hsave h hframe hvalid hidle
  have hone : ValidSlot (0x01 : Byte) := by decide
  have htwo : ValidSlot (0x02 : Byte) := by decide
  refine ⟨table', hrow, ?_⟩
  rw [hmutate, exchange_readOne hrow hone rfl, exchange_readOne hrow htwo rfl]
  rfl

theorem exchange_remove {p : Part} (h : Row table (none :: some p :: l)) :
    ∃ table', Row table' (some p :: (l ++ [none])) ∧
      exchange save [[0x21, 0x01], [0x01, 0x01]] table =
        ([[0x21, 0x00], readOneReply 1 (some p)], table') := by
  have hvalid : (TableOp.removeAt 1).Valid table.records := by
    show ValidSlot (1 : Byte)
    decide
  exact exchange_phase hsave h rfl hvalid (TableOp.not_idleMove fun _ _ => TableOp.noConfusion) rfl

theorem exchange_factoryReset (h : Row table l) :
    ∃ table', Row table' (List.replicate 25 none) ∧
      exchange save [[0xF0, 0xA5, 0xA5, 0x5A, 0x5A], [0x01, 0x01]] table =
        ([[0xF0, 0x00], readOneReply 1 none], table') := by
  have hvalid : (TableOp.factoryReset 0x5A5AA5A5).Valid table.records := rfl
  exact exchange_phase hsave h rfl hvalid (TableOp.not_idleMove fun _ _ => TableOp.noConfusion) rfl

theorem phasesOf_eq {o : Option Part} (h : Row table (o :: none :: l)) :
    phasesOf save flowVectors table = .ok fun phase => some (flowNotifications phase) := by
  obtain ⟨t₁, h₁, hwrite⟩ := exchange_write hsave h (flowPart 12)
  obtain ⟨t₂, h₂, hclear⟩ := exchange_clear hsave h₁
  obtain ⟨t₃, h₃, hinsert⟩ := exchange_insert hsave h₂ (flowPart 12)
  obtain ⟨t₄, h₄, hsetQty⟩ := exchange_setQty hsave h₃
  obtain ⟨t₅, h₅, hmove⟩ := exchange_move hsave h₄
  obtain ⟨t₆, h₆, hremove⟩ := exchange_remove hsave h₅
  obtain ⟨t₇, -, hreset⟩ := exchange_factoryReset hsave h₆
  have hstatus : validateStatusNotification [[0x10, 0x00]] 0x10 0 = .ok () := if_pos (by decide)
  simp only [phasesOf, flowVectors, hwrite, hclear, hinsert, hsetQty, hmove, hremove, hreset,
    hstatus]
  refine congrArg Except.ok (funext fun phase => ?_)
  cases phase <;> rfl

theorem collectPhases_eq {o : Option Part} (h : Row table (o :: none :: l)) :
    collectPhases save table = .ok fun phase => some (flowNotifications phase) := by
  rw [collectPhases, makeTestVectors_eq, ok_bind]
  exact phasesOf_eq hsave h

end Flow

/-- The one notification the validator misses: the record of slot 2, with its checksum. -/
def moveError : SmokeError := .smokeValidationError
  ("READ_ONE success notification with expected payload was not observed; observed: " ++
    "22 00, 01 00 00 00 00 00 00 00 00 00 00 00 00 00 00 00 00 00, " ++
    "01 00 02 43 31 32 33 34 35 36 37 00 00 2A 00 00 00 F8")

theorem validate_flowNotifications :
    validateDestructiveBindingFlow (fun phase => some (flowNotifications phase)) =
      .error moveError := by decide +kernel

theorem row_of_slot2_empty {table : BindingTable} (hwf : WellFormed table.records)
    (hempty : (table.records.get 1).slot = 0) : ∃ o l, Row table (o :: none :: l) := by
  have hget : (contents table.records)[1]? = some none := by
    rw [getElem?_contents _ 1 (by decide), SlotRecord.content]
    exact congrArg some (if_pos hempty)
  rcases hl : contents table.records with _ | ⟨o, _ | ⟨o', l⟩⟩
  · rw [hl] at hget
    exact absurd hget (by simp)
  · rw [hl] at hget
    exact absurd hget (by simp)
  · rw [hl] at hget
    obtain rfl : o' = none := Option.some.inj hget
    exact ⟨o, l, hwf, hl⟩

/-- The validator refuses every correct run: it expects the moved record with the checksum
of slot 1, while the firmware renews it for slot 2. -/
theorem destructiveFlow_rejected {save : Option SaveCb} (hsave : ControlPoint.SaveSucceeds save)
    (table : BindingTable) (hwf : WellFormed table.records)
    (hempty : (table.records.get 1).slot = 0) :
    ∃ phases, collectPhases save table = .ok phases ∧
      validateDestructiveBindingFlow phases = .error moveError := by
  obtain ⟨o, l, hrow⟩ := row_of_slot2_empty hwf hempty
  exact ⟨_, collectPhases_eq hsave hrow, validate_flowNotifications⟩

theorem destructiveFlow_rejected_init :
    ∃ phases, collectPhases (some fun _ _ => 0) BindingTable.init = .ok phases ∧
      validateDestructiveBindingFlow phases = .error moveError := by
  have hempty : (BindingTable.init.records.get 1).slot = 0 := rfl
  exact destructiveFlow_rejected ControlPoint.saveSucceeds_zero BindingTable.init
    wellFormed_emptyRecords hempty

theorem not_flow_accepted :
    ControlPoint.SaveSucceeds (some fun _ _ => 0) ∧ WellFormed BindingTable.init.records ∧
      (BindingTable.init.records.get 1).slot = 0 ∧
      ∀ phases, collectPhases (some fun _ _ => 0) BindingTable.init = .ok phases →
        validateDestructiveBindingFlow phases ≠ .ok () := by
  have hrun : runDestructiveBinding (some fun _ _ => 0) BindingTable.init = .error moveError := by
    decide +kernel
  refine ⟨ControlPoint.saveSucceeds_zero, wellFormed_emptyRecords, rfl, ?_⟩
  intro phases hphases hok
  rw [runDestructiveBinding, hphases, ok_bind, hok] at hrun
  cases hrun

end HostTools
end PartRack
