import PartRack.BindingTable.Fingerprint
import PartRack.HostTools.Client
import PartRack.HostTools.LightCommand
import PartRack.Lib.Checks

/-! The batch test and the persistence test of tools/ble_gatt_smoke_test.py, run against the
firmware. Between two requests the script sleeps, and the device goes on. -/

namespace PartRack
namespace HostTools
open AppState BindingTable Checks LittleEndian

/-- What the scripts raise. -/
inductive BatchError
  | smoke (err : SmokeError)
  | light (err : LightError)
deriving DecidableEq, Repr

/-! ## The validators -/

def validateReadAllNotifications (notifications : Notifications) : Except SmokeError Unit :=
  if notifications.contains [0x02, 0x00, 0xFF] then .ok ()
  else .error (.smokeValidationError
    ("READ_ALL end marker was not observed; observed: " ++ observed notifications))

def validateReadAllPartialNotifications (notifications : Notifications)
    (expectedRecord : List Byte) : Except SmokeError Unit :=
  if notifications.contains ([0x02, 0x00] ++ expectedRecord) then .ok ()
  else .error (.smokeValidationError
    ("READ_ALL slot 1 payload was not observed; observed: " ++ observed notifications))

def validateTableInfo (data : List Byte) : Except SmokeError Unit :=
  if data.length ≠ 7 then .error (.smokeValidationError
    ("Table Info length should be 7 bytes; got " ++ toString data.length))
  else if data.getD 6 0 ≠ 25 then .error (.smokeValidationError
    ("Table Info slot_count should be 25; got " ++ toString (data.getD 6 0).toNat))
  else .ok ()

def tableInfoSeq (data : List Byte) : Except SmokeError ℕ := do
  validateTableInfo data
  return value (data.take 4)

def tableInfoCrc (data : List Byte) : Except SmokeError ℕ := do
  validateTableInfo data
  return value ((data.drop 4).take 2)

def validateTableSeqIncreased (before after : List Byte) : Except SmokeError Unit := do
  let beforeSeq ← tableInfoSeq before
  let afterSeq ← tableInfoSeq after
  if afterSeq ≤ beforeSeq then .error (.smokeValidationError
    ("Table Info seq did not increase: before=" ++ toString beforeSeq ++ " after=" ++
      toString afterSeq))
  else .ok ()

def validateTableCrcChanged (before after : List Byte) : Except SmokeError Unit := do
  let beforeCrc ← tableInfoCrc before
  let afterCrc ← tableInfoCrc after
  if beforeCrc = afterCrc then .error (.smokeValidationError
    ("Table Info CRC did not change: before=" ++ hexBytes before ++ " after=" ++ hexBytes after))
  else .ok ()

def validateLightStatus (data : List Byte) (expectedMode : ℕ) (minRemaining : Option ℕ) :
    Except SmokeError Unit :=
  let mode := (data.getD 0 0).toNat
  let remaining := value ((data.drop 1).take 2)
  if data.length ≠ 3 then .error (.smokeValidationError
    ("Light Status length should be 3 bytes; got " ++ toString data.length))
  else if mode ≠ expectedMode then .error (.smokeValidationError
    ("Light Status mode should be " ++ toString expectedMode ++ "; got " ++ toString mode ++ " (" ++
      hexBytes data ++ ")"))
  else match minRemaining with
  | some least =>
    if remaining < least then .error (.smokeValidationError
      ("Light Status remaining should be >= " ++ toString least ++ "; got " ++ toString remaining))
    else .ok ()
  | none => .ok ()

/-! ## The scripts -/

/-- The vectors of `make_test_vectors` that the batch sends. -/
structure BatchVectors where
  writeSlot1 : List Byte
  readSlot1 : List Byte
  readAll : List Byte
  setSlot1Qty42 : List Byte
  lightFindSlot1Red10s : List Byte
  lightOff : List Byte
deriving DecidableEq, Repr

def makeBatchVectors : Except BatchError BatchVectors := do
  let vectors ← makeTestVectors.mapError .smoke
  let mask ← (slotMask [1]).mapError .light
  let find ← (LightCommand.encode
    { mode := .find, maskA := mask, colorA := #v[255, 0, 0], timeoutS := 10 }).mapError .light
  let off ← (LightCommand.encode
    { mode := .off, maskA := 0, colorA := #v[0, 0, 0], timeoutS := 0 }).mapError .light
  return {
    writeSlot1 := vectors.writeSlot1
    readSlot1 := vectors.readSlot1
    readAll := [0x02]
    setSlot1Qty42 := vectors.setSlot1Qty42
    lightFindSlot1Red10s := find
    lightOff := off }

/-- The sleeps of the scripts. -/
inductive Sleep
  | write
  | read
  | readAll
  | setQty
  | readAgain
  | find
  | off
deriving DecidableEq, Repr

/-- The times at which the scripts reach the lights. -/
inductive Moment
  | start
  | find
  | findRead
  | off
  | offRead
deriving DecidableEq, Repr

/-- What the scripts meet: the results of the flash and of the stack, the clock of the device,
and what the device does while they sleep. -/
structure Surroundings where
  save : SettingsSaveOne
  gatt : GattNotify
  clock : Moment → ℤ
  during : Sleep → List AppEvent

namespace Surroundings
variable (env : Surroundings)

/-- A write of the control point and the sleep after it. -/
def request (frame : List Byte) (sleep : Sleep) (client : Client) : Client :=
  (client.clear.happen (.bindingCpWrite env.save env.gatt 0 frame)).sleep (env.during sleep)

def lightRequest (frame : List Byte) (moment : Moment) (sleep : Sleep) (client : Client) :
    Client :=
  (client.happen (.lightCommandWrite env.gatt 0 frame (env.clock moment))).sleep (env.during sleep)

/-- The batch up to the call of `make_test_vectors`. -/
def batchStart (app : App) : Except SmokeError (List Byte × Client) := do
  let tableInfoBefore := Client.readGattChar ⟨app, []⟩ .tableInfoRead
  validateTableInfo tableInfoBefore.1
  let lightStatus := tableInfoBefore.2.readGattChar (.lightStatusRead (env.clock .start))
  validateLightStatus lightStatus.1 0 none
  return (tableInfoBefore.1, lightStatus.2)

def batchWrite (vectors : BatchVectors) (before : List Byte) (client : Client) :
    Except SmokeError (List Byte × Client) := do
  let client := env.request vectors.writeSlot1 .write client
  validateStatusNotification client.notifications 0x10 0
  let tableInfo := client.readGattChar .tableInfoRead
  validateTableSeqIncreased before tableInfo.1
  validateTableCrcChanged before tableInfo.1
  return tableInfo

def readSlot (vectors : BatchVectors) (sleep : Sleep) (qty : ℤ) (client : Client) :
    Except SmokeError Client := do
  let client := env.request vectors.readSlot1 sleep client
  validateReadOneNotifications client.notifications (← expectedSlot1Record qty)
  return client

def batchReadAll (vectors : BatchVectors) (client : Client) : Except SmokeError Client := do
  let client := env.request vectors.readAll .readAll client
  validateReadAllPartialNotifications client.notifications (← expectedSlot1Record 12)
  validateReadAllNotifications client.notifications
  return client

def batchSetQty (vectors : BatchVectors) (client : Client) : Except SmokeError Client := do
  let client := env.request vectors.setSlot1Qty42 .setQty client
  validateStatusNotification client.notifications 0x30 0
  return client

def batchTableInfo (before : List Byte) (client : Client) : Except SmokeError Client := do
  let tableInfo := client.readGattChar .tableInfoRead
  validateTableSeqIncreased before tableInfo.1
  return tableInfo.2

def batchFind (vectors : BatchVectors) (client : Client) : Except SmokeError Client := do
  let lightStatus := (env.lightRequest vectors.lightFindSlot1Red10s .find .find client).readGattChar
    (.lightStatusRead (env.clock .findRead))
  validateLightStatus lightStatus.1 1 (some 1)
  return lightStatus.2

def batchOff (vectors : BatchVectors) (client : Client) : Except SmokeError Client := do
  let lightStatus := (env.lightRequest vectors.lightOff .off .off client).readGattChar
    (.lightStatusRead (env.clock .offRead))
  validateLightStatus lightStatus.1 0 none
  return lightStatus.2

/-- The batch from `make_test_vectors` on. -/
def batchWith (vectors : BatchVectors) (before : List Byte) (client : Client) :
    Except SmokeError Client := do
  let written ← env.batchWrite vectors before client
  let client ← env.readSlot vectors .read 12 written.2
  let client ← env.batchReadAll vectors client
  let client ← env.batchSetQty vectors client
  let client ← env.readSlot vectors .readAgain 42 client
  let client ← batchTableInfo written.1 client
  let client ← env.batchFind vectors client
  env.batchOff vectors client

/-- `run_batch` on a connection. -/
def runBatch (app : App) : Except BatchError Client := do
  let start ← (env.batchStart app).mapError .smoke
  let vectors ← makeBatchVectors
  (env.batchWith vectors start.1 start.2).mapError .smoke

/-- `run_persistence_read` on a connection. -/
def runPersistenceRead (app : App) : Except BatchError Client := do
  let tableInfo := Client.readGattChar ⟨app, []⟩ .tableInfoRead
  (validateTableInfo tableInfo.1).mapError .smoke
  let vectors ← makeBatchVectors
  (env.readSlot vectors .read 42 tableInfo.2).mapError .smoke

end Surroundings

/-! ## The validators on what the device sends -/

theorem validateTableInfo_toBytes (table : BindingTable) :
    validateTableInfo table.getInfo.toBytes = .ok () := by
  have hlen : table.getInfo.toBytes.length = 7 := rfl
  have hcount : table.getInfo.toBytes.getD 6 0 = 25 := rfl
  rw [validateTableInfo, if_neg (not_not_intro hlen), if_neg (not_not_intro hcount)]

theorem tableInfoSeq_toBytes (table : BindingTable) :
    tableInfoSeq table.getInfo.toBytes = .ok table.tableSeq.toNat := by
  have hvalue : value (table.getInfo.toBytes.take 4) = table.tableSeq.toNat := by
    change value (bytes 4 table.tableSeq.toNat) = _
    exact value_bytes_of_lt table.tableSeq.isLt
  rw [tableInfoSeq, validateTableInfo_toBytes, hvalue]
  rfl

theorem tableInfoCrc_toBytes (table : BindingTable) :
    tableInfoCrc table.getInfo.toBytes = .ok table.getInfo.crc16Le.toNat := by
  have hvalue : value ((table.getInfo.toBytes.drop 4).take 2) = table.getInfo.crc16Le.toNat := by
    change value (bytes 2 table.getInfo.crc16Le.toNat) = _
    exact value_bytes_of_lt table.getInfo.crc16Le.isLt
  rw [tableInfoCrc, validateTableInfo_toBytes, hvalue]
  rfl

theorem passesIff_seqIncreased (before after : BindingTable) :
    PassesIff (before.tableSeq.toNat < after.tableSeq.toNat) (fun _ => True)
      (validateTableSeqIncreased before.getInfo.toBytes after.getInfo.toBytes) := by
  rw [validateTableSeqIncreased, tableInfoSeq_toBytes, tableInfoSeq_toBytes]
  change PassesIff _ _ (if after.tableSeq.toNat ≤ before.tableSeq.toNat then _ else _)
  split_ifs with hle
  · exact .error (Nat.not_lt.mpr hle)
  · exact .ok (Nat.not_le.mp hle) trivial

theorem passesIff_crcChanged (before after : BindingTable) :
    PassesIff (after.getInfo.crc16Le ≠ before.getInfo.crc16Le) (fun _ => True)
      (validateTableCrcChanged before.getInfo.toBytes after.getInfo.toBytes) := by
  rw [validateTableCrcChanged, tableInfoCrc_toBytes, tableInfoCrc_toBytes]
  change PassesIff _ _ (if before.getInfo.crc16Le.toNat = after.getInfo.crc16Le.toNat then _
    else _)
  split_ifs with heq
  · exact .error fun hne => hne (BitVec.eq_of_toNat_eq heq.symm)
  · exact .ok (fun hcrc => heq (congrArg BitVec.toNat hcrc.symm)) trivial

theorem value_putLe16 (remainingS : BitVec 16) :
    value (AdvPayload.putLe16 remainingS) = remainingS.toNat := by
  rw [AdvPayload.putLe16_eq]
  exact value_bytes_of_lt remainingS.isLt

theorem passesIff_lightStatus (mode : Byte) (remainingS : BitVec 16) (expectedMode : ℕ) :
    PassesIff (mode.toNat = expectedMode) (fun _ => True)
      (validateLightStatus (lightStatusBytes mode remainingS) expectedMode none) := by
  have hlen : (lightStatusBytes mode remainingS).length = 3 := rfl
  have hmode : (lightStatusBytes mode remainingS).getD 0 0 = mode := rfl
  unfold validateLightStatus
  simp only [hlen, hmode, ne_eq, not_true_eq_false, if_false, ite_not]
  exact .ite _ fun _ => trivial

theorem passesIff_lightStatus_remaining (mode : Byte) (remainingS : BitVec 16)
    (expectedMode least : ℕ) :
    PassesIff (mode.toNat = expectedMode ∧ least ≤ remainingS.toNat) (fun _ => True)
      (validateLightStatus (lightStatusBytes mode remainingS) expectedMode (some least)) := by
  have hlen : (lightStatusBytes mode remainingS).length = 3 := rfl
  have hmode : (lightStatusBytes mode remainingS).getD 0 0 = mode := rfl
  have hvalue : value (((lightStatusBytes mode remainingS).drop 1).take 2) = remainingS.toNat :=
    value_putLe16 remainingS
  unfold validateLightStatus
  simp only [hlen, hmode, hvalue, ne_eq, not_true_eq_false, if_false]
  split_ifs with hsame hless
  · exact .error fun h => Nat.not_le.mpr hless h.2
  · exact .ok ⟨hsame, Nat.not_lt.mp hless⟩ trivial
  · exact .error fun h => hsame h.1

/-! ## The vectors -/

def batchVectors : BatchVectors where
  writeSlot1 := 0x10 :: ((flowPart 12).record 1).toBytes
  readSlot1 := [0x01, 0x01]
  readAll := [0x02]
  setSlot1Qty42 := [0x30, 0x01, 0x2A, 0x00]
  lightFindSlot1Red10s := LightControl.findSlot1
  lightOff := List.replicate 17 0

theorem makeBatchVectors_eq : makeBatchVectors = .ok batchVectors := by
  have hfind : LightCommand.encode
      { mode := .find, maskA := 1, colorA := #v[255, 0, 0], timeoutS := 10 } =
        .ok LightControl.findSlot1 := by decide +kernel
  have hoff : LightCommand.encode
      { mode := .off, maskA := 0, colorA := #v[0, 0, 0], timeoutS := 0 } =
        .ok (List.replicate 17 0) := by decide +kernel
  have hmask : slotMask [1] = .ok 1 := by decide +kernel
  rw [makeBatchVectors, makeTestVectors_eq, hmask, hoff]
  change ((LightCommand.encode
    { mode := .find, maskA := 1, colorA := #v[255, 0, 0], timeoutS := 10 }).mapError
      BatchError.light >>= fun find => _) = _
  rw [hfind]
  rfl

theorem shines_findSlot1 {order : Option LightControl.Order} {light : LightControl}
    (h : LightControl.Obeys order light) (nowMs : ℤ) :
    LightControl.Shines (nowMs, PartRack.LightCommand.ofBytes LightControl.findSlot1)
      (nowMs + 10000) (light.lightCommandWrite 0 LightControl.findSlot1 nowMs).2 := by
  have hlit : LightControl.Obeys
      (some (nowMs, PartRack.LightCommand.ofBytes LightControl.findSlot1))
      (light.lightCommandWrite 0 LightControl.findSlot1 nowMs).2 :=
    h.step (e := .write 0 LightControl.findSlot1 nowMs) rfl
  generalize (light.lightCommandWrite 0 LightControl.findSlot1 nowMs).2 = lit at *
  cases hlit with
  | @on _ dueMs _ hshines =>
    obtain ⟨policy, hresolve, -, hdue⟩ := hshines.due
    have hpolicy : LightPolicy.resolve (PartRack.LightCommand.ofBytes LightControl.findSlot1) =
        .ok ⟨1, 10, true⟩ := by decide
    obtain rfl := Except.ok.inj (hpolicy.symm.trans hresolve)
    have hten : dueMs = nowMs + 10000 := hdue
    rw [hten] at hshines
    exact hshines

theorem one_le_remainingS_iff {order : LightControl.Order} {dueMs : ℤ}
    {light : LightControl} (h : LightControl.Shines order dueMs light) (hnonneg : 0 ≤ order.1)
    {nowMs : ℤ} (hnow : order.1 ≤ nowMs) :
    1 ≤ (light.lightState.remainingS nowMs).toNat ↔ nowMs < dueMs := by
  rw [← Nat.cast_le (α := ℤ), h.toNat_remainingS hnonneg hnow, Nat.cast_one, Int.one_le_ceil_iff,
    div_pos_iff_of_pos_right (by norm_num : (0 : ℚ) < 1000), Int.cast_pos, lt_max_iff,
    or_iff_right (lt_irrefl 0), sub_pos]

theorem passesIff_findStatus {light : LightControl} {nowMs dueMs : ℤ} (h : LightControl.Shines
      (nowMs, PartRack.LightCommand.ofBytes LightControl.findSlot1) dueMs light)
    (hnonneg : 0 ≤ nowMs) {readMs : ℤ} (hread : nowMs ≤ readMs) :
    PassesIff (readMs < dueMs) (fun _ => True) (validateLightStatus
      (lightStatusBytes light.lightState.mode (light.lightState.remainingS readMs)) 1 (some 1)) := by
  have hmode : light.lightState.mode.toNat = 1 :=
    congrArg (fun l => l.mode.toNat) h.lightState
  refine (passesIff_lightStatus_remaining _ _ 1 1).congr ?_
  rw [and_iff_right hmode]
  exact one_le_remainingS_iff h hnonneg hread

/-! ## The phases of the batch -/

namespace Surroundings

/-- The flash and the stack take everything, nobody else writes to the device, READ_ALL gets its
26 turns while the script waits for it, and the lights are looked at before they go off. -/
structure Working (env : Surroundings) : Prop where
  save : ∀ value, env.save value = 0
  gatt : ∀ attr value, env.gatt attr value = 0
  background : ∀ sleep, ∀ e ∈ env.during sleep, e.Background
  turns : (List.replicate 26 (AppEvent.readAllWork env.gatt)).Sublist (env.during .readAll)
  find : 0 ≤ env.clock .find
  findRead : env.clock .find ≤ env.clock .findRead
  inTime : env.clock .findRead < env.clock .find + 10000
  before : ∀ e ∈ env.during .find, e.Before (some (env.clock .find + 10000))

section Phases
variable {env : Surroundings} {c : Client} {o : Option Part} {row : List (Option Part)}
  {tableSeq : BitVec 32} {light : LightControl}

theorem Working.sleep (henv : env.Working) (sleep : Sleep) (h : Steady c.app row tableSeq light)
    (hoff : light.offWork = none) : Steady (c.sleep (env.during sleep)).app row tableSeq light := by
  refine h.sleep_before (henv.background sleep) fun e _ => ?_
  rw [hoff]
  exact e.before_none

theorem Working.change (henv : env.Working) (sleep : Sleep) (h : Steady c.app row tableSeq light)
    (hoff : light.offWork = none) {code : Byte}
    {args : List Byte} {op : TableOp} (hframe : Request.ofFrame code args = .mutate op)
    (hvalid : op.Valid (ofContents row)) (hidle : ¬op.IdleMove) :
    Steady (env.request (code :: args) sleep c).app (op.act row) (nextSeq tableSeq) light ∧
      validateStatusNotification (env.request (code :: args) sleep c).notifications code 0 =
        .ok () := by
  have hclear : Steady c.clear.app row tableSeq light := h
  obtain ⟨hsteady, hnotifications⟩ := hclear.mutate henv.save henv.gatt hframe hvalid hidle
  refine ⟨henv.sleep sleep hsteady hoff, if_pos (Client.mem_sleep ?_ _)⟩
  rw [hnotifications]
  exact List.mem_append_right _ (List.mem_singleton_self _)

theorem passesIff_batchStart {s : App} (h : Steady s row tableSeq light) :
    PassesIff (light.lightState.mode = PartRack.LightMode.off)
      (fun r => r.1 = (getInfo ⟨ofContents row, tableSeq⟩).toBytes ∧
        Steady r.2.app row tableSeq light) (env.batchStart s) := by
  have hstart : Steady (Client.mk s []).app row tableSeq light := h
  obtain ⟨hread, hinfo⟩ := hstart.readTableInfo
  obtain ⟨hsteady, hstatus⟩ := hread.readLightStatus (env.clock .start)
  unfold batchStart
  dsimp only
  rw [hinfo, validateTableInfo_toBytes, hstatus]
  change PassesIff _ _ (validateLightStatus _ 0 none >>= fun _ => .ok _)
  refine ((passesIff_lightStatus _ _ 0).bind fun _ _ => .pure ⟨rfl, hsteady⟩).congr ?_
  rw [and_true]
  exact ⟨fun hzero => BitVec.eq_of_toNat_eq hzero, fun heq => congrArg BitVec.toNat heq⟩

theorem toNat_nextSeq {tableSeq : BitVec 32} (h : tableSeq.toNat + 1 < 2 ^ 32) :
    (nextSeq tableSeq).toNat = tableSeq.toNat + 1 := by
  have hne : tableSeq ≠ 0xFFFFFFFF := by
    rintro rfl
    exact absurd h (by decide)
  rw [nextSeq_eq, if_neg hne, BitVec.toNat_add]
  exact Nat.mod_eq_of_lt h

theorem toNat_lt_nextSeq (tableSeq : BitVec 32) :
    tableSeq.toNat < (nextSeq tableSeq).toNat ↔ tableSeq.toNat + 1 < 2 ^ 32 := by
  constructor
  · intro hlt
    exact lt_of_le_of_lt hlt (nextSeq tableSeq).isLt
  · intro h
    rw [toNat_nextSeq h]
    exact Nat.lt_succ_self _

theorem ofContents_cons (p : Part) (o : Option Part) (rest : List (Option Part)) :
    ofContents (some p :: rest) = (ofContents (o :: rest)).set 0 (p.record 1) := by
  apply Vector.ext
  intro i hi
  rw [Vector.getElem_set, getElem_ofContents _ i hi]
  split_ifs with hzero
  · subst hzero
    rfl
  · rw [getElem_ofContents _ i hi, ← Nat.succ_pred_eq_of_ne_zero (Ne.symm hzero)]
    rfl

theorem passesIff_batchWrite (henv : env.Working) (h : Steady c.app (o :: row) tableSeq light)
    (hoff : light.offWork = none) :
    PassesIff (tableSeq.toNat + 1 < 2 ^ 32 ∧
        ((flowPart 12).record 1).fingerprint ≠ (place 1 o).fingerprint)
      (fun r => r.1 =
          (getInfo ⟨ofContents (some (flowPart 12) :: row), nextSeq tableSeq⟩).toBytes ∧
        Steady r.2.app (some (flowPart 12) :: row) (nextSeq tableSeq) light)
      (env.batchWrite batchVectors (getInfo ⟨ofContents (o :: row), tableSeq⟩).toBytes c) := by
  have hvalid : (TableOp.writeOne ((flowPart 12).record 1)).Valid (ofContents (o :: row)) :=
    ⟨(by decide : ValidSlot 1), (flowPart 12).crcOk_record 1⟩
  obtain ⟨hsteady, hstatus⟩ : Steady (env.request batchVectors.writeSlot1 .write c).app
        (some (flowPart 12) :: row) (nextSeq tableSeq) light ∧
      validateStatusNotification (env.request batchVectors.writeSlot1 .write c).notifications 0x10 0 =
        .ok () :=
    henv.change .write h hoff
      (ControlPoint.ofFrame_writeOne (flowPart 12) 1) hvalid
      (TableOp.not_idleMove fun _ _ => TableOp.noConfusion)
  obtain ⟨hread, hinfo⟩ := hsteady.readTableInfo
  have hcrc : (getInfo ⟨ofContents (some (flowPart 12) :: row), nextSeq tableSeq⟩).crc16Le ≠
      (getInfo ⟨ofContents (o :: row), tableSeq⟩).crc16Le ↔
        ((flowPart 12).record 1).fingerprint ≠ (place 1 o).fingerprint := by
    have hfirst : (ofContents (o :: row))[0] = place 1 o :=
      getElem_ofContents (o :: row) 0 (by decide)
    rw [ofContents_cons (flowPart 12) o row]
    refine not_congr ((crc16_set_iff (ofContents (o :: row)) (by decide : 0 < 25) _ _ _).trans ?_)
    rw [hfirst]
  unfold batchWrite
  dsimp only
  rw [hstatus, hinfo, ok_bind]
  refine PassesIff.congr ((passesIff_seqIncreased _ _).bind fun _ _ =>
    (passesIff_crcChanged _ _).bind fun _ _ => ?_)
      (and_congr (toNat_lt_nextSeq tableSeq) ((and_true _).to_iff.trans hcrc))
  exact .pure ⟨hinfo, hread⟩

theorem readOneReply_injective {o o' : Option Part} (h : readOneReply 1 o = readOneReply 1 o') :
    o = o' := by
  have hbytes : (place 1 o).toBytes = (place 1 o').toBytes := List.append_cancel_left h
  have hplace : place 1 o = place 1 o' := by
    rw [← PartRack.SlotRecord.ofBytes_toBytes (place 1 o), hbytes,
      PartRack.SlotRecord.ofBytes_toBytes]
  rw [← content_place (by decide : 1 ≤ 1 ∧ 1 ≤ 25) o, hplace, content_place (by decide)]

theorem passesIff_readSlot (henv : env.Working) (sleep : Sleep)
    (h : Steady c.app (o :: row) tableSeq light) {qty : ℕ} (hqty : qty ≤ 65535) :
    PassesIff (o = some (flowPart qty))
      (fun c' => Steady c'.app (o :: row) tableSeq c'.app.env.light ∧
        (light.offWork = none → c'.app.env.light = light))
      (env.readSlot batchVectors sleep qty c) := by
  have hclear : Steady c.clear.app (o :: row) tableSeq light := h
  obtain ⟨hread, hnotifications⟩ :
      Steady (c.clear.happen (.bindingCpWrite env.save env.gatt 0 batchVectors.readSlot1)).app
        (o :: row) tableSeq light ∧
      (c.clear.happen (.bindingCpWrite env.save env.gatt 0 batchVectors.readSlot1)).notifications =
        [readOneReply 1 o] := hclear.readOne henv.gatt (by decide : 0 < 25) rfl
  have hmem : readOneReply 1 (some (flowPart qty)) ∈
      (env.request batchVectors.readSlot1 sleep c).notifications ↔ o = some (flowPart qty) := by
    constructor
    · intro hheard
      rcases hread.mem_sleep (henv.background sleep) hheard with hreply | hframe
      · rw [hnotifications] at hreply
        exact (readOneReply_injective (List.mem_singleton.mp hreply)).symm
      · exact absurd (Option.some.inj hframe) (by decide)
    · rintro rfl
      refine Client.mem_sleep ?_ _
      rw [hnotifications]
      exact List.mem_singleton_self _
  unfold readSlot
  dsimp only
  rw [expectedSlot1Record_eq hqty, ok_bind]
  refine PassesIff.congr (PassesIff.bind (PassesIff.ite (Q := fun _ => True) _ fun _ => trivial)
      fun _ _ => ?_)
    ((and_true _).to_iff.trans hmem)
  refine .pure ⟨hread.sleep (henv.background sleep), fun hoff => ?_⟩
  exact (henv.sleep sleep hread hoff).light

theorem passesIff_readSlot_part (henv : env.Working) (sleep : Sleep) {qty : ℕ}
    (h : Steady c.app (some (flowPart qty) :: row) tableSeq light) (hoff : light.offWork = none)
    (hqty : qty ≤ 65535) :
    PassesIff True (fun c' => Steady c'.app (some (flowPart qty) :: row) tableSeq light)
      (env.readSlot batchVectors sleep qty c) := by
  refine ((passesIff_readSlot henv sleep h hqty).congr (iff_true_intro rfl)).imp ?_
  rintro c' ⟨hsteady, hlight⟩
  rwa [hlight hoff] at hsteady

theorem passesIff_batchReadAll (henv : env.Working)
    (h : Steady c.app (some (flowPart 12) :: row) tableSeq light) (hoff : light.offWork = none) :
    PassesIff True (fun c' => Steady c'.app (some (flowPart 12) :: row) tableSeq light)
      (env.batchReadAll batchVectors c) := by
  have hclear : Steady c.clear.app (some (flowPart 12) :: row) tableSeq light := h
  obtain ⟨hstarted, hgathered⟩ := hclear.readAll env.save env.gatt
  have hsteady : Steady (env.request batchVectors.readAll .readAll c).app
      (some (flowPart 12) :: row) tableSeq light := henv.sleep .readAll hstarted hoff
  obtain ⟨n, hn, hframes, -, -⟩ := hgathered.sleep (henv.gatt .bindingCp) hstarted
    (henv.background .readAll) henv.turns
  rw [hstarted.records_eq] at hframes
  have hfirst : [0x02, 0x00] ++ ((flowPart 12).record 1).toBytes ∈
      (env.request batchVectors.readAll .readAll c).notifications := by
    have hframe := hframes 0 (by decide) (by omega)
    rwa [readAllFrame, readAllPayload_of_lt _ (by decide : 0 < 25), getElem_ofContents] at hframe
  have hlast : [0x02, 0x00, 0xFF] ∈
      (env.request batchVectors.readAll .readAll c).notifications :=
    hframes 25 (by decide) (by omega)
  have hrecord : expectedSlot1Record 12 = .ok ((flowPart 12).record 1).toBytes :=
    expectedSlot1Record_eq (by decide)
  unfold batchReadAll
  dsimp only
  rw [hrecord, ok_bind, validateReadAllPartialNotifications,
    if_pos (List.contains_iff_mem.mpr hfirst), ok_bind, validateReadAllNotifications,
    if_pos (List.contains_iff_mem.mpr hlast), ok_bind]
  exact .pure hsteady

theorem passesIff_batchSetQty (henv : env.Working)
    (h : Steady c.app (some (flowPart 12) :: row) tableSeq light) (hoff : light.offWork = none) :
    PassesIff True (fun c' => Steady c'.app (some (flowPart 42) :: row) (nextSeq tableSeq) light)
      (env.batchSetQty batchVectors c) := by
  have hbound : (ofContents (some (flowPart 12) :: row))[0].slot ≠ 0 := by
    rw [getElem_ofContents _ 0 (by decide)]
    show (1 : Byte) ≠ 0
    decide
  have hvalid : (TableOp.setQty 1 42).Valid (ofContents (some (flowPart 12) :: row)) :=
    ⟨by decide, by decide, hbound⟩
  obtain ⟨hsteady, hstatus⟩ : Steady (env.request batchVectors.setSlot1Qty42 .setQty c).app
        (some (flowPart 42) :: row) (nextSeq tableSeq) light ∧
      validateStatusNotification (env.request batchVectors.setSlot1Qty42 .setQty c).notifications
        0x30 0 = .ok () :=
    henv.change .setQty h hoff rfl hvalid
      (TableOp.not_idleMove fun _ _ => TableOp.noConfusion)
  unfold batchSetQty
  dsimp only
  rw [hstatus, ok_bind]
  exact .pure hsteady

theorem passesIff_batchTableInfo (row' : List (Option Part))
    (h : Steady c.app row (nextSeq tableSeq) light) :
    PassesIff (tableSeq.toNat + 1 < 2 ^ 32) (fun c' => Steady c'.app row (nextSeq tableSeq) light)
      (batchTableInfo (getInfo ⟨ofContents row', tableSeq⟩).toBytes c) := by
  obtain ⟨hread, hinfo⟩ := h.readTableInfo
  unfold batchTableInfo
  dsimp only
  rw [hinfo]
  refine PassesIff.congr ((passesIff_seqIncreased _ _).bind fun _ _ => ?_)
    ((and_true _).to_iff.trans (toNat_lt_nextSeq tableSeq))
  exact .pure hread

theorem passesIff_batchFind (henv : env.Working) (h : Steady c.app row tableSeq light)
    (hobeys : LightControl.Obeys none light) :
    PassesIff True (fun c' => ∃ light' order, Steady c'.app row tableSeq light' ∧
      LightControl.Obeys order light') (env.batchFind batchVectors c) := by
  have hshines := shines_findSlot1 hobeys (env.clock .find)
  have hsent := h.lightCommand env.gatt LightControl.findSlot1 (env.clock .find)
  generalize (light.lightCommandWrite 0 LightControl.findSlot1 (env.clock .find)).2 = lit at *
  have hasleep : Steady (env.lightRequest batchVectors.lightFindSlot1Red10s .find .find c).app row
      tableSeq lit := by
    refine hsent.sleep_before (henv.background .find) fun e he => ?_
    rw [hshines.offWork]
    exact henv.before e he
  obtain ⟨hread, hstatus⟩ := hasleep.readLightStatus (env.clock .findRead)
  unfold batchFind
  dsimp only
  rw [hstatus]
  have hvalid := (passesIff_findStatus hshines henv.find henv.findRead).congr
    (iff_true_intro henv.inTime)
  exact hvalid.andThen fun _ _ => .pure ⟨lit, _, hread, .on hshines⟩

theorem passesIff_batchOff (henv : env.Working) (h : Steady c.app row tableSeq light)
    {order : Option LightControl.Order} (hobeys : LightControl.Obeys order light) :
    PassesIff True (fun c' => ∃ light', Steady c'.app row tableSeq light' ∧
      LightControl.Obeys none light') (env.batchOff batchVectors c) := by
  have hdark : LightControl.Obeys none
      (light.lightCommandWrite 0 (List.replicate 17 0) (env.clock .off)).2 :=
    hobeys.step (e := .write 0 (List.replicate 17 0) (env.clock .off)) rfl
  have hsent := h.lightCommand env.gatt (List.replicate 17 0) (env.clock .off)
  generalize (light.lightCommandWrite 0 (List.replicate 17 0) (env.clock .off)).2 = dark at *
  obtain ⟨hoff⟩ := hdark
  have hasleep : Steady (env.lightRequest batchVectors.lightOff .off .off c).app row tableSeq dark :=
    henv.sleep .off hsent hoff.offWork
  obtain ⟨hread, hstatus⟩ := hasleep.readLightStatus (env.clock .offRead)
  have hmode : dark.lightState.mode = 0 := hoff.mode
  unfold batchOff
  dsimp only
  rw [hstatus, hmode]
  refine ((passesIff_lightStatus 0 _ 0).bind fun _ _ => .pure ?_).congr
    ((and_true _).to_iff.trans (iff_true_intro rfl))
  exact ⟨dark, hread, .off hoff⟩

theorem passesIff_batchWith (henv : env.Working) (h : Steady c.app (o :: row) tableSeq light)
    (hobeys : LightControl.Obeys none light) :
    PassesIff (tableSeq.toNat + 2 < 2 ^ 32 ∧
        ((flowPart 12).record 1).fingerprint ≠ (place 1 o).fingerprint)
      (fun c' => ∃ light', Steady c'.app (some (flowPart 42) :: row) (nextSeq (nextSeq tableSeq))
        light' ∧ LightControl.Obeys none light')
      (env.batchWith batchVectors (getInfo ⟨ofContents (o :: row), tableSeq⟩).toBytes c) := by
  have hoff : light.offWork = none := by
    obtain ⟨hdark⟩ := hobeys
    exact hdark.offWork
  have hseq : (tableSeq.toNat + 1 < 2 ^ 32 ∧
        ((flowPart 12).record 1).fingerprint ≠ (place 1 o).fingerprint) ∧
      (nextSeq tableSeq).toNat + 1 < 2 ^ 32 ↔ tableSeq.toNat + 2 < 2 ^ 32 ∧
        ((flowPart 12).record 1).fingerprint ≠ (place 1 o).fingerprint := by
    constructor
    · rintro ⟨⟨hone, hrecord⟩, htwo⟩
      rw [toNat_nextSeq hone] at htwo
      exact ⟨htwo, hrecord⟩
    · rintro ⟨htwo, hrecord⟩
      have hone : tableSeq.toNat + 1 < 2 ^ 32 := Nat.lt_of_succ_lt htwo
      rw [toNat_nextSeq hone]
      exact ⟨⟨hone, hrecord⟩, htwo⟩
  refine PassesIff.congr ((passesIff_batchWrite henv h hoff).bind fun written hwritten => ?_) hseq
  obtain ⟨hinfo, h⟩ := hwritten
  refine (passesIff_readSlot_part henv .read h hoff (by decide)).andThen fun c h => ?_
  refine (passesIff_batchReadAll henv h hoff).andThen fun c h => ?_
  refine (passesIff_batchSetQty henv h hoff).andThen fun c h => ?_
  refine (passesIff_readSlot_part henv .readAgain h hoff (by decide)).andThen fun c h => ?_
  rw [hinfo]
  refine PassesIff.congr ((passesIff_batchTableInfo _ h).bind fun c h => ?_) (and_true _).to_iff
  refine (passesIff_batchFind henv h hobeys).andThen fun c h => ?_
  obtain ⟨lit, order, h, hlit⟩ := h
  exact passesIff_batchOff henv h hlit

theorem passesIff_runBatch (henv : env.Working) {s : App} (h : Steady s (o :: row) tableSeq light)
    {order : Option LightControl.Order} (hobeys : LightControl.Obeys order light) :
    PassesIff (light.lightState.mode = PartRack.LightMode.off ∧ tableSeq.toNat + 2 < 2 ^ 32 ∧
        ((flowPart 12).record 1).fingerprint ≠ (place 1 o).fingerprint)
      (fun c => ∃ light', Steady c.app (some (flowPart 42) :: row) (nextSeq (nextSeq tableSeq))
        light' ∧ LightControl.Obeys none light') (env.runBatch s) := by
  refine ((passesIff_batchStart h).condition.mapError BatchError.smoke).bind fun start hstart => ?_
  obtain ⟨hmode, hinfo, hsteady⟩ := hstart
  have hdark : LightControl.Obeys none light := by
    cases hobeys with
    | off hoff => exact .off hoff
    | on hshines => exact absurd hmode hshines.mode
  rw [makeBatchVectors_eq, hinfo]
  exact (passesIff_batchWith henv hsteady hdark).mapError BatchError.smoke

end Phases

/-! ## A device with any past -/

section Device
variable {env : Surroundings} {s : App}

theorem steady_of_run {device : Device} (h : device.Synced)
    (hwf : WellFormed device.firmware.tableModel.records) {outputsErr stripErr : Int} {commits : ℕ}
    {events : List AppEvent}
    (hs : App.run (App.boot device outputsErr stripErr commits) events = some s)
    (hconn : s.env.currentConn = true) :
    ∃ o row, Steady s (o :: row) s.env.table.tableSeq s.env.light ∧
      s.env.table.records[0] = place 1 o := by
  have hinvariant := App.invariant_boot h outputsErr stripErr commits
  obtain ⟨hwf', -⟩ := App.explains_run hinvariant hwf hs
  cases hrow : contents s.env.table.records with
  | nil =>
    have hlen := length_contents s.env.table.records
    rw [hrow] at hlen
    exact absurd hlen (by decide)
  | cons o row =>
    have hsteady : Steady s (o :: row) s.env.table.tableSeq s.env.light :=
      ⟨(App.invariant_along h _ _ _ events).of_foldlM hs, hconn, ⟨hwf', hrow⟩, rfl, rfl⟩
    exact ⟨o, row, hsteady, hsteady.row.getElem (by decide)⟩

theorem passesIff_runPersistenceRead (henv : env.Working) {o : Option Part}
    {row : List (Option Part)} {tableSeq : BitVec 32} {light : LightControl}
    (h : Steady s (o :: row) tableSeq light) :
    PassesIff (o = some (flowPart 42)) (fun _ => True) (env.runPersistenceRead s) := by
  have hstart : Steady (Client.mk s []).app (o :: row) tableSeq light := h
  obtain ⟨hread, hinfo⟩ := hstart.readTableInfo
  have hslot := passesIff_readSlot henv .read hread (by decide : 42 ≤ 65535)
  unfold runPersistenceRead
  dsimp only
  rw [hinfo, validateTableInfo_toBytes, makeBatchVectors_eq]
  exact (hslot.mapError BatchError.smoke).imp fun _ _ => trivial

/-! ### The batch -/

variable {device : Device} {stripErr : Int} {commits : ℕ} {events : List AppEvent}

/-- On any device that a client is connected to, `run_batch` passes exactly if the lights are off,
the sequence number has room for two changes, and what slot 1 holds leaves another remainder than
the record that the batch writes there. -/
theorem runBatch_passes_iff (h : device.Synced)
    (hwf : WellFormed device.firmware.tableModel.records) (hready : ∀ e ∈ events, e.OutputsReady)
    (hs : App.run (App.boot device 0 stripErr commits) events = some s)
    (hconn : s.env.currentConn = true) (henv : env.Working) :
    (∃ c, env.runBatch s = .ok c) ↔
      s.env.light.lightState.mode = PartRack.LightMode.off ∧
        s.env.table.tableSeq.toNat + 2 < 2 ^ 32 ∧
        ((flowPart 12).record 1).fingerprint ≠ s.env.table.records[0].fingerprint := by
  obtain ⟨o, row, hsteady, hfirst⟩ := steady_of_run h hwf hs hconn
  have hobeys := App.obeys_run (App.invariant_boot h _ _ _)
    (.off (LightControl.allOff_lightControlInit stripErr)) hready hs
  rw [hfirst]
  exact (passesIff_runBatch henv hsteady hobeys).exists_ok_iff

/-- On any device that a client is connected to, whatever else it is told meanwhile,
`run_persistence_read` passes exactly if slot 1 holds what the batch leaves there. -/
theorem runPersistenceRead_passes_iff {outputsErr : Int} (h : device.Synced)
    (hwf : WellFormed device.firmware.tableModel.records)
    (hs : App.run (App.boot device outputsErr stripErr commits) events = some s)
    (hconn : s.env.currentConn = true) (henv : env.Working) :
    (∃ c, env.runPersistenceRead s = .ok c) ↔
      s.env.table.records[0] = (flowPart 42).record 1 := by
  obtain ⟨o, row, hsteady, hfirst⟩ := steady_of_run h hwf hs hconn
  rw [(passesIff_runPersistenceRead henv hsteady).exists_ok_iff, hfirst]
  constructor
  · rintro rfl
    rfl
  · intro hplace
    rw [← content_place (by decide : 1 ≤ 1 ∧ 1 ≤ 25) o, hplace]
    rfl

/-- The device as it is, on a healthy link. -/
def healthy : Surroundings where
  save := fun _ => 0
  gatt := fun _ _ => 0
  clock
    | .start => 0
    | .find => 1000
    | .findRead => 1200
    | .off => 1300
    | .offRead => 1500
  during
    | .readAll => App.items 26
    | _ => []

theorem working_healthy : healthy.Working where
  save _ := rfl
  gatt _ _ := rfl
  background sleep e he := by
    cases sleep with
    | readAll =>
      obtain rfl := List.eq_of_mem_replicate he
      trivial
    | _ => exact absurd he List.not_mem_nil
  turns := List.Sublist.refl _
  find := by decide
  findRead := by decide
  inTime := by decide
  before e he := absurd he List.not_mem_nil

theorem runBatch_passes_iff_lit : ∃ t, App.run (App.boot Device.init 0 0 0)
    [.connected 0, .lightCommandWrite healthy.gatt 0 LightControl.findSlot1 500] = some t ∧
      ¬∃ c, healthy.runBatch t = .ok c := by
  have hready : ∀ e ∈ [AppEvent.connected 0,
      .lightCommandWrite healthy.gatt 0 LightControl.findSlot1 500], e.OutputsReady :=
    List.forall_mem_cons.mpr ⟨trivial, List.forall_mem_singleton.mpr trivial⟩
  refine ⟨_, rfl, (runBatch_passes_iff Device.synced_init wellFormed_emptyRecords hready rfl rfl
    working_healthy).not.mpr fun hpasses => ?_⟩
  exact absurd hpasses.1 (by decide)

theorem runPersistenceRead_passes_iff_connectedOnce :
    ¬∃ c, healthy.runPersistenceRead App.connectedOnce = .ok c := by
  have hrun : App.run (App.boot Device.init 0 0 0) [.connected 0] = some App.connectedOnce := rfl
  refine (runPersistenceRead_passes_iff Device.synced_init wellFormed_emptyRecords hrun rfl
    working_healthy).not.mpr fun heq => ?_
  exact absurd (congrArg PartRack.SlotRecord.slot heq) (by decide)

end Device
end Surroundings

end HostTools
end PartRack
