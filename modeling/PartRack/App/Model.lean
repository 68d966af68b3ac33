import PartRack.BindingTable.VersionStamp
import PartRack.Lifecycle.Freshness
import PartRack.Light.Control
import PartRack.Persistence.Settings
import PartRack.ReadAll.Session

/-! The firmware as one program (firmware/nrf52/app/src/app_ble.c with main.c, nfc_wake.c and
the files that app_ble.c ties together). A callback of the Bluetooth stack, a work item and an
interrupt each run to their end, except that all of them may run while
`lifecycle_apply_advertising` is under way. -/

namespace PartRack
open LittleEndian

def Errno.ENOTCONN : Int := 128

namespace BindingTable

def hasUnboundSlot (model : BindingTable) : Bool := model.records.toList.any fun r => r.slot == 0

/-- The packed layout of `vbrk_table_info_t`. -/
def TableInfo.toBytes (info : TableInfo) : List Byte :=
  bytes 4 info.tableSeqLe.toNat ++ bytes 2 info.crc16Le.toNat ++ [info.slotCount]

end BindingTable

/-- The characteristics of the binding and the light service. -/
inductive GattAttr
  | bindingCp
  | tableInfo
  | lightCommand
  | lightStatus
deriving DecidableEq, Repr

/-- What passes between the client and the device: a write, the value of a read, and a
notification that the stack has accepted. -/
inductive AttPdu
  | write (attr : GattAttr) (offset : ℕ) (value : List Byte)
  | read (attr : GattAttr) (value : List Byte)
  | notify (attr : GattAttr) (value : List Byte)
deriving DecidableEq, Repr

/-- What `bt_gatt_notify` returns in one handler; it is called at most once for an attribute. -/
abbrev GattNotify := GattAttr → List Byte → Int

/-- The static variables of app_ble.c and nfc_wake.c with the modules behind them. `bleStarted`
tells whether main has called `app_ble_start`, `readAllWork` holds the delay of a pending work
item, `advFilled` whether the call of `lifecycle_apply_advertising` has filled in `advMsd`, and
`advData` the data that the stack took last. The last three fields only record the past: what has passed over
the present connection or, without one, over the last; how often the table has been stored; and
the invalidations since the last successful `lifecycle_apply_advertising` began. -/
structure AppState where
  world : World
  bleStarted : Bool
  bleConnected : Bool
  currentConn : Bool
  device : Device
  light : LightControl
  readAllWork : Option ℕ
  advFilled : Bool
  advMsd : List Byte
  advData : Option (List Byte)
  lastFdMs : ℤ
  att : List AttPdu
  commits : ℕ
  invalidations : ℕ
deriving DecidableEq, Repr

abbrev App := Paced AppState

namespace AppState
open BindingTable

def table (s : AppState) : BindingTable := s.device.firmware.tableModel

def tableInfoBytes (s : AppState) : List Byte := s.table.getInfo.toBytes

def lightStatusBytes (mode : Byte) (remainingS : BitVec 16) : List Byte :=
  mode :: AdvPayload.putLe16 remainingS

def push (pdu : AttPdu) (s : AppState) : AppState := { s with att := s.att ++ [pdu] }

/-! ## Notifications -/

def btGattNotify (gatt : GattNotify) (attr : GattAttr) (value : List Byte) :
    StateM AppState Int := fun s =>
  (gatt attr value, if gatt attr value = 0 then s.push (.notify attr value) else s)

def lifecycleNotifyBinding (gatt : GattNotify) (op : Byte) (status : Status)
    (payload : List Byte) : StateM AppState Int := fun s =>
  if s.currentConn = false ∨ 16 < payload.length then (-Errno.ENOTCONN, s)
  else btGattNotify gatt .bindingCp (op :: status.code :: payload) s

def lifecycleNotifyTableInfo (gatt : GattNotify) : StateM AppState Int := fun s =>
  if s.currentConn = false then (-Errno.ENOTCONN, s)
  else btGattNotify gatt .tableInfo s.tableInfoBytes s

def lifecycleNotifyLightStatus (gatt : GattNotify) (mode : Byte) (remainingS : BitVec 16) :
    StateM AppState Int := fun s =>
  if s.currentConn = false then (-Errno.ENOTCONN, s)
  else btGattNotify gatt .lightStatus (lightStatusBytes mode remainingS) s

/-- `app_ble_notify_binding_result`. -/
def notifyBindingResult (gatt : GattNotify) (op : Byte) (status : Status) (payload : List Byte) :
    StateM AppState Int := fun s =>
  if s.world.lifecycle.connected = false then (-Errno.ENOTCONN, s)
  else lifecycleNotifyBinding gatt op status payload s

/-! ## Reports to the lifecycle -/

/-- A call into the adapter; `World.invalidate` has submitted the work item. -/
def perform (gatt : GattNotify) (s : AppState) : AdapterCall → AppState
  | .scheduleWork => s
  | .notifyTableInfo => (lifecycleNotifyTableInfo gatt s).2
  | .notifyLightStatus mode remainingS => (lifecycleNotifyLightStatus gatt mode remainingS s).2

def invalidate (r : Lifecycle × List AdapterCall) (s : AppState) : AppState :=
  { s with world := s.world.invalidate r, invalidations := s.invalidations + 1 }

def report (gatt : GattNotify) (r : Lifecycle × List AdapterCall) (s : AppState) : AppState :=
  r.2.foldl (perform gatt) (s.invalidate r)

/-- `app_ble_report_binding_changed`. -/
def reportBindingChanged (gatt : GattNotify) (s : AppState) : AppState :=
  s.report gatt s.world.lifecycle.reportBindingChanged

/-- `app_ble_report_light_changed`, with what it reads from the light. -/
def reportLightChanged (gatt : GattNotify) (s : AppState) (status : Byte × BitVec 16) :
    AppState :=
  s.report gatt (s.world.lifecycle.reportLightChanged status.1 status.2)

/-- `app_ble_report_nfc_fd`. -/
def reportNfcFd (gatt : GattNotify) (s : AppState) : AppState :=
  s.report gatt s.world.lifecycle.reportNfcFd

/-! ## The table behind the dispatcher -/

def mutate (save : SettingsSaveOne) (op : TableOp) : StateM AppState Int := fun s =>
  let outcome := s.device.firmware.call save op
  (outcome.err, { s with
    device := s.device.step (.call save op)
    commits := s.commits + outcome.effects.countP Effect.isStore })

def dispatcher (save : SettingsSaveOne) (gatt : GattNotify) : Dispatcher AppState where
  readOne slot := fun s => (s.table.readOne slot SlotRecord.zero, s)
  writeOne record := mutate save (.writeOne record)
  clearOne slot := mutate save (.clearOne slot)
  insertAt slot record := mutate save (.insertAt slot record)
  removeAt slot := mutate save (.removeAt slot)
  moveBlock fromSlot toSlot len := mutate save (.moveBlock fromSlot toSlot len)
  setQty slot qty := mutate save (.setQty slot qty)
  factoryReset magic := mutate save (.factoryReset magic)
  notifyBinding op status payload := notifyBindingResult gatt op status payload
  tableChanged := fun s => ((), s.reportBindingChanged gatt)

/-! ## The light -/

def putLight (light : LightControl) (s : AppState) : AppState := { s with light := light }

/-- The light after one of its handlers, which reports each change. -/
def setLight (gatt : GattNotify) (light : LightControl) (s : AppState) : AppState :=
  (light.reports.drop s.light.reports.length).foldl (reportLightChanged gatt) (s.putLight light)

def lightCommandWrite (gatt : GattNotify) (offset : ℕ) (buf : List Byte) (nowMs : ℤ)
    (s : AppState) : AppState :=
  s.setLight gatt (s.light.lightCommandWrite offset buf nowMs).2

def offWorkHandler (gatt : GattNotify) (nowMs : ℤ) (s : AppState) : Option AppState :=
  (s.light.step (.expire nowMs)).map fun light => s.setLight gatt light

/-! ## Advertising -/

/-- What `fill_adv_msd` reads of the table and the light. -/
def domain (s : AppState) : Domain :=
  ⟨s.table.tableSeq, s.table.hasUnboundSlot, s.light.lightState.mode, 0, 0⟩

def bleStart (s : AppState) : Option AppState :=
  if s.bleStarted then none
  else s.world.startCall.map fun w =>
    { s with world := w, bleStarted := true, advFilled := false }

def bleLifecycleWorkHandler (s : AppState) : Option AppState :=
  if s.world.workQueued then s.world.processCall.map fun w =>
    { s with world := w, advFilled := false }
  else none

/-- The beginning of `lifecycle_apply_advertising`. -/
def fillAdvMsd (batteryPct : Byte) (fault : Bool) (s : AppState) : Option AppState :=
  match s.world.call with
  | some c =>
    if c.result = none ∧ s.advFilled = false then
      some { s with advMsd := PartRack.fillAdvMsd s.domain batteryPct fault, advFilled := true }
    else none
  | none => none

/-- `bt_le_adv_start` or `bt_le_adv_update_data`. -/
def stackApply (err : Int) (s : AppState) : Option AppState :=
  if s.advFilled then (s.world.stackApply err).map fun w =>
    { s with world := w, advData := if err = 0 then some s.advMsd else s.advData }
  else none

def applyReturn (s : AppState) : Option AppState :=
  s.world.applyReturn.map fun w =>
    { s with
      world := w
      advFilled := false
      invalidations := match s.world.call with
        | some c => if c.result = some 0 then c.invalidations else s.invalidations
        | none => s.invalidations }

/-- `nfc_fd_handler`. -/
def nfcFdHandler (gatt : GattNotify) (nowMs : ℤ) (s : AppState) : AppState :=
  if nowMs - s.lastFdMs < 50 then s else ({ s with lastFdMs := nowMs } : AppState).reportNfcFd gatt

/-- What the rest of main sets up before it calls `app_ble_start`. -/
def boot (device : Device) (outputsErr stripErr : Int) (commits : ℕ) : AppState where
  world := World.init
  bleStarted := false
  bleConnected := false
  currentConn := false
  device := device
  light := LightControl.lightControlInit outputsErr stripErr
  readAllWork := none
  advFilled := false
  advMsd := List.replicate 11 0
  advData := none
  lastFdMs := 0
  att := []
  commits := commits
  invalidations := 0

end AppState

inductive AppEvent
  | bleStart
  | lifecycleWork
  | fillAdvMsd (batteryPct : Byte) (fault : Bool)
  | stackApply (err : Int)
  | applyReturn
  | connected (err : Byte)
  | disconnected
  | bindingCpWrite (save : SettingsSaveOne) (gatt : GattNotify) (offset : ℕ) (frame : List Byte)
  | lightCommandWrite (gatt : GattNotify) (offset : ℕ) (buf : List Byte) (nowMs : ℤ)
  | tableInfoRead
  | lightStatusRead (nowMs : ℤ)
  | offWork (gatt : GattNotify) (nowMs : ℤ)
  | readAllWork (gatt : GattNotify)
  | nfcFd (gatt : GattNotify) (nowMs : ℤ)
  | powerCycle (outputsErr stripErr : Int)

namespace App
open AppState

def setEnv (env : AppState) (s : App) : App := { s with env := env }

/-- `k_work_schedule` leaves a pending work item alone. -/
def readAllScheduleNext (delayMs : ℕ) : StateM App Unit := fun s =>
  ((), s.setEnv { s.env with readAllWork := s.env.readAllWork.or (some delayMs) })

def pacerAdapter (gatt : GattNotify) : PacerAdapter AppState where
  readOne slot := fun s => (s.env.table.readOne slot SlotRecord.zero, s)
  notifyBinding op status payload := fun s =>
    let sent := notifyBindingResult gatt op status payload s.env
    (sent.1, setEnv sent.2 s)
  scheduleNext := readAllScheduleNext

/-- The work item leaves the queue as its handler begins. -/
def readAllWorkHandler (gatt : GattNotify) (s : App) : App :=
  (Pacer.process (pacerAdapter gatt) (s.setEnv { s.env with readAllWork := none })).2

/-- The result tells whether the frame, which is never empty, was taken care of. -/
def handleReadAllAsync (gatt : GattNotify) (frame : List Byte) (s : App) : Bool × App :=
  if frame.head? ≠ some BindingOp.readAll.code then (false, s)
  else if frame.length ≠ 1 then
    (true, s.setEnv (notifyBindingResult gatt BindingOp.readAll.code
      (statusFromErrno (-Errno.EINVAL)) [] s.env).2)
  else (true, (Pacer.start (pacerAdapter gatt) s).2)

/-- The result is the number of bytes taken, `none` for an invalid attribute length. -/
def bindingCpWrite (save : SettingsSaveOne) (gatt : GattNotify) (offset : ℕ) (frame : List Byte)
    (s : App) : Option ℕ × App :=
  if offset ≠ 0 ∨ frame.length < 1 then (none, s)
  else
    let handled := s.handleReadAllAsync gatt frame
    (some frame.length, if handled.1 then handled.2 else handled.2.setEnv
      ((dispatcher save gatt).dispatchBindingCp frame handled.2.env).2)

def connected (err : Byte) (s : App) : App :=
  if err ≠ 0 then s
  else s.setEnv { s.env with
    currentConn := true
    world := s.env.world.connect
    bleConnected := true
    att := [] }

def disconnected (s : App) : App :=
  (Pacer.cancel (s.setEnv { s.env with
    currentConn := false
    readAllWork := none
    world := s.env.world.disconnect
    bleConnected := false
    invalidations := s.env.invalidations + 1 })).2

def boot (device : Device) (outputsErr stripErr : Int) (commits : ℕ) : App :=
  ⟨Pacer.init, AppState.boot device outputsErr stripErr commits⟩

/-- Nothing but the flash survives. -/
def powerCycle (outputsErr stripErr : Int) (s : App) : App :=
  boot s.env.device.reboot outputsErr stripErr s.env.commits

/-- The callbacks of the attributes only run on a connection, and there is room for one. -/
def whileConnected (s : App) (t : App) : Option App := if s.env.currentConn then some t else none

def step (s : App) : AppEvent → Option App
  | .bleStart => s.env.bleStart.map fun env => s.setEnv env
  | .lifecycleWork => s.env.bleLifecycleWorkHandler.map fun env => s.setEnv env
  | .fillAdvMsd batteryPct fault => (s.env.fillAdvMsd batteryPct fault).map fun env => s.setEnv env
  | .stackApply err => (s.env.stackApply err).map fun env => s.setEnv env
  | .applyReturn => s.env.applyReturn.map fun env => s.setEnv env
  | .connected err => if s.env.currentConn then none else some (s.connected err)
  | .disconnected => if s.env.currentConn then some s.disconnected else none
  | .bindingCpWrite save gatt offset frame =>
    s.whileConnected ((s.setEnv (s.env.push (.write .bindingCp offset frame))).bindingCpWrite
      save gatt offset frame).2
  | .lightCommandWrite gatt offset buf nowMs =>
    s.whileConnected (s.setEnv ((s.env.push (.write .lightCommand offset buf)).lightCommandWrite
      gatt offset buf nowMs))
  | .tableInfoRead =>
    s.whileConnected (s.setEnv (s.env.push (.read .tableInfo s.env.tableInfoBytes)))
  | .lightStatusRead nowMs =>
    s.whileConnected (s.setEnv (s.env.push (.read .lightStatus
      (lightStatusBytes s.env.light.lightState.mode (s.env.light.lightState.remainingS nowMs)))))
  | .offWork gatt nowMs => (s.env.offWorkHandler gatt nowMs).map fun env => s.setEnv env
  | .readAllWork gatt => if s.env.readAllWork = none then none else some (s.readAllWorkHandler gatt)
  | .nfcFd gatt nowMs => some (s.setEnv (s.env.nfcFdHandler gatt nowMs))
  | .powerCycle outputsErr stripErr => some (s.powerCycle outputsErr stripErr)

end App
end PartRack
