import PartRack.Protocol

/-! The BLE lifecycle (protocol/viberack_ble_lifecycle.c). `start` and `process` hold the
lock except while `apply_advertising` runs, so each of them is two functions here: the
part before that call and the part after it. The adapter's callbacks are never null. -/

namespace PartRack

/-- `vbrk_ble_lifecycle_t` without its adapter. -/
structure Lifecycle where
  bluetoothInitialized : Bool
  ready : Bool
  connected : Bool
  advertisingRunning : Bool
  workPending : Bool
  advertisingGeneration : BitVec 32
  appliedGeneration : BitVec 32
deriving DecidableEq, Repr

/-- The calls into the adapter other than `apply_advertising`. -/
inductive AdapterCall
  | scheduleWork
  | notifyTableInfo
  | notifyLightStatus (mode : Byte) (remainingS : BitVec 16)
deriving DecidableEq, Repr

namespace Lifecycle

def init : Lifecycle := ⟨false, false, false, false, false, 0, 0⟩

def markDirty (l : Lifecycle) : Lifecycle :=
  { l with advertisingGeneration := l.advertisingGeneration + 1 }

def scheduleLocked (l : Lifecycle) : Bool × Lifecycle :=
  if !l.ready || l.workPending then (false, l) else (true, { l with workPending := true })

def scheduleIfNeeded (schedule : Bool) : List AdapterCall :=
  if schedule then [.scheduleWork] else []

def setBluetoothInitialized (l : Lifecycle) : Lifecycle := { l with bluetoothInitialized := true }

/-- The second component is `target_generation`. -/
def startBegin (l : Lifecycle) : Lifecycle × BitVec 32 :=
  let l := if l.advertisingGeneration = l.appliedGeneration then l.markDirty else l
  (l, l.advertisingGeneration)

def startEnd (l : Lifecycle) (targetGeneration : BitVec 32) (err : Int) : Lifecycle :=
  -- unlike `processEnd`, no second look at the generation
  if err = 0 then
    { l with ready := true, advertisingRunning := true, appliedGeneration := targetGeneration }
  else l

def onConnected (l : Lifecycle) : Lifecycle :=
  { l with connected := true, advertisingRunning := false }

def onDisconnected (l : Lifecycle) : Lifecycle × List AdapterCall :=
  let l := { l with connected := false, advertisingRunning := false }
  let (schedule, l) := l.markDirty.scheduleLocked
  (l, scheduleIfNeeded schedule)

def reportNfcFd (l : Lifecycle) : Lifecycle × List AdapterCall :=
  let (schedule, l) := l.markDirty.scheduleLocked
  (l, scheduleIfNeeded schedule)

/-- `report_binding_changed` and `report_light_changed`, which differ in what they notify
while connected. The work item is only scheduled while not connected. -/
def reportChanged (notify : AdapterCall) (l : Lifecycle) : Lifecycle × List AdapterCall :=
  let l := l.markDirty
  if l.connected then (l, [notify])
  else
    let (schedule, l) := l.scheduleLocked
    (l, scheduleIfNeeded schedule)

def reportBindingChanged (l : Lifecycle) : Lifecycle × List AdapterCall :=
  l.reportChanged .notifyTableInfo

def reportLightChanged (mode : Byte) (remainingS : BitVec 16) (l : Lifecycle) :
    Lifecycle × List AdapterCall :=
  l.reportChanged (.notifyLightStatus mode remainingS)

/-- The arguments of the `apply_advertising` call, if it is made: `restart`, and the
`target_generation` kept for afterwards. -/
def processBegin (l : Lifecycle) : Lifecycle × Option (Bool × BitVec 32) :=
  let l := { l with workPending := false }
  if l.ready && !l.connected && decide (l.advertisingGeneration ≠ l.appliedGeneration) then
    (l, some (!l.advertisingRunning, l.advertisingGeneration))
  else (l, none)

def processEnd (l : Lifecycle) (targetGeneration : BitVec 32) (err : Int) :
    Lifecycle × List AdapterCall :=
  if err = 0 then
    let l := { l with advertisingRunning := true, appliedGeneration := targetGeneration }
    if l.ready && !l.connected && decide (l.advertisingGeneration ≠ l.appliedGeneration) then
      let (schedule, l) := l.scheduleLocked
      (l, scheduleIfNeeded schedule)
    else (l, [])
  else (l, [])

end Lifecycle

/-! ## The lifecycle among its callers -/

/-- A call of `apply_advertising` in progress. The last three fields only record the past:
whether a restart was owed when the call was made, whether a connection came or went after
the call had taken effect, and how many invalidations came during the call. -/
structure ApplyCall where
  byStart : Bool
  restart : Bool
  targetGeneration : BitVec 32
  result : Option Int
  owed : Bool
  disturbed : Bool
  invalidations : ℕ
deriving DecidableEq, Repr

/-- The lifecycle, the Bluetooth stack and the work queue. The last three fields only
record the past: whether there was a disconnect since the last successful restart, the
result of the last `apply_advertising` call that has returned, and the number of
invalidations since the last one that succeeded. -/
structure World where
  lifecycle : Lifecycle
  call : Option ApplyCall
  stackAdvertising : Bool
  workQueued : Bool
  restartOwed : Bool
  lastApply : Option Int
  invalidations : ℕ
deriving DecidableEq, Repr

/-- A connection event has come during the call, if there is one. It disturbs a restart
once the stack has acted on it, and an update of the data at any time. -/
def ApplyCall.disturb (c : ApplyCall) : ApplyCall :=
  { c with disturbed := c.disturbed || !c.restart || c.result.isSome }

inductive LifecycleEvent
  | startCall
  | processCall
  | stackApply (err : Int)
  | applyReturn
  | connected
  | disconnected
  | reportNfcFd
  | reportBindingChanged
  | reportLightChanged (mode : Byte) (remainingS : BitVec 16)
deriving DecidableEq, Repr

namespace World

def init : World := ⟨Lifecycle.init.setBluetoothInitialized, none, false, false, false, none, 0⟩

/-- `start` is called until it succeeds; it begins its call of `apply_advertising`. -/
def startCall (w : World) : Option World :=
  if w.call = none ∧ w.lifecycle.ready = false then
    let (l, target) := w.lifecycle.startBegin
    some { w with
      lifecycle := l
      call := some ⟨true, true, target, none, w.restartOwed, false, 0⟩ }
  else none

/-- The work item runs: `process` either ends at once or begins its call. -/
def processCall (w : World) : Option World :=
  if w.call = none then
    match w.lifecycle.processBegin with
    | (l, none) => some { w with lifecycle := l, workQueued := false }
    | (l, some (restart, target)) => some { w with
        lifecycle := l
        workQueued := false
        call := some ⟨false, restart, target, none, w.restartOwed, false, 0⟩ }
  else none

/-- The moment the stack acts on the call: a successful restart starts advertising. -/
def stackApply (err : Int) (w : World) : Option World :=
  match w.call with
  | some c =>
    if c.result = none then
      let started := decide (err = 0) && c.restart
      some { w with
        call := some { c with result := some err }
        stackAdvertising := w.stackAdvertising || started
        restartOwed := w.restartOwed && !started }
    else none
  | none => none

/-- The call returns and `start` or `process` finishes. -/
def applyReturn (w : World) : Option World :=
  match w.call with
  | some ⟨byStart, _, target, some err, _, _, _⟩ =>
    let (l, calls) := if byStart then (w.lifecycle.startEnd target err, [])
      else w.lifecycle.processEnd target err
    some { w with
      lifecycle := l
      call := none
      workQueued := w.workQueued || calls.contains .scheduleWork
      lastApply := some err
      invalidations := if err = 0 then 0 else w.invalidations }
  | _ => none

/-- The invalidation of a report or a disconnect. -/
def invalidate (w : World) (r : Lifecycle × List AdapterCall) : World :=
  { w with
    lifecycle := r.1
    workQueued := w.workQueued || r.2.contains .scheduleWork
    call := w.call.map fun c => { c with invalidations := c.invalidations + 1 }
    invalidations := w.invalidations + 1 }

def disturb (w : World) : World := { w with call := w.call.map ApplyCall.disturb }

/-- Establishing a connection stops advertising. -/
def connect (w : World) : World :=
  { w.disturb with lifecycle := w.lifecycle.onConnected, stackAdvertising := false }

def disconnect (w : World) : World :=
  { (w.invalidate w.lifecycle.onDisconnected).disturb with restartOwed := true }

def step (w : World) : LifecycleEvent → Option World
  | .startCall => w.startCall
  | .processCall => w.processCall
  | .stackApply err => w.stackApply err
  | .applyReturn => w.applyReturn
  | .connected => some w.connect
  | .disconnected => some w.disconnect
  | .reportNfcFd => some (w.invalidate w.lifecycle.reportNfcFd)
  | .reportBindingChanged => some (w.invalidate w.lifecycle.reportBindingChanged)
  | .reportLightChanged mode remainingS =>
    some (w.invalidate (w.lifecycle.reportLightChanged mode remainingS))

end World

/-! ## What a step can do -/

namespace Lifecycle

theorem processBegin_cases (l : Lifecycle) :
    l.processBegin = ({ l with workPending := false },
        some (!l.advertisingRunning, l.advertisingGeneration)) ∧ l.ready = true ∨
    l.processBegin = ({ l with workPending := false }, none) ∧
      ¬(l.ready = true ∧ l.connected = false ∧
        l.advertisingGeneration ≠ l.appliedGeneration) := by
  unfold processBegin
  dsimp only
  split_ifs with h
  · simp only [Bool.and_eq_true] at h
    exact Or.inl ⟨rfl, h.1.1⟩
  · refine Or.inr ⟨rfl, ?_⟩
    simpa only [Bool.and_eq_true, Bool.not_eq_true', decide_eq_true_eq, and_assoc] using h

theorem startBegin_spec (l : Lifecycle) :
    l.startBegin.1.advertisingGeneration = l.startBegin.2 ∧
      l.startBegin.1.ready = l.ready ∧ l.startBegin.1.workPending = l.workPending ∧
      l.startBegin.1.advertisingRunning = l.advertisingRunning := by
  unfold startBegin
  split_ifs <;> exact ⟨rfl, rfl, rfl, rfl⟩

end Lifecycle

namespace World

theorem startCall_cases {w t : World} (ht : w.startCall = some t) :
    w.call = none ∧ w.lifecycle.ready = false ∧ t = { w with
      lifecycle := w.lifecycle.startBegin.1
      call := some ⟨true, true, w.lifecycle.startBegin.2, none, w.restartOwed, false, 0⟩ } := by
  unfold startCall at ht
  split_ifs at ht with h
  exact ⟨h.1, h.2, (Option.some.inj ht).symm⟩

theorem processCall_cases {w t : World} (ht : w.processCall = some t) :
    w.call = none ∧
      (w.lifecycle.ready = true ∧ t = { w with
          lifecycle := { w.lifecycle with workPending := false }
          workQueued := false
          call := some ⟨false, !w.lifecycle.advertisingRunning,
            w.lifecycle.advertisingGeneration, none, w.restartOwed, false, 0⟩ } ∨
        ¬(w.lifecycle.ready = true ∧ w.lifecycle.connected = false ∧
          w.lifecycle.advertisingGeneration ≠ w.lifecycle.appliedGeneration) ∧ t = { w with
            lifecycle := { w.lifecycle with workPending := false }
            workQueued := false }) := by
  unfold processCall at ht
  split_ifs at ht with hidle
  refine ⟨hidle, ?_⟩
  rcases w.lifecycle.processBegin_cases with ⟨heq, hready⟩ | ⟨heq, hclean⟩
  · rw [heq] at ht
    exact Or.inl ⟨hready, (Option.some.inj ht).symm⟩
  · rw [heq] at ht
    exact Or.inr ⟨hclean, (Option.some.inj ht).symm⟩

theorem stackApply_cases {w t : World} {err : Int} (ht : w.stackApply err = some t) :
    ∃ c, w.call = some c ∧ c.result = none ∧ t = { w with
      call := some { c with result := some err }
      stackAdvertising := w.stackAdvertising || (decide (err = 0) && c.restart)
      restartOwed := w.restartOwed && !(decide (err = 0) && c.restart) } := by
  unfold stackApply at ht
  cases hcall : w.call with
  | none =>
    rw [hcall] at ht
    exact nomatch ht
  | some c =>
    simp only [hcall] at ht
    split_ifs at ht with hres
    exact ⟨c, rfl, hres, (Option.some.inj ht).symm⟩

theorem applyReturn_cases {w t : World} (ht : w.applyReturn = some t) :
    ∃ c err, w.call = some c ∧ c.result = some err ∧ t.call = none ∧ t.lastApply = some err ∧
      t.stackAdvertising = w.stackAdvertising ∧ t.restartOwed = w.restartOwed ∧
      (c.byStart = true ∧ t.lifecycle = w.lifecycle.startEnd c.targetGeneration err ∧
        t.workQueued = w.workQueued ∨
      c.byStart = false ∧ t.lifecycle = (w.lifecycle.processEnd c.targetGeneration err).1 ∧
        t.workQueued = (w.workQueued ||
          (w.lifecycle.processEnd c.targetGeneration err).2.contains .scheduleWork)) := by
  unfold World.applyReturn at ht
  split at ht
  · rename_i byStart restart target err owed disturbed invalidations hcall
    obtain rfl := Option.some.inj ht
    refine ⟨_, err, hcall, rfl, rfl, rfl, rfl, rfl, ?_⟩
    cases byStart with
    | true => exact Or.inl ⟨rfl, rfl, Bool.or_false _⟩
    | false => exact Or.inr ⟨rfl, rfl, rfl⟩
  · exact nomatch ht

end World
end PartRack
