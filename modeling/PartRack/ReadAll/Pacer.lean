import PartRack.ControlPoint.Dispatcher

/-! The READ_ALL pacer (protocol/viberack_read_all_pacer.c). It sends one frame in each
work item. Its callbacks run in a state that holds the pacer itself, so that they may
start or cancel it from within; they are never null. -/

namespace PartRack

def readAllNotifyDelayMs : ℕ := 10
def readAllRetryDelayMs : ℕ := 30

/-- `vbrk_read_all_pacer_t` without its adapter. -/
structure Pacer where
  nextSlot : Byte
  active : Bool
deriving DecidableEq, Repr

structure Paced (σ : Type) where
  pacer : Pacer
  env : σ
deriving DecidableEq, Repr

/-- `vbrk_read_all_pacer_adapter_t`. -/
structure PacerAdapter (σ : Type) where
  readOne : Byte → StateM (Paced σ) (Int × SlotRecord)
  notifyBinding : Byte → Status → List Byte → StateM (Paced σ) Int
  scheduleNext : ℕ → StateM (Paced σ) Unit

namespace Pacer
variable {σ : Type}

def init : Pacer := ⟨0, false⟩

def setActive (active : Bool) (s : Paced σ) : Paced σ :=
  { s with pacer := { s.pacer with active := active } }

def setNextSlot (slot : Byte) (s : Paced σ) : Paced σ :=
  { s with pacer := { s.pacer with nextSlot := slot } }

def notifyReadAll (a : PacerAdapter σ) (status : Status) (payload : List Byte) :
    StateM (Paced σ) Int :=
  a.notifyBinding BindingOp.readAll.code status payload

def start (a : PacerAdapter σ) : StateM (Paced σ) Unit := do
  modify (setActive true)
  modify (setNextSlot 1)
  a.scheduleNext 0

def cancel : StateM (Paced σ) Unit := modify (setActive false)

/-- `process` once all slots are sent. -/
def processEnd (a : PacerAdapter σ) : StateM (Paced σ) Unit := do
  let err ← notifyReadAll a .ok [readAllEndMarker]
  if err = 0 then modify (setActive false) else a.scheduleNext readAllRetryDelayMs

/-- `process` once a slot has been read. -/
def processRead (a : PacerAdapter σ) (err : Int) (record : SlotRecord) :
    StateM (Paced σ) Unit :=
  if err ≠ 0 then do
    let _ ← notifyReadAll a (statusFromErrno err) []
    modify (setActive false)
  else do
    let sent ← notifyReadAll a (statusFromErrno err) record.toBytes
    if sent ≠ 0 then a.scheduleNext readAllRetryDelayMs
    else do
      -- the increment reads the slot again, which the callback may have changed
      modify fun s => setNextSlot (s.pacer.nextSlot + 1) s
      a.scheduleNext readAllNotifyDelayMs

def process (a : PacerAdapter σ) : StateM (Paced σ) Unit := do
  let s ← get
  if s.pacer.active = false then pure ()
  else if 25 < s.pacer.nextSlot.toNat then processEnd a
  else do
    let (err, record) ← a.readOne s.pacer.nextSlot
    processRead a err record

/-! ## One work item -/

theorem process_of_inactive (a : PacerAdapter σ) {s : Paced σ} (h : s.pacer.active = false) :
    process a s = ((), s) := by
  unfold process
  show ((if s.pacer.active = false then pure () else _ : StateM (Paced σ) Unit) s) = _
  rw [if_pos h]
  rfl

theorem process_of_end (a : PacerAdapter σ) {s : Paced σ} (h : s.pacer.active = true)
    (hslot : 25 < s.pacer.nextSlot.toNat) : process a s = processEnd a s := by
  have hactive : ¬s.pacer.active = false := by simp [h]
  unfold process
  show ((if s.pacer.active = false then pure () else if 25 < s.pacer.nextSlot.toNat then
    processEnd a else _ : StateM (Paced σ) Unit) s) = _
  rw [if_neg hactive, if_pos hslot]

theorem process_of_slot (a : PacerAdapter σ) {s : Paced σ} (h : s.pacer.active = true)
    (hslot : ¬25 < s.pacer.nextSlot.toNat) :
    process a s = processRead a (a.readOne s.pacer.nextSlot s).1.1
      (a.readOne s.pacer.nextSlot s).1.2 (a.readOne s.pacer.nextSlot s).2 := by
  have hactive : ¬s.pacer.active = false := by simp [h]
  unfold process
  show ((if s.pacer.active = false then pure () else if 25 < s.pacer.nextSlot.toNat then _
    else (do
      let (err, record) ← a.readOne s.pacer.nextSlot
      processRead a err record) : StateM (Paced σ) Unit) s) = _
  rw [if_neg hactive, if_neg hslot]
  rfl

theorem processEnd_of_sent (a : PacerAdapter σ) {s : Paced σ}
    (h : (notifyReadAll a .ok [readAllEndMarker] s).1 = 0) : processEnd a s =
      ((), setActive false (notifyReadAll a .ok [readAllEndMarker] s).2) := by
  unfold processEnd
  show ((if (notifyReadAll a .ok [readAllEndMarker] s).1 = 0 then modify (setActive false) else _ :
    StateM (Paced σ) Unit) (notifyReadAll a .ok [readAllEndMarker] s).2) = _
  rw [if_pos h]
  rfl

theorem processEnd_of_failed (a : PacerAdapter σ) {s : Paced σ}
    (h : (notifyReadAll a .ok [readAllEndMarker] s).1 ≠ 0) : processEnd a s =
      a.scheduleNext readAllRetryDelayMs (notifyReadAll a .ok [readAllEndMarker] s).2 := by
  unfold processEnd
  show ((if (notifyReadAll a .ok [readAllEndMarker] s).1 = 0 then _ else
    a.scheduleNext readAllRetryDelayMs : StateM (Paced σ) Unit)
      (notifyReadAll a .ok [readAllEndMarker] s).2) = _
  rw [if_neg h]

theorem processRead_of_sent (a : PacerAdapter σ) {record : SlotRecord} {s : Paced σ}
    (h : (notifyReadAll a .ok record.toBytes s).1 = 0) : processRead a 0 record s =
      a.scheduleNext readAllNotifyDelayMs
        (setNextSlot ((notifyReadAll a .ok record.toBytes s).2.pacer.nextSlot + 1)
          (notifyReadAll a .ok record.toBytes s).2) := by
  unfold processRead
  show ((if (notifyReadAll a .ok record.toBytes s).1 ≠ 0 then _ else (do
    modify fun s => setNextSlot (s.pacer.nextSlot + 1) s
    a.scheduleNext readAllNotifyDelayMs) : StateM (Paced σ) Unit)
      (notifyReadAll a .ok record.toBytes s).2) = _
  rw [if_neg (not_not_intro h)]
  rfl

theorem processRead_of_failed (a : PacerAdapter σ) {record : SlotRecord} {s : Paced σ}
    (h : (notifyReadAll a .ok record.toBytes s).1 ≠ 0) : processRead a 0 record s =
      a.scheduleNext readAllRetryDelayMs (notifyReadAll a .ok record.toBytes s).2 := by
  unfold processRead
  show ((if (notifyReadAll a .ok record.toBytes s).1 ≠ 0 then
    a.scheduleNext readAllRetryDelayMs else _ : StateM (Paced σ) Unit)
      (notifyReadAll a .ok record.toBytes s).2) = _
  rw [if_pos h]

end Pacer
end PartRack
