import PartRack.ControlPoint.Model
import PartRack.ReadAll.Pacer

/-! The pacer and the dispatcher over one table on one connection, as
firmware/nrf52/app/src/app_ble.c puts them together: READ_ALL starts the pacer, every
other frame goes to the dispatcher, and work items run in between. -/

namespace PartRack

/-- What the pacer works on. `delivered` holds the frames that notify has accepted since
the pacer was last started, `delays` the work items asked for since then. -/
structure ReadAllEnv where
  cp : ControlPoint
  delivered : List CpEvent
  delays : List ℕ
deriving DecidableEq, Repr

abbrev Session := Paced ReadAllEnv

namespace Session
open BindingTable

/-- The adapter of one work item, in which notify returns `notifyErr`. -/
def adapter (notifyErr : Int) : PacerAdapter ReadAllEnv where
  readOne slot := fun s => (s.env.cp.table.readOne slot SlotRecord.zero, s)
  notifyBinding op status payload := fun s =>
    (notifyErr, if notifyErr = 0 then
      { s with env := { s.env with delivered := s.env.delivered ++ [.notify op status payload] } }
    else s)
  scheduleNext delayMs := fun s =>
    ((), { s with env := { s.env with delays := s.env.delays ++ [delayMs] } })

def readAllWorkHandler (notifyErr : Int) (s : Session) : Session :=
  (Pacer.process (adapter notifyErr) s).2

def startReadAll (s : Session) : Session :=
  (Pacer.start (adapter 0) { s with env := { s.env with delivered := [], delays := [] } }).2

def setControlPoint (s : Session) (cp : ControlPoint) : Session :=
  { s with env := { s.env with cp := cp } }

/-- The result tells whether the frame was taken care of. -/
def handleReadAllAsync (frame : List Byte) (h : 1 ≤ frame.length) (s : Session) :
    Bool × Session :=
  if frame[0] ≠ BindingOp.readAll.code then (false, s)
  else if frame.length ≠ 1 then
    (true, s.setControlPoint (s.env.cp.push
      [.notify BindingOp.readAll.code (statusFromErrno (-Errno.EINVAL)) []]))
  else (true, s.startReadAll)

/-- The result is the number of bytes taken, `none` for an invalid attribute length. -/
def bindingCpWrite (save : Option SaveCb) (offset : ℕ) (frame : List Byte) (s : Session) :
    Option ℕ × Session :=
  if h : offset = 0 ∧ 1 ≤ frame.length then
    match handleReadAllAsync frame h.2 s with
    | (true, s) => (some frame.length, s)
    | (false, s) =>
      (some frame.length, s.setControlPoint (ControlPoint.handle save frame s.env.cp))
  else (none, s)

inductive Event
  | tick (notifyErr : Int)
  | write (save : Option SaveCb) (offset : ℕ) (frame : List Byte)

/-- A write that starts the pacer. -/
def Event.Starts : Event → Prop
  | .tick _ => False
  | .write _ offset frame => offset = 0 ∧ frame = [BindingOp.readAll.code]

def step (s : Session) : Event → Session
  | .tick notifyErr => s.readAllWorkHandler notifyErr
  | .write save offset frame => (s.bindingCpWrite save offset frame).2

def run (s : Session) (events : List Event) : Session := events.foldl step s

def records (s : Session) : Records := s.env.cp.table.records

/-! ## One step -/

def recordReply (r : SlotRecord) : CpEvent := .notify BindingOp.readAll.code .ok r.toBytes

def endReply : CpEvent := .notify BindingOp.readAll.code .ok [readAllEndMarker]

def deliver (e : CpEvent) (s : Session) : Session :=
  { s with env := { s.env with delivered := s.env.delivered ++ [e] } }

def schedule (delayMs : ℕ) (s : Session) : Session :=
  { s with env := { s.env with delays := s.env.delays ++ [delayMs] } }

theorem notifyReadAll_sent {notifyErr : Int} (h : notifyErr = 0) (status : Status)
    (payload : List Byte) (s : Session) : Pacer.notifyReadAll (adapter notifyErr) status payload s =
      (notifyErr, deliver (.notify BindingOp.readAll.code status payload) s) :=
  congrArg (fun t => (notifyErr, t)) (if_pos h)

theorem notifyReadAll_failed {notifyErr : Int} (h : notifyErr ≠ 0) (status : Status)
    (payload : List Byte) (s : Session) : Pacer.notifyReadAll (adapter notifyErr) status payload s =
      (notifyErr, s) :=
  congrArg (fun t => (notifyErr, t)) (if_neg h)

theorem tick_inactive {s : Session} (h : s.pacer.active = false) (notifyErr : Int) :
    s.readAllWorkHandler notifyErr = s :=
  congrArg Prod.snd (Pacer.process_of_inactive (adapter notifyErr) h)

theorem tick_slot {s : Session} (h : s.pacer.active = true)
    (hslot : ¬25 < s.pacer.nextSlot.toNat) (notifyErr : Int) :
    s.readAllWorkHandler notifyErr = (Pacer.processRead (adapter notifyErr)
      (s.env.cp.table.readOne s.pacer.nextSlot SlotRecord.zero).1
      (s.env.cp.table.readOne s.pacer.nextSlot SlotRecord.zero).2 s).2 :=
  congrArg Prod.snd (Pacer.process_of_slot (adapter notifyErr) h hslot)

theorem tick_end {s : Session} (h : s.pacer.active = true) (hslot : 25 < s.pacer.nextSlot.toNat)
    (notifyErr : Int) :
    s.readAllWorkHandler notifyErr =
      if notifyErr = 0 then Pacer.setActive false (deliver endReply s)
      else schedule readAllRetryDelayMs s := by
  rw [readAllWorkHandler, Pacer.process_of_end _ h hslot]
  by_cases herr : notifyErr = 0
  · rw [if_pos herr, Pacer.processEnd_of_sent (adapter notifyErr) herr, notifyReadAll_sent herr]
    rfl
  · rw [if_neg herr, Pacer.processEnd_of_failed (adapter notifyErr) herr, notifyReadAll_failed herr]
    rfl

theorem tick_record {s : Session} (h : s.pacer.active = true) {i : ℕ} (hi : i < 25)
    (hslot : s.pacer.nextSlot = BitVec.ofNat 8 (i + 1)) (notifyErr : Int) :
    s.readAllWorkHandler notifyErr =
      if notifyErr = 0 then schedule readAllNotifyDelayMs
        (Pacer.setNextSlot (s.pacer.nextSlot + 1) (deliver (recordReply s.records[i]) s))
      else schedule readAllRetryDelayMs s := by
  have hle : ¬25 < s.pacer.nextSlot.toNat := by
    rw [hslot, BitVec.toNat_ofNat]
    omega
  have hread : s.env.cp.table.readOne s.pacer.nextSlot SlotRecord.zero = (0, s.records[i]) := by
    rw [hslot]
    exact ControlPoint.readOne_ofNat s.env.cp.table hi SlotRecord.zero
  rw [tick_slot h hle, hread]
  by_cases herr : notifyErr = 0
  · rw [if_pos herr, Pacer.processRead_of_sent (adapter notifyErr) herr, notifyReadAll_sent herr]
    rfl
  · rw [if_neg herr, Pacer.processRead_of_failed (adapter notifyErr) herr,
      notifyReadAll_failed herr]
    rfl

theorem tick_cp (s : Session) (notifyErr : Int) :
    (s.readAllWorkHandler notifyErr).env.cp = s.env.cp := by
  by_cases hactive : s.pacer.active = true
  · by_cases hend : 25 < s.pacer.nextSlot.toNat
    · rw [tick_end hactive hend]
      split_ifs <;> rfl
    · by_cases hzero : s.pacer.nextSlot = 0
      · -- the slot is refused, and the pacer stops
        rw [tick_slot hactive hend, hzero]
        by_cases herr : notifyErr = 0
        · subst herr
          rfl
        · show (if notifyErr = 0 then deliver _ s else s).env.cp = s.env.cp
          rw [if_neg herr]
      · have hpos : s.pacer.nextSlot.toNat ≠ 0 := fun h => hzero (BitVec.eq_of_toNat_eq h)
        have hslot : s.pacer.nextSlot = BitVec.ofNat 8 (s.pacer.nextSlot.toNat - 1 + 1) := by
          rw [Nat.sub_add_cancel (Nat.pos_of_ne_zero hpos), BitVec.ofNat_toNat, BitVec.setWidth_eq]
        rw [tick_record hactive (by omega) hslot]
        split_ifs <;> rfl
  · rw [tick_inactive (eq_false_of_ne_true hactive)]

theorem write_frame (s : Session) (save : Option SaveCb) (offset : ℕ) (frame : List Byte)
    (h : ¬Event.Starts (.write save offset frame)) :
    (s.bindingCpWrite save offset frame).2.pacer = s.pacer ∧
      (s.bindingCpWrite save offset frame).2.env.delivered = s.env.delivered := by
  unfold bindingCpWrite
  split_ifs with hlen
  · unfold handleReadAllAsync
    by_cases hop : frame[0] = BindingOp.readAll.code
    · by_cases hone : frame.length = 1
      · obtain ⟨op, hframe⟩ := List.length_eq_one_iff.mp hone
        subst hframe
        exact absurd ⟨hlen.1, congrArg (fun b => [b]) hop⟩ h
      · simp only [hop, hone, ne_eq, not_true_eq_false, not_false_eq_true, if_true, if_false]
        exact ⟨rfl, rfl⟩
    · simp only [hop, ne_eq, not_false_eq_true, if_true]
      exact ⟨rfl, rfl⟩
  · exact ⟨rfl, rfl⟩

end Session
end PartRack
