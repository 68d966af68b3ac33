import PartRack.ControlPoint.Dispatcher

/-! Everything one call of the dispatcher does, as a trace. The frame is a buffer in
memory with a length next to it, every read of it is on record, and so is every callback
with what it was given and what it returned. -/

namespace PartRack
open LittleEndian

inductive DispatchEvent
  | frameByte (index : ℕ)
  | readOne (slot : Byte) (err : Int) (record : SlotRecord)
  | call (op : TableOp) (err : Int)
  | notify (op : Byte) (status : Status) (payload : List Byte)
  | tableChanged
deriving DecidableEq, Repr

structure Traced (σ : Type) where
  state : σ
  events : List DispatchEvent

namespace Traced
variable {σ : Type}

def push (t : Traced σ) (events : List DispatchEvent) : Traced σ :=
  { t with events := t.events ++ events }

@[simp] theorem push_push (t : Traced σ) (a b : List DispatchEvent) :
    (t.push a).push b = t.push (a ++ b) := by
  simp only [push, List.append_assoc]

/-- Run a callback and put it on record. -/
def record {α : Type} (callback : StateM σ α) (event : α → DispatchEvent) :
    StateM (Traced σ) α := fun t =>
  let (a, state) := callback t.state
  (a, ⟨state, t.events ++ [event a]⟩)

end Traced

namespace Dispatcher
variable {σ : Type}

def traced (d : Dispatcher σ) : Dispatcher (Traced σ) where
  readOne slot := Traced.record (d.readOne slot) fun r => .readOne slot r.1 r.2
  writeOne record := Traced.record (d.writeOne record) (.call (.writeOne record))
  clearOne slot := Traced.record (d.clearOne slot) (.call (.clearOne slot))
  insertAt slot record := Traced.record (d.insertAt slot record) (.call (.insertAt slot record))
  removeAt slot := Traced.record (d.removeAt slot) (.call (.removeAt slot))
  moveBlock fromSlot toSlot len :=
    Traced.record (d.moveBlock fromSlot toSlot len) (.call (.moveBlock fromSlot toSlot len))
  setQty slot qty := Traced.record (d.setQty slot qty) (.call (.setQty slot qty))
  factoryReset magic := Traced.record (d.factoryReset magic) (.call (.factoryReset magic))
  notifyBinding op status payload :=
    Traced.record (d.notifyBinding op status payload) fun _ => .notify op status payload
  tableChanged := Traced.record d.tableChanged fun _ => .tableChanged

/-- The same callbacks, but with other results of `notify_binding`. -/
def withNotifyResults (d : Dispatcher σ) (result : Byte → Status → List Byte → σ → Int) :
    Dispatcher σ :=
  { d with
    notifyBinding := fun op status payload s =>
      (result op status payload s, (d.notifyBinding op status payload s).2) }

end Dispatcher

/-! ## The dispatcher over a buffer -/

namespace FrameBuffer
variable {σ : Type} (d : Dispatcher (Traced σ)) (mem : ℕ → Byte) (len : ℕ)

/-- `frame[i]`; what lies beyond the frame in memory is arbitrary. -/
def readByte (i : ℕ) : StateM (Traced σ) Byte := fun t => (mem i, t.push [.frameByte i])

/-- `memcpy` of `n` bytes from `&frame[i]`. -/
def readBytes : (n i : ℕ) → StateM (Traced σ) (List Byte)
  | 0, _ => return []
  | n + 1, i => do
    let b ← readByte mem i
    let bs ← readBytes n (i + 1)
    return b :: bs

def dispatchReadOne : StateM (Traced σ) Int :=
  if len ≠ 2 then do
    d.notify BindingOp.readOne.code (-Errno.EINVAL) []
    return 0
  else do
    let slot ← readByte mem 1
    let (err, record) ← d.readOne slot
    d.notify BindingOp.readOne.code err record.toBytes
    return 0

def dispatchReadAll : StateM (Traced σ) Int :=
  if len ≠ 1 then do
    d.notify BindingOp.readAll.code (-Errno.EINVAL) []
    return 0
  else d.readAllFrom 25 1

/-- The common shape of the mutating dispatchers. -/
def dispatchMutating (op : BindingOp) (expected : ℕ) (call : StateM (Traced σ) Int) :
    StateM (Traced σ) Int :=
  if len ≠ expected then do
    d.notify op.code (-Errno.EINVAL) []
    return 0
  else do
    let err ← call
    d.dispatchMutatingStatus op.code err

def dispatchWriteOne : StateM (Traced σ) Int :=
  dispatchMutating d len .writeOne 17 do
    let record ← readBytes mem 16 1
    d.writeOne (SlotRecord.ofBytes record)

def dispatchClearOne : StateM (Traced σ) Int :=
  dispatchMutating d len .clearOne 2 do
    let slot ← readByte mem 1
    d.clearOne slot

def dispatchInsertAt : StateM (Traced σ) Int :=
  dispatchMutating d len .insertAt 18 do
    let record ← readBytes mem 16 2
    let slot ← readByte mem 1
    d.insertAt slot (SlotRecord.ofBytes record)

def dispatchRemoveAt : StateM (Traced σ) Int :=
  dispatchMutating d len .removeAt 2 do
    let slot ← readByte mem 1
    d.removeAt slot

def dispatchMoveBlock : StateM (Traced σ) Int :=
  dispatchMutating d len .moveBlock 4 do
    let fromSlot ← readByte mem 1
    let toSlot ← readByte mem 2
    let count ← readByte mem 3
    d.moveBlock fromSlot toSlot count

def dispatchSetQty : StateM (Traced σ) Int :=
  dispatchMutating d len .setQty 4 do
    let slot ← readByte mem 1
    let b₀ ← readByte mem 2
    let b₁ ← readByte mem 3
    d.setQty slot (getLe16 b₀ b₁)

def dispatchFactoryReset : StateM (Traced σ) Int :=
  dispatchMutating d len .factoryReset 5 do
    let b₀ ← readByte mem 1
    let b₁ ← readByte mem 2
    let b₂ ← readByte mem 3
    let b₃ ← readByte mem 4
    d.factoryReset (getLe32 b₀ b₁ b₂ b₃)

/-- `vbrk_ble_dispatch_binding_cp`. -/
def dispatchBindingCp : StateM (Traced σ) Int :=
  if len < 1 then return -Errno.EINVAL
  else do
    let op ← readByte mem 0
    match BindingOp.ofCode? op with
    | some .readOne => dispatchReadOne d mem len
    | some .readAll => dispatchReadAll d len
    | some .writeOne => dispatchWriteOne d mem len
    | some .clearOne => dispatchClearOne d mem len
    | some .insertAt => dispatchInsertAt d mem len
    | some .removeAt => dispatchRemoveAt d mem len
    | some .moveBlock => dispatchMoveBlock d mem len
    | some .setQty => dispatchSetQty d mem len
    | some .factoryReset => dispatchFactoryReset d mem len
    | none => do
      d.notify op (-Errno.EINVAL) []
      return 0

/-! ## What is read of the frame -/

/-- The bytes of the frame. -/
def frame : List Byte := (List.range len).map mem

/-- The only length at which an opcode is carried out. -/
def frameLength : BindingOp → ℕ
  | .readOne => 2
  | .readAll => 1
  | .writeOne => 17
  | .clearOne => 2
  | .insertAt => 18
  | .removeAt => 2
  | .moveBlock => 4
  | .setQty => 4
  | .factoryReset => 5

/-- The indexes read for the arguments of an opcode, in the order of the reads. -/
def argIndexes : BindingOp → List ℕ
  | .readOne => [1]
  | .readAll => []
  | .writeOne => List.range' 1 16
  | .clearOne => [1]
  | .insertAt => List.range' 2 16 ++ [1]
  | .removeAt => [1]
  | .moveBlock => [1, 2, 3]
  | .setQty => [1, 2, 3]
  | .factoryReset => [1, 2, 3, 4]

/-- All reads of a frame. -/
def frameReads : List ℕ :=
  0 :: match BindingOp.ofCode? (mem 0) with
    | some op => if len = frameLength op then argIndexes op else []
    | none => []

theorem lt_frameLength {op : BindingOp} {i : ℕ} (h : i ∈ argIndexes op) : i < frameLength op := by
  revert i
  cases op <;> decide

theorem frameReads_lt (hlen : 1 ≤ len) {i : ℕ} (h : i ∈ frameReads mem len) : i < len := by
  unfold frameReads at h
  rcases List.mem_cons.mp h with rfl | h
  · exact hlen
  · cases hop : BindingOp.ofCode? (mem 0) with
    | none =>
      rw [hop] at h
      exact absurd h List.not_mem_nil
    | some op =>
      simp only [hop] at h
      split_ifs at h with hl
      · exact hl ▸ lt_frameLength h
      · exact absurd h List.not_mem_nil

theorem length_frame : (frame mem len).length = len := by
  rw [frame, List.length_map, List.length_range]

theorem frame_succ : frame mem (len + 1) = mem 0 :: (List.range' 1 len).map mem := by
  rw [frame, List.range_eq_range', List.range'_succ]
  rfl

theorem drop_frame (i n : ℕ) : (frame mem (i + n)).drop i = (List.range' i n).map mem := by
  rw [frame, ← List.map_drop, List.range_eq_range', List.drop_range', Nat.add_sub_cancel_left]
  simp

theorem readBytes_eq (n i : ℕ) (t : Traced σ) : readBytes mem n i t =
    ((List.range' i n).map mem, t.push ((List.range' i n).map .frameByte)) := by
  induction n generalizing i t with
  | zero => rw [readBytes, List.range'_zero, List.map_nil, List.map_nil, Traced.push,
      List.append_nil]; rfl
  | succ n ih =>
    have hturn : readBytes mem (n + 1) i t =
        (fun r : List Byte × Traced σ => (mem i :: r.1, r.2))
          (readBytes mem n (i + 1) (t.push [.frameByte i])) := rfl
    rw [hturn, ih, Traced.push_push, List.range'_succ]
    rfl

@[simp] theorem push_nil (t : Traced σ) : t.push [] = t := by
  rw [Traced.push, List.append_nil]

/-- The reads for the arguments: none at any other length. -/
def argReads (op : BindingOp) : List DispatchEvent :=
  if len = frameLength op then (argIndexes op).map .frameByte else []

theorem argReads_of_length (op : BindingOp) (h : len = frameLength op) :
    argReads len op = (argIndexes op).map .frameByte := if_pos h

theorem push_argReads_of_length_ne (op : BindingOp) (h : len ≠ frameLength op) (t : Traced σ) :
    t.push (argReads len op) = t := by
  rw [argReads, if_neg h, push_nil]

theorem dispatchMutating_eq {op : BindingOp} {call : StateM (Traced σ) Int}
    {call' : (frame mem len).length = frameLength op → StateM (Traced σ) Int} (t : Traced σ)
    (h : ∀ hl : len = frameLength op, call t =
      call' ((length_frame mem len).trans hl) (t.push ((argIndexes op).map .frameByte))) :
    dispatchMutating d len op (frameLength op) call t =
      d.dispatchMutating op (frameLength op) (frame mem len) call' (t.push (argReads len op)) := by
  unfold dispatchMutating
  by_cases hl : len = frameLength op
  · rw [if_neg (not_not_intro hl), argReads_of_length len op hl,
      d.dispatchMutating_of_length op call' ((length_frame mem len).trans hl)]
    show (fun r : Int × Traced σ => d.dispatchMutatingStatus op.code r.1 r.2) (call t) = _
    rw [h hl]
    rfl
  · have hl' : (frame mem len).length ≠ frameLength op := by rwa [length_frame]
    rw [if_pos hl, push_argReads_of_length_ne len op hl,
      d.dispatchMutating_of_length_ne op call' hl']
    rfl

theorem dispatchReadOne_eq (t : Traced σ) : dispatchReadOne d mem len t =
    d.dispatchReadOne (frame mem len) (t.push (argReads len .readOne)) := by
  by_cases hl : len = 2
  · subst hl
    rfl
  · have hl' : (frame mem len).length ≠ 2 := by rwa [length_frame]
    rw [push_argReads_of_length_ne len .readOne hl, dispatchReadOne, if_pos hl,
      Dispatcher.dispatchReadOne, dif_neg hl']

theorem dispatchReadAll_eq (t : Traced σ) : dispatchReadAll d len t =
    d.dispatchReadAll (frame mem len) (t.push (argReads len .readAll)) := by
  unfold dispatchReadAll Dispatcher.dispatchReadAll
  rw [length_frame]
  by_cases hl : len = 1
  · rw [if_neg (not_not_intro hl), if_pos hl, argReads_of_length len .readAll hl]
    exact congrArg _ (push_nil t).symm
  · rw [if_pos hl, if_neg hl, push_argReads_of_length_ne len .readAll hl]

theorem dispatchWriteOne_eq (t : Traced σ) : dispatchWriteOne d mem len t =
    d.dispatchWriteOne (frame mem len) (t.push (argReads len .writeOne)) := by
  refine dispatchMutating_eq d mem len t fun hl => ?_
  obtain rfl : len = 17 := hl
  show (fun r : List Byte × Traced σ => d.writeOne (SlotRecord.ofBytes r.1) r.2)
    (readBytes mem 16 1 t) = _
  rw [readBytes_eq, ← drop_frame mem 1 16]
  rfl

theorem dispatchClearOne_eq (t : Traced σ) : dispatchClearOne d mem len t =
    d.dispatchClearOne (frame mem len) (t.push (argReads len .clearOne)) := by
  refine dispatchMutating_eq d mem len t fun hl => ?_
  obtain rfl : len = 2 := hl
  rfl

theorem dispatchInsertAt_eq (t : Traced σ) : dispatchInsertAt d mem len t =
    d.dispatchInsertAt (frame mem len) (t.push (argReads len .insertAt)) := by
  refine dispatchMutating_eq d mem len t fun hl => ?_
  obtain rfl : len = 18 := hl
  -- the record is copied before the slot number is looked at
  show (fun r : List Byte × Traced σ =>
    d.insertAt (mem 1) (SlotRecord.ofBytes r.1) (r.2.push [.frameByte 1]))
      (readBytes mem 16 2 t) = _
  rw [readBytes_eq, ← drop_frame mem 2 16]
  simp only [Traced.push_push]
  rfl

theorem dispatchRemoveAt_eq (t : Traced σ) : dispatchRemoveAt d mem len t =
    d.dispatchRemoveAt (frame mem len) (t.push (argReads len .removeAt)) := by
  refine dispatchMutating_eq d mem len t fun hl => ?_
  obtain rfl : len = 2 := hl
  rfl

theorem dispatchMoveBlock_eq (t : Traced σ) : dispatchMoveBlock d mem len t =
    d.dispatchMoveBlock (frame mem len) (t.push (argReads len .moveBlock)) := by
  refine dispatchMutating_eq d mem len t fun hl => ?_
  obtain rfl : len = 4 := hl
  show d.moveBlock (mem 1) (mem 2) (mem 3)
    (((t.push [.frameByte 1]).push [.frameByte 2]).push [.frameByte 3]) = _
  simp only [Traced.push_push]
  rfl

theorem dispatchSetQty_eq (t : Traced σ) : dispatchSetQty d mem len t =
    d.dispatchSetQty (frame mem len) (t.push (argReads len .setQty)) := by
  refine dispatchMutating_eq d mem len t fun hl => ?_
  obtain rfl : len = 4 := hl
  show d.setQty (mem 1) (getLe16 (mem 2) (mem 3))
    (((t.push [.frameByte 1]).push [.frameByte 2]).push [.frameByte 3]) = _
  simp only [Traced.push_push]
  rfl

theorem dispatchFactoryReset_eq (t : Traced σ) : dispatchFactoryReset d mem len t =
    d.dispatchFactoryReset (frame mem len) (t.push (argReads len .factoryReset)) := by
  refine dispatchMutating_eq d mem len t fun hl => ?_
  obtain rfl : len = 5 := hl
  show d.factoryReset (getLe32 (mem 1) (mem 2) (mem 3) (mem 4))
    ((((t.push [.frameByte 1]).push [.frameByte 2]).push [.frameByte 3]).push
      [.frameByte 4]) = _
  simp only [Traced.push_push]
  rfl

theorem frameReads_events : (frameReads mem len).map DispatchEvent.frameByte =
    [.frameByte 0] ++ match BindingOp.ofCode? (mem 0) with
      | some op => argReads len op
      | none => [] := by
  unfold frameReads argReads
  cases BindingOp.ofCode? (mem 0) with
  | none => rfl
  | some op =>
    simp only
    split_ifs
    · rfl
    · rfl

theorem dispatchBindingCp_eq (hlen : 1 ≤ len) (t : Traced σ) :
    dispatchBindingCp d mem len t =
      d.dispatchBindingCp (frame mem len) (t.push ((frameReads mem len).map .frameByte)) := by
  obtain ⟨n, rfl⟩ : ∃ n, len = n + 1 := ⟨len - 1, by omega⟩
  have hframe := frame_succ mem n
  rw [frameReads_events, ← Traced.push_push, dispatchBindingCp, if_neg (Nat.not_lt.mpr hlen)]
  unfold Dispatcher.dispatchBindingCp
  rw [hframe]
  simp only
  rw [← hframe]
  show (match BindingOp.ofCode? (mem 0) with
    | some .readOne => dispatchReadOne d mem (n + 1)
    | some .readAll => dispatchReadAll d (n + 1)
    | some .writeOne => dispatchWriteOne d mem (n + 1)
    | some .clearOne => dispatchClearOne d mem (n + 1)
    | some .insertAt => dispatchInsertAt d mem (n + 1)
    | some .removeAt => dispatchRemoveAt d mem (n + 1)
    | some .moveBlock => dispatchMoveBlock d mem (n + 1)
    | some .setQty => dispatchSetQty d mem (n + 1)
    | some .factoryReset => dispatchFactoryReset d mem (n + 1)
    | none => do
      d.notify (mem 0) (-Errno.EINVAL) []
      return 0) (t.push [.frameByte 0]) = _
  cases hop : BindingOp.ofCode? (mem 0) with
  | none => simp only [push_nil]
  | some op =>
    cases op with
    | readOne => exact dispatchReadOne_eq d mem (n + 1) _
    | readAll => exact dispatchReadAll_eq d mem (n + 1) _
    | writeOne => exact dispatchWriteOne_eq d mem (n + 1) _
    | clearOne => exact dispatchClearOne_eq d mem (n + 1) _
    | insertAt => exact dispatchInsertAt_eq d mem (n + 1) _
    | removeAt => exact dispatchRemoveAt_eq d mem (n + 1) _
    | moveBlock => exact dispatchMoveBlock_eq d mem (n + 1) _
    | setQty => exact dispatchSetQty_eq d mem (n + 1) _
    | factoryReset => exact dispatchFactoryReset_eq d mem (n + 1) _

end FrameBuffer
end PartRack
