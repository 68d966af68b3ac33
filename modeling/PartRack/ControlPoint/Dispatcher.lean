import PartRack.BindingTable.Model

/-! The Binding Control Point dispatcher (protocol/viberack_ble_dispatcher_model.c) over
any table behind it. The callbacks run in a state of the caller's choice and are never
null; a frame is the list of its bytes, so that a byte is only read where the length
check before it allows. -/

namespace PartRack
open LittleEndian

/-- `vbrk_ble_dispatcher_t`. The record of `read_one` counts only when it returns 0. -/
structure Dispatcher (σ : Type) where
  readOne : Byte → StateM σ (Int × SlotRecord)
  writeOne : SlotRecord → StateM σ Int
  clearOne : Byte → StateM σ Int
  insertAt : Byte → SlotRecord → StateM σ Int
  removeAt : Byte → StateM σ Int
  moveBlock : Byte → Byte → Byte → StateM σ Int
  setQty : Byte → BitVec 16 → StateM σ Int
  factoryReset : BitVec 32 → StateM σ Int
  notifyBinding : Byte → Status → List Byte → StateM σ Int
  tableChanged : StateM σ Unit

def getLe16 (b₀ b₁ : Byte) : BitVec 16 := b₀.setWidth 16 ||| b₁.setWidth 16 <<< 8

def getLe32 (b₀ b₁ b₂ b₃ : Byte) : BitVec 32 :=
  b₀.setWidth 32 ||| b₁.setWidth 32 <<< 8 ||| b₂.setWidth 32 <<< 16 ||| b₃.setWidth 32 <<< 24

theorem getLe16_eq (b₀ b₁ : Byte) : getLe16 b₀ b₁ = BitVec.ofNat 16 (value [b₀, b₁]) := by
  have h₀ := b₀.isLt
  have h₁ := b₁.isLt
  apply BitVec.eq_of_toNat_eq
  rw [getLe16, BitVec.toNat_or, BitVec.toNat_shiftLeft, BitVec.toNat_setWidth,
    BitVec.toNat_setWidth, BitVec.toNat_ofNat, Nat.shiftLeft_eq]
  have e₀ : b₀.toNat % 2 ^ 16 = b₀.toNat := by omega
  have e₁ : b₁.toNat % 2 ^ 16 * 2 ^ 8 % 2 ^ 16 = b₁.toNat <<< 8 := by
    rw [Nat.shiftLeft_eq]
    omega
  rw [e₀, e₁, or_shiftLeft_eq h₀]
  simp only [value_cons, value_nil]
  omega

theorem getLe32_eq (b₀ b₁ b₂ b₃ : Byte) :
    getLe32 b₀ b₁ b₂ b₃ = BitVec.ofNat 32 (value [b₀, b₁, b₂, b₃]) := by
  have h₀ := b₀.isLt
  have h₁ := b₁.isLt
  have h₂ := b₂.isLt
  have h₃ := b₃.isLt
  apply BitVec.eq_of_toNat_eq
  have e₀ : (b₀.setWidth 32).toNat = b₀.toNat := by
    rw [BitVec.toNat_setWidth]
    omega
  have e₁ : (b₁.setWidth 32 <<< 8).toNat = b₁.toNat <<< 8 := by
    rw [BitVec.toNat_shiftLeft, BitVec.toNat_setWidth, Nat.shiftLeft_eq, Nat.shiftLeft_eq]
    omega
  have e₂ : (b₂.setWidth 32 <<< 16).toNat = b₂.toNat <<< 16 := by
    rw [BitVec.toNat_shiftLeft, BitVec.toNat_setWidth, Nat.shiftLeft_eq, Nat.shiftLeft_eq]
    omega
  have e₃ : (b₃.setWidth 32 <<< 24).toNat = b₃.toNat <<< 24 := by
    rw [BitVec.toNat_shiftLeft, BitVec.toNat_setWidth, Nat.shiftLeft_eq, Nat.shiftLeft_eq]
    omega
  rw [getLe32, BitVec.toNat_or, BitVec.toNat_or, BitVec.toNat_or, e₀, e₁, e₂, e₃,
    or_shiftLeft_eq (k := 8) h₀, or_shiftLeft_eq (k := 16) (by omega),
    or_shiftLeft_eq (k := 24) (by omega), BitVec.toNat_ofNat]
  simp only [value_cons, value_nil]
  omega

def statusFromErrno (err : Int) : Status :=
  if err = 0 then .ok
  else if err = -Errno.ENOSPC then .errFull
  else if err = -Errno.EBUSY then .errFlashBusy
  else if err = -Errno.EILSEQ then .errCrc
  else .errParam

namespace Dispatcher
variable {σ : Type}

def notify (d : Dispatcher σ) (op : Byte) (err : Int) (payload : List Byte) : StateM σ Unit := do
  let _ ← d.notifyBinding op (statusFromErrno err) (if err = 0 then payload else [])

def dispatchReadOne (d : Dispatcher σ) (frame : List Byte) : StateM σ Int :=
  if h : frame.length = 2 then do
    let (err, record) ← d.readOne frame[1]
    d.notify BindingOp.readOne.code err record.toBytes
    return 0
  else do
    d.notify BindingOp.readOne.code (-Errno.EINVAL) []
    return 0

/-- The loop of `dispatch_read_all` at `slot`, with `k` turns left, and the end marker. -/
def readAllFrom (d : Dispatcher σ) : (k slot : ℕ) → StateM σ Int
  | 0, _ => do
    d.notify BindingOp.readAll.code 0 [readAllEndMarker]
    return 0
  | k + 1, slot => do
    let (err, record) ← d.readOne (BitVec.ofNat 8 slot)
    d.notify BindingOp.readAll.code err record.toBytes
    -- a failing read ends the reply without an end marker
    if err ≠ 0 then return 0 else d.readAllFrom k (slot + 1)

def dispatchReadAll (d : Dispatcher σ) (frame : List Byte) : StateM σ Int :=
  if frame.length = 1 then d.readAllFrom 25 1
  else do
    d.notify BindingOp.readAll.code (-Errno.EINVAL) []
    return 0

def dispatchMutatingStatus (d : Dispatcher σ) (op : Byte) (err : Int) : StateM σ Int := do
  d.notify op err []
  if err = 0 then d.tableChanged
  return 0

/-- The common shape of the mutating dispatchers: the length check, the call into the
table, and its status. -/
def dispatchMutating (d : Dispatcher σ) (op : BindingOp) (len : ℕ) (frame : List Byte)
    (call : frame.length = len → StateM σ Int) : StateM σ Int :=
  if h : frame.length = len then do
    let err ← call h
    d.dispatchMutatingStatus op.code err
  else do
    d.notify op.code (-Errno.EINVAL) []
    return 0

def dispatchWriteOne (d : Dispatcher σ) (frame : List Byte) : StateM σ Int :=
  d.dispatchMutating .writeOne 17 frame fun _ => d.writeOne (SlotRecord.ofBytes (frame.drop 1))

def dispatchClearOne (d : Dispatcher σ) (frame : List Byte) : StateM σ Int :=
  d.dispatchMutating .clearOne 2 frame fun _ => d.clearOne frame[1]

def dispatchInsertAt (d : Dispatcher σ) (frame : List Byte) : StateM σ Int :=
  d.dispatchMutating .insertAt 18 frame fun _ =>
    d.insertAt frame[1] (SlotRecord.ofBytes (frame.drop 2))

def dispatchRemoveAt (d : Dispatcher σ) (frame : List Byte) : StateM σ Int :=
  d.dispatchMutating .removeAt 2 frame fun _ => d.removeAt frame[1]

def dispatchMoveBlock (d : Dispatcher σ) (frame : List Byte) : StateM σ Int :=
  d.dispatchMutating .moveBlock 4 frame fun _ => d.moveBlock frame[1] frame[2] frame[3]

def dispatchSetQty (d : Dispatcher σ) (frame : List Byte) : StateM σ Int :=
  d.dispatchMutating .setQty 4 frame fun _ => d.setQty frame[1] (getLe16 frame[2] frame[3])

def dispatchFactoryReset (d : Dispatcher σ) (frame : List Byte) : StateM σ Int :=
  d.dispatchMutating .factoryReset 5 frame fun _ =>
    d.factoryReset (getLe32 frame[1] frame[2] frame[3] frame[4])

def dispatchBindingCp (d : Dispatcher σ) (frame : List Byte) : StateM σ Int :=
  match frame with
  | [] => return -Errno.EINVAL
  | op :: _ =>
    match BindingOp.ofCode? op with
    | some .readOne => d.dispatchReadOne frame
    | some .readAll => d.dispatchReadAll frame
    | some .writeOne => d.dispatchWriteOne frame
    | some .clearOne => d.dispatchClearOne frame
    | some .insertAt => d.dispatchInsertAt frame
    | some .removeAt => d.dispatchRemoveAt frame
    | some .moveBlock => d.dispatchMoveBlock frame
    | some .setQty => d.dispatchSetQty frame
    | some .factoryReset => d.dispatchFactoryReset frame
    | none => do
      d.notify op (-Errno.EINVAL) []
      return 0

end Dispatcher

/-! ## What a frame asks for -/

inductive Request
  | readOne (slot : Byte)
  | readAll
  | mutate (op : TableOp)
  | malformed
deriving DecidableEq, Repr

namespace Request

/-- The request of an opcode with the bytes `args` after it. -/
def ofArgs : BindingOp → List Byte → Request
  | .readOne, [slot] => .readOne slot
  | .readAll, [] => .readAll
  | .writeOne, args =>
    if args.length = 16 then .mutate (.writeOne (SlotRecord.ofBytes args)) else .malformed
  | .clearOne, [slot] => .mutate (.clearOne slot)
  | .insertAt, slot :: record =>
    if record.length = 16 then .mutate (.insertAt slot (SlotRecord.ofBytes record))
    else .malformed
  | .removeAt, [slot] => .mutate (.removeAt slot)
  | .moveBlock, [fromSlot, toSlot, len] => .mutate (.moveBlock fromSlot toSlot len)
  | .setQty, [slot, b₀, b₁] => .mutate (.setQty slot (getLe16 b₀ b₁))
  | .factoryReset, [b₀, b₁, b₂, b₃] => .mutate (.factoryReset (getLe32 b₀ b₁ b₂ b₃))
  | _, _ => .malformed

def ofFrame (code : Byte) (args : List Byte) : Request :=
  match BindingOp.ofCode? code with
  | some op => ofArgs op args
  | none => .malformed

theorem ofArgs_writeOne (args : List Byte) : ofArgs .writeOne args =
    if args.length = 16 then .mutate (.writeOne (SlotRecord.ofBytes args)) else .malformed := by
  rw [ofArgs]

theorem ofArgs_insertAt (slot : Byte) (record : List Byte) :
    ofArgs .insertAt (slot :: record) = if record.length = 16 then
      .mutate (.insertAt slot (SlotRecord.ofBytes record)) else .malformed := by
  rw [ofArgs]

end Request

namespace Dispatcher
variable {σ : Type}

/-- The table callback of a mutating operation. -/
def call (d : Dispatcher σ) : TableOp → StateM σ Int
  | .writeOne record => d.writeOne record
  | .clearOne slot => d.clearOne slot
  | .insertAt slot record => d.insertAt slot record
  | .removeAt slot => d.removeAt slot
  | .moveBlock fromSlot toSlot len => d.moveBlock fromSlot toSlot len
  | .setQty slot qty => d.setQty slot qty
  | .factoryReset magic => d.factoryReset magic

def serve (d : Dispatcher σ) (code : Byte) : Request → StateM σ Int
  | .readOne slot => do
    let (err, record) ← d.readOne slot
    d.notify code err record.toBytes
    return 0
  | .readAll => d.readAllFrom 25 1
  | .mutate op => do
    let err ← d.call op
    d.dispatchMutatingStatus code err
  | .malformed => do
    d.notify code (-Errno.EINVAL) []
    return 0

theorem dispatchMutating_of_length (d : Dispatcher σ) (op : BindingOp) {len : ℕ}
    {frame : List Byte} (call : frame.length = len → StateM σ Int) (h : frame.length = len) :
    d.dispatchMutating op len frame call =
      (do let err ← call h; d.dispatchMutatingStatus op.code err) := dif_pos h

theorem dispatchMutating_of_length_ne (d : Dispatcher σ) (op : BindingOp) {len : ℕ}
    {frame : List Byte} (call : frame.length = len → StateM σ Int) (h : frame.length ≠ len) :
    d.dispatchMutating op len frame call = d.serve op.code .malformed := dif_neg h

theorem dispatchWriteOne_eq_serve (d : Dispatcher σ) (code : Byte) (args : List Byte) :
    d.dispatchWriteOne (code :: args) =
      d.serve BindingOp.writeOne.code (Request.ofArgs .writeOne args) := by
  rw [dispatchWriteOne, Request.ofArgs_writeOne]
  by_cases h : args.length = 16
  · rw [dispatchMutating_of_length _ _ _ (by simp [h]), if_pos h]
    rfl
  · rw [dispatchMutating_of_length_ne _ _ _ (by simp [h]), if_neg h]

theorem dispatchInsertAt_eq_serve (d : Dispatcher σ) (code : Byte) (args : List Byte) :
    d.dispatchInsertAt (code :: args) =
      d.serve BindingOp.insertAt.code (Request.ofArgs .insertAt args) := by
  cases args with
  | nil => rfl
  | cons slot record =>
    rw [dispatchInsertAt, Request.ofArgs_insertAt]
    by_cases h : record.length = 16
    · rw [dispatchMutating_of_length _ _ _ (by simp [h]), if_pos h]
      rfl
    · rw [dispatchMutating_of_length_ne _ _ _ (by simp [h]), if_neg h]

theorem dispatchBindingCp_eq_serve (d : Dispatcher σ) (code : Byte) (args : List Byte) :
    d.dispatchBindingCp (code :: args) = d.serve code (Request.ofFrame code args) := by
  unfold dispatchBindingCp Request.ofFrame
  cases hop : BindingOp.ofCode? code with
  | none =>
    simp only [hop]
    rfl
  | some op =>
    obtain rfl := BindingOp.code_of_ofCode? hop
    simp only [hop]
    cases op with
    | readOne => rcases args with _ | ⟨a, _ | ⟨b, args⟩⟩ <;> rfl
    | readAll => rcases args with _ | ⟨a, args⟩ <;> rfl
    | writeOne => exact dispatchWriteOne_eq_serve d _ args
    | clearOne => rcases args with _ | ⟨a, _ | ⟨b, args⟩⟩ <;> rfl
    | insertAt => exact dispatchInsertAt_eq_serve d _ args
    | removeAt => rcases args with _ | ⟨a, _ | ⟨b, args⟩⟩ <;> rfl
    | moveBlock => rcases args with _ | ⟨a, _ | ⟨b, _ | ⟨c, _ | ⟨e, args⟩⟩⟩⟩ <;> rfl
    | setQty => rcases args with _ | ⟨a, _ | ⟨b, _ | ⟨c, _ | ⟨e, args⟩⟩⟩⟩ <;> rfl
    | factoryReset =>
      rcases args with _ | ⟨a, _ | ⟨b, _ | ⟨c, _ | ⟨e, _ | ⟨f, args⟩⟩⟩⟩⟩ <;> rfl

end Dispatcher
end PartRack
