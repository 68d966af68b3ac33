import PartRack.Protocol

/-! The binding table model (protocol/viberack_binding_table_model.c). Pointers are
never null here; `model->save` stays optional because `vbrk_binding_table_model_init`
accepts a null callback. Every operation of the source either returns before it has
touched the model or ends in `return commit_table(model, next_records)`; its definition
here gives that decision as a `Plan`, and `Plan.run` carries it out. The loops keep the
source's array indexes, with the bounds that make each access legal as arguments. -/

namespace PartRack

abbrev Records := Vector SlotRecord 25

/-- The data of `vbrk_binding_table_model_t`; its callback is an argument of each call. -/
structure BindingTable where
  records : Records
  tableSeq : BitVec 32
deriving DecidableEq, Repr

/-- What `model->save` returns for a proposed table, in the current call. -/
abbrev SaveCb := Records → BitVec 32 → Int

/-- The visible effects of a call, in program order. -/
inductive Effect
  | save (records : Records) (tableSeq : BitVec 32) (result : Int)
  | store (records : Records) (tableSeq : BitVec 32)
deriving DecidableEq, Repr

structure Outcome where
  err : Int
  model : BindingTable
  effects : List Effect
deriving DecidableEq, Repr

abbrev ValidSlot (slot : Byte) : Prop := 1 ≤ slot.toNat ∧ slot.toNat ≤ 25

namespace SlotRecord

def normalizeSlot (r : SlotRecord) (slot : Byte) : SlotRecord :=
  let record := { r with slot := slot, reserved := 0 }
  { record with crc8 := crc8Maxim record.body }

def crcOk (r : SlotRecord) : Bool := r.crc8 == crc8Maxim r.body

-- the guarded call in the shifting loops, with the slot cast to uint8_t
def renumber (r : SlotRecord) (slot : Nat) : SlotRecord :=
  if r.slot ≠ 0 then r.normalizeSlot (BitVec.ofNat 8 slot) else r

end SlotRecord

namespace BindingTable

def emptyRecords : Records := Vector.replicate 25 SlotRecord.zero

def nextSeq (tableSeq : BitVec 32) : BitVec 32 :=
  if tableSeq + 1 = 0 then 1 else tableSeq + 1

def commitTable (save : Option SaveCb) (model : BindingTable) (next : Records) : Outcome :=
  let seq := nextSeq model.tableSeq
  match save with
  | none => ⟨0, ⟨next, seq⟩, [.store next seq]⟩
  | some save =>
    let err := save next seq
    if err ≠ 0 then ⟨err, model, [.save next seq err]⟩
    else ⟨0, ⟨next, seq⟩, [.save next seq err, .store next seq]⟩

inductive Plan
  | reject (err : Int)
  | keep
  | commit (next : Records)
deriving DecidableEq, Repr

def Plan.run (save : Option SaveCb) (model : BindingTable) : Plan → Outcome
  | .reject err => ⟨err, model, []⟩
  | .keep => ⟨0, model, []⟩
  | .commit next => commitTable save model next

def init : BindingTable := ⟨emptyRecords, 1⟩

def load (records : Records) (tableSeq : BitVec 32) : BindingTable :=
  ⟨records, if tableSeq = 0 then 1 else tableSeq⟩

-- the pair is the return value and `*record` after the call
def readOne (model : BindingTable) (slot : Byte) (record : SlotRecord) : Int × SlotRecord :=
  if h : ValidSlot slot then (0, model.records[slot.toNat - 1]) else (-Errno.EINVAL, record)

def writeOne (records : Records) (record : SlotRecord) : Plan :=
  if h : ValidSlot record.slot ∧ record.crcOk then
    .commit (records.set (record.slot.toNat - 1) (record.normalizeSlot record.slot))
  else
    .reject (-Errno.EINVAL)

def clearOne (records : Records) (slot : Byte) : Plan :=
  if h : ValidSlot slot then .commit (records.set (slot.toNat - 1) SlotRecord.zero)
  else .reject (-Errno.EINVAL)

/-- The search loop of `insert_at` at index `i`, with `k` indexes left. -/
def findEmpty (records : Records) : (k i : Nat) → i + k = 25 → Option (Fin 25)
  | 0, _, _ => none
  | k + 1, i, h =>
    if records[i].slot = 0 then some ⟨i, by omega⟩ else findEmpty records k (i + 1) (by omega)

/-- The shifting loop of `insert_at`, downwards from index `i` while `i >= slot`. -/
def shiftUp (slot : Nat) : (i : Nat) → i < 25 → Records → Records
  | 0, _, next => next
  | i + 1, h, next =>
    if slot ≤ i + 1 then
      shiftUp slot i (by omega) (next.set (i + 1) (next[i].renumber (i + 2)))
    else
      next

def insertAt (records : Records) (slot : Byte) (record : SlotRecord) : Plan :=
  if h : ValidSlot slot ∧ record.crcOk then
    match findEmpty records (26 - slot.toNat) (slot.toNat - 1) (by omega) with
    | none => .reject (-Errno.ENOSPC)
    | some emptyIndex =>
      let next := shiftUp slot.toNat emptyIndex emptyIndex.isLt records
      .commit (next.set (slot.toNat - 1) (record.normalizeSlot slot))
  else
    .reject (-Errno.EINVAL)

/-- The shifting loop of `remove_at`, upwards from index `i`, with `k` turns left. -/
def shiftDown : (k i : Nat) → i + k = 24 → Records → Records
  | 0, _, _, next => next
  | k + 1, i, h, next =>
    shiftDown k (i + 1) (by omega) (next.set i (next[i + 1].renumber (i + 1)))

def removeAt (records : Records) (slot : Byte) : Plan :=
  if h : ValidSlot slot then
    let next := shiftDown (25 - slot.toNat) (slot.toNat - 1) (by omega) records
    .commit (next.set 24 SlotRecord.zero)
  else
    .reject (-Errno.EINVAL)

/-- The copy loop of `move_block`: every record whose slot is outside the block. -/
def restRecords (records : Records) (fromSlot len : Nat) : List SlotRecord :=
  (records.toList.zipIdx.filter fun p =>
    !(decide (fromSlot ≤ p.2 + 1) && decide (p.2 + 1 < fromSlot + len))).map Prod.fst

-- a zeroed array overwritten from its start
def fillRecords (l : List SlotRecord) : Records :=
  Vector.ofFn fun i => l.getD i SlotRecord.zero

def movedRecords (records : Records) (fromSlot toSlot len : Nat) : Records :=
  let block := (records.toList.drop (fromSlot - 1)).take len
  let rest := restRecords records fromSlot len
  let insertAt := min (toSlot - 1) rest.length
  let next := fillRecords (rest.take insertAt ++ block ++ rest.drop insertAt)
  next.mapIdx fun i r => r.renumber (i + 1)

def moveBlock (records : Records) (fromSlot toSlot len : Byte) : Plan :=
  if ValidSlot fromSlot ∧ ValidSlot toSlot ∧ len ≠ 0 ∧
      fromSlot.toNat + len.toNat - 1 ≤ 25 ∧ toSlot.toNat + len.toNat - 1 ≤ 25 then
    if fromSlot = toSlot then .keep
    else .commit (movedRecords records fromSlot.toNat toSlot.toNat len.toNat)
  else
    .reject (-Errno.EINVAL)

def setQty (records : Records) (slot : Byte) (qty : BitVec 16) : Plan :=
  if h : ValidSlot slot then
    let record := records[slot.toNat - 1]
    if record.slot = 0 then .reject (-Errno.EINVAL)
    else .commit (records.set (slot.toNat - 1) ({ record with qtyLe := qty }.normalizeSlot slot))
  else
    .reject (-Errno.EINVAL)

def factoryReset (magic : BitVec 32) : Plan :=
  if magic = factoryResetMagic then .commit emptyRecords else .reject (-Errno.EINVAL)

/-- `vbrk_table_info_t`. -/
structure TableInfo where
  tableSeqLe : BitVec 32
  crc16Le : BitVec 16
  slotCount : Byte
deriving DecidableEq, Repr

def getInfo (model : BindingTable) : TableInfo where
  tableSeqLe := model.tableSeq
  crc16Le := crc16CcittFalse (model.records.toList.flatMap SlotRecord.toBytes)
  slotCount := 25

end BindingTable

/-- A call of one of the seven mutating operations. -/
inductive TableOp
  | writeOne (record : SlotRecord)
  | clearOne (slot : Byte)
  | insertAt (slot : Byte) (record : SlotRecord)
  | removeAt (slot : Byte)
  | moveBlock (fromSlot toSlot len : Byte)
  | setQty (slot : Byte) (qty : BitVec 16)
  | factoryReset (magic : BitVec 32)
deriving DecidableEq, Repr

namespace TableOp
open BindingTable

def plan (records : Records) : TableOp → Plan
  | .writeOne record => BindingTable.writeOne records record
  | .clearOne slot => BindingTable.clearOne records slot
  | .insertAt slot record => BindingTable.insertAt records slot record
  | .removeAt slot => BindingTable.removeAt records slot
  | .moveBlock fromSlot toSlot len => BindingTable.moveBlock records fromSlot toSlot len
  | .setQty slot qty => BindingTable.setQty records slot qty
  | .factoryReset magic => BindingTable.factoryReset magic

def run (save : Option SaveCb) (model : BindingTable) (op : TableOp) : Outcome :=
  (op.plan model.records).run save model

end TableOp
end PartRack
