import Mathlib.Data.List.GetD
import PartRack.Lib.LittleEndian

/-! The shared protocol header (protocol/viberack_protocol.[ch]): codes, checksums
and the packed 16-byte slot record. `VBRK_SLOT_COUNT` is written out as 25. -/

namespace PartRack
open LittleEndian

abbrev Byte := BitVec 8

/-! ## Error numbers and status codes -/

namespace Errno

def EINVAL : Int := 22
def EBUSY : Int := 16
def ENOENT : Int := 2
def ENOSPC : Int := 28
def EILSEQ : Int := 138

end Errno

inductive Status
  | ok
  | errParam
  | errFull
  | errFlashBusy
  | errCrc
deriving DecidableEq, Repr

def Status.code : Status → Byte
  | .ok => 0x00
  | .errParam => 0x01
  | .errFull => 0x02
  | .errFlashBusy => 0x03
  | .errCrc => 0x04

inductive BindingOp
  | readOne
  | readAll
  | writeOne
  | clearOne
  | insertAt
  | removeAt
  | moveBlock
  | setQty
  | factoryReset
deriving DecidableEq, Repr

def BindingOp.code : BindingOp → Byte
  | .readOne => 0x01
  | .readAll => 0x02
  | .writeOne => 0x10
  | .clearOne => 0x11
  | .insertAt => 0x20
  | .removeAt => 0x21
  | .moveBlock => 0x22
  | .setQty => 0x30
  | .factoryReset => 0xF0

def BindingOp.all : List BindingOp :=
  [.readOne, .readAll, .writeOne, .clearOne, .insertAt, .removeAt, .moveBlock, .setQty,
    .factoryReset]

/-- The case label an opcode byte selects, `none` for the `default` label. -/
def BindingOp.ofCode? (b : Byte) : Option BindingOp := BindingOp.all.find? fun op => op.code == b

@[simp] theorem BindingOp.ofCode?_code (op : BindingOp) : ofCode? op.code = some op := by
  cases op <;> decide

theorem BindingOp.code_of_ofCode? {b : Byte} {op : BindingOp} (h : ofCode? b = some op) :
    b = op.code := by
  have hb := List.find?_some h
  simpa using (beq_iff_eq.mp hb).symm

def readAllEndMarker : Byte := 0xFF
def factoryResetMagic : BitVec 32 := 0x5A5AA5A5

/-! ## Checksums -/

/-- One turn of the inner loop of `vbrk_crc8_maxim`. -/
def crc8Bit (crc : Byte) : Byte :=
  if crc &&& 0x01 ≠ 0 then (crc >>> 1) ^^^ 0x8C else crc >>> 1

def crc8Byte (crc b : Byte) : Byte := Nat.repeat crc8Bit 8 (crc ^^^ b)

def crc8Maxim (data : List Byte) : Byte := data.foldl crc8Byte 0x00

/-- One turn of the inner loop of `vbrk_crc16_ccitt_false`. -/
def crc16Bit (crc : BitVec 16) : BitVec 16 :=
  if crc &&& 0x8000 ≠ 0 then (crc <<< 1) ^^^ 0x1021 else crc <<< 1

def crc16Byte (crc : BitVec 16) (b : Byte) : BitVec 16 :=
  Nat.repeat crc16Bit 8 (crc ^^^ (b.setWidth 16 : BitVec 16) <<< 8)

def crc16CcittFalse (data : List Byte) : BitVec 16 := data.foldl crc16Byte 0xFFFF

/-! ## Slot records -/

/-- `vbrk_slot_record_t`. -/
structure SlotRecord where
  slot : Byte
  partId : Vector Byte 10
  qtyLe : BitVec 16
  flags : Byte
  reserved : Byte
  crc8 : Byte
deriving DecidableEq, Repr

namespace SlotRecord

/-- The record that `memset(.., 0, ..)` leaves. -/
def zero : SlotRecord := ⟨0, Vector.replicate 10 0, 0, 0, 0, 0⟩

/-- The bytes under the checksum: all but the last of the packed layout. -/
def body (r : SlotRecord) : List Byte :=
  r.slot :: (r.partId.toList ++ (bytes 2 r.qtyLe.toNat ++ [r.flags, r.reserved]))

def toBytes (r : SlotRecord) : List Byte := r.body ++ [r.crc8]

/-- `memcpy` of the packed layout out of a buffer. -/
def ofBytes (bs : List Byte) : SlotRecord where
  slot := bs.getD 0 0
  partId := Vector.ofFn fun i => bs.getD (1 + i) 0
  qtyLe := BitVec.ofNat 16 (value [bs.getD 11 0, bs.getD 12 0])
  flags := bs.getD 13 0
  reserved := bs.getD 14 0
  crc8 := bs.getD 15 0

@[simp] theorem length_body (r : SlotRecord) : r.body.length = 15 := by simp [body]

@[simp] theorem length_toBytes (r : SlotRecord) : r.toBytes.length = 16 := by simp [toBytes]

theorem toBytes_eq (r : SlotRecord) :
    r.toBytes = [r.slot] ++ r.partId.toList ++ bytes 2 r.qtyLe.toNat ++
      [r.flags, r.reserved, r.crc8] := by
  simp [toBytes, body]

theorem getD_toBytes_partId (r : SlotRecord) (i : Fin 10) :
    r.toBytes.getD (1 + i) 0 = r.partId[i] := by
  have hi : (i : Nat) < r.partId.toList.length := by simp
  rw [toBytes_eq, List.append_assoc, List.append_assoc, List.getD_append_right _ _ _ _ (by simp),
    List.length_singleton, Nat.add_sub_cancel_left, List.getD_append _ _ _ _ hi,
    List.getD_eq_getElem _ _ hi]
  simp

theorem getD_toBytes_tail (r : SlotRecord) (i : Nat) :
    r.toBytes.getD (11 + i) 0 =
      (bytes 2 r.qtyLe.toNat ++ [r.flags, r.reserved, r.crc8]).getD i 0 := by
  rw [toBytes_eq, List.append_assoc, List.getD_append_right _ _ _ _ (by simp)]
  simp

@[simp] theorem ofBytes_toBytes (r : SlotRecord) : ofBytes r.toBytes = r := by
  have hpart : (Vector.ofFn fun i : Fin 10 => r.toBytes.getD (1 + i) 0) = r.partId := by
    apply Vector.ext
    intro i hi
    rw [Vector.getElem_ofFn, getD_toBytes_partId r ⟨i, hi⟩]
    rfl
  have hqty : [r.toBytes.getD 11 0, r.toBytes.getD 12 0] = bytes 2 r.qtyLe.toNat := by
    rw [getD_toBytes_tail r 0, getD_toBytes_tail r 1]
    rfl
  have hflags : r.toBytes.getD 13 0 = r.flags := getD_toBytes_tail r 2
  have hreserved : r.toBytes.getD 14 0 = r.reserved := getD_toBytes_tail r 3
  have hcrc : r.toBytes.getD 15 0 = r.crc8 := getD_toBytes_tail r 4
  simp only [ofBytes, hpart, hqty, hflags, hreserved, hcrc]
  rw [ofNat_value_bytes 2 r.qtyLe (by decide)]
  rfl

theorem ofFn_getD {n : ℕ} {bs : List Byte} (h : bs.length = n) :
    (List.ofFn fun i : Fin n => bs.getD i 0) = bs := by
  apply List.ext_getElem
  · rw [List.length_ofFn, h]
  · intro i _ hi
    rw [List.getElem_ofFn, List.getD_eq_getElem _ _ hi]

theorem toBytes_ofBytes {bs : List Byte} (h : bs.length = 16) : (ofBytes bs).toBytes = bs := by
  have hqty := bytes_ofNat_value (w := 16) [bs.getD 11 0, bs.getD 12 0]
    (show 256 ^ 2 ≤ 2 ^ 16 by decide)
  have hsplit : (ofBytes bs).toBytes = List.ofFn fun i : Fin 16 => bs.getD i 0 := by
    rw [toBytes_eq]
    simp only [ofBytes]
    rw [show 2 = [bs.getD 11 0, bs.getD 12 0].length from rfl, hqty]
    rw [Vector.toList_ofFn]
    simp only [List.ofFn_succ, List.ofFn_zero]
    rfl
  rw [hsplit, ofFn_getD h]

end SlotRecord
end PartRack
