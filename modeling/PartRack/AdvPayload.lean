import PartRack.Protocol

/-! The manufacturer data of an advertisement (protocol/viberack_adv_payload.c). The
output buffer is never null. -/

namespace PartRack

def protoVer : Byte := 0x01
def devCompanyId : BitVec 16 := 0xFFFF

namespace AdvFlag

def lowBattery : Byte := 0x01
def hasUnboundSlot : Byte := 0x02
def lightActive : Byte := 0x04
def fault : Byte := 0x08

end AdvFlag

/-- `vbrk_adv_payload_input_t`. -/
structure AdvPayloadInput where
  companyId : BitVec 16
  batchId : BitVec 16
  batteryPct : Byte
  tableSeq : BitVec 32
  hasUnboundSlot : Bool
  lightActive : Bool
  fault : Bool
deriving DecidableEq, Repr

namespace AdvPayload

def putLe16 (value : BitVec 16) : List Byte :=
  [(value &&& 0xFF).setWidth 8, (value >>> 8).setWidth 8]

-- what the function works with when `input` is null
def defaultInput : AdvPayloadInput := ⟨devCompanyId, 1, 100, 0, false, false, false⟩

def inputFlags (input : AdvPayloadInput) : Byte :=
  (if input.hasUnboundSlot then AdvFlag.hasUnboundSlot else 0) |||
    (if input.lightActive then AdvFlag.lightActive else 0) |||
      (if input.fault then AdvFlag.fault else 0)

/-- `vbrk_adv_payload_build`: the 11 bytes of `out`. -/
def build (input : Option AdvPayloadInput) : List Byte :=
  let input := input.getD defaultInput
  let batteryPct : Byte := if 100 < input.batteryPct.toNat then 100 else input.batteryPct
  let flags := inputFlags input ||| if batteryPct.toNat ≤ 15 then AdvFlag.lowBattery else 0
  putLe16 input.companyId ++ [protoVer] ++ putLe16 input.batchId ++ [batteryPct, flags] ++
    putLe16 (input.tableSeq.setWidth 16) ++ [0, 0]

/-- Bytes 7 and 8. -/
def seqBytes (out : List Byte) : List Byte := (out.drop 7).take 2

theorem seqBytes_build (input : AdvPayloadInput) :
    seqBytes (build (some input)) = putLe16 (input.tableSeq.setWidth 16) := rfl

theorem putLe16_eq (value : BitVec 16) : putLe16 value = LittleEndian.bytes 2 value.toNat := by
  have hlow : (value &&& 0xFF).setWidth 8 = BitVec.ofNat 8 value.toNat := by
    apply BitVec.eq_of_toNat_eq
    have hand : value.toNat &&& 255 = value.toNat % 256 :=
      Nat.and_two_pow_sub_one_eq_mod value.toNat 8
    show (value.toNat &&& 255) % 256 = value.toNat % 256
    rw [hand, Nat.mod_mod]
  have hhigh : (value >>> 8).setWidth 8 = BitVec.ofNat 8 (value.toNat / 256) := by
    apply BitVec.eq_of_toNat_eq
    simp [Nat.shiftRight_eq_div_pow]
  rw [putLe16, hlow, hhigh]
  rfl

theorem value_putLe16 (value : BitVec 16) :
    LittleEndian.value (putLe16 value) = value.toNat := by
  rw [putLe16_eq]
  exact LittleEndian.value_bytes_of_lt value.isLt

theorem value_seqBytes_build (input : AdvPayloadInput) :
    LittleEndian.value (seqBytes (build (some input))) = input.tableSeq.toNat % 65536 := by
  rw [seqBytes_build, value_putLe16, BitVec.toNat_setWidth]

end AdvPayload
end PartRack
