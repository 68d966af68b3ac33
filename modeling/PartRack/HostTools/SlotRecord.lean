import PartRack.BindingTable.Contents

/-! The host's encoder of slot records (tools/protocol_check.py). Python integers are
unbounded, so its checksum works on natural numbers where the firmware's works on octets;
the 16 bytes it makes are the layout of the record that the firmware itself would build. -/

namespace PartRack
open LittleEndian

namespace HostTools

inductive EncodeError
  | valueError (text : String)
  | unicodeEncodeError
deriving DecidableEq, Repr

/-- One turn of the inner loop of `crc8_maxim`. -/
def crc8Bit (crc : ℕ) : ℕ :=
  if crc &&& 0x01 ≠ 0 then ((crc >>> 1) ^^^ 0x8C) &&& 0xFF else crc >>> 1

def crc8Maxim (data : List Byte) : ℕ :=
  data.foldl (fun crc byte => Nat.repeat crc8Bit 8 (crc ^^^ byte.toNat)) 0x00

/-- The dataclass `SlotRecord`. -/
structure SlotRecord where
  slot : ℤ
  partId : String
  qty : ℤ
  flags : ℤ
deriving DecidableEq, Repr

/-- `str.encode("ascii")`. -/
def encodeAscii (s : String) : Except EncodeError (List Byte) :=
  if s.toList.all fun c => c.toNat < 128 then
    .ok (s.toList.map fun c => BitVec.ofNat 8 c.toNat)
  else
    .error .unicodeEncodeError

/-- `bytes.ljust` with zero bytes. -/
def ljust (n : ℕ) (bs : List Byte) : List Byte := bs ++ List.replicate (n - bs.length) 0

def SlotRecord.encode (self : SlotRecord) : Except EncodeError (List Byte) :=
  if self.slot < 0 ∨ self.slot > 25 then
    .error (.valueError ("slot out of range: " ++ toString self.slot))
  else match encodeAscii self.partId with
  | .error err => .error err
  | .ok part =>
    if part.length > 10 then .error (.valueError "part_id must be <= 10 ASCII bytes")
    else if self.qty < 0 ∨ self.qty > 0xFFFF then
      .error (.valueError ("qty out of range: " ++ toString self.qty))
    else
      let body := [BitVec.ofInt 8 self.slot] ++ ljust 10 part ++ bytes 2 self.qty.toNat ++
        [BitVec.ofInt 8 self.flags, 0x00]
      .ok (body ++ [BitVec.ofNat 8 (crc8Maxim body)])

/-! ## The two checksums -/

theorem crc8Bit_toNat (crc : Byte) : crc8Bit crc.toNat = (PartRack.crc8Bit crc).toNat := by
  have hlow : crc.toNat &&& 1 ≠ 0 ↔ crc &&& 0x01 ≠ 0 := by
    rw [ne_eq, ne_eq, ← BitVec.toNat_inj]
    rfl
  have hmask : ((crc.toNat >>> 1) ^^^ 140) &&& 255 = (crc.toNat >>> 1) ^^^ 140 := by
    have hlt : (crc.toNat >>> 1) ^^^ 140 < 2 ^ 8 := by
      refine Nat.xor_lt_two_pow ?_ (by decide)
      rw [Nat.shiftRight_eq_div_pow]
      exact lt_of_le_of_lt (Nat.div_le_self _ _) crc.isLt
    exact (Nat.and_two_pow_sub_one_eq_mod _ 8).trans (Nat.mod_eq_of_lt hlt)
  unfold crc8Bit PartRack.crc8Bit
  simp only [hlow, hmask]
  split_ifs
  · rfl
  · rfl

theorem repeat_crc8Bit_toNat (n : ℕ) (crc : Byte) :
    Nat.repeat crc8Bit n crc.toNat = (Nat.repeat PartRack.crc8Bit n crc).toNat := by
  induction n with
  | zero => rfl
  | succ n ih => rw [Nat.repeat, Nat.repeat, ih, crc8Bit_toNat]

theorem foldl_crc8_toNat (data : List Byte) (crc : Byte) :
    data.foldl (fun crc byte => Nat.repeat crc8Bit 8 (crc ^^^ byte.toNat)) crc.toNat =
      (data.foldl crc8Byte crc).toNat := by
  induction data generalizing crc with
  | nil => rfl
  | cons b data ih =>
    rw [List.foldl_cons, List.foldl_cons, ← BitVec.toNat_xor, repeat_crc8Bit_toNat]
    exact ih _

theorem crc8Maxim_eq (data : List Byte) : crc8Maxim data = (PartRack.crc8Maxim data).toNat :=
  foldl_crc8_toNat data 0x00

/-! ## The encoded record -/

theorem length_ljust {n : ℕ} {bs : List Byte} (h : bs.length ≤ n) :
    (ljust n bs).length = n := by
  rw [ljust, List.length_append, List.length_replicate, Nat.add_sub_cancel' h]

def asciiBytes (s : String) : List Byte := s.toList.map fun c => BitVec.ofNat 8 c.toNat

/-- The part that the arguments describe. -/
def partOf (partId : String) (qty flags : ℕ) : Part where
  partId := Vector.ofFn fun i => (ljust 10 (asciiBytes partId)).getD i 0
  qtyLe := BitVec.ofNat 16 qty
  flags := BitVec.ofNat 8 flags

/-- A part number the encoder takes. -/
def PartIdOk (s : String) : Prop := (∀ c ∈ s.toList, c.toNat < 128) ∧ s.length ≤ 10

theorem partIdOk_of_all {s : String} (h : (s.toList.all fun c => c.toNat < 128) = true)
    (hlen : s.length ≤ 10) : PartIdOk s :=
  ⟨fun c hc => of_decide_eq_true (List.all_eq_true.mp h c hc), hlen⟩

theorem encodeAscii_of_ok {s : String} (h : PartIdOk s) : encodeAscii s = .ok (asciiBytes s) := by
  have hall : (s.toList.all fun c => c.toNat < 128) = true := by
    rw [List.all_eq_true]
    intro c hc
    exact decide_eq_true (h.1 c hc)
  rw [encodeAscii, if_pos hall]
  rfl

theorem body_record (p : Part) (slot : Byte) :
    (p.record slot).body = [slot] ++ p.partId.toList ++ bytes 2 p.qtyLe.toNat ++
      [p.flags, 0x00] := by
  simp [Part.record, PartRack.SlotRecord.normalizeSlot, PartRack.SlotRecord.body]

theorem toBytes_record (p : Part) (slot : Byte) :
    (p.record slot).toBytes = (p.record slot).body ++
      [PartRack.crc8Maxim (p.record slot).body] := rfl

theorem encode_eq {slot qty : ℕ} {partId : String} (flags : ℕ) (hslot : slot ≤ 25)
    (hpart : PartIdOk partId) (hqty : qty ≤ 65535) :
    SlotRecord.encode ⟨slot, partId, qty, flags⟩ =
      .ok ((partOf partId qty flags).record (BitVec.ofNat 8 slot)).toBytes := by
  have hlen : (asciiBytes partId).length ≤ 10 := by
    rw [asciiBytes, List.length_map]
    exact hpart.2
  have hid : (partOf partId qty flags).partId.toList = ljust 10 (asciiBytes partId) := by
    rw [partOf, Vector.toList_ofFn]
    exact PartRack.SlotRecord.ofFn_getD (length_ljust hlen)
  have hqtyLe : (partOf partId qty flags).qtyLe.toNat = qty := by
    show (BitVec.ofNat 16 qty).toNat = qty
    rw [BitVec.toNat_ofNat]
    omega
  have hbody : [BitVec.ofInt 8 (slot : ℤ)] ++ ljust 10 (asciiBytes partId) ++ bytes 2 qty ++
      [BitVec.ofInt 8 (flags : ℤ), 0x00] =
        ((partOf partId qty flags).record (BitVec.ofNat 8 slot)).body := by
    rw [body_record, hid, hqtyLe, BitVec.ofInt_natCast, BitVec.ofInt_natCast]
    rfl
  have h₁ : ¬((slot : ℤ) < 0 ∨ (slot : ℤ) > 25) := by omega
  have h₂ : ¬((qty : ℤ) < 0 ∨ (qty : ℤ) > 0xFFFF) := by omega
  unfold SlotRecord.encode
  simp only [h₁, h₂, encodeAscii_of_ok hpart, Nat.not_lt.mpr hlen, if_false, Int.toNat_natCast]
  rw [toBytes_record, ← hbody, crc8Maxim_eq, BitVec.ofNat_toNat, BitVec.setWidth_eq]

end HostTools
end PartRack
