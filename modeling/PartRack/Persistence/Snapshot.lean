import PartRack.BindingTable.Model

/-! The stored form of the table (protocol/viberack_storage.c): a packed 414-byte
snapshot with magic, version, length and a CRC-16 over everything before it. Decoding
accepts exactly the snapshots that encoding produces. -/

namespace PartRack
open LittleEndian

def snapshotMagic : BitVec 32 := 0x4B425256
def snapshotVersion : BitVec 16 := 1
def snapshotRecordsSize : BitVec 16 := 400

/-- `vbrk_binding_snapshot_t`. -/
structure Snapshot where
  magicLe : BitVec 32
  versionLe : BitVec 16
  lengthLe : BitVec 16
  tableSeqLe : BitVec 32
  records : Records
  crc16Le : BitVec 16
deriving DecidableEq, Repr

namespace Snapshot

/-- The packed layout up to the checksum, whose offset is 412. -/
def body (s : Snapshot) : List Byte :=
  bytes 4 s.magicLe.toNat ++ bytes 2 s.versionLe.toNat ++ bytes 2 s.lengthLe.toNat ++
    bytes 4 s.tableSeqLe.toNat ++ s.records.toList.flatMap SlotRecord.toBytes

def toBytes (s : Snapshot) : List Byte := s.body ++ bytes 2 s.crc16Le.toNat

/-- The integer of `n` bytes at an offset of the packed layout. -/
def word (w : ℕ) (bs : List Byte) (offset n : ℕ) : BitVec w :=
  BitVec.ofNat w (value ((bs.drop offset).take n))

def ofBytes (bs : List Byte) : Snapshot where
  magicLe := word 32 bs 0 4
  versionLe := word 16 bs 4 2
  lengthLe := word 16 bs 6 2
  tableSeqLe := word 32 bs 8 4
  records := Vector.ofFn fun i => SlotRecord.ofBytes ((bs.drop (12 + 16 * i)).take 16)
  crc16Le := word 16 bs 412 2

def snapshotCrc16 (s : Snapshot) : BitVec 16 := crc16CcittFalse s.body

def encode (records : Records) (tableSeq : BitVec 32) : Snapshot :=
  let snapshot : Snapshot :=
    ⟨snapshotMagic, snapshotVersion, snapshotRecordsSize, tableSeq, records, 0⟩
  { snapshot with crc16Le := snapshotCrc16 snapshot }

def decode (s : Snapshot) (len : ℕ) : Except Int (Records × BitVec 32) :=
  if len ≠ 414 then .error (-Errno.EINVAL)
  else if s.magicLe ≠ snapshotMagic ∨ s.versionLe ≠ snapshotVersion ∨
      s.lengthLe ≠ snapshotRecordsSize then .error (-Errno.EINVAL)
  else if s.crc16Le ≠ snapshotCrc16 s then .error (-Errno.EILSEQ)
  else .ok (s.records, s.tableSeqLe)

/-! ## The packed layout -/

theorem length_flatMap_toBytes (l : List SlotRecord) :
    (l.flatMap SlotRecord.toBytes).length = 16 * l.length := by
  induction l with
  | nil => rfl
  | cons r l ih =>
    rw [List.flatMap_cons, List.length_append, ih, SlotRecord.length_toBytes, List.length_cons]
    omega

@[simp] theorem length_body (s : Snapshot) : s.body.length = 412 := by
  simp [body]

@[simp] theorem length_toBytes (s : Snapshot) : s.toBytes.length = 414 := by simp [toBytes]

theorem word_append {w n : ℕ} (pre post : List Byte) (x : BitVec w) (h : 2 ^ w ≤ 256 ^ n) :
    word w (pre ++ (bytes n x.toNat ++ post)) pre.length n = x := by
  rw [word, List.drop_left, List.take_left' (length_bytes n _)]
  exact ofNat_value_bytes n x h

theorem take_drop_flatMap_toBytes (l : List SlotRecord) (post : List Byte) (i : ℕ)
    (hi : i < l.length) :
    ((l.flatMap SlotRecord.toBytes ++ post).drop (16 * i)).take 16 = l[i].toBytes := by
  induction l generalizing i with
  | nil => exact absurd hi (Nat.not_lt_zero i)
  | cons r l ih =>
    rw [List.flatMap_cons, List.append_assoc]
    cases i with
    | zero => exact List.take_left' (SlotRecord.length_toBytes r)
    | succ i =>
      rw [Nat.mul_succ, Nat.add_comm, ← List.drop_drop,
        List.drop_left' (SlotRecord.length_toBytes r)]
      exact ih i (Nat.lt_of_succ_lt_succ hi)

theorem ofBytes_toBytes (s : Snapshot) : ofBytes s.toBytes = s := by
  obtain ⟨magicLe, versionLe, lengthLe, tableSeqLe, records, crc16Le⟩ := s
  have hmagic := word_append [] (bytes 2 versionLe.toNat ++ (bytes 2 lengthLe.toNat ++
    (bytes 4 tableSeqLe.toNat ++ (records.toList.flatMap SlotRecord.toBytes ++
      bytes 2 crc16Le.toNat)))) magicLe (n := 4) (by decide)
  have hversion := word_append (bytes 4 magicLe.toNat) (bytes 2 lengthLe.toNat ++
    (bytes 4 tableSeqLe.toNat ++ (records.toList.flatMap SlotRecord.toBytes ++
      bytes 2 crc16Le.toNat))) versionLe (n := 2) (by decide)
  have hlength := word_append (bytes 4 magicLe.toNat ++ bytes 2 versionLe.toNat)
    (bytes 4 tableSeqLe.toNat ++ (records.toList.flatMap SlotRecord.toBytes ++
      bytes 2 crc16Le.toNat)) lengthLe (n := 2) (by decide)
  have hseq := word_append (bytes 4 magicLe.toNat ++ bytes 2 versionLe.toNat ++
    bytes 2 lengthLe.toNat) (records.toList.flatMap SlotRecord.toBytes ++
      bytes 2 crc16Le.toNat) tableSeqLe (n := 4) (by decide)
  have hcrc := word_append (Snapshot.mk magicLe versionLe lengthLe tableSeqLe records 0).body []
    crc16Le (n := 2) (by decide)
  have hrecords : (Vector.ofFn fun i : Fin 25 => SlotRecord.ofBytes
      (((Snapshot.mk magicLe versionLe lengthLe tableSeqLe records crc16Le).toBytes.drop
        (12 + 16 * i)).take 16)) = records := by
    apply Vector.ext
    intro i hi
    have hlen : (bytes 4 magicLe.toNat ++ bytes 2 versionLe.toNat ++ bytes 2 lengthLe.toNat ++
      bytes 4 tableSeqLe.toNat).length = 12 := by simp
    rw [Vector.getElem_ofFn, toBytes, body, List.append_assoc _ (records.toList.flatMap _),
      ← List.drop_drop, List.drop_left' hlen,
      take_drop_flatMap_toBytes _ _ i (by simpa using hi), SlotRecord.ofBytes_toBytes,
      Vector.getElem_toList]
  simp only [ofBytes, hrecords]
  simp only [toBytes, body, List.append_assoc, List.length_append, length_bytes,
    List.nil_append, List.length_nil, List.append_nil, length_flatMap_toBytes,
    Vector.length_toList] at hmagic hversion hlength hseq hcrc ⊢
  rw [hmagic, hversion, hlength, hseq, hcrc]

/-! ## Round trip -/

theorem crc16Le_encode (records : Records) (tableSeq : BitVec 32) :
    (encode records tableSeq).crc16Le = snapshotCrc16 (encode records tableSeq) := by
  simp only [encode, snapshotCrc16, body]

theorem decode_encode (records : Records) (tableSeq : BitVec 32) :
    (encode records tableSeq).decode 414 = .ok (records, tableSeq) := by
  have hcrc := crc16Le_encode records tableSeq
  unfold decode
  rw [if_neg (by decide), if_neg (by simp [encode]), if_neg (by simp [hcrc])]
  simp only [encode]

theorem decode_eq_ok_iff (s : Snapshot) (len : ℕ) (records : Records) (tableSeq : BitVec 32) :
    s.decode len = .ok (records, tableSeq) ↔ len = 414 ∧ s = encode records tableSeq := by
  constructor
  · intro h
    unfold decode at h
    split_ifs at h with hlen hhead hcrc
    obtain ⟨magicLe, versionLe, lengthLe, tableSeqLe, recs, crc16Le⟩ := s
    simp only [not_or, not_not] at hlen hhead hcrc
    obtain ⟨rfl, rfl, rfl⟩ := hhead
    obtain ⟨rfl, rfl⟩ := Prod.mk.inj (Except.ok.inj h)
    exact ⟨hlen, congrArg (Snapshot.mk _ _ _ _ _) hcrc⟩
  · rintro ⟨rfl, rfl⟩
    exact decode_encode records tableSeq

end Snapshot
end PartRack
