import PartRack.Persistence.Settings

/-! Restoring a stored table. A 414-byte image that is accepted is the encoding of what it
decodes to, and the settings handler leaves either that table or an empty one. -/

namespace PartRack
open LittleEndian BindingTable

namespace Snapshot

/-- `vbrk_binding_snapshot_decode` on what its output arguments point to; `tableSeq` may
be null. -/
def decodeInto (s : Snapshot) (len : ℕ) (records : Records) (tableSeq : Option (BitVec 32)) :
    Int × Records × Option (BitVec 32) :=
  if len ≠ 414 then (-Errno.EINVAL, records, tableSeq)
  else if s.magicLe ≠ snapshotMagic ∨ s.versionLe ≠ snapshotVersion ∨
      s.lengthLe ≠ snapshotRecordsSize then (-Errno.EINVAL, records, tableSeq)
  else if s.crc16Le ≠ snapshotCrc16 s then (-Errno.EILSEQ, records, tableSeq)
  else (0, s.records, tableSeq.map fun _ => s.tableSeqLe)

theorem decodeInto_eq (s : Snapshot) (len : ℕ) (records : Records)
    (tableSeq : Option (BitVec 32)) :
    s.decodeInto len records tableSeq = match s.decode len with
      | .error err => (err, records, tableSeq)
      | .ok (records', tableSeq') => (0, records', tableSeq.map fun _ => tableSeq') := by
  unfold decodeInto decode
  split_ifs <;> rfl

theorem decode_error_ne_zero {s : Snapshot} {len : ℕ} {err : Int}
    (h : s.decode len = .error err) : err ≠ 0 := by
  unfold decode at h
  split_ifs at h
  all_goals
    rw [← Except.error.inj h]
    decide

/-! ## Every image is the layout of a snapshot -/

theorem bytes_word {w n : ℕ} (bs : List Byte) (offset : ℕ) (hw : 256 ^ n ≤ 2 ^ w)
    (h : offset + n ≤ bs.length) :
    bytes n (word w bs offset n).toNat = (bs.drop offset).take n := by
  have hlen : ((bs.drop offset).take n).length = n := by
    rw [List.length_take, List.length_drop]
    omega
  have hbytes := bytes_ofNat_value (w := w) ((bs.drop offset).take n) (by rwa [hlen])
  rwa [hlen] at hbytes

theorem flatMap_ofFn_ofBytes (l : List Byte) (n : ℕ) (h : 16 * n ≤ l.length) :
    (List.ofFn fun i : Fin n => SlotRecord.ofBytes ((l.drop (16 * i)).take 16)).flatMap
      SlotRecord.toBytes = l.take (16 * n) := by
  induction n with
  | zero => rfl
  | succ n ih =>
    have hlast : ((l.drop (16 * n)).take 16).length = 16 := by
      rw [List.length_take, List.length_drop]
      omega
    rw [List.ofFn_succ_last, List.flatMap_append, Nat.mul_succ, List.take_add]
    simp only [Fin.val_castSucc, Fin.val_last, List.flatMap_cons, List.flatMap_nil,
      List.append_nil, SlotRecord.toBytes_ofBytes hlast]
    rw [ih (by omega)]

theorem toBytes_ofBytes {bs : List Byte} (h : 414 ≤ bs.length) :
    (ofBytes bs).toBytes = bs.take 414 := by
  have hmagic := bytes_word (w := 32) (n := 4) bs 0 (by decide) (by omega)
  have hversion := bytes_word (w := 16) (n := 2) bs 4 (by decide) (by omega)
  have hlength := bytes_word (w := 16) (n := 2) bs 6 (by decide) (by omega)
  have hseq := bytes_word (w := 32) (n := 4) bs 8 (by decide) (by omega)
  have hcrc := bytes_word (w := 16) (n := 2) bs 412 (by decide) (by omega)
  have hrecords := flatMap_ofFn_ofBytes (bs.drop 12) 25 (by rw [List.length_drop]; omega)
  simp only [List.drop_drop] at hrecords
  unfold toBytes body ofBytes
  simp only [hmagic, hversion, hlength, hseq, hcrc, Vector.toList_ofFn, hrecords]
  -- the six slices are next to each other
  rw [List.drop_zero, ← List.take_add, ← List.take_add, ← List.take_add, ← List.take_add,
    ← List.take_add]

theorem toBytes_encode_of_decode {bs : List Byte} {len : ℕ} (hlen : len ≤ bs.length)
    {records : Records} {tableSeq : BitVec 32}
    (h : (ofBytes bs).decode len = .ok (records, tableSeq)) :
    len = 414 ∧ (encode records tableSeq).toBytes = bs.take 414 := by
  obtain ⟨hlen', hs⟩ := (decode_eq_ok_iff _ _ _ _).mp h
  refine ⟨hlen', ?_⟩
  rw [← hs, toBytes_ofBytes (by omega)]

theorem decode_ofBytes_iff (bs : List Byte) (records : Records) (tableSeq : BitVec 32) :
    (ofBytes bs).decode bs.length = .ok (records, tableSeq) ↔
      bs = (encode records tableSeq).toBytes := by
  constructor
  · intro h
    obtain ⟨hlen, hbytes⟩ := toBytes_encode_of_decode (Nat.le_refl _) h
    rw [hbytes, List.take_of_length_le (Nat.le_of_eq hlen)]
  · rintro rfl
    rw [ofBytes_toBytes, length_toBytes, decode_encode]

end Snapshot

/-! ## The settings handler -/

/-- The table after a restore from the bytes read: the one they encode, or an empty one. -/
inductive Restored (bs : List Byte) (table : BindingTable) : Prop
  | stored (records : Records) (tableSeq : BitVec 32)
      (image : bs = (Snapshot.encode records tableSeq).toBytes)
      (table_eq : table = ⟨records, if tableSeq = 0 then 1 else tableSeq⟩)
  | empty (image : ∀ records tableSeq, bs ≠ (Snapshot.encode records tableSeq).toBytes)
      (table_eq : table = ⟨Vector.replicate 25 SlotRecord.zero, 1⟩)

namespace Firmware

theorem bindingTableSettingsSet_of_read (fw : Firmware) {readCb : ℕ → Except Int (List Byte)}
    {bs : List Byte} (h : readCb 414 = .ok bs) :
    (fw.bindingTableSettingsSet bindingTableSettingsName readCb).1 = 0 ∧
      Restored bs (fw.bindingTableSettingsSet bindingTableSettingsName readCb).2.tableModel := by
  unfold bindingTableSettingsSet
  rw [if_neg (not_not_intro rfl)]
  simp only [h]
  cases hdecode : (Snapshot.ofBytes bs).decode bs.length with
  | ok p =>
    obtain ⟨records, tableSeq⟩ := p
    have himage := (Snapshot.decode_ofBytes_iff bs records tableSeq).mp hdecode
    exact ⟨rfl, .stored records tableSeq himage rfl⟩
  | error err =>
    refine ⟨rfl, .empty ?_ rfl⟩
    intro records tableSeq himage
    rw [(Snapshot.decode_ofBytes_iff bs records tableSeq).mpr himage] at hdecode
    cases hdecode

end Firmware

/-- The codec is a bijection between tables and the images it accepts, a rejected image
leaves the outputs alone, and a restore takes over a whole image or nothing of it. -/
theorem snapshot_codec_restore :
    (∀ (records out : Records) (tableSeq outSeq : BitVec 32),
      (Snapshot.ofBytes (Snapshot.encode records tableSeq).toBytes).decodeInto 414 out
        (some outSeq) = (0, records, some tableSeq)) ∧
    (∀ (bs : List Byte) (len : ℕ) (out records : Records) (outSeq tableSeq : BitVec 32),
      len ≤ bs.length →
      (Snapshot.ofBytes bs).decodeInto len out (some outSeq) = (0, records, some tableSeq) →
        len = 414 ∧ (Snapshot.encode records tableSeq).toBytes = bs.take 414) ∧
    (∀ (bs : List Byte) (len : ℕ) (out : Records) (outSeq : Option (BitVec 32)),
      ((Snapshot.ofBytes bs).decodeInto len out outSeq).1 ≠ 0 →
        ((Snapshot.ofBytes bs).decodeInto len out outSeq).2 = (out, outSeq)) ∧
    ∀ (fw : Firmware) (readCb : ℕ → Except Int (List Byte)) (bs : List Byte),
      readCb 414 = .ok bs →
        (fw.bindingTableSettingsSet bindingTableSettingsName readCb).1 = 0 ∧
        Restored bs (fw.bindingTableSettingsSet bindingTableSettingsName readCb).2.tableModel := by
  refine ⟨?_, ?_, ?_, fun fw _ _ h => fw.bindingTableSettingsSet_of_read h⟩
  · intro records out tableSeq outSeq
    rw [Snapshot.decodeInto_eq, Snapshot.ofBytes_toBytes, Snapshot.decode_encode]
    rfl
  · intro bs len out records outSeq tableSeq hlen h
    rw [Snapshot.decodeInto_eq] at h
    cases hdecode : (Snapshot.ofBytes bs).decode len with
    | ok p =>
      rw [hdecode] at h
      obtain ⟨records', tableSeq'⟩ := p
      obtain ⟨-, hrest⟩ := Prod.mk.inj h
      obtain ⟨rfl, hseq⟩ := Prod.mk.inj hrest
      obtain rfl := Option.some.inj hseq
      exact Snapshot.toBytes_encode_of_decode hlen hdecode
    | error err =>
      rw [hdecode] at h
      exact absurd (Prod.mk.inj h).1 (Snapshot.decode_error_ne_zero hdecode)
  · intro bs len out outSeq h
    rw [Snapshot.decodeInto_eq] at h ⊢
    cases hdecode : (Snapshot.ofBytes bs).decode len with
    | ok p =>
      rw [hdecode] at h
      exact absurd rfl h
    | error err => rfl

end PartRack
