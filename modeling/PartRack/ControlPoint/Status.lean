import PartRack.BindingTable.Contents
import PartRack.BindingTable.Verdict
import PartRack.ControlPoint.TableInfo

/-! What the status byte of a reply says. It tells the request errors apart except for a
wrong checksum, which the table reports as an invalid argument. The result of a failed
save goes through the same map from error numbers, so that most of them come out as
request errors. -/

namespace PartRack

namespace Request
open BindingTable

/-- A record to be written that fails its checksum, for a slot that exists. -/
def BadCrc : Request → Prop
  | .mutate (.writeOne record) => ValidSlot record.slot ∧ record.crcOk = false
  | .mutate (.insertAt slot record) => ValidSlot slot ∧ record.crcOk = false
  | _ => False

def Full (records : Records) : Request → Prop
  | .mutate op => op.Full records
  | _ => False

def Valid (records : Records) : Request → Prop
  | .readOne slot => ValidSlot slot
  | .readAll => True
  | .mutate op => op.Valid records
  | .malformed => False

theorem not_valid_of_badCrc {records : Records} {req : Request} (h : req.BadCrc) :
    ¬req.Valid records := by
  unfold BadCrc at h
  split at h
  · intro hv
    rw [hv.2] at h
    exact absurd h.2 (by decide)
  · intro hv
    rw [hv.2.1] at h
    exact absurd h.2 (by decide)
  · exact h.elim

theorem not_full_of_badCrc {records : Records} {req : Request} (h : req.BadCrc) :
    ¬req.Full records := by
  unfold BadCrc at h
  split at h
  · exact id
  · intro hf
    rw [hf.2.1] at h
    exact absurd h.2 (by decide)
  · exact h.elim

theorem not_full_of_valid {records : Records} {req : Request} (h : req.Valid records) :
    ¬req.Full records := by
  cases req with
  | mutate op => exact TableOp.not_full_of_valid h
  | _ => exact id

end Request

namespace ControlPoint
open BindingTable

def replies (log : List CpEvent) : List Status :=
  log.filterMap fun
    | .notify _ status _ => some status
    | _ => none

theorem replies_mutate (effects : List Effect) (code : Byte) (o : Outcome) :
    replies (effects.map .table ++ mutateReplies code o) = [statusFromErrno o.err] := by
  have htable : replies (effects.map .table) = [] := by simp [replies]
  rw [replies, List.filterMap_append]
  change replies (effects.map .table) ++ replies (mutateReplies code o) = _
  rw [htable, List.nil_append]
  by_cases h : o.err = 0
  · rw [mutateReplies_of_err_eq code h, h]
    rfl
  · rw [mutateReplies_of_err_ne code h]
    rfl

/-- The single reply to a request other than READ_ALL. -/
def status (save : Option SaveCb) (table : BindingTable) : Request → Status
  | .readOne slot => if ValidSlot slot then .ok else .errParam
  | .readAll => .ok
  | .mutate op => statusFromErrno (op.run save table).err
  | .malformed => .errParam

theorem ofFrame_ne_readAll {code : Byte} (args : List Byte)
    (hcode : code ≠ BindingOp.readAll.code) : Request.ofFrame code args ≠ .readAll := by
  unfold Request.ofFrame
  cases hop : BindingOp.ofCode? code with
  | none => exact Request.noConfusion
  | some op =>
    have hne : op ≠ .readAll := by
      rintro rfl
      exact hcode (BindingOp.code_of_ofCode? hop)
    show Request.ofArgs op args ≠ .readAll
    unfold Request.ofArgs
    split
    all_goals first
      | exact absurd rfl hne
      | (split_ifs <;> exact Request.noConfusion)
      | exact Request.noConfusion

theorem replies_handle (save : Option SaveCb) (table : BindingTable) {code : Byte}
    (args : List Byte) (hcode : code ≠ BindingOp.readAll.code) :
    replies (handle save (code :: args) ⟨table, []⟩).log =
      [status save table (Request.ofFrame code args)] := by
  have hne := ofFrame_ne_readAll args hcode
  rw [handle_eq_answer]
  cases hreq : Request.ofFrame code args with
  | readOne slot =>
    show replies [readOneReply table code slot] = [if ValidSlot slot then .ok else .errParam]
    by_cases hslot : ValidSlot slot
    · rw [readOneReply_of_valid table code hslot (by omega), if_pos hslot]
      rfl
    · rw [readOneReply_of_not_valid table code hslot, if_neg hslot]
      rfl
  | readAll => exact absurd hreq hne
  | mutate op => exact replies_mutate _ _ _
  | malformed => rfl

/-! ## Request errors -/

def SaveSucceeds (save : Option SaveCb) : Prop :=
  ∀ cb, save = some cb → ∀ records tableSeq, cb records tableSeq = 0

theorem commitTable_of_saveSucceeds {save : Option SaveCb} (hsave : SaveSucceeds save)
    (table : BindingTable) (next : Records) :
    (commitTable save table next).err = 0 ∧
      (commitTable save table next).model.records = next := by
  rcases commitTable_cases save table next with ⟨cb, hcb, herr, -⟩ | ⟨-, heq⟩
  · exact absurd (hsave cb hcb _ _) herr
  · rw [heq]
    exact ⟨rfl, rfl⟩

theorem err_of_accept {save : Option SaveCb} (hsave : SaveSucceeds save) {table : BindingTable}
    {op : TableOp} (h : ∀ err, op.plan table.records ≠ .reject err) :
    (op.run save table).err = 0 := by
  unfold TableOp.run
  cases hp : op.plan table.records with
  | reject err => exact absurd hp (h err)
  | keep => rfl
  | commit next => exact (commitTable_of_saveSucceeds hsave table next).1

theorem err_of_reject {save : Option SaveCb} {table : BindingTable} {op : TableOp} {err : Int}
    (h : op.plan table.records = .reject err) : (op.run save table).err = err := by
  rw [TableOp.run, h]
  rfl

/-- Everything is told apart, except that a wrong checksum counts as a wrong parameter. -/
theorem status_cases {save : Option SaveCb} (hsave : SaveSucceeds save) (table : BindingTable)
    (req : Request) :
    req.Valid table.records ∧ status save table req = .ok ∨
    req.Full table.records ∧ status save table req = .errFull ∨
    ¬req.Valid table.records ∧ ¬req.Full table.records ∧ status save table req = .errParam := by
  cases req with
  | readOne slot =>
    by_cases h : ValidSlot slot
    · exact Or.inl ⟨h, if_pos h⟩
    · exact Or.inr (Or.inr ⟨h, id, if_neg h⟩)
  | readAll => exact Or.inl ⟨trivial, rfl⟩
  | malformed => exact Or.inr (Or.inr ⟨id, id, rfl⟩)
  | mutate op =>
    have hstatus : status save table (.mutate op) = statusFromErrno (op.run save table).err := rfl
    rw [hstatus]
    cases TableOp.verdict table.records op with
    | accept valid plan =>
      rw [err_of_accept hsave plan]
      exact Or.inl ⟨valid, rfl⟩
    | full full plan =>
      rw [err_of_reject plan]
      exact Or.inr (Or.inl ⟨full, rfl⟩)
    | invalid valid full plan =>
      rw [err_of_reject plan]
      exact Or.inr (Or.inr ⟨valid, full, rfl⟩)

/-- The meaning of the four status codes that do not concern the flash. -/
structure Classified (records : Records) (req : Request) (s : Status) : Prop where
  errCrc : s = .errCrc ↔ req.BadCrc
  errFull : s = .errFull ↔ req.Full records
  ok : s = .ok ↔ req.Valid records
  errParam : s = .errParam ↔ ¬req.BadCrc ∧ ¬req.Full records ∧ ¬req.Valid records

theorem classified_iff {save : Option SaveCb} (hsave : SaveSucceeds save) (table : BindingTable)
    (req : Request) : Classified table.records req (status save table req) ↔ ¬req.BadCrc := by
  constructor
  · intro h hbad
    rcases status_cases hsave table req with ⟨hv, -⟩ | ⟨hf, -⟩ | ⟨-, -, hs⟩
    · exact Request.not_valid_of_badCrc hbad hv
    · exact Request.not_full_of_badCrc hbad hf
    · exact (h.errParam.mp hs).1 hbad
  · intro hbad
    rcases status_cases hsave table req with ⟨hv, hs⟩ | ⟨hf, hs⟩ | ⟨hv, hf, hs⟩
    · have hnf := Request.not_full_of_valid hv
      rw [hs]
      exact ⟨by simp [hbad], by simp [hnf], by simp [hv], by simp [hv]⟩
    · have hnv : ¬req.Valid table.records := fun hv => Request.not_full_of_valid hv hf
      rw [hs]
      exact ⟨by simp [hbad], by simp [hf], by simp [hnv], by simp [hf]⟩
    · rw [hs]
      exact ⟨by simp [hbad], by simp [hf], by simp [hv], by simp [hbad, hf, hv]⟩

/-- A frame other than READ_ALL gets one reply, and its status says what kind of request
it was, unless the record in it fails its checksum. -/
theorem replies_classified_iff {save : Option SaveCb} (hsave : SaveSucceeds save)
    (table : BindingTable) (code : Byte) (args : List Byte)
    (hcode : code ≠ BindingOp.readAll.code) :
    (∃ s, replies (handle save (code :: args) ⟨table, []⟩).log = [s] ∧
      Classified table.records (Request.ofFrame code args) s) ↔
    ¬(Request.ofFrame code args).BadCrc := by
  rw [← classified_iff hsave table, replies_handle save table args hcode]
  constructor
  · rintro ⟨s, hs, h⟩
    rwa [← List.cons.inj hs |>.1] at h
  · intro h
    exact ⟨_, rfl, h⟩

theorem saveSucceeds_zero : SaveSucceeds (some fun _ _ => 0) := by
  intro cb hcb records tableSeq
  rw [← Option.some.inj hcb]

theorem replies_classified_setQty :
    (∃ s, replies (handle (some fun _ _ => 0) [0x30, 0x02, 0x07, 0x00] ⟨secondBound, []⟩).log =
        [s] ∧
      Classified secondBound.records (Request.ofFrame 0x30 [0x02, 0x07, 0x00]) s) ∧
    ∃ s, replies (handle (some fun _ _ => 0) [0x30, 0x01, 0x07, 0x00] ⟨secondBound, []⟩).log =
        [s] ∧
      Classified secondBound.records (Request.ofFrame 0x30 [0x01, 0x07, 0x00]) s := by
  have hcode : (0x30 : Byte) ≠ BindingOp.readAll.code := by decide
  constructor
  · exact (replies_classified_iff saveSucceeds_zero secondBound 0x30 [0x02, 0x07, 0x00] hcode).mpr id
  · exact (replies_classified_iff saveSucceeds_zero secondBound 0x30 [0x01, 0x07, 0x00] hcode).mpr id

theorem not_classified_badCrc :
    ¬∃ s, replies (handle (some fun _ _ => 0) (0x10 :: 0x01 :: List.replicate 15 0x00)
        ⟨BindingTable.init, []⟩).log = [s] ∧
      Classified BindingTable.init.records
        (Request.ofFrame 0x10 (0x01 :: List.replicate 15 0x00)) s := by
  rw [replies_handle _ _ _ (by decide)]
  rintro ⟨s, hs, h⟩
  rw [← (List.cons.inj hs).1, classified_iff saveSucceeds_zero] at h
  -- all bytes but the slot are zero, and that is not the checksum of the slot
  exact h ⟨by decide, by decide +kernel⟩

end ControlPoint
end PartRack
