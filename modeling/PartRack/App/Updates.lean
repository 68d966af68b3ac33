import PartRack.App.Reader
import PartRack.BindingTable.Repeat
import PartRack.ControlPoint.StorageFailure

/-! What becomes of the requests to change the table. The table is what the requests that were
taken have made of it, in their order and each of them once, and the client is never told
anything else, over connections and power cycles. -/

namespace PartRack

/-- The value of a notification of the control point. -/
def AttPdu.reply? : AttPdu → Option (List Byte)
  | .notify .bindingCp value => some value
  | _ => none

/-- A request to change the table, with the answers to it that the client has been shown. -/
structure Asked where
  code : Byte
  op : TableOp
  shown : List (List Byte)

namespace Asked

/-- The client has been shown nothing, or this status and nothing else. -/
def Told (a : Asked) (status : Status) : Prop := a.shown = [] ∨ a.shown = [[a.code, status.code]]

end Asked

open BindingTable in
/-- How a row of parts can have changed, for all that the client has been shown: a request is
taken, and was told of success if it was told of anything, or it is not, and was told of an
error if it was told of anything. -/
inductive Explains : List Asked → List (Option Part) → List (Option Part) → Prop
  | nil (row : List (Option Part)) : Explains [] row row
  | taken {a : Asked} {rest : List Asked} {row row' : List (Option Part)}
      (valid : a.op.Valid (ofContents row)) (told : a.Told .ok)
      (h : Explains rest (a.op.act row) row') : Explains (a :: rest) row row'
  | refused {a : Asked} {rest : List Asked} {row row' : List (Option Part)} {status : Status}
      (error : status ≠ .ok) (told : a.Told status) (h : Explains rest row row') :
      Explains (a :: rest) row row'

/-- The request to change the table that an event is, with the code of its frame. -/
def AppEvent.request : AppEvent → Option (Byte × TableOp)
  | .bindingCpWrite _ _ 0 (code :: args) =>
    match Request.ofFrame code args with
    | .mutate op => some (code, op)
    | _ => none
  | _ => none

theorem AppEvent.request_eq_some {e : AppEvent} {code : Byte} {op : TableOp}
    (h : e.request = some (code, op)) : ∃ save gatt args,
      e = .bindingCpWrite save gatt 0 (code :: args) ∧ Request.ofFrame code args = .mutate op := by
  unfold request at h
  split at h
  · rename_i save gatt code' args
    split at h
    · rename_i op' hframe
      obtain ⟨rfl, rfl⟩ := Prod.mk.inj (Option.some.inj h)
      exact ⟨save, gatt, args, rfl, hframe⟩
    · exact absurd h.symm (Option.some_ne_none _)
  · exact absurd h.symm (Option.some_ne_none _)

/-! ## The table is left alone -/

namespace App
open AppState BindingTable

section Write
variable {s : App} {save : SettingsSaveOne} {gatt : GattNotify} {code : Byte} {args : List Byte}

theorem write_eq_dispatch (hcode : code ≠ BindingOp.readAll.code) :
    ((s.setEnv (s.env.push (.write .bindingCp 0 (code :: args)))).bindingCpWrite save gatt 0
      (code :: args)).2 = s.setEnv ((dispatcher save gatt).dispatchBindingCp (code :: args)
        (s.env.exchange [.write .bindingCp 0 (code :: args)])).2 := by
  have hlen : ¬((0 : ℕ) ≠ 0 ∨ (code :: args).length < 1) := by simp
  have hasync : handleReadAllAsync gatt (code :: args)
      (s.setEnv (s.env.push (.write .bindingCp 0 (code :: args)))) =
        (false, s.setEnv (s.env.exchange [.write .bindingCp 0 (code :: args)])) :=
    if_pos fun h => hcode (Option.some.inj h)
  rw [bindingCpWrite, if_neg hlen, hasync]
  rfl

theorem table_of_write (offset : ℕ) (frame : List Byte)
    (h : (AppEvent.bindingCpWrite save gatt offset frame).request = none) :
    ((s.setEnv (s.env.push (.write .bindingCp offset frame))).bindingCpWrite
      save gatt offset frame).2.env.table = s.env.table := by
  by_cases hlen : offset ≠ 0 ∨ frame.length < 1
  · rw [bindingCpWrite, if_pos hlen]
    rfl
  obtain ⟨hoffset, hne⟩ := not_or.mp hlen
  rw [not_not] at hoffset
  subst hoffset
  cases frame with
  | nil => exact absurd Nat.zero_lt_one hne
  | cons code args =>
    by_cases hcode : code = BindingOp.readAll.code
    · subst hcode
      rw [bindingCpWrite, if_neg hlen]
      cases args with
      | nil => rfl
      | cons b args =>
        obtain ⟨pdus, heq, -⟩ := notifyBindingResult_snd gatt BindingOp.readAll.code
          (statusFromErrno (-Errno.EINVAL)) []
          (s.env.push (.write .bindingCp 0 (BindingOp.readAll.code :: b :: args)))
        exact congrArg (fun env => env.table) heq
    · have hframe : ∀ op, Request.ofFrame code args ≠ .mutate op := by
        intro op hop
        simp only [AppEvent.request, hop] at h
        exact Option.some_ne_none _ h
      rw [write_eq_dispatch hcode]
      obtain ⟨pdus, -, heq⟩ := dispatch_of_ne_mutate save gatt hcode hframe
        (s.env.exchange [.write .bindingCp 0 (code :: args)])
      rw [heq]
      rfl

end Write

theorem table_of_step {s t : App} {e : AppEvent} (hs : s.Invariant) (h : e.request = none)
    (ht : s.step e = some t) : t.env.table = s.env.table := by
  cases e with
  | bleStart =>
    obtain ⟨env, henv, rfl⟩ := Option.map_eq_some_iff.mp ht
    exact congrArg (fun d => d.firmware.tableModel) (AdvertisingStep.bleStart henv).sameData.device
  | lifecycleWork =>
    obtain ⟨env, henv, rfl⟩ := Option.map_eq_some_iff.mp ht
    exact congrArg (fun d => d.firmware.tableModel)
      (AdvertisingStep.lifecycleWork henv).sameData.device
  | fillAdvMsd batteryPct fault =>
    obtain ⟨env, henv, rfl⟩ := Option.map_eq_some_iff.mp ht
    exact congrArg (fun d => d.firmware.tableModel)
      (AdvertisingStep.fillAdvMsd _ _ henv).sameData.device
  | stackApply err =>
    obtain ⟨env, henv, rfl⟩ := Option.map_eq_some_iff.mp ht
    exact congrArg (fun d => d.firmware.tableModel)
      (AdvertisingStep.stackApply _ henv).sameData.device
  | applyReturn =>
    obtain ⟨env, henv, rfl⟩ := Option.map_eq_some_iff.mp ht
    exact congrArg (fun d => d.firmware.tableModel)
      (AdvertisingStep.applyReturn henv).sameData.device
  | bindingCpWrite save gatt offset frame =>
    simp only [step, whileConnected] at ht
    split_ifs at ht
    obtain rfl := Option.some.inj ht
    exact table_of_write offset frame h
  | connected err =>
    simp only [step, App.connected] at ht
    split_ifs at ht
    · obtain rfl := Option.some.inj ht
      rfl
    · obtain rfl := Option.some.inj ht
      rfl
  | disconnected =>
    simp only [step] at ht
    split_ifs at ht
    obtain rfl := Option.some.inj ht
    rfl
  | lightCommandWrite gatt offset buf nowMs =>
    simp only [step, whileConnected] at ht
    split_ifs at ht
    obtain rfl := Option.some.inj ht
    exact congrArg (fun d => d.firmware.tableModel) (setLight_eq _ _ _).2.1
  | offWork gatt nowMs =>
    obtain ⟨env, henv, rfl⟩ := Option.map_eq_some_iff.mp ht
    obtain ⟨light, -, rfl⟩ := Option.map_eq_some_iff.mp henv
    exact congrArg (fun d => d.firmware.tableModel) (setLight_eq _ _ _).2.1
  | readAllWork gatt =>
    simp only [step] at ht
    split_ifs at ht with hwork
    obtain rfl := Option.some.inj ht
    exact table_readAllWorked hs hwork gatt
  | nfcFd gatt nowMs =>
    obtain rfl := Option.some.inj ht
    show (s.env.nfcFdHandler gatt nowMs).table = s.env.table
    unfold nfcFdHandler
    split_ifs
    · rfl
    · rw [reportNfcFd_eq]
      rfl
  | powerCycle outputsErr stripErr =>
    obtain rfl := Option.some.inj ht
    exact congrArg (fun d => d.firmware.tableModel) hs.synced.reboot_eq
  | tableInfoRead =>
    simp only [step, whileConnected] at ht
    split_ifs at ht
    obtain rfl := Option.some.inj ht
    rfl
  | lightStatusRead nowMs =>
    simp only [step, whileConnected] at ht
    split_ifs at ht
    obtain rfl := Option.some.inj ht
    rfl

/-- The answers that a step has shown to the client. -/
def shown (s t : App) : List (List Byte) :=
  (t.env.att.drop s.env.att.length).filterMap AttPdu.reply?

def asked (s t : App) (e : AppEvent) : Option Asked :=
  e.request.map fun r => ⟨r.1, r.2, shown s t⟩

theorem shown_of_att {s t : App} {pdus : List AttPdu} (h : t.env.att = s.env.att ++ pdus) :
    shown s t = pdus.filterMap AttPdu.reply? := by
  rw [shown, h, List.drop_left]

theorem reply?_accepted (gatt : GattNotify) (value : List Byte) :
    (accepted gatt .bindingCp value).filterMap AttPdu.reply? = [] ∨
      (accepted gatt .bindingCp value).filterMap AttPdu.reply? = [value] := by
  unfold accepted
  split_ifs
  · exact Or.inr rfl
  · exact Or.inl rfl

theorem reply?_accepted_of_ne (gatt : GattNotify) {attr : GattAttr} (h : attr ≠ .bindingCp)
    (value : List Byte) : (accepted gatt attr value).filterMap AttPdu.reply? = [] := by
  unfold accepted
  split_ifs
  · cases attr with
    | bindingCp => exact absurd rfl h
    | _ => rfl
  · rfl

theorem table_and_shown_of_step {s t : App} (hs : s.Invariant) {save : SettingsSaveOne}
    {gatt : GattNotify} {code : Byte} {args : List Byte} {op : TableOp}
    (hframe : Request.ofFrame code args = .mutate op)
    (ht : s.step (.bindingCpWrite save gatt 0 (code :: args)) = some t) :
    t.env.table = (mutate save op s.env).2.table ∧ shown s t = (accepted gatt .bindingCp
      [code, (statusFromErrno (mutate save op s.env).1).code]).filterMap AttPdu.reply? := by
  simp only [step, whileConnected] at ht
  split_ifs at ht with hconn
  obtain rfl := Option.some.inj ht
  have hlinked : (mutate save op (s.env.exchange [.write .bindingCp 0 (code :: args)])).2.Linked :=
    ⟨hs.connected.trans hconn, hconn⟩
  have hnotify : ((dispatcher save gatt).notify code (mutate save op s.env).1 []
      (mutate save op (s.env.exchange [.write .bindingCp 0 (code :: args)])).2).2 =
        (mutate save op s.env).2.exchange ([.write .bindingCp 0 (code :: args)] ++
          accepted gatt .bindingCp [code, (statusFromErrno (mutate save op s.env).1).code]) := by
    have hpayload : (if (mutate save op s.env).1 = 0 then ([] : List Byte) else []) = [] := by
      split_ifs <;> rfl
    show (notifyBindingResult gatt code (statusFromErrno (mutate save op s.env).1)
      (if (mutate save op s.env).1 = 0 then [] else []) _).2 = _
    rw [hpayload, notifyBindingResult_of_linked hlinked gatt code _ (Nat.zero_le _),
      mutate_exchange, exchange_exchange]
  rw [write_eq_dispatch (ControlPoint.code_ne_of_mutate hframe), dispatch_mutate save gatt hframe]
  have herr : (mutate save op (s.env.exchange [.write .bindingCp 0 (code :: args)])).1 =
    (mutate save op s.env).1 := rfl
  rw [herr, hnotify]
  split_ifs with hok
  · rw [reportBindingChanged_eq gatt (s := (mutate save op s.env).2.exchange _) hs.connected]
    refine ⟨rfl, ?_⟩
    have hinfo : ∀ value, (if s.env.currentConn then accepted gatt .tableInfo value
        else []).filterMap AttPdu.reply? = [] := by
      intro value
      rw [if_pos hconn]
      exact reply?_accepted_of_ne gatt (by decide) value
    have hshown : ∀ value, ([AttPdu.write .bindingCp 0 (code :: args)] ++
        accepted gatt .bindingCp [code, (statusFromErrno (mutate save op s.env).1).code] ++
          (if s.env.currentConn then accepted gatt .tableInfo value else [])).filterMap
            AttPdu.reply? = (accepted gatt .bindingCp
              [code, (statusFromErrno (mutate save op s.env).1).code]).filterMap AttPdu.reply? := by
      intro value
      rw [List.filterMap_append, List.filterMap_append, hinfo, List.append_nil]
      rfl
    rw [shown_of_att (s := s) (List.append_assoc _ _ _)]
    exact hshown _
  · refine ⟨rfl, ?_⟩
    rw [shown_of_att (s := s) rfl, List.filterMap_append]
    rfl

/-! ## A whole run -/

/-- The requests of the client to change the table in a run from `s`. -/
def requests : App → List AppEvent → List Asked
  | _, [] => []
  | s, e :: es =>
    match s.step e with
    | none => []
    | some t => (asked s t e).toList ++ requests t es

theorem explains_run_op {table : BindingTable} (hwf : WellFormed table.records)
    (save : Option SaveCb) (a : Asked)
    (hshown : a.Told (statusFromErrno (a.op.run save table).err)) :
    WellFormed (a.op.run save table).model.records ∧
      ∀ {rest row}, Explains rest (contents (a.op.run save table).model.records) row →
        Explains (a :: rest) (contents table.records) row := by
  rcases a.op.run_taken_or_refused save table with ⟨herr, hvalid, hrecords⟩ | ⟨herr, hmodel⟩
  · rw [(statusFromErrno_eq_ok_iff _).mpr herr] at hshown
    rw [hrecords]
    refine ⟨TableOp.wellFormed_apply hwf a.op, fun h => .taken ?_ hshown ?_⟩
    · rwa [ofContents_contents hwf]
    · rwa [TableOp.contents_apply hwf hvalid] at h
  · rw [hmodel]
    exact ⟨hwf, fun h => .refused
      (fun hok => herr ((statusFromErrno_eq_ok_iff _).mp hok)) hshown h⟩

theorem explains_step {s t : App} {e : AppEvent} (hs : s.Invariant)
    (hwf : WellFormed s.env.table.records) (ht : s.step e = some t) :
    WellFormed t.env.table.records ∧ ∀ {rest row}, Explains rest (contents t.env.table.records) row →
      Explains ((asked s t e).toList ++ rest) (contents s.env.table.records) row := by
  cases hreq : e.request with
  | none =>
    rw [table_of_step hs hreq ht, asked, hreq]
    exact ⟨hwf, id⟩
  | some r =>
    obtain ⟨code, op⟩ := r
    obtain ⟨save, gatt, args, rfl, hframe⟩ := AppEvent.request_eq_some hreq
    obtain ⟨htable, hshown⟩ := table_and_shown_of_step hs hframe ht
    rw [asked, hreq, htable]
    refine explains_run_op hwf (s.env.device.firmware.saveCb save) ⟨code, op, shown s t⟩ ?_
    exact (congrArg (fun l => l = [] ∨ l = _) hshown).mpr (reply?_accepted gatt _)

theorem explains_run {s t : App} (hs : s.Invariant) (hwf : WellFormed s.env.table.records)
    {events : List AppEvent} (ht : run s events = some t) :
    WellFormed t.env.table.records ∧ Explains (requests s events)
      (contents s.env.table.records) (contents t.env.table.records) := by
  induction events generalizing s with
  | nil =>
    obtain rfl := Option.some.inj ht
    exact ⟨hwf, .nil _⟩
  | cons e es ih =>
    obtain ⟨u, hu, hrest⟩ := Option.bind_eq_some_iff.mp ht
    obtain ⟨hwf', hexplains⟩ := explains_step hs hwf hu
    obtain ⟨hwf'', h⟩ := ih (hs.step hu) hwf' hrest
    rw [requests, hu]
    exact ⟨hwf'', hexplains h⟩

/-- Each record is well formed at its place. -/
def Genuine (r : Reader) : Prop :=
  ∀ (k : ℕ) (h : k < r.payloads.length), ∃ record : SlotRecord,
    record.WellFormedAt (BitVec.ofNat 8 (k + 1)) ∧ r.payloads[k] = record.toBytes

theorem Genuine.snoc {r : Reader} (h : Genuine r) {table : BindingTable}
    (hwf : WellFormed table.records) (hlt : r.payloads.length < 25) :
    Genuine ⟨true, r.payloads ++ [readAllPayload table r.payloads.length]⟩ := by
  intro k hk
  rcases Nat.lt_or_ge k r.payloads.length with hold | hnew
  · obtain ⟨record, hrecord, heq⟩ := h k hold
    exact ⟨record, hrecord, (List.getElem_append_left hold).trans heq⟩
  · have hlast : k = r.payloads.length := by
      have hk : k < (r.payloads ++ [readAllPayload table r.payloads.length]).length := hk
      rw [List.length_append, List.length_singleton] at hk
      omega
    subst hlast
    refine ⟨table.records[r.payloads.length], hwf _ hlt, ?_⟩
    rw [← readAllPayload_of_lt table hlt]
    exact List.getElem_concat_length rfl _

/-- What the client has got, record for record. -/
structure Reads (s : App) : Prop where
  invariant : s.Invariant
  wellFormed : WellFormed s.env.table.records
  reader : ∃ r, Follows s r ∧ Genuine r

theorem Reads.step {s t : App} {e : AppEvent} (h : s.Reads) (ht : s.step e = some t) :
    t.Reads := by
  obtain ⟨hs, hwf, r, hr, hgenuine⟩ := h
  refine ⟨hs.step ht, (explains_step hs hwf ht).1, ?_⟩
  rcases hr.did hs (step_did ht) with h' | ⟨reading, h'⟩ | ⟨hwork, rfl⟩
  · exact ⟨r, h', hgenuine⟩
  · exact ⟨_, h', fun k hk => absurd hk (Nat.not_lt_zero k)⟩
  · rcases hr.readAllWorked hs hwork e.gatt with ⟨h', -⟩ | ⟨-, h', -⟩
    · exact ⟨r, h', hgenuine⟩
    · refine ⟨_, h', ?_⟩
      split_ifs with hlt
      · exact hgenuine.snoc hwf hlt
      · exact hgenuine

/-- Over the whole life of a device each record of READ_ALL that the client gets is 16 zero
bytes, or carries the number of its place, reserved byte 0 and the right checksum, whatever is
written to the table while READ_ALL is under way. -/
theorem records_wellFormed_along {device : Device} (h : device.Synced)
    (hwf : WellFormed device.firmware.tableModel.records) (outputsErr stripErr : Int)
    (commits : ℕ) (events : List AppEvent) :
    Runs.Along step (fun s => ∀ r, Reader.ofAtt s.env.att = some r → Genuine r)
      (boot device outputsErr stripErr commits) events := by
  have hboot : (boot device outputsErr stripErr commits).Reads :=
    ⟨invariant_boot h _ _ _, hwf, Reader.idle, follows_idle rfl rfl,
      fun k hk => absurd hk (Nat.not_lt_zero k)⟩
  have hreads : Runs.Along step Reads (boot device outputsErr stripErr commits) events :=
    Runs.along_of_invariant (fun _ _ _ hs ht => hs.step ht) hboot events
  refine hreads.imp ?_ hreads
  rintro s ⟨-, -, r, hr, hgenuine⟩ - r' hr'
  obtain rfl := Option.some.inj (hr.att.symm.trans hr')
  exact hgenuine

theorem records_wellFormed_along_items :
    Runs.Along step (fun s => ∀ r, Reader.ofAtt s.env.att = some r → Genuine r)
      (boot Device.init 0 0 0) (.connected 0 :: .bindingCpWrite (fun _ => 0) (fun _ _ => 0) 0
        [BindingOp.readAll.code] :: items 26) :=
  records_wellFormed_along Device.synced_init wellFormed_emptyRecords 0 0 0 _

end App
end PartRack
