import PartRack.App.Versions

/-! READ_ALL as a client sees it. The client takes the frames of the answer one by one after its
request; it never gets a frame that it did not ask for, nor one out of place. An answer that is
complete is a snapshot of the table if the number of the table is the same before and after. -/

namespace PartRack
open BindingTable

/-- A client in the middle of READ_ALL, or not, with the records of the latest answer. -/
structure Reader where
  reading : Bool
  payloads : List (List Byte)
deriving DecidableEq, Repr

namespace Reader

def idle : Reader := ⟨false, []⟩

/-- A frame of an answer; `none` if it was not to be expected. -/
def take (r : Reader) (payload : List Byte) : Option Reader :=
  if r.reading = false then none
  else if r.payloads.length < 25 then
    if payload.length = 16 then some ⟨true, r.payloads ++ [payload]⟩ else none
  else if payload = [readAllEndMarker] then some ⟨false, r.payloads⟩ else none

/-- A request starts anew, and everything but the frames of an answer is passed over. -/
def next (r : Reader) : AttPdu → Option Reader
  | .write attr offset value =>
    if attr = .bindingCp ∧ offset = 0 ∧ value = [BindingOp.readAll.code] then some ⟨true, []⟩
    else some r
  | .notify .bindingCp (op :: status :: payload) =>
    if op = BindingOp.readAll.code ∧ status = Status.ok.code then r.take payload else some r
  | _ => some r

/-- What a client makes of all that has passed over a connection. -/
def ofAtt (att : List AttPdu) : Option Reader := att.foldlM next idle

theorem ofAtt_append (att pdus : List AttPdu) :
    ofAtt (att ++ pdus) = (ofAtt att).bind fun r => pdus.foldlM next r := by
  rw [ofAtt, List.foldlM_append]
  rfl

theorem next_of_apart (r : Reader) {p : AttPdu} (h : AppState.Apart p) : r.next p = some r := by
  cases p with
  | write attr offset value => exact if_neg h
  | read attr value => exact absurd h id
  | notify attr value =>
    obtain ⟨rfl, hne⟩ := h
    rcases value with _ | ⟨op, _ | ⟨status, payload⟩⟩
    · rfl
    · rfl
    · refine if_neg fun hcode => hne payload ?_
      rw [hcode.1, hcode.2]

theorem next_of_quiet (r : Reader) {s : AppState} {p : AttPdu} (h : s.Quiet p) :
    r.next p = some r := by
  cases p with
  | write attr offset value => exact r.next_of_apart h
  | read attr value => rfl
  | notify attr value => exact r.next_of_apart h

theorem next_of_notify (r : Reader) {attr : GattAttr} (h : attr ≠ .bindingCp)
    (value : List Byte) : r.next (.notify attr value) = some r := by
  cases attr with
  | bindingCp => exact absurd rfl h
  | _ => rfl

theorem foldlM_next_of_forall (r : Reader) {pdus : List AttPdu}
    (h : ∀ p ∈ pdus, r.next p = some r) : pdus.foldlM next r = some r := by
  induction pdus with
  | nil => rfl
  | cons p pdus ih =>
    rw [List.foldlM_cons, h p List.mem_cons_self]
    exact ih fun q hq => h q (List.mem_cons_of_mem p hq)

theorem next_request (r : Reader) :
    r.next (.write .bindingCp 0 [BindingOp.readAll.code]) = some ⟨true, []⟩ := by
  rw [next, if_pos ⟨rfl, rfl, rfl⟩]

theorem next_frame (r : Reader) (hreading : r.reading = true) (table : BindingTable) :
    r.next (.notify .bindingCp (AppState.readAllFrame table r.payloads.length)) =
      some (if r.payloads.length < 25 then
        ⟨true, r.payloads ++ [AppState.readAllPayload table r.payloads.length]⟩
      else ⟨false, r.payloads⟩) := by
  have htake : r.next (.notify .bindingCp (AppState.readAllFrame table r.payloads.length)) =
      r.take (AppState.readAllPayload table r.payloads.length) := by
    rw [AppState.readAllFrame, next, if_pos ⟨rfl, rfl⟩]
  rw [htake, take, if_neg (by simp [hreading])]
  by_cases hlt : r.payloads.length < 25
  · rw [if_pos hlt, if_pos hlt, if_pos]
    rw [AppState.readAllPayload_of_lt _ hlt, SlotRecord.length_toBytes]
  · rw [if_neg hlt, if_neg hlt, if_pos]
    exact if_neg hlt

end Reader

namespace App
open AppState

/-- The client has followed all that has passed, and stands where the pacer stands. -/
structure Follows (s : App) (r : Reader) : Prop where
  att : Reader.ofAtt s.env.att = some r
  reading : s.env.currentConn = true → r.reading = s.pacer.active
  next : s.env.currentConn = true → s.pacer.active = true →
    s.pacer.nextSlot = BitVec.ofNat 8 (r.payloads.length + 1) ∧ r.payloads.length ≤ 25

theorem Follows.of_next {s t : App} {r : Reader} (h : Follows s r) (pdus : List AttPdu)
    (hpdus : ∀ p ∈ pdus, r.next p = some r) (hatt : t.env.att = s.env.att ++ pdus)
    (hpacer : t.pacer = s.pacer) (hconn : t.env.currentConn = s.env.currentConn) :
    Follows t r := by
  refine ⟨?_, ?_, ?_⟩
  · rw [hatt, Reader.ofAtt_append, h.att]
    exact r.foldlM_next_of_forall hpdus
  · rw [hpacer, hconn]
    exact h.reading
  · rw [hpacer, hconn]
    exact h.next

theorem follows_idle {s : App} (hatt : s.env.att = []) (hactive : s.pacer.active = false) :
    Follows s Reader.idle := by
  refine ⟨?_, fun _ => hactive.symm, fun _ h => absurd (h.symm.trans hactive) (by decide)⟩
  rw [hatt]
  rfl

theorem Follows.readAllWorked {s : App} {r : Reader} (h : Follows s r) (hs : s.Invariant)
    (hwork : s.env.readAllWork ≠ none) (gatt : GattNotify) :
    (Follows (s.readAllWorkHandler gatt) r ∧ ¬s.sent gatt r.payloads.length) ∨
      s.sent gatt r.payloads.length ∧ Follows (s.readAllWorkHandler gatt)
        (if r.payloads.length < 25 then
          ⟨true, r.payloads ++ [readAllPayload s.env.table r.payloads.length]⟩
        else ⟨false, r.payloads⟩) ∧
        ((s.readAllWorkHandler gatt).env.readAllWork ≠ none ↔ r.payloads.length < 25) := by
  have hactive := hs.work.mp hwork
  have hconn := (hs.active hactive).1
  obtain ⟨hslot, hle⟩ := h.next hconn hactive
  obtain ⟨k, hk, hslot', heq⟩ := hs.readAllWork_cases hwork gatt
  have hlen : k = r.payloads.length := by
    have hnat := congrArg BitVec.toNat (hslot'.symm.trans hslot)
    rw [BitVec.toNat_ofNat, BitVec.toNat_ofNat] at hnat
    omega
  subst hlen
  rw [heq]
  by_cases hsent : s.sent gatt r.payloads.length
  · rw [if_pos hsent]
    refine Or.inr ⟨hsent, ?_⟩
    have hnext := r.next_frame ((h.reading hconn).trans hactive) s.env.table
    have hatt : Reader.ofAtt (s.afterSend r.payloads.length).env.att =
        r.next (.notify .bindingCp (readAllFrame s.env.table r.payloads.length)) := by
      show Reader.ofAtt (s.env.att ++ _) = _
      rw [Reader.ofAtt_append, h.att]
      show (r.next _).bind _ = _
      cases r.next _ <;> rfl
    refine ⟨⟨hatt.trans hnext, fun _ => ?_, fun _ hnow => ?_⟩, ?_⟩
    · unfold afterSend
      split_ifs <;> rfl
    · unfold afterSend at hnow ⊢
      by_cases hlt : r.payloads.length < 25
      · rw [if_pos hlt, if_pos hlt, if_pos hlt, List.length_append, List.length_singleton]
        refine ⟨?_, hlt⟩
        show s.pacer.nextSlot + 1 = _
        rw [hslot]
        exact (BitVec.ofNat_add _ 1).symm
      · rw [if_neg hlt] at hnow
        exact absurd hnow Bool.false_ne_true
    · unfold afterSend
      by_cases hlt : r.payloads.length < 25
      · rw [if_pos hlt, if_pos hlt]
        exact iff_of_true (Option.some_ne_none _) hlt
      · rw [if_neg hlt, if_neg hlt]
        exact iff_of_false (fun hne => hne rfl) hlt
  · rw [if_neg hsent]
    exact Or.inl ⟨⟨h.att, h.reading, h.next⟩, hsent⟩

theorem Follows.did {s t : App} {r : Reader} {e : AppEvent} (h : Follows s r)
    (hs : s.Invariant) (hdid : Did e s t) :
    Follows t r ∨ (∃ reading, Follows t ⟨reading, []⟩) ∨
      s.env.readAllWork ≠ none ∧ t = s.readAllWorkHandler e.gatt := by
  cases hdid with
  | @advertised env hstep =>
    have hsame := hstep.sameData
    refine Or.inl (h.of_next [] ?_ ?_ rfl hsame.currentConn)
    · exact fun p hp => absurd hp List.not_mem_nil
    · exact hsame.att.trans (List.append_nil _).symm
  | connected hconn =>
    refine Or.inr (Or.inl ⟨false, follows_idle rfl ?_⟩)
    refine eq_false_of_ne_true fun hactive => ?_
    exact absurd (hconn.symm.trans (hs.active hactive).1) Bool.false_ne_true
  | disconnected _ =>
    exact Or.inl ⟨h.att, fun hconn => absurd hconn Bool.false_ne_true,
      fun hconn => absurd hconn Bool.false_ne_true⟩
  | exchanged pdus hpdus _ =>
    exact Or.inl (h.of_next pdus (fun p hp => r.next_of_quiet (hpdus p hp)) rfl rfl rfl)
  | tableChanged save op pdus hconn hpdus _ =>
    rw [reportBindingChanged_eq e.gatt (s := (AppState.mutate save op s.env).2.exchange pdus)
      hs.connected]
    refine Or.inl (h.of_next (pdus ++ _) ?_ (List.append_assoc _ _ _) rfl rfl)
    intro p hp
    rcases List.mem_append.mp hp with hp | hp
    · exact r.next_of_apart (hpdus p hp)
    · split_ifs at hp
      · rw [eq_notify_of_mem_accepted hp]
        exact r.next_of_notify (by decide) _
      · exact absurd hp List.not_mem_nil
  | lightChanged change light pdus remainingS _ hpdus _ =>
    rw [reportLightChanged_eq e.gatt (s := (s.env.putLight light).exchange pdus) hs.connected]
    refine Or.inl (h.of_next (pdus ++ _) ?_ (List.append_assoc _ _ _) rfl rfl)
    intro p hp
    rcases List.mem_append.mp hp with hp | hp
    · exact r.next_of_apart (hpdus p hp)
    · split_ifs at hp
      · rw [eq_notify_of_mem_accepted hp]
        exact r.next_of_notify (by decide) _
      · exact absurd hp List.not_mem_nil
  | readAllStarted hconn =>
    refine Or.inr (Or.inl ⟨true, ?_, fun _ => rfl, fun _ _ => ⟨rfl, Nat.zero_le _⟩⟩)
    show Reader.ofAtt (s.env.att ++ _) = _
    rw [Reader.ofAtt_append, h.att]
    exact congrArg (fun o => o.bind fun r => some r) r.next_request
  | readAllWorked hwork => exact Or.inr (Or.inr ⟨hwork, rfl⟩)
  | powerCycled _ _ => exact Or.inr (Or.inl ⟨false, follows_idle rfl rfl⟩)

theorem Follows.step {s t : App} {r : Reader} {e : AppEvent} (h : Follows s r) (hs : s.Invariant)
    (ht : s.step e = some t) : ∃ r', Follows t r' := by
  rcases h.did hs (step_did ht) with h' | ⟨reading, h'⟩ | ⟨hwork, rfl⟩
  · exact ⟨r, h'⟩
  · exact ⟨_, h'⟩
  · rcases h.readAllWorked hs hwork e.gatt with ⟨h', -⟩ | ⟨-, h', -⟩
    · exact ⟨r, h'⟩
    · exact ⟨_, h'⟩

theorem follows_along {device : Device} (h : device.Synced) (outputsErr stripErr : Int)
    (commits : ℕ) (events : List AppEvent) :
    Runs.Along step (fun s => s.Invariant ∧ ∃ r, Follows s r)
      (boot device outputsErr stripErr commits) events := by
  refine Runs.along_of_invariant ?_ ⟨invariant_boot h _ _ _, Reader.idle, follows_idle rfl rfl⟩ events
  rintro s e t ⟨hs, r, hr⟩ ht
  exact ⟨hs.step ht, hr.step hs ht⟩

/-- A client on a fresh device, before and after its request. -/
def connectedOnce : App := (boot Device.init 0 0 0).connected 0

def requestedOnce : App := (connectedOnce.step
  (.bindingCpWrite (fun _ => 0) (fun _ _ => 0) 0 [BindingOp.readAll.code])).getD connectedOnce

def items (n : ℕ) : List AppEvent := List.replicate n (.readAllWork fun _ _ => 0)

/-- The payloads of the records of a table. -/
def rowPayloads (table : BindingTable) : List (List Byte) :=
  table.records.toList.map SlotRecord.toBytes

/-- The records that the client has got so far are those of the table. -/
def Collected (table : BindingTable) (r : Reader) : Prop :=
  r.payloads = (rowPayloads table).take r.payloads.length

theorem length_rowPayloads (table : BindingTable) : (rowPayloads table).length = 25 := by
  rw [rowPayloads, List.length_map, Vector.length_toList]

theorem Collected.snoc {table : BindingTable} {r : Reader} (h : Collected table r)
    (hlt : r.payloads.length < 25) :
    Collected table ⟨true, r.payloads ++ [readAllPayload table r.payloads.length]⟩ := by
  have hlt' : r.payloads.length < (rowPayloads table).length := by rwa [length_rowPayloads]
  have hget : (rowPayloads table)[r.payloads.length] = readAllPayload table r.payloads.length := by
    rw [readAllPayload_of_lt _ hlt]
    simp only [rowPayloads, List.getElem_map, Vector.getElem_toList]
  show r.payloads ++ _ = (rowPayloads table).take (r.payloads ++ _).length
  rw [List.length_append, List.length_singleton, ← List.take_append_getElem hlt', hget, ← h]

/-- While nothing has been committed since `base`, the client has only got records of it. -/
def Collecting (base s : App) : Prop :=
  s.Invariant ∧ Later base s ∧
    ∃ r, Follows s r ∧ (s.env.commits = base.env.commits → Collected base.env.table r)

theorem Collecting.step {base s t : App} {e : AppEvent} (h : Collecting base s)
    (ht : s.step e = some t) : Collecting base t := by
  obtain ⟨hs, hlater, r, hr, hcollected⟩ := h
  have hlater' := hlater.did hs (step_did ht)
  have hstep := (Later.refl s).did hs (step_did ht)
  have hback : t.env.commits = base.env.commits → s.env.commits = base.env.commits := by
    intro heq
    have hle := hlater.le
    have hle' := hstep.le
    omega
  refine ⟨hs.step ht, hlater', ?_⟩
  rcases hr.did hs (step_did ht) with h' | ⟨reading, h'⟩ | ⟨hwork, rfl⟩
  · exact ⟨r, h', fun heq => hcollected (hback heq)⟩
  · exact ⟨_, h', fun _ => rfl⟩
  · rcases hr.readAllWorked hs hwork e.gatt with ⟨h', -⟩ | ⟨-, h', -⟩
    · exact ⟨r, h', fun heq => hcollected (hback heq)⟩
    · refine ⟨_, h', fun heq => ?_⟩
      have hold := hcollected (hback heq)
      rw [← hlater.table (hback heq)] at hold ⊢
      split_ifs with hlt
      · exact hold.snoc hlt
      · exact hold

/-- An answer of which the client has got all 25 records is the table, at the request and now, if
the number of the table is the same at both moments (fewer than 2^32 - 1 commits lie between
them): a change in between shows in the number. -/
theorem snapshot_of_same_tableSeq {device : Device} (h : device.Synced) (outputsErr stripErr : Int)
    (commits : ℕ) (before during : List AppEvent) (save : SettingsSaveOne) (gatt : GattNotify)
    (s t u : App) (r : Reader)
    (hs : run (boot device outputsErr stripErr commits) before = some s)
    (ht : s.step (.bindingCpWrite save gatt 0 [BindingOp.readAll.code]) = some t)
    (hu : run t during = some u) (hr : Reader.ofAtt u.env.att = some r)
    (hall : r.payloads.length = 25)
    (hseq : u.env.table.tableSeq = s.env.table.tableSeq)
    (hfew : u.env.commits - s.env.commits < 2 ^ 32 - 1) :
    r.payloads = rowPayloads u.env.table ∧ u.env.table = s.env.table := by
  obtain ⟨hinv, r₀, hr₀⟩ := (follows_along h outputsErr stripErr commits before).of_foldlM hs
  have hfirst : Collecting s t := by
    refine ⟨hinv.step ht, (Later.refl s).did hinv (step_did ht), ?_⟩
    simp only [step, whileConnected] at ht
    split_ifs at ht with hconn
    obtain rfl := Option.some.inj ht
    refine ⟨⟨true, []⟩, ⟨?_, fun _ => rfl, fun _ _ => ⟨rfl, Nat.zero_le _⟩⟩, fun _ => rfl⟩
    show Reader.ofAtt (s.env.att ++ _) = _
    rw [Reader.ofAtt_append, hr₀.att]
    exact congrArg (fun o => o.bind fun r => some r) r₀.next_request
  obtain ⟨-, hlater, r', hr', hcollected⟩ :=
    (Runs.along_of_invariant (fun _ _ _ hv hstep => hv.step hstep) hfirst during).of_foldlM hu
  obtain rfl := Option.some.inj (hr'.att.symm.trans hr)
  have hsame := (hlater.tableSeq_eq_iff hinv hfew).mp hseq
  have htable := hlater.table hsame
  refine ⟨?_, htable⟩
  have hold := hcollected hsame
  rw [Collected, hall, List.take_of_length_le (by rw [length_rowPayloads])] at hold
  rw [hold, htable]

theorem table_readAllWorked {s : App} (hs : s.Invariant) (hwork : s.env.readAllWork ≠ none)
    (gatt : GattNotify) : (s.readAllWorkHandler gatt).env.table = s.env.table := by
  obtain ⟨k, -, -, heq⟩ := hs.readAllWork_cases hwork gatt
  rw [heq]
  split_ifs <;> rfl

theorem rowPayloads_drop (table : BindingTable) {k : ℕ} (hk : k < 25) :
    (rowPayloads table).drop k = readAllPayload table k :: (rowPayloads table).drop (k + 1) := by
  have hlt : k < (rowPayloads table).length := by rwa [length_rowPayloads]
  rw [List.drop_eq_getElem_cons hlt, readAllPayload_of_lt _ hk]
  simp only [rowPayloads, List.getElem_map, Vector.getElem_toList]

theorem snapshot_of_same_tableSeq_items : ∃ u r,
    run requestedOnce (items 25) = some u ∧ Reader.ofAtt u.env.att = some r ∧
      r.payloads = rowPayloads u.env.table := by
  let summary (s : App) : Option ℕ × BitVec 32 × ℕ :=
    ((Reader.ofAtt s.env.att).map fun r => r.payloads.length, s.env.table.tableSeq, s.env.commits)
  have hfinal : (run requestedOnce (items 25)).map summary = some (some 25, 1, 0) := by decide
  obtain ⟨u, hu, hsummary⟩ := Option.map_eq_some_iff.mp hfinal
  simp only [summary, Prod.mk.injEq] at hsummary
  obtain ⟨hlen, hseq, hcommits⟩ := hsummary
  obtain ⟨r, hr, hlen⟩ := Option.map_eq_some_iff.mp hlen
  have hfew : u.env.commits - connectedOnce.env.commits < 2 ^ 32 - 1 := by
    rw [hcommits]
    decide
  exact ⟨u, r, hu, hr, (snapshot_of_same_tableSeq Device.synced_init 0 0 0 [.connected 0] (items 25)
    _ _ connectedOnce requestedOnce u r rfl rfl hu hr hlen hseq hfew).1⟩

/-! ## The end of an answer -/

theorem Follows.finishes {gatt : GattNotify} (hgatt : ∀ value, gatt .bindingCp value = 0) (n : ℕ)
    {s : App} {r : Reader} (h : Follows s r) (hs : s.Invariant) (hwork : s.env.readAllWork ≠ none)
    (hn : r.payloads.length + n = 25) :
    ∃ t, run s (List.replicate (n + 1) (.readAllWork gatt)) = some t ∧
      Reader.ofAtt t.env.att =
        some ⟨false, r.payloads ++ (rowPayloads s.env.table).drop r.payloads.length⟩ ∧
      t.env.readAllWork = none := by
  induction n generalizing s r with
  | zero =>
    have hstep : s.step (.readAllWork gatt) = some (s.readAllWorkHandler gatt) := if_neg hwork
    rcases h.readAllWorked hs hwork gatt with ⟨-, hnot⟩ | ⟨-, h', hpending⟩
    · exact absurd (hgatt _) hnot
    have hlt : ¬r.payloads.length < 25 := by omega
    rw [if_neg hlt] at h'
    refine ⟨s.readAllWorkHandler gatt, ?_, ?_, not_not.mp fun hne => hlt (hpending.mp hne)⟩
    · show (s.step (.readAllWork gatt)).bind _ = _
      rw [hstep]
      rfl
    · rw [h'.att, List.drop_eq_nil_of_le, List.append_nil]
      rw [length_rowPayloads]
      exact hn.ge
  | succ n ih =>
    have hstep : s.step (.readAllWork gatt) = some (s.readAllWorkHandler gatt) := if_neg hwork
    rcases h.readAllWorked hs hwork gatt with ⟨-, hnot⟩ | ⟨-, h', hpending⟩
    · exact absurd (hgatt _) hnot
    have hlt : r.payloads.length < 25 := by omega
    rw [if_pos hlt] at h'
    obtain ⟨t, ht, hatt, hdone⟩ := ih h' (hs.readAllWorked hwork gatt) (hpending.mpr hlt) (by
      rw [List.length_append, List.length_singleton]
      omega)
    refine ⟨t, ?_, ?_, hdone⟩
    · show (s.step (.readAllWork gatt)).bind _ = _
      rw [hstep]
      exact ht
    · rw [hatt, table_readAllWorked hs hwork, List.length_append, List.length_singleton,
        List.append_assoc, rowPayloads_drop _ hlt]
      rfl

/-- READ_ALL never gets stuck: whenever its work item is pending, at most 26 runs of it whose
frames are accepted, with nothing in between, give the client what was missing of the table and
the end marker. -/
theorem readAll_finishes {device : Device} (h : device.Synced) (outputsErr stripErr : Int)
    (commits : ℕ) (before : List AppEvent) (s : App)
    (hs : run (boot device outputsErr stripErr commits) before = some s)
    (hwork : s.env.readAllWork ≠ none) (gatt : GattNotify)
    (hgatt : ∀ value, gatt .bindingCp value = 0) :
    ∃ n t r, n ≤ 26 ∧ run s (List.replicate n (.readAllWork gatt)) = some t ∧
      Reader.ofAtt s.env.att = some r ∧
      Reader.ofAtt t.env.att =
        some ⟨false, r.payloads ++ (rowPayloads s.env.table).drop r.payloads.length⟩ ∧
      t.env.readAllWork = none := by
  obtain ⟨hinv, r, hr⟩ := (follows_along h outputsErr stripErr commits before).of_foldlM hs
  have hactive := hinv.work.mp hwork
  obtain ⟨-, hle⟩ := hr.next (hinv.active hactive).1 hactive
  obtain ⟨t, ht, hatt, hdone⟩ := hr.finishes hgatt (25 - r.payloads.length) hinv hwork (by omega)
  exact ⟨_, t, r, by omega, ht, hr.att, hatt, hdone⟩

theorem readAll_finishes_items : ∃ n t r, n ≤ 26 ∧ run requestedOnce (items n) = some t ∧
    Reader.ofAtt requestedOnce.env.att = some r ∧
    Reader.ofAtt t.env.att =
      some ⟨false, r.payloads ++ (rowPayloads requestedOnce.env.table).drop r.payloads.length⟩ ∧
    t.env.readAllWork = none :=
  readAll_finishes Device.synced_init 0 0 0 [.connected 0, .bindingCpWrite (fun _ => 0)
    (fun _ _ => 0) 0 [BindingOp.readAll.code]] requestedOnce rfl (by decide) (fun _ _ => 0)
    fun _ => rfl

end App
end PartRack
