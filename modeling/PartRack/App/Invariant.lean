import PartRack.App.Steps

/-! What holds in every state of the firmware, over power cycles. -/

namespace PartRack
namespace AppState
open BindingTable

/-- Both flags of a connection are set. -/
structure Linked (s : AppState) : Prop where
  connected : s.world.lifecycle.connected = true
  currentConn : s.currentConn = true

theorem notifyBindingResult_of_linked {s : AppState} (h : s.Linked) (gatt : GattNotify) (op : Byte)
    (status : Status) {payload : List Byte} (hlen : payload.length ≤ 16) :
    notifyBindingResult gatt op status payload s =
      (gatt .bindingCp (op :: status.code :: payload),
        s.exchange (accepted gatt .bindingCp (op :: status.code :: payload))) := by
  have hconn : ¬(s.currentConn = false ∨ 16 < payload.length) := by
    rintro (hfalse | hlong)
    · exact Bool.false_ne_true (hfalse.symm.trans h.currentConn)
    · exact absurd hlen (Nat.not_le_of_lt hlong)
  rw [notifyBindingResult, if_neg (by simp [h.connected]), lifecycleNotifyBinding, if_neg hconn,
    ← btGattNotify_snd]
  rfl

/-- The payload of frame `k` of an answer to READ_ALL: a record, or the end marker. -/
def readAllPayload (table : BindingTable) (k : ℕ) : List Byte :=
  if k < 25 then (table.records.toList.getD k SlotRecord.zero).toBytes else [readAllEndMarker]

def readAllFrame (table : BindingTable) (k : ℕ) : List Byte :=
  BindingOp.readAll.code :: Status.ok.code :: readAllPayload table k

theorem length_readAllPayload (table : BindingTable) (k : ℕ) :
    (readAllPayload table k).length ≤ 16 := by
  unfold readAllPayload
  split_ifs
  · rw [SlotRecord.length_toBytes]
  · decide

theorem readAllPayload_of_lt (table : BindingTable) {k : ℕ} (hk : k < 25) :
    readAllPayload table k = table.records[k].toBytes := by
  have hlt : k < table.records.toList.length := by rwa [Vector.length_toList]
  rw [readAllPayload, if_pos hk, List.getD_eq_getElem _ _ hlt, Vector.getElem_toList]

end AppState

namespace App
open AppState

theorem notifyReadAll_eq {s : App} (h : s.env.Linked) (gatt : GattNotify) {payload : List Byte}
    (hlen : payload.length ≤ 16) : Pacer.notifyReadAll (pacerAdapter gatt) .ok payload s =
      (gatt .bindingCp (BindingOp.readAll.code :: Status.ok.code :: payload), s.setEnv (s.env.exchange
        (accepted gatt .bindingCp (BindingOp.readAll.code :: Status.ok.code :: payload)))) := by
  have heq := notifyBindingResult_of_linked h gatt BindingOp.readAll.code .ok hlen
  show ((notifyBindingResult gatt BindingOp.readAll.code .ok payload s.env).1,
    setEnv (notifyBindingResult gatt BindingOp.readAll.code .ok payload s.env).2 s) = _
  rw [heq]

/-! ## One work item of READ_ALL -/

section WorkItem
variable {s : App} (gatt : GattNotify)

/-- The state in which a work item runs. -/
def taken (s : App) : App := s.setEnv { s.env with readAllWork := none }

def sent (gatt : GattNotify) (k : ℕ) (s : App) : Prop :=
  gatt .bindingCp (readAllFrame s.env.table k) = 0

instance (gatt : GattNotify) (k : ℕ) (s : App) : Decidable (s.sent gatt k) :=
  inferInstanceAs (Decidable (_ = _))

/-- The state after frame `k` has been accepted. -/
def afterSend (k : ℕ) (s : App) : App :=
  ⟨if k < 25 then ⟨s.pacer.nextSlot + 1, true⟩ else ⟨s.pacer.nextSlot, false⟩,
    { s.env.exchange [.notify .bindingCp (readAllFrame s.env.table k)] with
      readAllWork := if k < 25 then some readAllNotifyDelayMs else none }⟩

def afterRetry (s : App) : App := s.setEnv { s.env with readAllWork := some readAllRetryDelayMs }

theorem notifyReadAll_taken {gatt : GattNotify} (h : s.env.Linked) (k : ℕ) :
    Pacer.notifyReadAll (pacerAdapter gatt) .ok (readAllPayload s.env.table k) s.taken =
      (gatt .bindingCp (readAllFrame s.env.table k), if s.sent gatt k then
        s.taken.setEnv (s.taken.env.exchange [.notify .bindingCp (readAllFrame s.env.table k)])
      else s.taken) := by
  have hlinked : s.taken.env.Linked := ⟨h.connected, h.currentConn⟩
  rw [notifyReadAll_eq hlinked gatt (length_readAllPayload _ k), accepted]
  by_cases hsent : s.sent gatt k
  · rw [if_pos hsent]
    exact congrArg _ (congrArg (fun pdus => s.taken.setEnv (s.taken.env.exchange pdus))
      (if_pos hsent))
  · rw [if_neg hsent]
    refine congrArg _ ((congrArg (fun pdus => s.taken.setEnv (s.taken.env.exchange pdus))
      (if_neg hsent)).trans ?_)
    rw [exchange_nil]
    rfl

theorem readAllWorkHandler_end (h : s.env.Linked) (hactive : s.pacer.active = true)
    (hslot : s.pacer.nextSlot = BitVec.ofNat 8 26) :
    s.readAllWorkHandler gatt = if s.sent gatt 25 then s.afterSend 25 else s.afterRetry := by
  have hend : 25 < s.taken.pacer.nextSlot.toNat := by
    show 25 < s.pacer.nextSlot.toNat
    rw [hslot]
    decide
  have hsend : Pacer.notifyReadAll (pacerAdapter gatt) .ok [readAllEndMarker] s.taken = _ :=
    notifyReadAll_taken h 25
  have hprocess : s.readAllWorkHandler gatt = (Pacer.processEnd (pacerAdapter gatt) s.taken).2 :=
    congrArg Prod.snd (Pacer.process_of_end _ hactive hend)
  rw [hprocess]
  by_cases hsent : s.sent gatt 25
  · rw [if_pos hsent] at hsend ⊢
    rw [Pacer.processEnd_of_sent _ ((congrArg Prod.fst hsend).trans hsent), hsend]
    rfl
  · rw [if_neg hsent] at hsend ⊢
    rw [Pacer.processEnd_of_failed _ fun hzero => hsent ((congrArg Prod.fst hsend).symm.trans hzero),
      hsend]
    rfl

theorem readAllWorkHandler_record (h : s.env.Linked) (hactive : s.pacer.active = true) {k : ℕ}
    (hk : k < 25) (hslot : s.pacer.nextSlot = BitVec.ofNat 8 (k + 1)) :
    s.readAllWorkHandler gatt = if s.sent gatt k then s.afterSend k else s.afterRetry := by
  have hle : ¬25 < s.taken.pacer.nextSlot.toNat := by
    show ¬25 < s.pacer.nextSlot.toNat
    rw [hslot, BitVec.toNat_ofNat]
    omega
  have hread : s.env.table.readOne s.pacer.nextSlot SlotRecord.zero =
      (0, s.env.table.records[k]) := by
    rw [hslot]
    exact ControlPoint.readOne_ofNat s.env.table hk SlotRecord.zero
  have hprocess : s.readAllWorkHandler gatt =
      (Pacer.processRead (pacerAdapter gatt) 0 s.env.table.records[k] s.taken).2 := by
    refine (congrArg Prod.snd
      (Pacer.process_of_slot (pacerAdapter gatt) (s := s.taken) hactive hle)).trans ?_
    show (Pacer.processRead (pacerAdapter gatt)
      (s.env.table.readOne s.pacer.nextSlot SlotRecord.zero).1
      (s.env.table.readOne s.pacer.nextSlot SlotRecord.zero).2 s.taken).2 = _
    rw [hread]
  have hsend : Pacer.notifyReadAll (pacerAdapter gatt) .ok _ s.taken = _ := notifyReadAll_taken h k
  rw [readAllPayload_of_lt _ hk] at hsend
  rw [hprocess]
  by_cases hsent : s.sent gatt k
  · rw [if_pos hsent] at hsend ⊢
    rw [Pacer.processRead_of_sent _ ((congrArg Prod.fst hsend).trans hsent), hsend, afterSend,
      if_pos hk, if_pos hk, ← hactive]
    rfl
  · rw [if_neg hsent] at hsend ⊢
    rw [Pacer.processRead_of_failed _ fun hzero =>
      hsent ((congrArg Prod.fst hsend).symm.trans hzero), hsend]
    rfl

end WorkItem

/-! ## The invariant -/

/-- The flags of the connection agree, the flash holds the table, and READ_ALL is under way
exactly while its work item is pending, which is only on a connection. -/
structure Invariant (s : App) : Prop where
  connected : s.env.world.lifecycle.connected = s.env.currentConn
  bleConnected : s.env.bleConnected = s.env.currentConn
  synced : s.env.device.Synced
  work : s.env.readAllWork ≠ none ↔ s.pacer.active = true
  active : s.pacer.active = true → s.env.currentConn = true ∧
    ∃ k ≤ 25, s.pacer.nextSlot = BitVec.ofNat 8 (k + 1)

theorem Invariant.linked {s : App} (h : s.Invariant) (hconn : s.env.currentConn = true) :
    s.env.Linked := ⟨h.connected.trans hconn, hconn⟩

theorem invariant_boot {device : Device} (h : device.Synced) (outputsErr stripErr : Int)
    (commits : ℕ) : (boot device outputsErr stripErr commits).Invariant := by
  refine ⟨rfl, rfl, h, ?_, ?_⟩
  · exact iff_of_false (fun hne => hne rfl) Bool.false_ne_true
  · exact fun hactive => absurd hactive Bool.false_ne_true

theorem Invariant.readAllWork_cases {s : App} (h : s.Invariant) (hwork : s.env.readAllWork ≠ none)
    (gatt : GattNotify) :
    ∃ k ≤ 25, s.pacer.nextSlot = BitVec.ofNat 8 (k + 1) ∧
      s.readAllWorkHandler gatt = if s.sent gatt k then s.afterSend k else s.afterRetry := by
  have hactive := h.work.mp hwork
  obtain ⟨hconn, k, hk, hslot⟩ := h.active hactive
  refine ⟨k, hk, hslot, ?_⟩
  rcases Nat.lt_or_eq_of_le hk with hlt | rfl
  · exact readAllWorkHandler_record gatt (h.linked hconn) hactive hlt hslot
  · exact readAllWorkHandler_end gatt (h.linked hconn) hactive hslot

theorem Invariant.readAllWorked {s : App} (h : s.Invariant) (hwork : s.env.readAllWork ≠ none)
    (gatt : GattNotify) : (s.readAllWorkHandler gatt).Invariant := by
  obtain ⟨k, hk, hslot, heq⟩ := h.readAllWork_cases hwork gatt
  have hactive := h.work.mp hwork
  rw [heq]
  split_ifs
  · refine ⟨h.connected, h.bleConnected, h.synced, ?_, ?_⟩
    · unfold afterSend
      by_cases hlt : k < 25
      · rw [if_pos hlt, if_pos hlt]
        exact iff_of_true (Option.some_ne_none _) rfl
      · rw [if_neg hlt, if_neg hlt]
        exact iff_of_false (fun hne => hne rfl) Bool.false_ne_true
    · intro hnext
      refine ⟨(h.active hactive).1, ?_⟩
      unfold afterSend at hnext ⊢
      by_cases hlt : k < 25
      · rw [if_pos hlt]
        refine ⟨k + 1, hlt, ?_⟩
        show s.pacer.nextSlot + 1 = _
        rw [hslot]
        exact (BitVec.ofNat_add _ 1).symm
      · rw [if_neg hlt] at hnext
        exact absurd hnext Bool.false_ne_true
  · exact ⟨h.connected, h.bleConnected, h.synced,
      iff_of_true (Option.some_ne_none _) hactive, h.active⟩

theorem Invariant.did {s t : App} {e : AppEvent} (h : s.Invariant) (hdid : Did e s t) :
    t.Invariant := by
  cases hdid with
  | @advertised env hstep =>
    have hsame := hstep.sameData
    refine ⟨?_, ?_, ?_, ?_, ?_⟩
    · show env.world.lifecycle.connected = env.currentConn
      rw [hsame.connected, hsame.currentConn, h.connected]
    · show env.bleConnected = env.currentConn
      rw [hsame.bleConnected, hsame.currentConn, h.bleConnected]
    · show env.device.Synced
      rw [hsame.device]
      exact h.synced
    · show env.readAllWork ≠ none ↔ _
      rw [hsame.readAllWork]
      exact h.work
    · show _ → env.currentConn = true ∧ _
      rw [hsame.currentConn]
      exact h.active
  | connected _ =>
    refine ⟨rfl, rfl, h.synced, h.work, fun hactive => ⟨rfl, (h.active hactive).2⟩⟩
  | disconnected hconn =>
    refine ⟨Lifecycle.onDisconnected_connected _, rfl, h.synced, ?_, ?_⟩
    · exact iff_of_false (fun hne => hne rfl) Bool.false_ne_true
    · exact fun hactive => absurd hactive Bool.false_ne_true
  | exchanged pdus _ _ => exact ⟨h.connected, h.bleConnected, h.synced, h.work, h.active⟩
  | tableChanged save op pdus hconn _ _ =>
    rw [reportBindingChanged_eq e.gatt (s := (mutate save op s.env).2.exchange pdus) h.connected]
    exact ⟨(Lifecycle.reportChanged_connected _ _).trans h.connected, h.bleConnected,
      h.synced.call save op, h.work, h.active⟩
  | lightChanged change light pdus remainingS _ _ _ =>
    rw [reportLightChanged_eq e.gatt (s := (s.env.putLight light).exchange pdus) h.connected]
    exact ⟨(Lifecycle.reportChanged_connected _ _).trans h.connected, h.bleConnected, h.synced,
      h.work, h.active⟩
  | readAllStarted hconn =>
    refine ⟨h.connected, h.bleConnected, h.synced, ?_, fun _ => ⟨hconn, 0, Nat.zero_le _, rfl⟩⟩
    refine iff_of_true ?_ rfl
    show s.env.readAllWork.or (some 0) ≠ none
    cases s.env.readAllWork <;> exact Option.some_ne_none _
  | readAllWorked hwork => exact h.readAllWorked hwork e.gatt
  | powerCycled outputsErr stripErr =>
    refine invariant_boot ?_ _ _ _
    rw [h.synced.reboot_eq]
    exact h.synced

theorem Invariant.step {s t : App} {e : AppEvent} (h : s.Invariant) (ht : s.step e = some t) :
    t.Invariant := h.did (step_did ht)

theorem invariant_along {device : Device} (h : device.Synced) (outputsErr stripErr : Int)
    (commits : ℕ) (events : List AppEvent) :
    Runs.Along step Invariant (boot device outputsErr stripErr commits) events :=
  Runs.along_of_invariant (fun _ _ _ hs ht => hs.step ht) (invariant_boot h _ _ _) events

end App
end PartRack
