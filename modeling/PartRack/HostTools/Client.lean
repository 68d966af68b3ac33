import PartRack.App.Lights
import PartRack.HostTools.DestructiveFlow

/-! A client as the scripts of tools/ble_gatt_smoke_test.py use one: it reads and writes the
attributes of the device and collects the notifications of the control point, while the device
goes on with work of its own. -/

namespace PartRack
open LightControl

/-- What may happen to a connected device while its client sleeps. -/
def AppEvent.Background : AppEvent → Prop
  | .disconnected | .powerCycle _ _ => False
  | .bindingCpWrite _ _ _ _ | .lightCommandWrite _ _ _ _ => False
  | _ => True

/-- The lights do not go off before they are due. -/
def AppEvent.Before (offWork : Option ℤ) : AppEvent → Prop
  | .offWork _ nowMs => ∀ dueMs ∈ offWork, nowMs < dueMs
  | _ => True

theorem AppEvent.before_none (e : AppEvent) : e.Before none := by
  cases e with
  | offWork gatt nowMs => exact fun dueMs h => absurd h.symm (Option.some_ne_none _)
  | _ => trivial

namespace HostTools
open AppState BindingTable LittleEndian

/-- A client on its connection, with the notifications that it has collected. -/
structure Client where
  app : App
  notifications : Notifications
deriving DecidableEq, Repr

namespace Client

/-- What cannot happen does not. -/
def happen (c : Client) (e : AppEvent) : Client :=
  match c.app.step e with
  | some t => ⟨t, c.notifications ++ App.shown c.app t⟩
  | none => c

def sleep (c : Client) (events : List AppEvent) : Client := events.foldl happen c

def clear (c : Client) : Client := { c with notifications := [] }

/-- The value that an event has read. -/
def readGattChar (c : Client) (e : AppEvent) : List Byte × Client :=
  match (c.happen e).app.env.att.getLast? with
  | some (.read _ value) => (value, c.happen e)
  | _ => ([], c.happen e)

theorem happen_of_step {c : Client} {e : AppEvent} {t : App} (h : c.app.step e = some t) :
    c.happen e = ⟨t, c.notifications ++ App.shown c.app t⟩ := by
  simp only [happen, h]

theorem mem_happen {c : Client} {value : List Byte} (h : value ∈ c.notifications)
    (e : AppEvent) : value ∈ (c.happen e).notifications := by
  unfold happen
  split
  · exact List.mem_append_left _ h
  · exact h

theorem mem_sleep {c : Client} {value : List Byte} (h : value ∈ c.notifications)
    (events : List AppEvent) : value ∈ (c.sleep events).notifications := by
  induction events generalizing c with
  | nil => exact h
  | cons e es ih => exact ih (mem_happen h e)

end Client

/-- A device that is connected and at rest, apart from its background work. -/
structure Steady (s : App) (row : List (Option Part)) (tableSeq : BitVec 32)
    (light : LightControl) : Prop where
  invariant : s.Invariant
  currentConn : s.env.currentConn = true
  row : Row s.env.table row
  tableSeq : s.env.table.tableSeq = tableSeq
  light : s.env.light = light

section Background
variable {s t : App} {row : List (Option Part)} {tableSeq : BitVec 32} {light : LightControl}
  {e : AppEvent}

theorem step_offWork (h : Steady s row tableSeq light) {gatt : GattNotify} {nowMs : ℤ}
    (he : (AppEvent.offWork gatt nowMs).Before light.offWork) :
    s.step (.offWork gatt nowMs) = none := by
  have hstep : s.env.light.step (.expire nowMs) = none := by
    rw [h.light]
    simp only [LightControl.step]
    cases hwork : light.offWork with
    | none => rfl
    | some dueMs => exact if_neg (Int.not_le.mpr (he dueMs hwork))
  simp only [App.step, AppState.offWorkHandler, hstep, Option.map_none]

/-- What background work other than READ_ALL leaves alone; it does not notify the client. -/
structure Kept (s t : App) : Prop where
  pacer : t.pacer = s.pacer
  device : t.env.device = s.env.device
  currentConn : t.env.currentConn = s.env.currentConn
  shown : App.shown s t = []

theorem kept_of_sameData {env : AppState} (hsame : SameData s.env env) :
    Kept s (s.setEnv env) := by
  refine ⟨rfl, hsame.device, hsame.currentConn, ?_⟩
  have hatt : (s.setEnv env).env.att = s.env.att ++ [] := hsame.att.trans (List.append_nil _).symm
  rw [App.shown_of_att hatt]
  rfl

theorem kept_of_read (attr : GattAttr) (value : List Byte) :
    Kept s (s.setEnv (s.env.push (.read attr value))) := by
  refine ⟨rfl, rfl, rfl, ?_⟩
  have hatt : (s.setEnv (s.env.push (.read attr value))).env.att =
      s.env.att ++ [.read attr value] := rfl
  rw [App.shown_of_att hatt]
  rfl

theorem kept_of_offWork (hs : s.Invariant) {gatt : GattNotify} {nowMs : ℤ} {l : LightControl}
    (hl : s.env.light.step (.expire nowMs) = some l) : Kept s (s.setEnv (s.env.setLight gatt l)) := by
  obtain ⟨-, hdevice, hconn⟩ := setLight_eq gatt l s.env
  have hatt : ∃ pdus : List AttPdu, (s.env.setLight gatt l).att = s.env.att ++ pdus ∧
      pdus.filterMap AttPdu.reply? = [] := by
    unfold setLight
    rcases step_cases_reports hl with rfl | ⟨remainingS, hreports⟩
    · rw [List.drop_length]
      exact ⟨[], (List.append_nil _).symm, rfl⟩
    · rw [hreports, List.drop_left]
      change ∃ pdus : List AttPdu, (reportLightChanged gatt (s.env.putLight l) _).att = _ ∧ _
      rw [reportLightChanged_eq gatt (s := s.env.putLight l) hs.connected]
      refine ⟨_, rfl, ?_⟩
      split_ifs
      · exact App.reply?_accepted_of_ne gatt (by decide) _
      · rfl
  obtain ⟨pdus, hpdus, hreplies⟩ := hatt
  refine ⟨rfl, hdevice, hconn, ?_⟩
  rw [App.shown_of_att (s := s) (t := s.setEnv (s.env.setLight gatt l)) hpdus, hreplies]

theorem kept_of_background (h : Steady s row tableSeq light) (he : e.Background)
    (hne : ∀ gatt, e ≠ .readAllWork gatt) (ht : s.step e = some t) : Kept s t := by
  cases e with
  | disconnected => exact absurd he id
  | powerCycle outputsErr stripErr => exact absurd he id
  | bindingCpWrite save gatt offset frame => exact absurd he id
  | lightCommandWrite gatt offset buf nowMs => exact absurd he id
  | readAllWork gatt => exact absurd rfl (hne gatt)
  | offWork gatt nowMs =>
    obtain ⟨env, henv, rfl⟩ := Option.map_eq_some_iff.mp ht
    obtain ⟨l, hl, rfl⟩ := Option.map_eq_some_iff.mp henv
    exact kept_of_offWork h.invariant hl
  | bleStart =>
    obtain ⟨env, henv, rfl⟩ := Option.map_eq_some_iff.mp ht
    exact kept_of_sameData (AdvertisingStep.bleStart henv).sameData
  | lifecycleWork =>
    obtain ⟨env, henv, rfl⟩ := Option.map_eq_some_iff.mp ht
    exact kept_of_sameData (AdvertisingStep.lifecycleWork henv).sameData
  | fillAdvMsd batteryPct fault =>
    obtain ⟨env, henv, rfl⟩ := Option.map_eq_some_iff.mp ht
    exact kept_of_sameData (AdvertisingStep.fillAdvMsd _ _ henv).sameData
  | stackApply err =>
    obtain ⟨env, henv, rfl⟩ := Option.map_eq_some_iff.mp ht
    exact kept_of_sameData (AdvertisingStep.stackApply _ henv).sameData
  | applyReturn =>
    obtain ⟨env, henv, rfl⟩ := Option.map_eq_some_iff.mp ht
    exact kept_of_sameData (AdvertisingStep.applyReturn henv).sameData
  | nfcFd gatt nowMs =>
    obtain rfl := Option.some.inj ht
    refine kept_of_sameData ?_
    unfold nfcFdHandler
    split_ifs
    · exact ⟨rfl, rfl, rfl, rfl, rfl, rfl, rfl, rfl⟩
    · rw [reportNfcFd_eq]
      exact (AdvertisingStep.nfcFd gatt nowMs).sameData
  | connected err =>
    simp only [App.step, h.currentConn, if_true] at ht
    exact absurd ht.symm (Option.some_ne_none _)
  | tableInfoRead =>
    simp only [App.step, App.whileConnected] at ht
    split_ifs at ht
    obtain rfl := Option.some.inj ht
    exact kept_of_read _ _
  | lightStatusRead nowMs =>
    simp only [App.step, App.whileConnected] at ht
    split_ifs at ht
    obtain rfl := Option.some.inj ht
    exact kept_of_read _ _

theorem Steady.step (h : Steady s row tableSeq light) (he : e.Background)
    (ht : s.step e = some t) : Steady t row tableSeq t.env.light := by
  have hinvariant := h.invariant.step ht
  by_cases hwork : ∃ gatt, e = .readAllWork gatt
  · obtain ⟨gatt, rfl⟩ := hwork
    simp only [App.step] at ht
    split_ifs at ht with hpending
    obtain rfl := Option.some.inj ht
    obtain ⟨k, -, -, heq⟩ := h.invariant.readAllWork_cases hpending gatt
    rw [heq] at hinvariant ⊢
    split_ifs at hinvariant ⊢
    · exact ⟨hinvariant, h.currentConn, h.row, h.tableSeq, rfl⟩
    · exact ⟨hinvariant, h.currentConn, h.row, h.tableSeq, rfl⟩
  · have hkept := kept_of_background h he (fun gatt heq => hwork ⟨gatt, heq⟩) ht
    have htable : t.env.table = s.env.table :=
      congrArg (fun d => d.firmware.tableModel) hkept.device
    refine ⟨hinvariant, hkept.currentConn.trans h.currentConn, ?_, ?_, rfl⟩
    · rw [htable]
      exact h.row
    · rw [htable]
      exact h.tableSeq

theorem Steady.light_step (h : Steady s row tableSeq light) (he : e.Background)
    (hbefore : e.Before light.offWork) (ht : s.step e = some t) : t.env.light = light := by
  refine Eq.trans ?_ h.light
  cases e with
  | disconnected => exact absurd he id
  | powerCycle outputsErr stripErr => exact absurd he id
  | lightCommandWrite gatt offset buf nowMs => exact absurd he id
  | offWork gatt nowMs => exact absurd (ht.symm.trans (step_offWork h hbefore)) (Option.some_ne_none _)
  | _ => exact App.light_of_step h.invariant rfl (fun _ _ => AppEvent.noConfusion) ht

end Background

/-! ## What the client collects while it sleeps -/

section Sleep
variable {c : Client} {row : List (Option Part)} {tableSeq : BitVec 32} {light : LightControl}
  {e : AppEvent}

theorem Steady.happen (h : Steady c.app row tableSeq light) (he : e.Background) :
    Steady (c.happen e).app row tableSeq (c.happen e).app.env.light := by
  unfold Client.happen
  split
  · rename_i t ht
    exact h.step he ht
  · exact ⟨h.invariant, h.currentConn, h.row, h.tableSeq, rfl⟩

theorem Steady.sleep (h : Steady c.app row tableSeq light) {events : List AppEvent}
    (hevents : ∀ e ∈ events, e.Background) :
    Steady (c.sleep events).app row tableSeq (c.sleep events).app.env.light := by
  induction events generalizing c light with
  | nil => exact ⟨h.invariant, h.currentConn, h.row, h.tableSeq, rfl⟩
  | cons e es ih =>
    exact ih (h.happen (hevents e List.mem_cons_self))
      fun e' he' => hevents e' (List.mem_cons_of_mem e he')

theorem Steady.light_happen (h : Steady c.app row tableSeq light) (he : e.Background)
    (hbefore : e.Before light.offWork) : (c.happen e).app.env.light = light := by
  unfold Client.happen
  split
  · rename_i t ht
    exact h.light_step he hbefore ht
  · exact h.light

theorem Steady.sleep_before (h : Steady c.app row tableSeq light) {events : List AppEvent}
    (hevents : ∀ e ∈ events, e.Background) (hbefore : ∀ e ∈ events, e.Before light.offWork) :
    Steady (c.sleep events).app row tableSeq light := by
  induction events generalizing c with
  | nil => exact h
  | cons e es ih =>
    have he := hevents e List.mem_cons_self
    have hnext := h.happen he
    rw [h.light_happen he (hbefore e List.mem_cons_self)] at hnext
    exact ih hnext (fun e' he' => hevents e' (List.mem_cons_of_mem e he'))
      fun e' he' => hbefore e' (List.mem_cons_of_mem e he')

theorem Steady.records_eq (h : Steady c.app row tableSeq light) :
    c.app.env.table = ⟨ofContents row, tableSeq⟩ := by
  have hrecords : c.app.env.table.records = ofContents row := by
    rw [← h.row.contents_eq, ofContents_contents h.row.wellFormed]
  rw [← hrecords, ← h.tableSeq]

theorem happen_readAllWork (hs : c.app.Invariant) (hwork : c.app.env.readAllWork ≠ none)
    (gatt : GattNotify) :
    ∃ k ≤ 25, c.app.pacer.nextSlot = BitVec.ofNat 8 (k + 1) ∧ c.happen (.readAllWork gatt) =
      if c.app.sent gatt k then
        ⟨c.app.afterSend k, c.notifications ++ [readAllFrame c.app.env.table k]⟩
      else ⟨c.app.afterRetry, c.notifications⟩ := by
  obtain ⟨k, hk, hslot, heq⟩ := hs.readAllWork_cases hwork gatt
  have hstep : c.app.step (.readAllWork gatt) = some (c.app.readAllWorkHandler gatt) :=
    if_neg hwork
  refine ⟨k, hk, hslot, ?_⟩
  rw [Client.happen_of_step hstep, heq]
  split_ifs
  · have hatt : (c.app.afterSend k).env.att =
        c.app.env.att ++ [.notify .bindingCp (readAllFrame c.app.env.table k)] := rfl
    rw [App.shown_of_att hatt]
    rfl
  · have hshown : App.shown c.app c.app.afterRetry = [] :=
      App.shown_of_att (List.append_nil _).symm
    rw [hshown, List.append_nil]

theorem happen_readAllWork_none (hwork : c.app.env.readAllWork = none) (gatt : GattNotify) :
    c.happen (.readAllWork gatt) = c := by
  have hstep : c.app.step (.readAllWork gatt) = none := if_pos hwork
  simp only [Client.happen, hstep]

theorem Steady.mem_happen (h : Steady c.app row tableSeq light)
    (he : e.Background) {value : List Byte}
    (hvalue : value ∈ (c.happen e).notifications) :
    value ∈ c.notifications ∨ value.head? = some BindingOp.readAll.code := by
  by_cases hwork : ∃ gatt, e = .readAllWork gatt
  · obtain ⟨gatt, rfl⟩ := hwork
    by_cases hpending : c.app.env.readAllWork = none
    · rw [happen_readAllWork_none hpending] at hvalue
      exact Or.inl hvalue
    · obtain ⟨k, -, -, heq⟩ := happen_readAllWork h.invariant hpending gatt
      rw [heq] at hvalue
      split_ifs at hvalue
      · rcases List.mem_append.mp hvalue with hold | hnew
        · exact Or.inl hold
        · rw [List.mem_singleton.mp hnew]
          exact Or.inr rfl
      · exact Or.inl hvalue
  · unfold Client.happen at hvalue
    split at hvalue
    · rename_i t ht
      rw [(kept_of_background h he (fun gatt heq => hwork ⟨gatt, heq⟩) ht).shown,
        List.append_nil] at hvalue
      exact Or.inl hvalue
    · exact Or.inl hvalue

theorem Steady.mem_sleep (h : Steady c.app row tableSeq light) {events : List AppEvent}
    (hevents : ∀ e ∈ events, e.Background) {value : List Byte}
    (hvalue : value ∈ (c.sleep events).notifications) :
    value ∈ c.notifications ∨ value.head? = some BindingOp.readAll.code := by
  induction events generalizing c light with
  | nil => exact Or.inl hvalue
  | cons e es ih =>
    have he := hevents e List.mem_cons_self
    rcases ih (h.happen he) (fun e' he' => hevents e' (List.mem_cons_of_mem e he')) hvalue with
      hbefore | hframe
    · exact h.mem_happen he hbefore
    · exact Or.inr hframe

/-- The client has the first `n` frames of READ_ALL, and the pacer is at the next one. -/
structure Gathered (table : BindingTable) (n : ℕ) (c : Client) : Prop where
  frames : ∀ k < 26, k < n → readAllFrame table k ∈ c.notifications
  pending : c.app.pacer.active = true → n ≤ 25 ∧ c.app.pacer.nextSlot = BitVec.ofNat 8 (n + 1)
  finished : c.app.pacer.active = false → 26 ≤ n

theorem Gathered.of_pacer {table : BindingTable} {n : ℕ} (h : Gathered table n c) {d : Client}
    (hpacer : d.app.pacer = c.app.pacer)
    (hkept : ∀ value ∈ c.notifications, value ∈ d.notifications) : Gathered table n d := by
  refine ⟨fun k hk hn => hkept _ (h.frames k hk hn), ?_, ?_⟩
  · rw [hpacer]
    exact h.pending
  · rw [hpacer]
    exact h.finished

theorem Gathered.readAllWork {n : ℕ} (h : Gathered c.app.env.table n c)
    (hs : c.app.Invariant) (gatt : GattNotify) :
    ∃ n', n ≤ n' ∧ ((∀ value, gatt .bindingCp value = 0) → n + 1 ≤ n') ∧
      Gathered c.app.env.table n' (c.happen (.readAllWork gatt)) := by
  by_cases hwork : c.app.env.readAllWork = none
  · -- the answer is over, and nothing happens
    have hactive : c.app.pacer.active = false :=
      eq_false_of_ne_true fun hactive => hs.work.mpr hactive hwork
    rw [happen_readAllWork_none hwork]
    refine ⟨n + 1, Nat.le_succ n, fun _ => le_rfl, ?_, ?_, ?_⟩
    · exact fun k hk _ => h.frames k hk (lt_of_lt_of_le hk (h.finished hactive))
    · exact fun htrue => absurd (hactive.symm.trans htrue) Bool.false_ne_true
    · exact fun _ => Nat.le_succ_of_le (h.finished hactive)
  · obtain ⟨k, hk, hslot, heq⟩ := happen_readAllWork hs hwork gatt
    obtain ⟨hn, hnext⟩ := h.pending (hs.work.mp hwork)
    have hkn : k = n := by
      have hnat := congrArg BitVec.toNat (hslot.symm.trans hnext)
      rw [BitVec.toNat_ofNat, BitVec.toNat_ofNat] at hnat
      omega
    subst hkn
    rw [heq]
    split_ifs with hsent
    · refine ⟨k + 1, Nat.le_succ k, fun _ => le_rfl, fun j hj hlt => ?_, ?_, ?_⟩
      · rcases Nat.lt_or_eq_of_le (Nat.le_of_lt_succ hlt) with hold | rfl
        · exact List.mem_append_left _ (h.frames j hj hold)
        · exact List.mem_append_right _ (List.mem_singleton_self _)
      · unfold App.afterSend
        split_ifs with hlt
        · intro _
          refine ⟨hlt, ?_⟩
          rw [hslot]
          exact (BitVec.ofNat_add _ 1).symm
        · exact False.elim
      · unfold App.afterSend
        split_ifs with hlt
        · exact False.elim
        · intro _
          omega
    · exact ⟨k, le_rfl, fun haccepts => absurd (haccepts _) hsent,
        h.of_pacer rfl fun _ => id⟩

theorem Gathered.happen {n : ℕ} (h : Gathered c.app.env.table n c)
    (hc : Steady c.app row tableSeq light) (he : e.Background) :
    ∃ n', n ≤ n' ∧ (∀ gatt, e = .readAllWork gatt → (∀ value, gatt .bindingCp value = 0) →
      n + 1 ≤ n') ∧ Gathered c.app.env.table n' (c.happen e) := by
  by_cases hwork : ∃ gatt, e = .readAllWork gatt
  · obtain ⟨gatt, rfl⟩ := hwork
    obtain ⟨n', hle, hnext, h'⟩ := h.readAllWork hc.invariant gatt
    refine ⟨n', hle, ?_, h'⟩
    intro gatt' heq
    obtain rfl := AppEvent.readAllWork.inj heq
    exact hnext
  · have hne : ∀ gatt, e ≠ .readAllWork gatt := fun gatt heq => hwork ⟨gatt, heq⟩
    refine ⟨n, le_rfl, fun gatt heq => absurd heq (hne gatt), ?_⟩
    refine h.of_pacer ?_ fun value hvalue => Client.mem_happen hvalue e
    unfold Client.happen
    split
    · rename_i t ht
      exact (kept_of_background hc he hne ht).pacer
    · rfl

theorem Gathered.sleep {gatt : GattNotify} (hgatt : ∀ value, gatt .bindingCp value = 0)
    {events : List AppEvent} {m n : ℕ} (h : Gathered c.app.env.table n c)
    (hc : Steady c.app row tableSeq light)
    (hevents : ∀ e ∈ events, e.Background)
    (hturns : (List.replicate m (AppEvent.readAllWork gatt)).Sublist events) :
    ∃ n', n + m ≤ n' ∧ Gathered c.app.env.table n' (c.sleep events) := by
  -- as many turns of the work item as frames are missing bring the rest of the table
  induction events generalizing c light m n with
  | nil =>
    have hm : m = 0 := by
      have hlen := hturns.length_le
      rw [List.length_replicate] at hlen
      exact Nat.le_zero.mp hlen
    exact ⟨n, by omega, h⟩
  | cons e es ih =>
    obtain ⟨n', hle, hnext, h'⟩ := h.happen hc (hevents e List.mem_cons_self)
    have hsteady := hc.happen (hevents e List.mem_cons_self)
    have htable : (c.happen e).app.env.table = c.app.env.table := by
      rw [hsteady.records_eq, hc.records_eq]
    have hrest : ∀ e' ∈ es, e'.Background :=
      fun e' he' => hevents e' (List.mem_cons_of_mem e he')
    rw [← htable] at h'
    cases m with
    | zero =>
      obtain ⟨n'', hle', hdone⟩ := ih (m := 0) h' hsteady hrest
        (List.nil_sublist es)
      rw [htable] at hdone
      exact ⟨n'', by omega, hdone⟩
    | succ m =>
      rw [List.replicate_succ] at hturns
      rcases List.cons_sublist_cons'.mp hturns with hlater | ⟨heq, hlater⟩
      · rw [← List.replicate_succ] at hlater
        obtain ⟨n'', hle', hdone⟩ := ih h' hsteady hrest hlater
        rw [htable] at hdone
        exact ⟨n'', by omega, hdone⟩
      · obtain ⟨n'', hle', hdone⟩ := ih h' hsteady hrest hlater
        rw [htable] at hdone
        have hone := hnext gatt heq.symm hgatt
        exact ⟨n'', by omega, hdone⟩

end Sleep

/-! ## What the client asks for -/

section Requests
variable {c : Client} {row : List (Option Part)} {tableSeq : BitVec 32} {light : LightControl}
  {save : SettingsSaveOne} {gatt : GattNotify}

theorem Steady.step_write (h : Steady c.app row tableSeq light) (save : SettingsSaveOne)
    (gatt : GattNotify) (frame : List Byte) :
    c.app.step (.bindingCpWrite save gatt 0 frame) = some ((c.app.setEnv
      (c.app.env.push (.write .bindingCp 0 frame))).bindingCpWrite save gatt 0 frame).2 :=
  if_pos h.currentConn

theorem Steady.mutate (h : Steady c.app row tableSeq light) (hsave : ∀ value, save value = 0)
    (hgatt : ∀ attr value, gatt attr value = 0) {code : Byte} {args : List Byte} {op : TableOp}
    (hframe : Request.ofFrame code args = .mutate op) (hvalid : op.Valid (ofContents row))
    (hidle : ¬op.IdleMove) :
    Steady (c.happen (.bindingCpWrite save gatt 0 (code :: args))).app (op.act row)
        (nextSeq tableSeq) light ∧
      (c.happen (.bindingCpWrite save gatt 0 (code :: args))).notifications =
        c.notifications ++ [[code, 0x00]] := by
  have hstep := h.step_write save gatt (code :: args)
  obtain ⟨htable, hshown⟩ := App.table_and_shown_of_step h.invariant hframe hstep
  obtain ⟨hlight, hconn⟩ := App.light_and_conn_of_write save gatt 0 (code :: args) rfl (s := c.app)
  rw [Client.happen_of_step hstep]
  generalize ((c.app.setEnv (c.app.env.push (.write .bindingCp 0 (code :: args)))).bindingCpWrite
    save gatt 0 (code :: args)).2 = t at *
  have hrow := h.row
  rw [h.records_eq] at hrow
  have hcall : AppState.mutate save op c.app.env =
      ((op.run (c.app.env.device.firmware.saveCb save) ⟨ofContents row, tableSeq⟩).err,
        (AppState.mutate save op c.app.env).2) := by
    rw [← h.records_eq]
    rfl
  have hmodel : (AppState.mutate save op c.app.env).2.table =
      (op.run (c.app.env.device.firmware.saveCb save) ⟨ofContents row, tableSeq⟩).model := by
    rw [← h.records_eq]
    rfl
  obtain ⟨next, hplan⟩ := TableOp.plan_commit_of_valid hvalid hidle
  have hcommit : op.run (c.app.env.device.firmware.saveCb save) ⟨ofContents row, tableSeq⟩ =
      commitTable (c.app.env.device.firmware.saveCb save) ⟨ofContents row, tableSeq⟩ next := by
    rw [TableOp.run, hplan]
    rfl
  rcases commitTable_cases (c.app.env.device.firmware.saveCb save) ⟨ofContents row, tableSeq⟩
    next with ⟨cb, hcb, herr, -⟩ | ⟨-, heq⟩
  · exfalso
    unfold Firmware.saveCb at hcb
    split_ifs at hcb
    obtain rfl := Option.some.inj hcb
    exact herr (hsave _)
  rw [hcommit, heq] at hcall hmodel
  rw [hcall] at hshown
  refine ⟨⟨h.invariant.step hstep, hconn.trans h.currentConn, ⟨?_, ?_⟩, ?_,
    hlight.trans h.light⟩, ?_⟩
  · rw [htable, hmodel]
    exact TableOp.wellFormed_of_plan_commit hrow.wellFormed hplan
  · rw [htable, hmodel]
    exact (TableOp.contents_of_plan_commit hrow.wellFormed hplan).trans
      (congrArg op.act hrow.contents_eq)
  · rw [htable, hmodel]
  · change c.notifications ++ App.shown c.app t = _
    rw [hshown, accepted, if_pos (hgatt _ _)]
    rfl

theorem Steady.readOne (h : Steady c.app row tableSeq light)
    (hgatt : ∀ attr value, gatt attr value = 0) {k : ℕ} (hk : k < 25) {o : Option Part}
    (ho : row[k]? = some o) :
    Steady (c.happen (.bindingCpWrite save gatt 0 [0x01, BitVec.ofNat 8 (k + 1)])).app row
        tableSeq light ∧
      (c.happen (.bindingCpWrite save gatt 0 [0x01, BitVec.ofNat 8 (k + 1)])).notifications =
        c.notifications ++ [readOneReply (k + 1) o] := by
  have hstep := h.step_write save gatt [0x01, BitVec.ofNat 8 (k + 1)]
  have hcode : (0x01 : Byte) ≠ BindingOp.readAll.code := by decide
  have hinvariant := h.invariant.step hstep
  have hreply : ((dispatcher save gatt).dispatchBindingCp [0x01, BitVec.ofNat 8 (k + 1)]
      (c.app.env.exchange [.write .bindingCp 0 [0x01, BitVec.ofNat 8 (k + 1)]])).2 =
        (c.app.env.exchange [.write .bindingCp 0 [0x01, BitVec.ofNat 8 (k + 1)]]).exchange
          [.notify .bindingCp (readOneReply (k + 1) o)] := by
    have hframe : Request.ofFrame 0x01 [BitVec.ofNat 8 (k + 1)] =
        .readOne (BitVec.ofNat 8 (k + 1)) := rfl
    have hlinked : (c.app.env.exchange
        [.write .bindingCp 0 [0x01, BitVec.ofNat 8 (k + 1)]]).Linked :=
      ⟨h.invariant.connected.trans h.currentConn, h.currentConn⟩
    have hread : c.app.env.table.readOne (BitVec.ofNat 8 (k + 1)) SlotRecord.zero =
        (0, c.app.env.table.records[k]) := ControlPoint.readOne_ofNat _ hk SlotRecord.zero
    have hbytes : c.app.env.table.records[k].toBytes = (place (k + 1) o).toBytes :=
      h.row.bytes_place hk ho
    rw [Dispatcher.dispatchBindingCp_eq_serve, hframe]
    change (notifyBindingResult gatt 0x01
      (statusFromErrno (c.app.env.table.readOne (BitVec.ofNat 8 (k + 1)) SlotRecord.zero).1)
      (if (c.app.env.table.readOne (BitVec.ofNat 8 (k + 1)) SlotRecord.zero).1 = 0 then
        (c.app.env.table.readOne (BitVec.ofNat 8 (k + 1)) SlotRecord.zero).2.toBytes else []) _).2 = _
    rw [hread, if_pos rfl, hbytes, notifyBindingResult_of_linked hlinked gatt 0x01 _
      (SlotRecord.length_toBytes _).le, accepted, if_pos (hgatt _ _)]
    rfl
  rw [App.write_eq_dispatch hcode, hreply, exchange_exchange] at hstep hinvariant
  rw [Client.happen_of_step hstep]
  refine ⟨⟨hinvariant, h.currentConn, h.row, h.tableSeq, h.light⟩, ?_⟩
  change c.notifications ++ App.shown c.app _ = _
  rw [App.shown_of_att (s := c.app) rfl]
  rfl

theorem Steady.readAll (h : Steady c.app row tableSeq light) (save : SettingsSaveOne)
    (gatt : GattNotify) :
    Steady (c.happen (.bindingCpWrite save gatt 0 [0x02])).app row tableSeq light ∧
      Gathered (c.happen (.bindingCpWrite save gatt 0 [0x02])).app.env.table 0
        (c.happen (.bindingCpWrite save gatt 0 [0x02])) := by
  have hstep := h.step_write save gatt [0x02]
  have hinvariant := h.invariant.step hstep
  rw [Client.happen_of_step hstep]
  refine ⟨⟨hinvariant, h.currentConn, h.row, h.tableSeq, h.light⟩, ?_, ?_, ?_⟩
  · exact fun k _ hk => absurd hk (Nat.not_lt_zero k)
  · exact fun _ => ⟨Nat.zero_le _, rfl⟩
  · exact fun hfalse => absurd hfalse.symm Bool.false_ne_true

theorem Steady.lightCommand (h : Steady c.app row tableSeq light) (gatt : GattNotify)
    (frame : List Byte) (nowMs : ℤ) :
    Steady (c.happen (.lightCommandWrite gatt 0 frame nowMs)).app row tableSeq
      (light.lightCommandWrite 0 frame nowMs).2 := by
  have hstep : c.app.step (.lightCommandWrite gatt 0 frame nowMs) = some (c.app.setEnv
      ((c.app.env.push (.write .lightCommand 0 frame)).lightCommandWrite gatt 0 frame nowMs)) :=
    if_pos h.currentConn
  have hinvariant := h.invariant.step hstep
  have htable := App.table_of_step h.invariant rfl hstep
  rw [Client.happen_of_step hstep]
  obtain ⟨hlight, -, hconn⟩ := setLight_eq gatt (c.app.env.light.lightCommandWrite 0 frame nowMs).2
    (c.app.env.push (.write .lightCommand 0 frame))
  refine ⟨hinvariant, hconn.trans h.currentConn, ?_, ?_, ?_⟩
  · rw [htable]
    exact h.row
  · rw [htable]
    exact h.tableSeq
  · rw [← h.light]
    exact hlight

theorem Steady.readTableInfo (h : Steady c.app row tableSeq light) :
    Steady (c.readGattChar .tableInfoRead).2.app row tableSeq light ∧
      (c.readGattChar .tableInfoRead).1 =
        (getInfo ⟨ofContents row, tableSeq⟩).toBytes := by
  have hsteady : Steady (c.happen .tableInfoRead).app row tableSeq light := by
    have hnext := h.happen (e := .tableInfoRead) trivial
    rwa [h.light_happen (e := .tableInfoRead) trivial trivial] at hnext
  have hstep : c.app.step .tableInfoRead =
      some (c.app.setEnv (c.app.env.push (.read .tableInfo c.app.env.tableInfoBytes))) :=
    if_pos h.currentConn
  have hlast : (c.happen .tableInfoRead).app.env.att.getLast? =
      some (.read .tableInfo c.app.env.tableInfoBytes) := by
    rw [Client.happen_of_step hstep]
    exact List.getLast?_concat
  simp only [Client.readGattChar, hlast]
  refine ⟨hsteady, ?_⟩
  rw [← h.records_eq]
  rfl

theorem Steady.readLightStatus (h : Steady c.app row tableSeq light) (nowMs : ℤ) :
    Steady (c.readGattChar (.lightStatusRead nowMs)).2.app row tableSeq light ∧
      (c.readGattChar (.lightStatusRead nowMs)).1 =
        lightStatusBytes light.lightState.mode (light.lightState.remainingS nowMs) := by
  have hsteady : Steady (c.happen (.lightStatusRead nowMs)).app row tableSeq light := by
    have hnext := h.happen (e := .lightStatusRead nowMs) trivial
    rwa [h.light_happen (e := .lightStatusRead nowMs) trivial trivial] at hnext
  have hstep : c.app.step (.lightStatusRead nowMs) = some (c.app.setEnv (c.app.env.push
      (.read .lightStatus (lightStatusBytes c.app.env.light.lightState.mode
        (c.app.env.light.lightState.remainingS nowMs))))) := if_pos h.currentConn
  have hlast : (c.happen (.lightStatusRead nowMs)).app.env.att.getLast? =
      some (.read .lightStatus (lightStatusBytes c.app.env.light.lightState.mode
        (c.app.env.light.lightState.remainingS nowMs))) := by
    rw [Client.happen_of_step hstep]
    exact List.getLast?_concat
  simp only [Client.readGattChar, hlast]
  refine ⟨hsteady, ?_⟩
  rw [h.light]

end Requests

end HostTools
end PartRack
