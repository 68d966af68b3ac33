import PartRack.App.Model
import PartRack.ControlPoint.Status

/-! What one handler of the firmware can do. -/

namespace PartRack

/-! ## The light reports each change once -/

namespace LightControl

@[simp] theorem setLightOutputs_reports (powerOn : Bool) (s : LightControl) :
    (setLightOutputs powerOn s).reports = s.reports := by
  unfold setLightOutputs
  split_ifs <;> rfl

@[simp] theorem callDriver_reports (r : Bool × LightControl) :
    (callDriver r).reports = r.2.reports := by
  unfold callDriver
  split_ifs <;> rfl

@[simp] theorem showBegin_reports (s : LightControl) : s.showBegin.2.reports = s.reports := by
  rw [showBegin_eq]

@[simp] theorem scheduleOffWork_lightState (dueMs : ℤ) (s : LightControl) :
    (scheduleOffWork dueMs s).lightState = s.lightState := by
  unfold scheduleOffWork
  split <;> rfl

@[simp] theorem scheduleOffWork_reports (dueMs : ℤ) (s : LightControl) :
    (scheduleOffWork dueMs s).reports = s.reports := by
  unfold scheduleOffWork
  split <;> rfl

theorem driveLedsCommandBegin_reports (command : LightCommand) (s : LightControl) :
    (s.driveLedsCommandBegin command).2.reports = s.reports := by
  unfold driveLedsCommandBegin
  dsimp only
  split
  · rfl
  · simp

/-- One report on the way from `s` to `t`, of the mode of `t`. -/
def ReportsOnce (s t : LightControl) : Prop :=
  ∃ remainingS, t.reports = s.reports ++ [(t.lightState.mode, remainingS)]

theorem reportsOnce_reportLightChanged {s t : LightControl} (h : t.reports = s.reports)
    (nowMs : ℤ) : ReportsOnce s (reportLightChanged nowMs t) := by
  refine ⟨t.lightState.remainingS nowMs, ?_⟩
  show t.reports ++ _ = _
  rw [h]
  rfl

theorem reportsOnce_offWorkEnd {s t : LightControl} (h : t.reports = s.reports) (nowMs : ℤ) :
    ReportsOnce s (offWorkEnd nowMs t) :=
  reportsOnce_reportLightChanged ((setLightOutputs_reports _ _).trans h) nowMs

theorem offWorkBegin_reports (s : LightControl) : s.offWorkBegin.2.reports = s.reports := by
  rw [offWorkBegin_eq]

theorem apply_cases_reports (command : LightCommand) (nowMs : ℤ) (s : LightControl) :
    (s.apply command nowMs).2 = s ∨ ReportsOnce s (s.apply command nowMs).2 := by
  cases hresolve : LightPolicy.resolve command with
  | error err =>
    left
    rw [apply, applyBegin_of_error hresolve]
  | ok policy =>
    right
    cases hpower : policy.powerOn with
    | false =>
      rw [apply, applyBegin_of_off hresolve hpower]
      show ReportsOnce s (applyEnd policy nowMs _)
      rw [applyEnd, if_pos hpower]
      refine reportsOnce_offWorkEnd ?_ nowMs
      rw [callDriver_reports, offWorkBegin_reports]
      rfl
    | true =>
      rw [apply, applyBegin_of_on hresolve hpower]
      show ReportsOnce s (applyEnd policy nowMs _)
      rw [applyEnd, if_neg (by simp [hpower])]
      obtain ⟨remainingS, hreports⟩ := reportsOnce_reportLightChanged (s := s) (t := callDriver
        ((s.setLightState ⟨policy.mode, nowMs + policy.timeoutS.toNat * 1000⟩).cancelOffWork
          |>.driveLedsCommandBegin command)) (by
        rw [callDriver_reports, driveLedsCommandBegin_reports]
        rfl) nowMs
      refine ⟨remainingS, ?_⟩
      rw [scheduleOffWork_reports, scheduleOffWork_lightState]
      exact hreports

theorem step_cases_reports {s t : LightControl} {e : Event} (h : s.step e = some t) :
    t = s ∨ ReportsOnce s t := by
  cases e with
  | write offset buf nowMs =>
    obtain rfl := Option.some.inj h
    unfold lightCommandWrite
    split_ifs
    · exact Or.inl rfl
    · exact apply_cases_reports _ nowMs s
  | expire nowMs =>
    right
    unfold step at h
    cases hwork : s.offWork with
    | none =>
      rw [hwork] at h
      exact absurd h.symm (Option.some_ne_none _)
    | some dueMs =>
      simp only [hwork] at h
      split_ifs at h
      obtain rfl := Option.some.inj h
      refine reportsOnce_offWorkEnd ?_ nowMs
      rw [callDriver_reports, offWorkBegin_reports]
      rfl

end LightControl

namespace AppState
open BindingTable

def exchange (pdus : List AttPdu) (s : AppState) : AppState := { s with att := s.att ++ pdus }

theorem push_eq_exchange (pdu : AttPdu) (s : AppState) : s.push pdu = s.exchange [pdu] := rfl

@[simp] theorem exchange_exchange (a b : List AttPdu) (s : AppState) :
    (s.exchange a).exchange b = s.exchange (a ++ b) := by
  simp only [exchange, List.append_assoc]

@[simp] theorem exchange_nil (s : AppState) : s.exchange [] = s := by
  simp only [exchange, List.append_nil]

/-! ## Notifications -/

/-- What a call of `bt_gatt_notify` adds to what has passed over the connection. -/
def accepted (gatt : GattNotify) (attr : GattAttr) (value : List Byte) : List AttPdu :=
  if gatt attr value = 0 then [.notify attr value] else []

theorem eq_notify_of_mem_accepted {gatt : GattNotify} {attr : GattAttr} {value : List Byte}
    {pdu : AttPdu} (h : pdu ∈ accepted gatt attr value) : pdu = .notify attr value := by
  unfold accepted at h
  split_ifs at h
  · exact List.mem_singleton.mp h
  · exact absurd h List.not_mem_nil

theorem btGattNotify_snd (gatt : GattNotify) (attr : GattAttr) (value : List Byte)
    (s : AppState) : (btGattNotify gatt attr value s).2 = s.exchange (accepted gatt attr value) := by
  unfold btGattNotify accepted
  dsimp only
  split_ifs
  · rfl
  · rw [exchange_nil]

theorem notifyBindingResult_snd (gatt : GattNotify) (op : Byte) (status : Status)
    (payload : List Byte) (s : AppState) :
    ∃ pdus, (notifyBindingResult gatt op status payload s).2 = s.exchange pdus ∧
      ∀ p ∈ pdus, p = .notify .bindingCp (op :: status.code :: payload) := by
  unfold notifyBindingResult lifecycleNotifyBinding
  split_ifs
  · exact ⟨[], (exchange_nil s).symm, fun p hp => absurd hp List.not_mem_nil⟩
  · exact ⟨[], (exchange_nil s).symm, fun p hp => absurd hp List.not_mem_nil⟩
  · exact ⟨_, btGattNotify_snd _ _ _ s, fun p hp => eq_notify_of_mem_accepted hp⟩

theorem lifecycleNotifyTableInfo_snd (gatt : GattNotify) (s : AppState) :
    (lifecycleNotifyTableInfo gatt s).2 =
      s.exchange (if s.currentConn then accepted gatt .tableInfo s.tableInfoBytes else []) := by
  unfold lifecycleNotifyTableInfo
  cases s.currentConn with
  | true => exact btGattNotify_snd gatt .tableInfo _ s
  | false => exact (exchange_nil s).symm

theorem lifecycleNotifyLightStatus_snd (gatt : GattNotify) (mode : Byte)
    (remainingS : BitVec 16) (s : AppState) :
    (lifecycleNotifyLightStatus gatt mode remainingS s).2 = s.exchange
      (if s.currentConn then accepted gatt .lightStatus (lightStatusBytes mode remainingS)
        else []) := by
  unfold lifecycleNotifyLightStatus
  cases s.currentConn with
  | true => exact btGattNotify_snd gatt .lightStatus _ s
  | false => exact (exchange_nil s).symm

theorem report_eq_exchange (gatt : GattNotify) (r : Lifecycle × List AdapterCall) (s : AppState) :
    ∃ pdus, s.report gatt r = (s.invalidate r).exchange pdus := by
  unfold report
  generalize s.invalidate r = u
  induction r.2 generalizing u with
  | nil => exact ⟨[], (exchange_nil u).symm⟩
  | cons c calls ih =>
    have hperform : ∃ pdus, perform gatt u c = u.exchange pdus := by
      cases c with
      | scheduleWork => exact ⟨[], (exchange_nil u).symm⟩
      | notifyTableInfo => exact ⟨_, lifecycleNotifyTableInfo_snd gatt u⟩
      | notifyLightStatus mode remainingS =>
        exact ⟨_, lifecycleNotifyLightStatus_snd gatt mode remainingS u⟩
    obtain ⟨pdus, hpdus⟩ := hperform
    obtain ⟨later, hlater⟩ := ih (u.exchange pdus)
    refine ⟨pdus ++ later, ?_⟩
    rw [List.foldl_cons, hpdus, hlater, exchange_exchange]

theorem setLight_eq (gatt : GattNotify) (light : LightControl) (s : AppState) :
    (s.setLight gatt light).light = light ∧ (s.setLight gatt light).device = s.device ∧
      (s.setLight gatt light).currentConn = s.currentConn := by
  unfold setLight
  have hput : (s.putLight light).light = light ∧ (s.putLight light).device = s.device ∧
      (s.putLight light).currentConn = s.currentConn := ⟨rfl, rfl, rfl⟩
  generalize s.putLight light = u at hput
  induction light.reports.drop s.light.reports.length generalizing u with
  | nil => exact hput
  | cons status reports ih =>
    refine ih _ ?_
    obtain ⟨pdus, hpdus⟩ := report_eq_exchange gatt
      (u.world.lifecycle.reportLightChanged status.1 status.2) u
    rw [reportLightChanged, hpdus]
    exact hput

theorem foldl_perform_reportChanged (gatt : GattNotify) (notify : AdapterCall) (l : Lifecycle)
    (s : AppState) : (l.reportChanged notify).2.foldl (perform gatt) s =
      if l.connected then perform gatt s notify else s := by
  unfold Lifecycle.reportChanged
  cases hconn : l.connected with
  | true =>
    have hdirty : l.markDirty.connected = true := hconn
    simp only [hdirty, if_true, List.foldl_cons, List.foldl_nil]
  | false =>
    have hdirty : l.markDirty.connected = false := hconn
    simp only [hdirty, Bool.false_eq_true, if_false]
    cases l.markDirty.scheduleLocked.1 <;> rfl

theorem reportBindingChanged_eq (gatt : GattNotify) {s : AppState}
    (h : s.world.lifecycle.connected = s.currentConn) :
    s.reportBindingChanged gatt =
      (s.invalidate s.world.lifecycle.reportBindingChanged).exchange
        (if s.currentConn then accepted gatt .tableInfo s.tableInfoBytes else []) := by
  rw [reportBindingChanged, report, Lifecycle.reportBindingChanged, foldl_perform_reportChanged, h,
    perform, lifecycleNotifyTableInfo_snd]
  cases hconn : s.currentConn with
  | true =>
    have hkept : ∀ r, (s.invalidate r).currentConn = true := fun _ => hconn
    rw [if_pos rfl, if_pos rfl, hkept, if_pos rfl]
    rfl
  | false => exact (exchange_nil _).symm

theorem reportLightChanged_eq (gatt : GattNotify) {s : AppState}
    (h : s.world.lifecycle.connected = s.currentConn) (mode : Byte) (remainingS : BitVec 16) :
    s.reportLightChanged gatt (mode, remainingS) =
      (s.invalidate (s.world.lifecycle.reportLightChanged mode remainingS)).exchange
        (if s.currentConn then accepted gatt .lightStatus (lightStatusBytes mode remainingS)
          else []) := by
  rw [reportLightChanged, report, Lifecycle.reportLightChanged, foldl_perform_reportChanged, h,
    perform, lifecycleNotifyLightStatus_snd]
  cases hconn : s.currentConn with
  | true =>
    have hkept : ∀ r, (s.invalidate r).currentConn = true := fun _ => hconn
    rw [if_pos rfl, if_pos rfl, hkept, if_pos rfl]
  | false => exact (exchange_nil _).symm

theorem reportNfcFd_eq (gatt : GattNotify) (s : AppState) :
    s.reportNfcFd gatt = s.invalidate s.world.lifecycle.reportNfcFd := by
  unfold reportNfcFd report
  generalize hr : s.world.lifecycle.reportNfcFd = r
  have hcalls : r.2 = Lifecycle.scheduleIfNeeded s.world.lifecycle.markDirty.scheduleLocked.1 := by
    rw [← hr]
    rfl
  rw [hcalls]
  cases s.world.lifecycle.markDirty.scheduleLocked.1 <;> rfl

/-! ## Calls of the table -/

theorem mutate_of_err_ne {save : SettingsSaveOne} {op : TableOp} {s : AppState}
    (h : (mutate save op s).1 ≠ 0) : (mutate save op s).2 = s := by
  have hrefused : TableOp.Refused (s.device.firmware.saveCb save) s.device.firmware.tableModel
      (s.device.firmware.call save op) := by
    rcases TableOp.run_refused_or_committed_or_skipped (s.device.firmware.saveCb save)
      s.device.firmware.tableModel op with hr | hc | hs
    · exact hr
    · exact absurd hc.err_eq h
    · exact absurd (congrArg Outcome.err hs.outcome_eq) h
  have hstores : (s.device.firmware.call save op).effects.countP Effect.isStore = 0 := by
    rcases hrefused.effects with ⟨heffects, -⟩ | ⟨cb, records, tableSeq, -, -, heffects⟩
    · rw [heffects]
      rfl
    · rw [heffects]
      rfl
  have hdevice : s.device.step (.call save op) = s.device := by
    have hstep : s.device.step (.call save op) =
        ⟨{ s.device.firmware with tableModel := (s.device.firmware.call save op).model },
          (s.device.step (.call save op)).flash⟩ := rfl
    rw [hstep, hrefused.model_eq, Device.flash_of_failed_call s.device save op h]
  show { s with
    device := s.device.step (.call save op)
    commits := s.commits + (s.device.firmware.call save op).effects.countP Effect.isStore } = s
  rw [hdevice, hstores]
  rfl

theorem mutate_exchange (save : SettingsSaveOne) (op : TableOp) (pdus : List AttPdu)
    (s : AppState) : mutate save op (s.exchange pdus) =
      ((mutate save op s).1, (mutate save op s).2.exchange pdus) := rfl

/-! ## Frames of the control point -/

/-- What a frame other than a start of READ_ALL can exchange while the table stays as it is:
no request to start READ_ALL and no frame of its answer. -/
def Apart : AttPdu → Prop
  | .write attr offset value => ¬(attr = .bindingCp ∧ offset = 0 ∧ value = [BindingOp.readAll.code])
  | .read _ _ => False
  | .notify attr value => attr = .bindingCp ∧
      ∀ payload, value ≠ BindingOp.readAll.code :: Status.ok.code :: payload

theorem apart_reply {op : Byte} {status : Status} {payload : List Byte}
    (h : op ≠ BindingOp.readAll.code ∨ status ≠ .ok) :
    Apart (.notify .bindingCp (op :: status.code :: payload)) := by
  refine ⟨rfl, fun payload' heq => ?_⟩
  obtain ⟨hop, htail⟩ := List.cons.inj heq
  obtain ⟨hstatus, -⟩ := List.cons.inj htail
  rcases h with h | h
  · exact h hop
  · refine h ?_
    revert hstatus
    cases status <;> decide

theorem call_dispatcher (save : SettingsSaveOne) (gatt : GattNotify) (op : TableOp) :
    (dispatcher save gatt).call op = mutate save op := by
  cases op <;> rfl

theorem notify_dispatcher (save : SettingsSaveOne) (gatt : GattNotify) (op : Byte) (err : Int)
    (payload : List Byte) (hop : op ≠ BindingOp.readAll.code) (s : AppState) :
    ∃ pdus, ((dispatcher save gatt).notify op err payload s).2 = s.exchange pdus ∧
      ∀ p ∈ pdus, Apart p := by
  obtain ⟨pdus, heq, hpdus⟩ := notifyBindingResult_snd gatt op (statusFromErrno err)
    (if err = 0 then payload else []) s
  refine ⟨pdus, heq, fun p hp => ?_⟩
  rw [hpdus p hp]
  exact apart_reply (Or.inl hop)

theorem dispatchMutatingStatus_snd (d : Dispatcher AppState) (op : Byte) (err : Int)
    (s : AppState) : (d.dispatchMutatingStatus op err s).2 =
      if err = 0 then (d.tableChanged (d.notify op err [] s).2).2 else (d.notify op err [] s).2 := by
  unfold Dispatcher.dispatchMutatingStatus
  by_cases herr : err = 0
  · rw [if_pos herr, if_pos herr]
    rfl
  · rw [if_neg herr, if_neg herr]
    rfl

theorem dispatch_of_ne_mutate (save : SettingsSaveOne) (gatt : GattNotify) {code : Byte}
    {args : List Byte} (hcode : code ≠ BindingOp.readAll.code)
    (hframe : ∀ op, Request.ofFrame code args ≠ .mutate op) (s : AppState) :
    ∃ pdus, (∀ p ∈ pdus, Apart p) ∧
      ((dispatcher save gatt).dispatchBindingCp (code :: args) s).2 = s.exchange pdus := by
  rw [Dispatcher.dispatchBindingCp_eq_serve]
  cases hreq : Request.ofFrame code args with
  | readOne slot =>
    obtain ⟨pdus, heq, hpdus⟩ := notify_dispatcher save gatt code
      (s.table.readOne slot SlotRecord.zero).1 (s.table.readOne slot SlotRecord.zero).2.toBytes
      hcode s
    exact ⟨pdus, hpdus, heq⟩
  | readAll => exact absurd hreq (ControlPoint.ofFrame_ne_readAll args hcode)
  | malformed =>
    obtain ⟨pdus, heq, hpdus⟩ := notify_dispatcher save gatt code (-Errno.EINVAL) [] hcode s
    exact ⟨pdus, hpdus, heq⟩
  | mutate op => exact absurd hreq (hframe op)

theorem dispatch_mutate (save : SettingsSaveOne) (gatt : GattNotify) {code : Byte}
    {args : List Byte} {op : TableOp} (hframe : Request.ofFrame code args = .mutate op)
    (s : AppState) :
    ((dispatcher save gatt).dispatchBindingCp (code :: args) s).2 =
      if (mutate save op s).1 = 0 then
        ((dispatcher save gatt).notify code (mutate save op s).1 [] (mutate save op s).2
          ).2.reportBindingChanged gatt
      else ((dispatcher save gatt).notify code (mutate save op s).1 [] (mutate save op s).2).2 := by
  have hserve : ((dispatcher save gatt).serve code (.mutate op) s).2 =
      ((dispatcher save gatt).dispatchMutatingStatus code (mutate save op s).1
        (mutate save op s).2).2 := by
    rw [← call_dispatcher save gatt]
    rfl
  rw [Dispatcher.dispatchBindingCp_eq_serve, hframe, hserve, dispatchMutatingStatus_snd]
  rfl

theorem dispatch_cases (save : SettingsSaveOne) (gatt : GattNotify) {code : Byte}
    (args : List Byte) (hcode : code ≠ BindingOp.readAll.code) (s : AppState) :
    (∃ pdus, (∀ p ∈ pdus, Apart p) ∧
      ((dispatcher save gatt).dispatchBindingCp (code :: args) s).2 = s.exchange pdus) ∨
    ∃ op pdus, (∀ p ∈ pdus, Apart p) ∧ (mutate save op s).1 = 0 ∧
      ((dispatcher save gatt).dispatchBindingCp (code :: args) s).2 =
        ((mutate save op s).2.exchange pdus).reportBindingChanged gatt := by
  by_cases hframe : ∀ op, Request.ofFrame code args ≠ .mutate op
  · exact Or.inl (dispatch_of_ne_mutate save gatt hcode hframe s)
  push Not at hframe
  obtain ⟨op, hframe⟩ := hframe
  obtain ⟨pdus, heq, hpdus⟩ := notify_dispatcher save gatt code (mutate save op s).1 [] hcode
    (mutate save op s).2
  rw [dispatch_mutate save gatt hframe, heq]
  by_cases herr : (mutate save op s).1 = 0
  · rw [if_pos herr]
    exact Or.inr ⟨op, pdus, hpdus, herr, rfl⟩
  · rw [if_neg herr, mutate_of_err_ne herr]
    exact Or.inl ⟨pdus, hpdus, rfl⟩

end AppState
end PartRack
