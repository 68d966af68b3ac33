import PartRack.App.Versions
import PartRack.Lifecycle.Advertising

/-! How the advertisement comes up to date again. A tap of NFC gives the stack the present payload
from any state without a connection, whatever updates have failed or have been lost before, and so
does a power cycle. Whether the stack advertises it is another question: the flag
`advertising_running` decides whether it is started again. -/

namespace PartRack

namespace Lifecycle

theorem processEnd_of_generation (l : Lifecycle) :
    l.processEnd l.advertisingGeneration 0 = ({ l with
      advertisingRunning := true
      appliedGeneration := l.advertisingGeneration }, []) := by
  unfold processEnd
  simp

end Lifecycle

namespace World

/-- A pending work item is in the queue. -/
def Queued (w : World) : Prop := w.lifecycle.workPending = true → w.workQueued = true

theorem queued_of_scheduled {l : Lifecycle} {r : Lifecycle × List AdapterCall} {queued : Bool}
    (hr : Lifecycle.Scheduled l r) (h : l.workPending = true → queued = true)
    (hpending : r.1.workPending = true) : (queued || r.2.contains .scheduleWork) = true := by
  rw [Bool.or_eq_true]
  rcases hr.queued hpending with hold | hnew
  · exact Or.inl (h hold)
  · exact Or.inr hnew

theorem Queued.step {w t : World} {e : LifecycleEvent} (h : w.Queued) (ht : w.step e = some t) :
    t.Queued := by
  cases e with
  | startCall =>
    obtain ⟨-, -, rfl⟩ := startCall_cases ht
    intro hpending
    exact h (w.lifecycle.startBegin_spec.2.2.1.symm.trans hpending)
  | processCall =>
    obtain ⟨-, ⟨-, rfl⟩ | ⟨-, rfl⟩⟩ := processCall_cases ht
    · exact fun hpending => absurd hpending Bool.false_ne_true
    · exact fun hpending => absurd hpending Bool.false_ne_true
  | stackApply err =>
    obtain ⟨c, -, -, rfl⟩ := stackApply_cases ht
    exact h
  | applyReturn =>
    obtain ⟨c, err, -, -, -, -, -, -, ⟨-, hl, hqueued⟩ | ⟨-, hl, hqueued⟩⟩ := applyReturn_cases ht
    · intro hpending
      rw [hqueued]
      refine h ?_
      rw [hl] at hpending
      unfold Lifecycle.startEnd at hpending
      split_ifs at hpending <;> exact hpending
    · intro hpending
      rw [hqueued]
      rw [hl] at hpending
      by_cases herr : err = 0
      · subst herr
        exact queued_of_scheduled (Lifecycle.scheduled_processEnd _ _) h hpending
      · rw [Lifecycle.processEnd_of_err _ _ herr] at hpending
        rw [h hpending, Bool.true_or]
  | connected =>
    obtain rfl := Option.some.inj ht
    exact h
  | disconnected =>
    obtain rfl := Option.some.inj ht
    exact queued_of_scheduled (Lifecycle.invalidates_onDisconnected _).toScheduled h
  | reportNfcFd =>
    obtain rfl := Option.some.inj ht
    exact queued_of_scheduled (Lifecycle.invalidates_reportNfcFd _).toScheduled h
  | reportBindingChanged =>
    obtain rfl := Option.some.inj ht
    exact queued_of_scheduled (Lifecycle.invalidates_reportChanged _ _).toScheduled h
  | reportLightChanged mode remainingS =>
    obtain rfl := Option.some.inj ht
    exact queued_of_scheduled (Lifecycle.invalidates_reportChanged _ _).toScheduled h

end World

namespace Beacon

theorem queued_step {b b' : Beacon} {e : BeaconEvent} (h : b.world.Queued)
    (hb : b.step e = some b') : b'.world.Queued := by
  cases e with
  | lifecycle e =>
    simp only [Beacon.step] at hb
    split_ifs at hb
    obtain ⟨t, ht, rfl⟩ := Option.map_eq_some_iff.mp hb
    have hworld : (b.follow t e).world = t := by cases e <;> rfl
    rw [hworld]
    exact h.step ht
  | tableChange tableSeq hasUnboundSlot =>
    obtain rfl := Option.some.inj hb
    exact h
  | lightChange lightMode =>
    obtain rfl := Option.some.inj hb
    exact h
  | fillAdvMsd batteryPct fault =>
    rw [fillStep_cases hb]
    exact h

end Beacon

namespace App
open AppState BindingTable Simulation

theorem queued_along {device : Device} (h : device.Synced) (outputsErr stripErr : Int)
    (commits : ℕ) (events : List AppEvent) :
    Runs.Along App.step (fun s => ∃ b, Simulated s b ∧ b.Invariant ∧ b.world.Queued)
      (boot device outputsErr stripErr commits) events := by
  have hinit : ∀ tableSeq hasUnboundSlot lightMode,
      (Beacon.init tableSeq hasUnboundSlot lightMode).Invariant ∧
        (Beacon.init tableSeq hasUnboundSlot lightMode).world.Queued := by
    intro tableSeq hasUnboundSlot lightMode
    exact ⟨Beacon.invariant_init _ _ _, fun hpending => absurd hpending Bool.false_ne_true⟩
  refine (simulates_beacon.strengthen fun b hb => hb.1).along
    (fun b e b' hb he => ⟨hb.1.step he, Beacon.queued_step hb.2 he⟩) ?_
    ⟨invariant_boot h _ _ _, related_boot _ _ _ _⟩ (hinit _ _ _) events
  rintro b ⟨tableSeq, hasUnboundSlot, lightMode, rfl⟩
  exact hinit _ _ _

/-- An update of the advertisement is due, and its work item is in the queue. -/
structure Due (s : AppState) : Prop where
  idle : s.world.call = none
  queued : s.world.workQueued = true
  ready : s.world.lifecycle.ready = true
  connected : s.world.lifecycle.connected = false
  dirty : s.world.lifecycle.advertisingGeneration ≠ s.world.lifecycle.appliedGeneration

theorem due_of_invalidates {s t : AppState} {b : Beacon} (hR : Related s b) (hb : b.Invariant)
    {r : Lifecycle × List AdapterCall} (hr : Lifecycle.Invalidates s.world.lifecycle r)
    (hl : t.world.lifecycle = r.1) (hq : t.world.Queued) (hidle : t.world.call = none)
    (hready : s.world.lifecycle.ready = true) (hconn : t.world.lifecycle.connected = false)
    (hfew : s.invalidations + 1 < 2 ^ 32) : Due t := by
  -- the generation may be any number of invalidations ahead, for none of the updates that
  -- failed has moved the applied one
  have hready' : t.world.lifecycle.ready = true := by rw [hl, hr.ready, hready]
  have hdirty : t.world.lifecycle.advertisingGeneration ≠ t.world.lifecycle.appliedGeneration := by
    obtain ⟨a, ha⟩ := Option.ne_none_iff_exists'.mp (hb.ready.mp (hR.world ▸ hready))
    have hgen := (hb.applied a ha).generation
    rw [hR.invalidations a ha, hR.world] at hgen
    rw [hl, hr.generation, hr.applied, hgen, Beacon.ofNat_succ_invalidations]
    exact World.generation_ne (Nat.succ_ne_zero _) hfew
  have hpending : t.world.lifecycle.workPending = true := by
    rw [hl] at hready' hconn hdirty ⊢
    exact hr.pending hready' hconn hdirty
  exact ⟨hidle, hq hpending, hready', hconn, hdirty⟩

/-! ## An update -/

/-- The stack has taken the payload of the present table and light, and nothing is due. Whether it
advertises is `World.stackAdvertising`. -/
structure Given (batteryPct : Byte) (fault : Bool) (s : AppState) : Prop where
  advData : s.advData = some (PartRack.fillAdvMsd s.domain batteryPct fault)
  idle : s.world.call = none
  ready : s.world.lifecycle.ready = true
  clean : s.world.lifecycle.isAdvertisingDirty = false

/-- The rest of a call of `lifecycle_apply_advertising` that the stack accepts. -/
def accepts (batteryPct : Byte) (fault : Bool) : List AppEvent :=
  [.fillAdvMsd batteryPct fault, .stackApply 0, .applyReturn]

theorem run_accepts {s : App} {c : ApplyCall} (hcall : s.env.world.call = some c)
    (hresult : c.result = none) (hfilled : s.env.advFilled = false)
    (htarget : c.targetGeneration = s.env.world.lifecycle.advertisingGeneration)
    (hready : c.byStart = false → s.env.world.lifecycle.ready = true) (batteryPct : Byte)
    (fault : Bool) :
    ∃ t, run s (accepts batteryPct fault) = some t ∧ Given batteryPct fault t.env ∧
      t.env.world.stackAdvertising = (s.env.world.stackAdvertising || c.restart) ∧
      t.env.table = s.env.table ∧ t.env.light = s.env.light := by
  obtain ⟨byStart, restart, target, result, owed, disturbed, invalidations⟩ := c
  obtain rfl : result = none := hresult
  obtain rfl : target = _ := htarget
  obtain ⟨u, hfill, hworld, hu, hmsd, hsame⟩ : ∃ u,
      s.step (.fillAdvMsd batteryPct fault) = some u ∧ u.env.world = s.env.world ∧
        u.env.advFilled = true ∧
        u.env.advMsd = PartRack.fillAdvMsd u.env.domain batteryPct fault ∧
        u.env.table = s.env.table ∧ u.env.light = s.env.light := by
    simp only [App.step, AppState.fillAdvMsd, hcall, hfilled, and_self, if_true, Option.map_some]
    exact ⟨_, rfl, rfl, rfl, rfl, rfl, rfl⟩
  have happly : u.step (.stackApply 0) = some (u.setEnv { u.env with
      world := { s.env.world with
        call := some ⟨byStart, restart, s.env.world.lifecycle.advertisingGeneration, some 0, owed,
          disturbed, invalidations⟩
        stackAdvertising := s.env.world.stackAdvertising || restart
        restartOwed := s.env.world.restartOwed && !restart }
      advData := some u.env.advMsd }) := by
    simp [App.step, AppState.stackApply, World.stackApply, hworld, hu, hcall]
  rw [accepts, run, List.foldlM_cons, hfill, Option.bind_eq_bind, Option.bind_some,
    List.foldlM_cons, happly, hmsd]
  cases byStart with
  | true => exact ⟨_, rfl, ⟨rfl, rfl, rfl, decide_eq_false fun hne => hne rfl⟩, rfl, hsame⟩
  | false =>
    have hend := Lifecycle.processEnd_of_generation s.env.world.lifecycle
    refine ⟨_, rfl, ⟨rfl, rfl, ?_, ?_⟩, rfl, hsame⟩
    · exact (congrArg (fun r => r.1.ready) hend).trans (hready rfl)
    · refine (congrArg (fun r => r.1.isAdvertisingDirty) hend).trans ?_
      exact decide_eq_false fun hne => hne rfl

theorem Due.update {s : App} (h : Due s.env) (batteryPct : Byte) (fault : Bool) :
    ∃ t, run s (.lifecycleWork :: accepts batteryPct fault) = some t ∧
      Given batteryPct fault t.env ∧
      t.env.world.stackAdvertising =
        (s.env.world.stackAdvertising || !s.env.world.lifecycle.advertisingRunning) ∧
      t.env.table = s.env.table ∧ t.env.light = s.env.light := by
  have hbegin : s.env.world.lifecycle.processBegin =
      ({ s.env.world.lifecycle with workPending := false },
        some (!s.env.world.lifecycle.advertisingRunning,
          s.env.world.lifecycle.advertisingGeneration)) := by
    rcases s.env.world.lifecycle.processBegin_cases with ⟨heq, -⟩ | ⟨-, hclean⟩
    · exact heq
    · exact absurd ⟨h.ready, h.connected, h.dirty⟩ hclean
  obtain ⟨w, hw, hcall, hl, hstack⟩ : ∃ w, s.env.world.processCall = some w ∧
      w.call = some ⟨false, !s.env.world.lifecycle.advertisingRunning,
        s.env.world.lifecycle.advertisingGeneration, none, s.env.world.restartOwed, false, 0⟩ ∧
      w.lifecycle = { s.env.world.lifecycle with workPending := false } ∧
      w.stackAdvertising = s.env.world.stackAdvertising := by
    rw [World.processCall, if_pos h.idle, hbegin]
    exact ⟨_, rfl, rfl, rfl, rfl⟩
  have hstep : s.step .lifecycleWork =
      some (s.setEnv { s.env with world := w, advFilled := false }) := by
    simp only [App.step, bleLifecycleWorkHandler, h.queued, if_true, hw, Option.map_some]
  rw [run, List.foldlM_cons, hstep, ← hstack]
  refine run_accepts (s := s.setEnv { s.env with world := w, advFilled := false }) hcall rfl rfl ?_
    (fun _ => ?_) batteryPct fault
  · exact (congrArg Lifecycle.advertisingGeneration hl).symm
  · exact (congrArg Lifecycle.ready hl).trans h.ready

/-! ## Whether the stack advertises -/

/-- No call that succeeds returns over a connection event that came after the call had taken
effect. -/
def Undisturbed (s : App) : AppEvent → Prop
  | .applyReturn => s.env.world.CallUndisturbed .applyReturn
  | _ => True

instance (s : App) : (e : AppEvent) → Decidable (s.Undisturbed e)
  | .applyReturn => inferInstanceAs (Decidable (s.env.world.CallUndisturbed .applyReturn))
  | .bleStart | .lifecycleWork | .fillAdvMsd _ _ | .stackApply _ | .connected _ | .disconnected
  | .bindingCpWrite _ _ _ _ | .lightCommandWrite _ _ _ _ | .tableInfoRead | .lightStatusRead _
  | .offWork _ _ | .readAllWork _ | .nfcFd _ _ | .powerCycle _ _ => isTrue trivial

theorem advertisingInvariant_advertised {s : App} {env : AppState} {e : AppEvent}
    (hw : s.env.world.AdvertisingInvariant) (h : AdvertisingStep s.env e env)
    (hgood : s.Undisturbed e) : env.world.AdvertisingInvariant := by
  cases h with
  | bleStart h =>
    unfold AppState.bleStart at h
    split_ifs at h
    obtain ⟨w, hstep, rfl⟩ := Option.map_eq_some_iff.mp h
    exact hw.startCall hstep
  | lifecycleWork h =>
    unfold bleLifecycleWorkHandler at h
    split_ifs at h
    obtain ⟨w, hstep, rfl⟩ := Option.map_eq_some_iff.mp h
    exact hw.processCall hstep
  | fillAdvMsd batteryPct fault h =>
    unfold AppState.fillAdvMsd at h
    split at h
    · split_ifs at h
      obtain rfl := Option.some.inj h
      exact hw
    · exact absurd h.symm (Option.some_ne_none _)
  | stackApply err h =>
    unfold AppState.stackApply at h
    split_ifs at h
    all_goals
      obtain ⟨w, hstep, rfl⟩ := Option.map_eq_some_iff.mp h
      exact hw.stackApply hstep
  | applyReturn h =>
    obtain ⟨w, hstep, rfl⟩ := Option.map_eq_some_iff.mp h
    exact hw.applyReturn hstep hgood
  | nfcFd gatt nowMs =>
    exact hw.invalidate fun h => (Lifecycle.reportNfcFd_running _).symm.trans h

theorem advertisingInvariant_did {s t : App} {e : AppEvent} (hs : s.Invariant)
    (hw : s.env.world.AdvertisingInvariant) (hdid : Did e s t) (hgood : s.Undisturbed e) :
    t.env.world.AdvertisingInvariant := by
  cases hdid with
  | advertised hstep => exact advertisingInvariant_advertised hw hstep hgood
  | connected _ => exact hw.step (e := .connected) rfl fun he => LifecycleEvent.noConfusion he
  | disconnected _ =>
    exact hw.step (e := .disconnected) rfl fun he => LifecycleEvent.noConfusion he
  | exchanged pdus _ _ => exact hw
  | tableChanged save op pdus _ _ _ =>
    rw [reportBindingChanged_eq e.gatt (s := (mutate save op s.env).2.exchange pdus) hs.connected]
    exact hw.invalidate fun h => (Lifecycle.reportChanged_running _ _).symm.trans h
  | lightChanged change light pdus remainingS _ _ _ =>
    rw [reportLightChanged_eq e.gatt (s := (s.env.putLight light).exchange pdus) hs.connected]
    exact hw.invalidate fun h => (Lifecycle.reportChanged_running _ _).symm.trans h
  | readAllStarted _ => exact hw
  | readAllWorked hwork =>
    obtain ⟨k, -, -, heq⟩ := hs.readAllWork_cases hwork e.gatt
    rw [heq]
    split_ifs
    · exact hw
    · exact hw
  | powerCycled _ _ => exact World.advertisingInvariant_init

theorem advertisingInvariant_along {device : Device} (h : device.Synced) (outputsErr stripErr : Int)
    (commits : ℕ) (events : List AppEvent)
    (hgood : Runs.Meets step Undisturbed (boot device outputsErr stripErr commits) events) :
    Runs.Along step (fun s => s.Invariant ∧ s.env.world.AdvertisingInvariant)
      (boot device outputsErr stripErr commits) events :=
  Runs.along_of_meets (fun _ _ _ hs ht he =>
      ⟨hs.1.step ht, advertisingInvariant_did hs.1 hs.2 (step_did ht) he⟩)
    ⟨invariant_boot h _ _ _, World.advertisingInvariant_init⟩ hgood

/-! ## Recovery -/

/-- A tap of NFC that is not taken for a bounce, without a connection, or the end of one. -/
def Wakes (s : App) : AppEvent → Prop
  | .nfcFd _ nowMs => 50 ≤ nowMs - s.env.lastFdMs ∧ s.env.currentConn = false
  | .disconnected => True
  | _ => False

theorem Wakes.due {s t : App} {b : Beacon} {e : AppEvent} (he : s.Wakes e)
    (ht : s.step e = some t) (hinv : s.Invariant) (hR : Related s.env b) (hb : b.Invariant)
    (hq : s.env.world.Queued) (hready : s.env.world.lifecycle.ready = true)
    (hidle : s.env.world.call = none) (hfew : s.env.invalidations + 1 < 2 ^ 32) :
    Due t.env ∧ (t.env.table = s.env.table ∧ t.env.light = s.env.light) ∧
      (t.env.world.lifecycle.advertisingRunning = false ∨ e ≠ .disconnected ∧
        t.env.world.lifecycle.advertisingRunning = s.env.world.lifecycle.advertisingRunning ∧
        t.env.world.stackAdvertising = s.env.world.stackAdvertising) := by
  cases e with
  | nfcFd gatt nowMs =>
    obtain ⟨hlate, hconn⟩ := he
    obtain rfl := Option.some.inj ht
    have hbegin : s.env.nfcFdHandler gatt nowMs =
        { s.env with lastFdMs := nowMs }.invalidate s.env.world.lifecycle.reportNfcFd := by
      rw [nfcFdHandler, if_neg (Int.not_lt.mpr hlate)]
      exact reportNfcFd_eq gatt _
    rw [hbegin]
    refine ⟨due_of_invalidates hR hb (Lifecycle.invalidates_reportNfcFd _) rfl
      (hq.step (e := .reportNfcFd) rfl) ?_ hready ?_ hfew, ⟨rfl, rfl⟩, Or.inr ⟨?_, ?_, rfl⟩⟩
    · exact Option.map_eq_none_iff.mpr hidle
    · exact (Lifecycle.reportNfcFd_connected _).trans (hinv.connected.trans hconn)
    · exact fun he => AppEvent.noConfusion he
    · exact Lifecycle.reportNfcFd_running _
  | disconnected =>
    simp only [App.step] at ht
    split_ifs at ht
    obtain rfl := Option.some.inj ht
    refine ⟨due_of_invalidates hR hb (Lifecycle.invalidates_onDisconnected _) rfl
      (hq.step (e := .disconnected) rfl) ?_ hready ?_ hfew, ⟨rfl, rfl⟩, Or.inl ?_⟩
    · exact Option.map_eq_none_iff.mpr (Option.map_eq_none_iff.mpr hidle)
    · exact Lifecycle.onDisconnected_connected _
    · exact Lifecycle.onDisconnected_running _
  | _ => exact absurd he id

/-- Whatever has happened before, updates that have failed or have been lost included: if the
device is ready and no update is under way, then after a tap of NFC or the end of a connection
the work item is pending, and its update, if the stack accepts it, gives the stack the payload of
the present table and light and leaves nothing due. After the end of a connection the stack then
advertises it, and after a tap if no call so far has returned over a connection event. -/
theorem woken_upToDate {device : Device} (h : device.Synced) (outputsErr stripErr : Int)
    (commits : ℕ) (events : List AppEvent) (s t : App) (e : AppEvent)
    (hs : run (boot device outputsErr stripErr commits) events = some s)
    (ht : s.step e = some t) (he : s.Wakes e) (hready : s.env.world.lifecycle.ready = true)
    (hidle : s.env.world.call = none) (hfew : s.env.invalidations + 1 < 2 ^ 32)
    (batteryPct : Byte) (fault : Bool) :
    ∃ u, run t (.lifecycleWork :: accepts batteryPct fault) = some u ∧
      Given batteryPct fault u.env ∧ u.env.table = s.env.table ∧ u.env.light = s.env.light ∧
      (e = .disconnected ∨
          Runs.Meets step Undisturbed (boot device outputsErr stripErr commits) events →
        u.env.world.stackAdvertising = true) := by
  obtain ⟨b, ⟨hinv, hR⟩, hb, hq⟩ := (queued_along h outputsErr stripErr commits events).of_foldlM hs
  obtain ⟨hdue, ⟨htable, hlight⟩, hrunning⟩ :=
    he.due ht hinv hR hb (hR.world ▸ hq) hready hidle hfew
  obtain ⟨u, hu, hgiven, hstack, hutable, hulight⟩ := hdue.update batteryPct fault
  refine ⟨u, hu, hgiven, hutable.trans htable, hulight.trans hlight, fun hcause => ?_⟩
  rcases hrunning with hstopped | ⟨hne, hsame, hstackSame⟩
  · rw [hstack, hstopped, Bool.not_false, Bool.or_true]
  · rw [hstack, hsame, hstackSame]
    have hmeets := hcause.resolve_left hne
    have hadv : s.env.world.AdvertisingInvariant :=
      ((advertisingInvariant_along h outputsErr stripErr commits events hmeets).of_foldlM hs).2
    cases hflag : s.env.world.lifecycle.advertisingRunning with
    | true => rw [(hadv.running hflag).1, Bool.true_or]
    | false => rw [Bool.not_false, Bool.or_true]

/-- An update that fails, and is not tried again until the tap. -/
def failedOnce : List AppEvent :=
  [.bleStart, .fillAdvMsd 90 false, .stackApply 0, .applyReturn, .nfcFd (fun _ _ => 0) 1000,
    .lifecycleWork, .fillAdvMsd 90 false, .stackApply (-5), .applyReturn]

theorem woken_upToDate_failedOnce : ∃ s u, run (boot Device.init 0 0 0) failedOnce = some s ∧
    run s (.nfcFd (fun _ _ => 0) 2000 :: .lifecycleWork :: accepts 90 false) = some u ∧
    Given 90 false u.env ∧ u.env.world.stackAdvertising = true := by
  let summary (s : App) : Bool × Option ApplyCall × ℕ × ℤ × Bool :=
    (s.env.world.lifecycle.ready, s.env.world.call, s.env.invalidations, s.env.lastFdMs,
      s.env.currentConn)
  have hfailed : (run (boot Device.init 0 0 0) failedOnce).map summary =
    some (true, none, 1, 1000, false) := by decide
  obtain ⟨s, hs, hsummary⟩ := Option.map_eq_some_iff.mp hfailed
  simp only [summary, Prod.mk.injEq] at hsummary
  obtain ⟨hready, hidle, hcount, hlast, hconn⟩ := hsummary
  obtain ⟨u, hu, hgiven, -, -, hadvertises⟩ := woken_upToDate Device.synced_init 0 0 0 failedOnce s
    (s.setEnv (s.env.nfcFdHandler (fun _ _ => 0) 2000)) (.nfcFd (fun _ _ => 0) 2000) hs rfl
    ⟨by rw [hlast]; decide, hconn⟩ hready hidle (by rw [hcount]; decide) 90 false
  exact ⟨s, u, hs, hu, hgiven, hadvertises (Or.inr (by decide))⟩

end App
end PartRack
