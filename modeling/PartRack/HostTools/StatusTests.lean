import PartRack.DeviceHealth.Report
import PartRack.HostTools.Batch

/-! The tests of tools/ble_gatt_smoke_test.py that only look at a status: the light timeout test,
run against the firmware with whatever the device does meanwhile, and the device health test,
which passes whatever the drivers do. -/

namespace PartRack
open LightControl

/-- The work item that turns the lights off runs, and they are due. -/
def AppEvent.turnsOff (dueMs : ℤ) : AppEvent → Bool
  | .offWork _ nowMs => dueMs ≤ nowMs
  | _ => false

namespace HostTools
open AppState BindingTable Checks

/-! ## The validators -/

/-- The loop of `validate_light_timeout_off`, which goes on after an error. -/
def timeoutOffObserved : Notifications → Bool
  | [] => false
  | sample :: samples =>
    match validateLightStatus sample 0 none with
    | .ok _ => true
    | .error _ => timeoutOffObserved samples

def validateLightTimeoutOff (samples : Notifications) : Except SmokeError Unit :=
  if timeoutOffObserved samples then .ok ()
  else .error (.smokeValidationError
    ("Light Status timeout OFF was not observed; observed: " ++ observed samples))

def validateDeviceHealth (data : List Byte) : Except SmokeError Unit :=
  if data.length ≠ 4 then .error (.smokeValidationError
    ("Device Health length should be 4 bytes; got " ++ toString data.length))
  else if 100 < (data.getD 0 0).toNat then .error (.smokeValidationError
    ("Device Health battery_pct should be <= 100; got " ++ toString (data.getD 0 0).toNat))
  else .ok ()

/-! ## The scripts -/

/-- One turn of the loop of `wait_for_light_timeout_off`: when it reads, and what the device does
while it sleeps. -/
structure Poll where
  readMs : ℤ
  during : List AppEvent

/-- `wait_for_light_timeout_off`, with the turns that its deadline leaves time for. -/
def waitForLightTimeoutOff : List Poll → Client → Notifications × Client
  | [], client => ([], client)
  | poll :: polls, client =>
    let sample := client.readGattChar (.lightStatusRead poll.readMs)
    -- the loop also goes on at a status of mode 0 with seconds left, which is not off yet
    if sample.1 = [0x00, 0x00, 0x00] then ([sample.1], sample.2)
    else
      let (samples, client) := waitForLightTimeoutOff polls (sample.2.sleep poll.during)
      (sample.1 :: samples, client)

/-- What `run_light_timeout` meets on its way. -/
structure TimeoutTest where
  gatt : GattNotify
  findMs : ℤ
  afterFind : List AppEvent
  activeMs : ℤ
  polls : List Poll

/-- `run_light_timeout` up to the first look at the lights. -/
def TimeoutTest.timeoutFind (test : TimeoutTest) (vectors : BatchVectors) (client : Client) :
    Except SmokeError Client := do
  let client := client.happen
    (.lightCommandWrite test.gatt 0 vectors.lightFindSlot1Red10s test.findMs)
  let active := (client.sleep test.afterFind).readGattChar (.lightStatusRead test.activeMs)
  validateLightStatus active.1 1 (some 1)
  return active.2

def TimeoutTest.timeoutWait (test : TimeoutTest) (client : Client) : Except SmokeError Client := do
  let samples := waitForLightTimeoutOff test.polls client
  validateLightTimeoutOff samples.1
  return samples.2

/-- `run_light_timeout` on a connection. -/
def TimeoutTest.runLightTimeout (test : TimeoutTest) (app : App) : Except BatchError Client := do
  let vectors ← makeBatchVectors
  let client ← (test.timeoutFind vectors ⟨app, []⟩).mapError .smoke
  (test.timeoutWait client).mapError .smoke

/-- `run_device_health` on a connection. -/
def runDeviceHealth (adc : Option BatteryAdc) (health : HealthState) :
    Except SmokeError HealthState := do
  let read := health.deviceHealthRead adc
  validateDeviceHealth read.1
  return read.2

theorem runDeviceHealth_eq (adc : Option BatteryAdc) (health : HealthState) :
    runDeviceHealth adc health = .ok (health.deviceHealthRead adc).2 := by
  have hlen : (health.deviceHealthRead adc).1.length = 4 := rfl
  have hpct : ((health.deviceHealthRead adc).1.getD 0 0).toNat ≤ 100 := by
    change (if 100 < (health.sampleBattery adc).batteryPct.toNat then (100 : Byte)
      else (health.sampleBattery adc).batteryPct).toNat ≤ 100
    split_ifs with hlarge
    · decide
    · exact Nat.not_lt.mp hlarge
  have hvalid : validateDeviceHealth (health.deviceHealthRead adc).1 = .ok () := by
    rw [validateDeviceHealth, if_neg (not_not_intro hlen), if_neg (Nat.not_lt.mpr hpct)]
  rw [runDeviceHealth, hvalid]
  rfl

end HostTools

/-- Whatever the drivers do, at any time a read tells the percentage of the last voltage that
was measured, why the device was reset, whether the watchdog runs, and whether anything has
failed since the boot, and the device health test passes on it. -/
theorem deviceHealthRead_tells (board : HealthBoard) (adc₀ adc : Option BatteryAdc)
    (events : List HealthEvent) :
    HealthTold board ([.sample adc₀] ++ events ++ [.sample adc])
      ((events.foldl HealthEvent.act
        (HealthState.init.deviceHealthInit board adc₀).2).deviceHealthRead adc).1 ∧
    HostTools.runDeviceHealth adc (events.foldl HealthEvent.act
        (HealthState.init.deviceHealthInit board adc₀).2) =
      .ok ((events.foldl HealthEvent.act
        (HealthState.init.deviceHealthInit board adc₀).2).deviceHealthRead adc).2 :=
  ⟨healthTold_deviceHealthRead board adc₀ adc events, HostTools.runDeviceHealth_eq adc _⟩

namespace HostTools
open AppState BindingTable Checks

/-! ## The lights while the script sleeps -/

section Sleep
variable {c : Client} {row : List (Option Part)} {tableSeq : BitVec 32} {light : LightControl}
  {order : Order} {dueMs : ℤ}

theorem before_of_not_turnsOff {e : AppEvent} (h : e.turnsOff dueMs = false) :
    e.Before (some dueMs) := by
  cases e with
  | offWork gatt nowMs =>
    intro due hdue
    obtain rfl := Option.some.inj hdue
    exact Int.not_le.mp (of_decide_eq_false h)
  | _ => trivial

theorem Steady.allOff_happen (h : Steady c.app row tableSeq light)
    (hshines : Shines order dueMs light) {e : AppEvent} (he : e.turnsOff dueMs = true) :
    AllOff (c.happen e).app.env.light := by
  cases e with
  | offWork gatt nowMs =>
    have hdue : dueMs ≤ nowMs := of_decide_eq_true he
    have hlight : light.step (.expire nowMs) =
        some (offWorkHandler nowMs light.cancelOffWork) := by
      simp only [LightControl.step, hshines.offWork, if_pos hdue]
    have hstep : c.app.step (.offWork gatt nowMs) = some (c.app.setEnv
        (c.app.env.setLight gatt (offWorkHandler nowMs light.cancelOffWork))) := by
      simp only [App.step, AppState.offWorkHandler, h.light, hlight, Option.map_some]
    obtain ⟨hoff⟩ := (Obeys.on hshines).step hlight
    rw [Client.happen_of_step hstep]
    change AllOff (c.app.env.setLight gatt _).light
    rw [(setLight_eq gatt _ c.app.env).1]
    exact hoff
  | _ => exact absurd he Bool.false_ne_true

theorem Steady.sleep_shines (h : Steady c.app row tableSeq light)
    (hshines : Shines order dueMs light) {events : List AppEvent}
    (hevents : ∀ e ∈ events, e.Background) :
    if events.any (AppEvent.turnsOff dueMs) then AllOff (c.sleep events).app.env.light
    else (c.sleep events).app.env.light = light := by
  induction events generalizing c with
  | nil => exact h.light
  | cons e es ih =>
    have he := hevents e List.mem_cons_self
    have hes : ∀ e' ∈ es, e'.Background := fun e' he' => hevents e' (List.mem_cons_of_mem e he')
    have hnext := h.happen he
    rw [List.any_cons]
    cases hoff : e.turnsOff dueMs with
    | true =>
      -- once they are off, no work item is left to run
      have hdark := h.allOff_happen hshines hoff
      have hkept : Steady ((c.happen e).sleep es).app row tableSeq (c.happen e).app.env.light := by
        refine hnext.sleep_before hes fun e' _ => ?_
        rw [hdark.offWork]
        exact e'.before_none
      rw [Bool.true_or, if_pos rfl]
      change AllOff ((c.happen e).sleep es).app.env.light
      rw [hkept.light]
      exact hdark
    | false =>
      have hbefore : e.Before light.offWork := by
        rw [hshines.offWork]
        exact before_of_not_turnsOff hoff
      rw [h.light_happen he hbefore] at hnext
      rw [Bool.false_or]
      exact ih hnext hes

/-! ## The loop -/

theorem lightStatus_of_allOff (h : AllOff light) (nowMs : ℤ) :
    lightStatusBytes light.lightState.mode (light.lightState.remainingS nowMs) =
      [0x00, 0x00, 0x00] := by
  rw [h.lightState, LightState.remainingS_init]
  rfl

/-- The loop sees the lights off exactly if they go off before its last turn. -/
structure Waited (row : List (Option Part)) (tableSeq : BitVec 32) (off : Prop)
    (r : Notifications × Client) : Prop where
  observed : timeoutOffObserved r.1 = true ↔ off
  steady : Steady r.2.app row tableSeq r.2.app.env.light
  allOff : off → AllOff r.2.app.env.light

theorem waited_of_allOff (h : Steady c.app row tableSeq light) (hoff : AllOff light)
    (polls : List Poll) : Waited row tableSeq (polls ≠ []) (waitForLightTimeoutOff polls c) := by
  cases polls with
  | nil =>
    refine ⟨iff_of_false Bool.false_ne_true (not_not_intro rfl), ?_, fun hne => absurd rfl hne⟩
    rw [← h.light] at h
    exact h
  | cons poll polls =>
    obtain ⟨hread, hsample⟩ := h.readLightStatus poll.readMs
    rw [lightStatus_of_allOff hoff] at hsample
    rw [waitForLightTimeoutOff]
    dsimp only
    rw [if_pos hsample, hsample]
    refine ⟨iff_of_true rfl (List.cons_ne_nil _ _), ?_, fun _ => ?_⟩
    · rw [hread.light]
      exact hread
    · rw [hread.light]
      exact hoff

theorem Waited.congr {off off' : Prop} {r : Notifications × Client}
    (h : Waited row tableSeq off r) (hoff : off ↔ off') : Waited row tableSeq off' r :=
  ⟨h.observed.trans hoff, h.steady, fun h' => h.allOff (hoff.mpr h')⟩

theorem Waited.cons {off : Prop} {mode : Byte} {remainingS : BitVec 16} {samples : Notifications}
    (h : Waited row tableSeq off (samples, c)) (hmode : mode ≠ 0) :
    Waited row tableSeq off (lightStatusBytes mode remainingS :: samples, c) := by
  refine ⟨?_, h.steady, h.allOff⟩
  have hstatus := passesIff_lightStatus mode remainingS 0
  rw [timeoutOffObserved]
  cases hvalid : validateLightStatus (lightStatusBytes mode remainingS) 0 none with
  | ok =>
    rw [hvalid] at hstatus
    exact absurd (BitVec.eq_of_toNat_eq (hstatus.of_ok rfl).1) hmode
  | error err => exact h.observed

theorem exists_mem_dropLast_cons (P : Poll → Prop) (poll : Poll) (polls : List Poll) :
    (∃ p ∈ (poll :: polls).dropLast, P p) ↔
      polls ≠ [] ∧ (P poll ∨ ∃ p ∈ polls.dropLast, P p) := by
  cases polls with
  | nil => simp
  | cons next polls => simp

theorem waited_of_shines (h : Steady c.app row tableSeq light)
    (hshines : Shines order dueMs light) {polls : List Poll}
    (hpolls : ∀ poll ∈ polls, ∀ e ∈ poll.during, e.Background) :
    Waited row tableSeq
      (∃ poll ∈ polls.dropLast, poll.during.any (AppEvent.turnsOff dueMs) = true)
      (waitForLightTimeoutOff polls c) := by
  induction polls generalizing c with
  | nil =>
    refine ⟨iff_of_false Bool.false_ne_true (by simp), ?_, by simp⟩
    rw [← h.light] at h
    exact h
  | cons poll polls ih =>
    obtain ⟨hread, hsample⟩ := h.readLightStatus poll.readMs
    have hsleep := hread.sleep (hpolls poll List.mem_cons_self)
    have hlights := hread.sleep_shines hshines (hpolls poll List.mem_cons_self)
    have hne : lightStatusBytes light.lightState.mode (light.lightState.remainingS poll.readMs) ≠
        [0x00, 0x00, 0x00] := fun heq => hshines.mode (List.cons.inj heq).1
    have hdrop := exists_mem_dropLast_cons
      (fun p => p.during.any (AppEvent.turnsOff dueMs) = true) poll polls
    rw [waitForLightTimeoutOff]
    dsimp only
    rw [hsample, if_neg hne]
    refine Waited.cons ?_ hshines.mode
    cases hfires : poll.during.any (AppEvent.turnsOff dueMs) with
    | true =>
      -- the next turn, if there is one, sees them off
      rw [hfires, if_pos rfl] at hlights
      refine (waited_of_allOff hsleep hlights polls).congr (Iff.trans ?_ hdrop.symm)
      rw [hfires]
      exact (and_iff_left (Or.inl rfl)).symm
    | false =>
      rw [hfires, if_neg Bool.false_ne_true] at hlights
      rw [hlights] at hsleep
      refine (ih hsleep fun p hp => hpolls p (List.mem_cons_of_mem poll hp)).congr
        (Iff.trans ?_ hdrop.symm)
      rw [hfires, or_iff_right Bool.false_ne_true]
      refine (and_iff_right_of_imp ?_).symm
      rintro ⟨p, hp, -⟩ rfl
      exact absurd hp List.not_mem_nil

end Sleep

/-! ## The light timeout test -/

namespace TimeoutTest

/-- Nobody else writes to the device while the script sleeps, and the clock goes forward. -/
structure Undisturbed (test : TimeoutTest) : Prop where
  afterFind : ∀ e ∈ test.afterFind, e.Background
  polls : ∀ poll ∈ test.polls, ∀ e ∈ poll.during, e.Background
  find : 0 ≤ test.findMs
  active : test.findMs ≤ test.activeMs

def dueMs (test : TimeoutTest) : ℤ := test.findMs + 10000

/-- The lights are still on at the first look, and they go off before the last one. -/
structure InTime (test : TimeoutTest) : Prop where
  lit : test.afterFind.any (AppEvent.turnsOff test.dueMs) = false
  active : test.activeMs < test.dueMs
  off : ∃ poll ∈ test.polls.dropLast, poll.during.any (AppEvent.turnsOff test.dueMs) = true

section Stages
variable {test : TimeoutTest} {c : Client} {row : List (Option Part)} {tableSeq : BitVec 32}
  {light : LightControl}

theorem passesIff_timeoutFind (htest : test.Undisturbed) (h : Steady c.app row tableSeq light)
    {order : Option Order} (hobeys : Obeys order light) :
    PassesIff (test.afterFind.any (AppEvent.turnsOff test.dueMs) = false ∧
        test.activeMs < test.dueMs)
      (fun c' => ∃ lit, Steady c'.app row tableSeq lit ∧
        Shines (test.findMs, PartRack.LightCommand.ofBytes findSlot1) test.dueMs lit)
      (test.timeoutFind batchVectors c) := by
  have hshines := shines_findSlot1 hobeys test.findMs
  have hsent := h.lightCommand test.gatt findSlot1 test.findMs
  generalize (light.lightCommandWrite 0 findSlot1 test.findMs).2 = lit at *
  have hlights := hsent.sleep_shines hshines htest.afterFind
  have hsleep := hsent.sleep htest.afterFind
  obtain ⟨hread, hstatus⟩ := hsleep.readLightStatus test.activeMs
  have hvector : batchVectors.lightFindSlot1Red10s = findSlot1 := rfl
  unfold timeoutFind
  dsimp only
  rw [hvector, hstatus]
  change if test.afterFind.any (AppEvent.turnsOff test.dueMs) then _ else _ at hlights
  cases hfires : test.afterFind.any (AppEvent.turnsOff test.dueMs) with
  | true =>
    rw [hfires, if_pos rfl] at hlights
    rw [lightStatus_of_allOff hlights]
    exact .error fun h => Bool.noConfusion h.1
  | false =>
    rw [hfires, if_neg Bool.false_ne_true] at hlights
    rw [hlights] at hread ⊢
    have hfound := passesIff_findStatus hshines htest.find htest.active
    refine (hfound.bind fun _ _ => .pure ⟨lit, hread, hshines⟩).congr ?_
    rw [and_true, eq_self_iff_true, true_and]
    rfl

theorem passesIff_timeoutWait (htest : test.Undisturbed) (h : Steady c.app row tableSeq light)
    {order : Order} (hshines : Shines order test.dueMs light) :
    PassesIff (∃ poll ∈ test.polls.dropLast,
        poll.during.any (AppEvent.turnsOff test.dueMs) = true)
      (fun c' => Steady c'.app row tableSeq c'.app.env.light ∧ AllOff c'.app.env.light)
      (test.timeoutWait c) := by
  have hwaited := waited_of_shines h hshines htest.polls
  unfold timeoutWait
  dsimp only
  by_cases hseen : timeoutOffObserved (waitForLightTimeoutOff test.polls c).1 = true
  · have hoff := hwaited.observed.mp hseen
    rw [validateLightTimeoutOff, if_pos hseen]
    exact .ok hoff ⟨hwaited.steady, hwaited.allOff hoff⟩
  · rw [validateLightTimeoutOff, if_neg hseen]
    exact .error fun hoff => hseen (hwaited.observed.mpr hoff)

theorem passesIff_runLightTimeout {s : App} (htest : test.Undisturbed)
    (h : Steady s row tableSeq light) {order : Option Order} (hobeys : Obeys order light) :
    PassesIff test.InTime
      (fun c' => Steady c'.app row tableSeq c'.app.env.light ∧ AllOff c'.app.env.light)
      (test.runLightTimeout s) := by
  have hstart : Steady (Client.mk s []).app row tableSeq light := h
  have hfind := (passesIff_timeoutFind htest hstart hobeys).mapError BatchError.smoke
  rw [runLightTimeout, makeBatchVectors_eq]
  change PassesIff _ _ ((test.timeoutFind batchVectors ⟨s, []⟩).mapError BatchError.smoke >>= _)
  refine (hfind.bind fun c hc => ?_).congr
    ⟨fun h => ⟨h.1.1, h.1.2, h.2⟩, fun h => ⟨⟨h.lit, h.active⟩, h.off⟩⟩
  obtain ⟨lit, hlit, hshines⟩ := hc
  exact (passesIff_timeoutWait htest hlit hshines).mapError BatchError.smoke

end Stages

/-- On any device that a client is connected to, whatever its lights did before, the light timeout
test passes exactly if the lights are on at its first look and go off before its last one. It
leaves the table alone and the lights off. -/
theorem runLightTimeout_passes_iff {device : Device} (h : device.Synced)
    (hwf : WellFormed device.firmware.tableModel.records) {stripErr : Int} {commits : ℕ}
    {events : List AppEvent} (hready : ∀ e ∈ events, e.OutputsReady) {s : App}
    (hs : App.run (App.boot device 0 stripErr commits) events = some s)
    (hconn : s.env.currentConn = true) {test : TimeoutTest} (htest : test.Undisturbed) :
    ((∃ c, test.runLightTimeout s = .ok c) ↔ test.InTime) ∧
      ∀ c, test.runLightTimeout s = .ok c →
        c.app.env.table = s.env.table ∧ AllOff c.app.env.light := by
  obtain ⟨o, row, hsteady, -⟩ := Surroundings.steady_of_run h hwf hs hconn
  have hobeys := App.obeys_run (App.invariant_boot h _ _ _)
    (.off (allOff_lightControlInit stripErr)) hready hs
  have hpasses := passesIff_runLightTimeout htest hsteady hobeys
  refine ⟨hpasses.exists_ok_iff, fun c hc => ?_⟩
  obtain ⟨-, hdone, hoff⟩ := hpasses.of_ok hc
  have hstart : Steady (Client.mk s []).app (o :: row) s.env.table.tableSeq s.env.light := hsteady
  exact ⟨hdone.records_eq.trans hstart.records_eq.symm, hoff⟩

/-- The work item runs at its time, between two turns of the loop. -/
def prompt : TimeoutTest where
  gatt := fun _ _ => 0
  findMs := 1000
  afterFind := []
  activeMs := 1200
  polls := [⟨10900, [.offWork (fun _ _ => 0) 11000]⟩, ⟨11150, []⟩]

theorem runLightTimeout_passes_iff_prompt : ∃ c, prompt.runLightTimeout App.connectedOnce = .ok c ∧
    AllOff c.app.env.light := by
  have hrun : App.run (App.boot Device.init 0 0 0) [.connected 0] = some App.connectedOnce := rfl
  have hready : ∀ e ∈ [AppEvent.connected 0], e.OutputsReady :=
    List.forall_mem_singleton.mpr trivial
  have htest : prompt.Undisturbed := by
    refine ⟨fun e he => absurd he List.not_mem_nil, ?_, by decide, by decide⟩
    refine List.forall_mem_cons.mpr ⟨List.forall_mem_singleton.mpr trivial, ?_⟩
    exact List.forall_mem_singleton.mpr fun e he => absurd he List.not_mem_nil
  have hinTime : prompt.InTime := ⟨rfl, by decide, _, List.mem_cons_self, rfl⟩
  obtain ⟨hiff, hleft⟩ := runLightTimeout_passes_iff Device.synced_init wellFormed_emptyRecords
    hready hrun rfl htest
  obtain ⟨c, hc⟩ := hiff.mpr hinTime
  exact ⟨c, hc, (hleft c hc).2⟩

end TimeoutTest

end HostTools
end PartRack
