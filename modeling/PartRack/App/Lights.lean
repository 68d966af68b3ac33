import PartRack.App.Updates
import PartRack.Light.Expiry
import PartRack.Light.InForce

/-! The lights over the life of a device: they show the command in force and nothing else,
whoever is connected and whatever happens to the table. The handlers of the lights are steps
here, of which neither is switched out inside the LED driver (`LightSystem` tells what happens if
one is), and the outputs are configured successfully at every start. -/

namespace PartRack
open LightControl

theorem LightControl.Shines.toNat_remainingS {order : Order} {dueMs : ℤ} {s : LightControl}
    (h : Shines order dueMs s) (hnonneg : 0 ≤ order.1) {nowMs : ℤ} (hnow : order.1 ≤ nowMs) :
    ((s.lightState.remainingS nowMs).toNat : ℤ) =
      ⌈((max 0 (dueMs - nowMs) : ℤ) : ℚ) / 1000⌉ := by
  obtain ⟨hmin, hmax⟩ := h.timeout
  have hexpires : s.lightState.expiresAtMs = dueMs := congrArg LightState.expiresAtMs h.lightState
  have hactive : s.lightState.isActive = true := by
    have hne : s.lightState.expiresAtMs ≠ 0 := by
      rw [hexpires]
      omega
    rw [LightState.isActive, decide_eq_true h.mode, decide_eq_true hne]
    rfl
  rw [← hexpires]
  exact LightState.toNat_remainingS hactive (by rw [hexpires]; omega)

/-- The event of the lights that an event is. -/
def AppEvent.light : AppEvent → Option LightControl.Event
  | .lightCommandWrite _ offset buf nowMs => some (.write offset buf nowMs)
  | .offWork _ nowMs => some (.expire nowMs)
  | _ => none

/-- The order in force after an event; a power cycle ends it. -/
def AppEvent.order (order : Option Order) : AppEvent → Option Order
  | .powerCycle _ _ => none
  | e => match e.light with
    | some l => l.next order
    | none => order

/-- The outputs can be configured when the device starts. -/
def AppEvent.OutputsReady : AppEvent → Prop
  | .powerCycle outputsErr _ => outputsErr = 0
  | _ => True

namespace App
open AppState

/-- The last command that turned the lights on, if nothing has ended it since. -/
def inForce (events : List AppEvent) : Option Order := events.foldl AppEvent.order none

section Step
variable {s t : App}

theorem light_and_conn_of_write (save : SettingsSaveOne) (gatt : GattNotify) (offset : ℕ)
    (frame : List Byte) {t : App}
    (ht : t = ((s.setEnv (s.env.push (.write .bindingCp offset frame))).bindingCpWrite save gatt
      offset frame).2) :
    t.env.light = s.env.light ∧ t.env.currentConn = s.env.currentConn := by
  subst ht
  by_cases hlen : offset ≠ 0 ∨ frame.length < 1
  · rw [bindingCpWrite, if_pos hlen]
    exact ⟨rfl, rfl⟩
  obtain ⟨hoffset, hne⟩ := not_or.mp hlen
  rw [not_not] at hoffset
  subst hoffset
  cases frame with
  | nil => exact absurd Nat.zero_lt_one hne
  | cons code args =>
    by_cases hcode : code = BindingOp.readAll.code
    · subst hcode
      rw [bindingCpWrite, if_neg hlen]
      cases args with
      | nil => exact ⟨rfl, rfl⟩
      | cons b args =>
        obtain ⟨pdus, heq, -⟩ := notifyBindingResult_snd gatt BindingOp.readAll.code
          (statusFromErrno (-Errno.EINVAL)) []
          (s.env.push (.write .bindingCp 0 (BindingOp.readAll.code :: b :: args)))
        exact ⟨congrArg (fun env => env.light) heq, congrArg (fun env => env.currentConn) heq⟩
    · rw [write_eq_dispatch hcode]
      rcases dispatch_cases save gatt args hcode
        (s.env.exchange [.write .bindingCp 0 (code :: args)]) with
        ⟨pdus, -, heq⟩ | ⟨op, pdus, -, -, heq⟩
      · rw [heq]
        exact ⟨rfl, rfl⟩
      · rw [heq, reportBindingChanged]
        obtain ⟨later, hlater⟩ := report_eq_exchange gatt _
          ((mutate save op (s.env.exchange [.write .bindingCp 0 (code :: args)])).2.exchange pdus)
        rw [hlater]
        exact ⟨rfl, rfl⟩

theorem light_of_step (hs : s.Invariant) {e : AppEvent} (h : e.light = none)
    (hpower : ∀ outputsErr stripErr, e ≠ .powerCycle outputsErr stripErr)
    (ht : s.step e = some t) : t.env.light = s.env.light := by
  cases e with
  | bleStart =>
    obtain ⟨env, henv, rfl⟩ := Option.map_eq_some_iff.mp ht
    exact (AdvertisingStep.bleStart henv).sameData.light
  | lifecycleWork =>
    obtain ⟨env, henv, rfl⟩ := Option.map_eq_some_iff.mp ht
    exact (AdvertisingStep.lifecycleWork henv).sameData.light
  | fillAdvMsd batteryPct fault =>
    obtain ⟨env, henv, rfl⟩ := Option.map_eq_some_iff.mp ht
    exact (AdvertisingStep.fillAdvMsd _ _ henv).sameData.light
  | stackApply err =>
    obtain ⟨env, henv, rfl⟩ := Option.map_eq_some_iff.mp ht
    exact (AdvertisingStep.stackApply _ henv).sameData.light
  | applyReturn =>
    obtain ⟨env, henv, rfl⟩ := Option.map_eq_some_iff.mp ht
    exact (AdvertisingStep.applyReturn henv).sameData.light
  | nfcFd gatt nowMs =>
    obtain rfl := Option.some.inj ht
    show (s.env.nfcFdHandler gatt nowMs).light = s.env.light
    unfold nfcFdHandler
    split_ifs
    · rfl
    · rw [reportNfcFd_eq]
      rfl
  | bindingCpWrite save gatt offset frame =>
    simp only [step, whileConnected] at ht
    split_ifs at ht
    obtain rfl := Option.some.inj ht
    exact (light_and_conn_of_write save gatt offset frame rfl).1
  | readAllWork gatt =>
    simp only [step] at ht
    split_ifs at ht with hwork
    obtain rfl := Option.some.inj ht
    obtain ⟨k, -, -, heq⟩ := hs.readAllWork_cases hwork gatt
    rw [heq]
    split_ifs <;> rfl
  | connected err =>
    simp only [step, App.connected] at ht
    split_ifs at ht
    all_goals
      obtain rfl := Option.some.inj ht
      rfl
  | disconnected =>
    simp only [step] at ht
    split_ifs at ht
    obtain rfl := Option.some.inj ht
    rfl
  | tableInfoRead =>
    simp only [step, whileConnected] at ht
    split_ifs at ht
    obtain rfl := Option.some.inj ht
    rfl
  | lightStatusRead nowMs =>
    simp only [step, whileConnected] at ht
    split_ifs at ht
    obtain rfl := Option.some.inj ht
    rfl
  | lightCommandWrite gatt offset buf nowMs => exact absurd h (Option.some_ne_none _)
  | offWork gatt nowMs => exact absurd h (Option.some_ne_none _)
  | powerCycle outputsErr stripErr => exact absurd rfl (hpower outputsErr stripErr)

theorem obeys_step (hs : s.Invariant) {order : Option Order} (h : Obeys order s.env.light)
    {e : AppEvent} (hready : e.OutputsReady) (ht : s.step e = some t) :
    Obeys (e.order order) t.env.light := by
  cases hlight : e.light with
  | none =>
    by_cases hpower : ∃ outputsErr stripErr, e = .powerCycle outputsErr stripErr
    · obtain ⟨outputsErr, stripErr, rfl⟩ := hpower
      obtain rfl := Option.some.inj ht
      obtain rfl : outputsErr = 0 := hready
      exact .off (allOff_lightControlInit stripErr)
    · have hne : ∀ outputsErr stripErr, e ≠ .powerCycle outputsErr stripErr :=
        fun outputsErr stripErr heq => hpower ⟨outputsErr, stripErr, heq⟩
      have horder : e.order order = order := by
        unfold AppEvent.order
        split
        · exact absurd rfl (hne _ _)
        · rw [hlight]
      rw [light_of_step hs hlight hne ht, horder]
      exact h
  | some l =>
    cases e with
    | lightCommandWrite gatt offset buf nowMs =>
      simp only [step, whileConnected] at ht
      split_ifs at ht
      obtain rfl := Option.some.inj ht
      change Obeys (Event.next order (.write offset buf nowMs))
        ((s.env.push (.write .lightCommand offset buf)).setLight gatt _).light
      rw [(setLight_eq gatt _ _).1]
      exact h.step rfl
    | offWork gatt nowMs =>
      obtain ⟨env, henv, rfl⟩ := Option.map_eq_some_iff.mp ht
      obtain ⟨light, hstep, rfl⟩ := Option.map_eq_some_iff.mp henv
      change Obeys (Event.next order (.expire nowMs)) (s.env.setLight gatt light).light
      rw [(setLight_eq gatt light s.env).1]
      exact h.step hstep
    | _ => exact absurd hlight.symm (Option.some_ne_none _)

/-- What the device does about its lights, with this order in force: the work item that turns
them off runs once the time is up and not before, and Light Status tells the mode and the
seconds that are left. -/
inductive Lights (s : App) : Option Order → Prop
  | off (h : AllOff s.env.light) (work : ∀ gatt nowMs, s.step (.offWork gatt nowMs) = none)
      (status : ∀ nowMs, lightStatusBytes s.env.light.lightState.mode
        (s.env.light.lightState.remainingS nowMs) = [0, 0, 0]) : Lights s none
  | on {order : Order} {dueMs : ℤ} (h : Shines order dueMs s.env.light)
      (work : ∀ gatt nowMs, (s.step (.offWork gatt nowMs)).isSome = true ↔ dueMs ≤ nowMs)
      (mode : s.env.light.lightState.mode = order.2.mode)
      (status : 0 ≤ order.1 → ∀ nowMs, order.1 ≤ nowMs →
        ((s.env.light.lightState.remainingS nowMs).toNat : ℤ) =
          ⌈((max 0 (dueMs - nowMs) : ℤ) : ℚ) / 1000⌉) : Lights s (some order)

theorem lights_of_obeys {order : Option Order} (h : Obeys order s.env.light) :
    s.Lights order := by
  cases h with
  | off h =>
    refine .off h (fun gatt nowMs => ?_) fun nowMs => ?_
    · simp only [step, AppState.offWorkHandler, LightControl.step, h.offWork, Option.map_none]
    · rw [h.lightState, LightState.remainingS_init]
      rfl
  | @on order dueMs _ h =>
    refine .on h (fun gatt nowMs => ?_) (congrArg LightState.mode h.lightState) ?_
    · simp only [step, AppState.offWorkHandler, LightControl.step, h.offWork]
      split_ifs with hdue
      · rw [Option.map_some, Option.map_some]
        exact iff_of_true rfl hdue
      · rw [Option.map_none, Option.map_none]
        exact iff_of_false Bool.false_ne_true hdue
    · exact fun hnonneg nowMs hnow => h.toNat_remainingS hnonneg hnow

end Step

theorem obeys_run {s t : App} (hs : s.Invariant) {order : Option Order}
    (h : Obeys order s.env.light) {events : List AppEvent}
    (hready : ∀ e ∈ events, e.OutputsReady) (ht : run s events = some t) :
    Obeys (events.foldl AppEvent.order order) t.env.light := by
  induction events generalizing s order with
  | nil =>
    obtain rfl := Option.some.inj ht
    exact h
  | cons e es ih =>
    obtain ⟨u, hu, hrest⟩ := Option.bind_eq_some_iff.mp ht
    exact ih (hs.step hu) (obeys_step hs h (hready e List.mem_cons_self) hu)
      (fun e' he' => hready e' (List.mem_cons_of_mem e he')) hrest

/-- With the outputs configured at every start, and each handler run to its end before the next,
the strip, the power, the pending work item and the Light Status are those of the last command
that turned the lights on, or all off when a command or its timeout or a power cycle has ended
it. -/
theorem lights_in_force {device : Device} (h : device.Synced) (stripErr : Int) (commits : ℕ)
    (events : List AppEvent) (hready : ∀ e ∈ events, e.OutputsReady) (s : App)
    (hs : run (boot device 0 stripErr commits) events = some s) :
    s.Lights (inForce events) := by
  exact lights_of_obeys (obeys_run (invariant_boot h _ _ _) (.off (allOff_lightControlInit stripErr))
    hready hs)

theorem lights_in_force_find : ∃ s, run (boot Device.init 0 0 0)
    [.connected 0, .lightCommandWrite (fun _ _ => 0) 0 findSlot1 500, .disconnected] = some s ∧
      s.Lights (some (500, LightCommand.ofBytes findSlot1)) := by
  have hsome : (run (boot Device.init 0 0 0) [.connected 0,
    .lightCommandWrite (fun _ _ => 0) 0 findSlot1 500, .disconnected]).isSome = true := by decide
  obtain ⟨s, hs⟩ := Option.isSome_iff_exists.mp hsome
  have hready : ∀ e ∈ [AppEvent.connected 0, .lightCommandWrite (fun _ _ => 0) 0 findSlot1 500,
      .disconnected], e.OutputsReady :=
    List.forall_mem_cons.mpr ⟨trivial,
      List.forall_mem_cons.mpr ⟨trivial, List.forall_mem_singleton.mpr trivial⟩⟩
  exact ⟨s, hs, lights_in_force Device.synced_init 0 0 _ hready s hs⟩

end App
end PartRack
