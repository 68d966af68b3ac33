import Mathlib.Data.List.Basic
import PartRack.Light.Model

/-! The lights of the rack (firmware/nrf52/app/src/light_control.c) and the callback that
takes their commands. `off_work` is a delayable work item: scheduling it has no effect
while it is pending, cancelling it takes it off the queue, and once due it runs. The two
places that call the LED driver are cut in two at that call. -/

namespace PartRack

/-- The static variables of light_control.c, and what they drive. `stripPixels` is the
buffer of the LED driver, `shown` what it has last sent to the strip, `power` the power
of the strip, `offWork` the time a pending work item is due; `reports` holds the calls of
`app_ble_report_light_changed`. -/
structure LightControl where
  lightOutputsReady : Bool
  ledStripReady : Bool
  lightState : LightState
  activeFrame : LightFrame
  activePixels : Pixels
  stripPixels : Pixels
  shown : Pixels
  power : Bool
  offWork : Option ℤ
  reports : List (Byte × BitVec 16)
deriving DecidableEq, Repr

namespace LightControl

def blackPixels : Pixels := Vector.replicate 25 Rgb.black

def setLightState (lightState : LightState) (s : LightControl) : LightControl :=
  { s with lightState := lightState }

def setLightOutputs (powerOn : Bool) (s : LightControl) : LightControl :=
  if s.lightOutputsReady = false then s else { s with power := powerOn }

/-- `show_active_pixels` up to its call of the driver, which is only made if the strip is
ready. -/
def showBegin (s : LightControl) : Bool × LightControl :=
  if s.ledStripReady = false then (false, s)
  else (true, { s with stripPixels := s.activePixels })

/-- The driver sends its buffer. -/
def ledStripUpdateRgb (s : LightControl) : LightControl := { s with shown := s.stripPixels }

/-- Through the call of the driver, if it is made. -/
def callDriver (r : Bool × LightControl) : LightControl :=
  if r.1 then ledStripUpdateRgb r.2 else r.2

/-- `drive_leds_off` up to the call of the driver. -/
def driveLedsOffBegin (s : LightControl) : Bool × LightControl :=
  showBegin { s with activeFrame := LightFrame.zero, activePixels := blackPixels }

def driveLedsOff (s : LightControl) : LightControl :=
  setLightOutputs false (callDriver s.driveLedsOffBegin)

/-- `drive_leds_command` up to the call of the driver. -/
def driveLedsCommandBegin (command : LightCommand) (s : LightControl) : Bool × LightControl :=
  let frame := LightFrame.build command
  match frame.copyPixels s.activePixels with
  | .error _ => (false, { s with activeFrame := frame })
  | .ok (pixels, _) =>
    showBegin (setLightOutputs true { s with activeFrame := frame, activePixels := pixels })

def reportLightChanged (nowMs : ℤ) (s : LightControl) : LightControl :=
  { s with reports := s.reports ++ [(s.lightState.mode, s.lightState.remainingS nowMs)] }

/-- `off_work_handler` up to the call of the driver, and from there on. -/
def offWorkBegin (s : LightControl) : Bool × LightControl :=
  driveLedsOffBegin (s.setLightState s.lightState.forceOff)

def offWorkEnd (nowMs : ℤ) (s : LightControl) : LightControl :=
  reportLightChanged nowMs (setLightOutputs false s)

def offWorkHandler (nowMs : ℤ) (s : LightControl) : LightControl :=
  offWorkEnd nowMs (callDriver s.offWorkBegin)

def cancelOffWork (s : LightControl) : LightControl := { s with offWork := none }

def scheduleOffWork (dueMs : ℤ) (s : LightControl) : LightControl :=
  match s.offWork with
  | some _ => s
  | none => { s with offWork := some dueMs }

/-- `light_control_init`, from the results of the two configuration functions. -/
def lightControlInit (outputsErr stripErr : Int) : LightControl :=
  driveLedsOff ⟨decide (outputsErr = 0), decide (stripErr = 0), LightState.init, LightFrame.zero,
    blackPixels, blackPixels, blackPixels, false, none, []⟩

/-- `light_control_apply` up to the call of the driver, if the command is accepted. -/
def applyBegin (command : LightCommand) (nowMs : ℤ) (s : LightControl) :
    Except Int (LightPolicy × Bool × LightControl) :=
  match s.lightState.apply command nowMs with
  | .error err => .error err
  | .ok (lightState, policy) =>
    let s := (s.setLightState lightState).cancelOffWork
    .ok (policy, if policy.powerOn = false then s.offWorkBegin else s.driveLedsCommandBegin command)

def applyEnd (policy : LightPolicy) (nowMs : ℤ) (s : LightControl) : LightControl :=
  if policy.powerOn = false then s.offWorkEnd nowMs
  else (s.reportLightChanged nowMs).scheduleOffWork (nowMs + policy.timeoutS.toNat * 1000)

def apply (command : LightCommand) (nowMs : ℤ) (s : LightControl) : Int × LightControl :=
  match s.applyBegin command nowMs with
  | .error err => (err, s)
  | .ok (policy, called) => (0, applyEnd policy nowMs (callDriver called))

/-- `light_command_write`; the result is the number of bytes taken, `none` for an invalid
attribute length. -/
def lightCommandWrite (offset : ℕ) (buf : List Byte) (nowMs : ℤ) (s : LightControl) :
    Option ℕ × LightControl :=
  if offset ≠ 0 ∨ buf.length ≠ 17 then (none, s)
  else (some buf.length, (s.apply (LightCommand.ofBytes buf) nowMs).2)

inductive Event
  | write (offset : ℕ) (buf : List Byte) (nowMs : ℤ)
  | expire (nowMs : ℤ)
deriving DecidableEq, Repr

/-- Each event is handled to its end. The work item runs once it is due. -/
def step (s : LightControl) : Event → Option LightControl
  | .write offset buf nowMs => some (s.lightCommandWrite offset buf nowMs).2
  | .expire nowMs =>
    match s.offWork with
    | some dueMs => if dueMs ≤ nowMs then some (offWorkHandler nowMs s.cancelOffWork) else none
    | none => none

def run (s : LightControl) (events : List Event) : Option LightControl := events.foldlM step s

/-! ## What each function leaves -/

theorem showBegin_eq (s : LightControl) : s.showBegin = (s.ledStripReady,
    { s with stripPixels := if s.ledStripReady then s.activePixels else s.stripPixels }) := by
  obtain ⟨-, ledStripReady, -, -, -, -, -, -, -, -⟩ := s
  cases ledStripReady <;> rfl

theorem setLightOutputs_of_ready {s : LightControl} (h : s.lightOutputsReady = true)
    (powerOn : Bool) : setLightOutputs powerOn s = { s with power := powerOn } := by
  rw [setLightOutputs, if_neg (by simp [h])]

theorem offWorkBegin_eq (s : LightControl) : s.offWorkBegin = (s.ledStripReady,
    { s with
      lightState := LightState.init
      activeFrame := LightFrame.zero
      activePixels := blackPixels
      stripPixels := if s.ledStripReady then blackPixels else s.stripPixels }) := by
  rw [offWorkBegin, driveLedsOffBegin, showBegin_eq]
  rfl

theorem driveLedsCommandBegin_eq {s : LightControl} (h : s.lightOutputsReady = true)
    (command : LightCommand) : s.driveLedsCommandBegin command = (s.ledStripReady,
      { s with
        activeFrame := LightFrame.build command
        activePixels := (LightFrame.build command).slots
        power := true
        stripPixels :=
          if s.ledStripReady then (LightFrame.build command).slots else s.stripPixels }) := by
  obtain ⟨active, hcopy⟩ := (LightFrame.build command).copyPixels_eq s.activePixels
  simp only [driveLedsCommandBegin, hcopy]
  rw [setLightOutputs_of_ready, showBegin_eq]
  exact h

theorem callDriver_eq (called : Bool) (s : LightControl) : callDriver (called, s) =
    { s with shown := if called then s.stripPixels else s.shown } := by
  cases called <;> rfl

theorem offWorkEnd_eq {s : LightControl} (h : s.lightOutputsReady = true) (nowMs : ℤ) :
    s.offWorkEnd nowMs = { s with
      power := false
      reports := s.reports ++ [(s.lightState.mode, s.lightState.remainingS nowMs)] } := by
  rw [offWorkEnd, setLightOutputs_of_ready h]
  rfl

theorem applyBegin_of_error {s : LightControl} {command : LightCommand} {err : Int}
    (h : LightPolicy.resolve command = .error err) (nowMs : ℤ) :
    s.applyBegin command nowMs = .error err := by
  simp only [applyBegin, LightState.apply, h]

theorem applyBegin_of_off {s : LightControl} {command : LightCommand} {policy : LightPolicy}
    (h : LightPolicy.resolve command = .ok policy) (hoff : policy.powerOn = false) (nowMs : ℤ) :
    s.applyBegin command nowMs = .ok (policy,
      (s.setLightState LightState.init).cancelOffWork.offWorkBegin) := by
  simp only [applyBegin, LightState.apply, h, hoff, if_true]
  rfl

theorem applyBegin_of_on {s : LightControl} {command : LightCommand} {policy : LightPolicy}
    (h : LightPolicy.resolve command = .ok policy) (hon : policy.powerOn = true) (nowMs : ℤ) :
    s.applyBegin command nowMs = .ok (policy, (s.setLightState
      ⟨policy.mode, nowMs + policy.timeoutS.toNat * 1000⟩).cancelOffWork.driveLedsCommandBegin
        command) := by
  simp only [applyBegin, LightState.apply, h, hon, Bool.true_eq_false, if_false]

/-- The lights are off, and no work item is pending. -/
structure Dark (s : LightControl) : Prop where
  ready : s.lightOutputsReady = true
  mode : s.lightState.mode = LightMode.off
  power : s.power = false
  offWork : s.offWork = none

/-- The lights are on, with a work item due at `dueMs`. -/
structure Lit (s : LightControl) (dueMs : ℤ) : Prop where
  ready : s.lightOutputsReady = true
  mode : s.lightState.mode ≠ LightMode.off
  power : s.power = true
  offWork : s.offWork = some dueMs

theorem dark_offWorkHandler {s : LightControl} (h : s.lightOutputsReady = true)
    (hcancelled : s.offWork = none) (nowMs : ℤ) : Dark (offWorkHandler nowMs s) := by
  rw [offWorkHandler, offWorkBegin_eq, callDriver_eq, offWorkEnd_eq]
  · exact ⟨h, rfl, rfl, hcancelled⟩
  · exact h

theorem dark_lightControlInit (stripErr : Int) : Dark (lightControlInit 0 stripErr) := by
  rw [lightControlInit, driveLedsOff, driveLedsOffBegin, showBegin_eq, callDriver_eq,
    setLightOutputs_of_ready]
  · exact ⟨rfl, rfl, rfl, rfl⟩
  · rfl

theorem apply_cases {s : LightControl} (h : s.lightOutputsReady = true) (command : LightCommand)
    (nowMs : ℤ) :
    (∃ err, LightPolicy.resolve command = .error err ∧ (s.apply command nowMs).2 = s) ∨
    (∃ policy, LightPolicy.resolve command = .ok policy ∧ policy.powerOn = false ∧
      Dark (s.apply command nowMs).2) ∨
    (∃ policy, LightPolicy.resolve command = .ok policy ∧ policy.powerOn = true ∧
      Lit (s.apply command nowMs).2 (nowMs + policy.timeoutS.toNat * 1000)) := by
  cases hresolve : LightPolicy.resolve command with
  | error err =>
    refine Or.inl ⟨err, rfl, ?_⟩
    rw [apply, applyBegin_of_error hresolve]
  | ok policy =>
    refine Or.inr ?_
    cases hpower : policy.powerOn with
    | false =>
      refine Or.inl ⟨policy, rfl, hpower, ?_⟩
      rw [apply, applyBegin_of_off hresolve hpower]
      show Dark (applyEnd policy nowMs _)
      rw [applyEnd, if_pos hpower]
      exact dark_offWorkHandler (s := (s.setLightState LightState.init).cancelOffWork) h rfl nowMs
    | true =>
      have hmode : policy.mode ≠ LightMode.off :=
        (LightPolicy.granted_of_resolve hresolve).1.mode_ne_off hpower
      refine Or.inr ⟨policy, rfl, hpower, ?_⟩
      rw [apply, applyBegin_of_on hresolve hpower]
      show Lit (applyEnd policy nowMs _) _
      rw [applyEnd, if_neg (by simp [hpower]), driveLedsCommandBegin_eq, callDriver_eq]
      · exact ⟨h, hmode, rfl, rfl⟩
      · exact h

/-! ## Runs -/

/-- The time and the policy of an accepted command that turns the lights on. -/
def Event.turnsOn : Event → Option (ℤ × LightPolicy)
  | .write offset buf nowMs =>
    if offset ≠ 0 ∨ buf.length ≠ 17 then none
    else
      match LightPolicy.resolve (LightCommand.ofBytes buf) with
      | .ok policy => if policy.powerOn then some (nowMs, policy) else none
      | .error _ => none
  | .expire _ => none

/-- The last accepted command that turned the lights on. -/
def lastOn (events : List Event) : Option (ℤ × LightPolicy) :=
  (events.filterMap Event.turnsOn).getLast?

theorem lastOn_append (events : List Event) (e : Event) :
    lastOn (events ++ [e]) = e.turnsOn.or (lastOn events) := by
  rw [lastOn, List.filterMap_append]
  cases he : e.turnsOn with
  | none => simp [he, lastOn]
  | some p => simp [he]

theorem run_append (s : LightControl) (events : List Event) (e : Event) :
    run s (events ++ [e]) = (run s events).bind fun t => t.step e := by
  simp [run, List.foldlM_append]

/-- An event turns the lights on, or leaves everything as it is, or turns them off. -/
theorem step_cases {s t : LightControl} (h : s.lightOutputsReady = true) {e : Event}
    (ht : s.step e = some t) :
    (∃ nowMs policy, e.turnsOn = some (nowMs, policy) ∧ policy.Granted ∧ policy.powerOn = true ∧
      Lit t (nowMs + policy.timeoutS.toNat * 1000)) ∨
    (e.turnsOn = none ∧ (t = s ∨ Dark t)) := by
  cases e with
  | write offset buf nowMs =>
    obtain rfl := Option.some.inj ht
    simp only [lightCommandWrite, Event.turnsOn]
    by_cases hlen : offset ≠ 0 ∨ buf.length ≠ 17
    · rw [if_pos hlen, if_pos hlen]
      exact Or.inr ⟨rfl, Or.inl rfl⟩
    · rw [if_neg hlen, if_neg hlen]
      rcases apply_cases h (LightCommand.ofBytes buf) nowMs with
        ⟨err, hresolve, hsame⟩ | ⟨policy, hresolve, hpower, hdark⟩ |
          ⟨policy, hresolve, hpower, hlit⟩
      · rw [hresolve]
        exact Or.inr ⟨rfl, Or.inl hsame⟩
      · rw [hresolve]
        exact Or.inr ⟨if_neg (by simp [hpower]), Or.inr hdark⟩
      · rw [hresolve]
        exact Or.inl ⟨nowMs, policy, if_pos hpower, (LightPolicy.granted_of_resolve hresolve).1,
          hpower, hlit⟩
  | expire nowMs =>
    right
    refine ⟨rfl, Or.inr ?_⟩
    unfold step at ht
    cases hwork : s.offWork with
    | none =>
      rw [hwork] at ht
      exact absurd ht.symm (Option.some_ne_none _)
    | some dueMs =>
      simp only [hwork] at ht
      split_ifs at ht
      obtain rfl := Option.some.inj ht
      exact dark_offWorkHandler (s := s.cancelOffWork) h rfl nowMs

/-- The lights are off, or on until the timeout of the last command that turned them on. -/
inductive Timed (on : Option (ℤ × LightPolicy)) (s : LightControl) : Prop
  | dark (dark : Dark s)
  | lit {nowMs : ℤ} {policy : LightPolicy} (last : on = some (nowMs, policy))
      (granted : policy.Granted) (powerOn : policy.powerOn = true)
      (lit : Lit s (nowMs + policy.timeoutS.toNat * 1000))

theorem Timed.ready {on : Option (ℤ × LightPolicy)} {s : LightControl} (h : Timed on s) :
    s.lightOutputsReady = true := by
  cases h with
  | dark dark => exact dark.ready
  | lit _ _ _ lit => exact lit.ready

theorem Timed.step {on : Option (ℤ × LightPolicy)} {s t : LightControl} (h : Timed on s)
    {e : Event} (ht : s.step e = some t) : Timed (e.turnsOn.or on) t := by
  rcases step_cases h.ready ht with ⟨nowMs, policy, hon, hgranted, hpower, hlit⟩ | ⟨hoff, hcase⟩
  · exact .lit (by rw [hon, Option.some_or]) hgranted hpower hlit
  · rw [hoff, Option.none_or]
    rcases hcase with rfl | hdark
    · exact h
    · exact .dark hdark

theorem timed_run (stripErr : Int) (events : List Event) {s : LightControl}
    (hs : run (lightControlInit 0 stripErr) events = some s) : Timed (lastOn events) s := by
  induction events using List.reverseRecOn generalizing s with
  | nil =>
    obtain rfl := Option.some.inj hs
    exact .dark (dark_lightControlInit stripErr)
  | append_singleton events e ih =>
    rw [run_append] at hs
    obtain ⟨t, ht, hstep⟩ := Option.bind_eq_some_iff.mp hs
    rw [lastOn_append]
    exact (ih ht).step hstep

theorem step_write_of_invalid (s : LightControl) {buf : List Byte}
    (hmode : 5 < (LightCommand.ofBytes buf).mode.toNat) (offset : ℕ) (nowMs : ℤ) :
    s.step (.write offset buf nowMs) = some s := by
  have happly : (s.apply (LightCommand.ofBytes buf) nowMs).2 = s := by
    rw [apply, applyBegin_of_error (LightPolicy.resolve_of_invalid hmode)]
  show some (s.lightCommandWrite offset buf nowMs).2 = some s
  unfold lightCommandWrite
  split_ifs
  · rfl
  · rw [happly]

theorem Lit.step_expire {s : LightControl} {dueMs nowMs : ℤ} (h : Lit s dueMs)
    (hnow : dueMs ≤ nowMs) : ∃ t, s.step (.expire nowMs) = some t ∧ Dark t := by
  refine ⟨offWorkHandler nowMs s.cancelOffWork, ?_,
    dark_offWorkHandler (s := s.cancelOffWork) h.ready rfl nowMs⟩
  simp only [step, h.offWork, hnow, if_true]

/-- In every run the mode, the work item and the power agree. The work item is due when the
timeout of the last accepted command that turned the lights on has passed, and then turns
them off. A command with an invalid mode changes nothing. -/
theorem lights_time_out (stripErr : Int) (events : List Event) (s : LightControl)
    (hs : run (lightControlInit 0 stripErr) events = some s) :
    (s.lightState.mode ≠ LightMode.off ↔ s.offWork ≠ none) ∧
    (s.offWork ≠ none ↔ s.power = true) ∧
    (∀ dueMs, s.offWork = some dueMs →
      (∃ nowMs policy, lastOn events = some (nowMs, policy) ∧
        dueMs ≤ nowMs + policy.timeoutS.toNat * 1000 ∧
        1 ≤ policy.timeoutS.toNat ∧ policy.timeoutS.toNat ≤ 300 ∧
        (policy.mode = LightMode.fx → policy.timeoutS.toNat ≤ 10)) ∧
      ∀ nowMs, dueMs ≤ nowMs → ∃ t, s.step (.expire nowMs) = some t ∧
        t.lightState.mode = LightMode.off ∧ t.power = false ∧ t.offWork = none) ∧
    (∀ offset buf nowMs, 5 < (LightCommand.ofBytes buf).mode.toNat →
      s.step (.write offset buf nowMs) = some s) := by
  have htimed := timed_run stripErr events hs
  have hinert : ∀ offset buf nowMs, 5 < (LightCommand.ofBytes buf).mode.toNat →
      s.step (.write offset buf nowMs) = some s :=
    fun offset buf nowMs hmode => step_write_of_invalid s hmode offset nowMs
  cases htimed with
  | dark dark =>
    refine ⟨?_, ?_, ?_, hinert⟩
    · exact iff_of_false (fun h => h dark.mode) (fun h => h dark.offWork)
    · exact iff_of_false (fun h => h dark.offWork) (by simp [dark.power])
    · intro dueMs hdue
      exact absurd (dark.offWork.symm.trans hdue).symm (Option.some_ne_none _)
  | @lit onMs policy last granted powerOn lit =>
    have hpending : s.offWork ≠ none := by
      rw [lit.offWork]
      exact Option.some_ne_none _
    refine ⟨iff_of_true lit.mode hpending, iff_of_true hpending lit.power, ?_, hinert⟩
    intro dueMs hdue
    obtain rfl := Option.some.inj (lit.offWork.symm.trans hdue)
    refine ⟨⟨onMs, policy, last, Int.le_refl _, granted.bounds powerOn⟩, ?_⟩
    intro nowMs hnow
    obtain ⟨t, ht, hdark⟩ := lit.step_expire hnow
    exact ⟨t, ht, hdark.mode, hdark.power, hdark.offWork⟩

/-- FIND in red on slot 1 for 10 s. -/
def findSlot1 : List Byte := [1, 1, 0, 0, 0, 0, 0, 0, 0, 255, 0, 0, 0, 0, 0, 10, 0]

theorem lights_time_out_find : ∃ s,
    run (lightControlInit 0 0) [.write 0 findSlot1 500, .write 0 (findSlot1.set 0 6) 900] = some s ∧
      s.offWork = some 10500 ∧ s.power = true := by
  cases hs : run (lightControlInit 0 0) [.write 0 findSlot1 500,
    .write 0 (findSlot1.set 0 6) 900] with
  | none => exact absurd hs (by decide)
  | some s =>
    have hdue : (run (lightControlInit 0 0) [.write 0 findSlot1 500,
        .write 0 (findSlot1.set 0 6) 900]).bind LightControl.offWork = some 10500 := by decide
    rw [hs] at hdue
    have hpending : s.offWork ≠ none := by
      rw [show s.offWork = some 10500 from hdue]
      exact Option.some_ne_none _
    exact ⟨s, rfl, hdue, (lights_time_out 0 _ s hs).2.1.mp hpending⟩

end LightControl
end PartRack
