import PartRack.Lib.Runs
import PartRack.Light.Control

/-! The handler of `off_work` and the callback of light commands as two processes. Both
share the static variables of light_control.c, and either may be switched out inside its
call of the LED driver, before or after the driver has sent its buffer. The system work
queue runs one handler at a time, and so does the Bluetooth stack with its callback. -/

namespace PartRack

/-- A call of `light_control_apply` that is inside its call of the LED driver. -/
structure LightCall where
  policy : LightPolicy
  sent : Bool
deriving DecidableEq, Repr

/-- The static variables and the two processes; `handler` tells whether the driver has sent
its buffer, for a handler that is inside its call. `accepted` only records the past: the
last accepted command. -/
structure LightSystem where
  control : LightControl
  handler : Option Bool
  call : Option LightCall
  accepted : Option LightCommand
deriving DecidableEq, Repr

namespace LightSystem
open LightControl

inductive Event
  | handlerBegin (nowMs : ℤ)
  | handlerSend
  | handlerEnd (nowMs : ℤ)
  | writeBegin (offset : ℕ) (buf : List Byte) (nowMs : ℤ)
  | writeSend
  | writeEnd (nowMs : ℤ)
deriving DecidableEq, Repr

def init : LightSystem := ⟨lightControlInit 0 0, none, none, none⟩

/-- A due work item leaves the queue, and its handler runs up to the driver, or to its end
if the strip is not ready. -/
def handlerBegin (nowMs : ℤ) (s : LightSystem) : Option LightSystem :=
  match s.control.offWork with
  | some dueMs =>
    if dueMs ≤ nowMs ∧ s.handler = none then
      match s.control.cancelOffWork.offWorkBegin with
      | (true, control) => some { s with control := control, handler := some false }
      | (false, control) => some { s with control := control.offWorkEnd nowMs }
    else none
  | none => none

def handlerSend (s : LightSystem) : Option LightSystem :=
  if s.handler = some false then
    some { s with control := s.control.ledStripUpdateRgb, handler := some true }
  else none

def handlerEnd (nowMs : ℤ) (s : LightSystem) : Option LightSystem :=
  if s.handler = some true then
    some { s with control := s.control.offWorkEnd nowMs, handler := none }
  else none

def writeBegin (offset : ℕ) (buf : List Byte) (nowMs : ℤ) (s : LightSystem) :
    Option LightSystem :=
  if s.call ≠ none then none
  else if offset ≠ 0 ∨ buf.length ≠ 17 then some s
  else
    let command := LightCommand.ofBytes buf
    match s.control.applyBegin command nowMs with
    | .error _ => some s
    | .ok (policy, true, control) => some { s with
        control := control, call := some ⟨policy, false⟩, accepted := some command }
    | .ok (policy, false, control) => some { s with
        control := control.applyEnd policy nowMs, accepted := some command }

def writeSend (s : LightSystem) : Option LightSystem :=
  match s.call with
  | some ⟨policy, false⟩ =>
    some { s with control := s.control.ledStripUpdateRgb, call := some ⟨policy, true⟩ }
  | _ => none

def writeEnd (nowMs : ℤ) (s : LightSystem) : Option LightSystem :=
  match s.call with
  | some ⟨policy, true⟩ => some { s with control := s.control.applyEnd policy nowMs, call := none }
  | _ => none

def step (s : LightSystem) : Event → Option LightSystem
  | .handlerBegin nowMs => s.handlerBegin nowMs
  | .handlerSend => s.handlerSend
  | .handlerEnd nowMs => s.handlerEnd nowMs
  | .writeBegin offset buf nowMs => s.writeBegin offset buf nowMs
  | .writeSend => s.writeSend
  | .writeEnd nowMs => s.writeEnd nowMs

def run (s : LightSystem) (events : List Event) : Option LightSystem := events.foldlM step s

/-- Neither process is in the middle of a call. -/
def Quiet (s : LightSystem) : Prop := s.handler = none ∧ s.call = none

/-- The lights do what the mode says. -/
def Consistent (s : LightSystem) : Prop :=
  (s.control.lightState.mode ≠ LightMode.off → s.control.power = true ∧
    ∃ command ∈ s.accepted, s.control.shown = (LightFrame.build command).slots) ∧
  (s.control.lightState.mode = LightMode.off → s.control.power = false)

/-- A handler that comes out of the driver finds the mode still off: no command has turned
the lights on during its call that is still in force. -/
def StillOff (s : LightSystem) : Event → Prop
  | .handlerEnd _ => s.control.lightState.mode = LightMode.off
  | _ => True

/-! ## The invariant -/

/-- While the mode is not off the power is on and the driver's buffer holds the frame of the
last accepted command; the power goes with the last call that turns the lights off. No
work item is pending during a call of the callback, so that no handler begins then. -/
structure Invariant (s : LightSystem) : Prop where
  outputs : s.control.lightOutputsReady = true
  strip : s.control.ledStripReady = true
  on : s.control.lightState.mode ≠ LightMode.off → s.control.power = true ∧
    (∃ command ∈ s.accepted, s.control.stripPixels = (LightFrame.build command).slots) ∧
    ((∀ c, s.call = some c → c.sent = true) → s.control.shown = s.control.stripPixels)
  off : s.control.lightState.mode = LightMode.off → s.Quiet → s.control.power = false
  call : ∀ c, s.call = some c → s.control.offWork = none ∧
    (c.policy.powerOn = true ↔ s.control.lightState.mode ≠ LightMode.off)

theorem invariant_init : init.Invariant := by
  have hdark : Dark (lightControlInit 0 0) := dark_lightControlInit 0
  refine ⟨hdark.ready, rfl, ?_, fun _ _ => hdark.power, ?_⟩
  · exact fun hmode => absurd hdark.mode hmode
  · exact fun c hc => absurd hc.symm (Option.some_ne_none _)

theorem Invariant.of_off {s : LightSystem} (outputs : s.control.lightOutputsReady = true)
    (strip : s.control.ledStripReady = true) (mode : s.control.lightState.mode = LightMode.off)
    (power : s.Quiet → s.control.power = false)
    (call : ∀ c, s.call = some c → s.control.offWork = none ∧ c.policy.powerOn = false) :
    s.Invariant := by
  refine ⟨outputs, strip, fun hmode => absurd mode hmode, fun _ => power, fun c hc => ?_⟩
  obtain ⟨hwork, hpower⟩ := call c hc
  exact ⟨hwork, iff_of_false (by simp [hpower]) fun hmode => hmode mode⟩

theorem offWorkBegin_called {s : LightControl} (h : s.ledStripReady = true) :
    s.offWorkBegin = (true, s.offWorkBegin.2) :=
  Prod.ext ((congrArg Prod.fst (offWorkBegin_eq s)).trans h) rfl

theorem driveLedsCommandBegin_called {s : LightControl} (houtputs : s.lightOutputsReady = true)
    (h : s.ledStripReady = true) (command : LightCommand) :
    s.driveLedsCommandBegin command = (true, (s.driveLedsCommandBegin command).2) :=
  Prod.ext ((congrArg Prod.fst (driveLedsCommandBegin_eq houtputs command)).trans h) rfl

theorem handlerBegin_cases {s t : LightSystem} {nowMs : ℤ} (hstrip : s.control.ledStripReady = true)
    (ht : s.handlerBegin nowMs = some t) : s.control.offWork ≠ none ∧
      t = { s with control := s.control.cancelOffWork.offWorkBegin.2, handler := some false } := by
  unfold handlerBegin at ht
  cases hwork : s.control.offWork with
  | none =>
    rw [hwork] at ht
    exact absurd ht.symm (Option.some_ne_none _)
  | some dueMs =>
    have hbegin := offWorkBegin_called (s := s.control.cancelOffWork) hstrip
    rw [hwork, hbegin] at ht
    simp only at ht
    split_ifs at ht
    exact ⟨Option.some_ne_none _, (Option.some.inj ht).symm⟩

theorem Invariant.handlerBegin {s t : LightSystem} (hs : s.Invariant) {nowMs : ℤ}
    (ht : s.handlerBegin nowMs = some t) : t.Invariant := by
  obtain ⟨hpending, rfl⟩ := handlerBegin_cases hs.strip ht
  rw [offWorkBegin_eq]
  refine .of_off hs.outputs hs.strip rfl ?_ ?_
  · exact fun hquiet => absurd hquiet.1 (Option.some_ne_none _)
  · exact fun c hc => absurd (hs.call c hc).1 hpending

theorem Invariant.handlerSend {s t : LightSystem} (hs : s.Invariant)
    (ht : s.handlerSend = some t) : t.Invariant := by
  unfold LightSystem.handlerSend at ht
  split_ifs at ht
  obtain rfl := Option.some.inj ht
  refine ⟨hs.outputs, hs.strip, fun hmode => ?_, ?_, hs.call⟩
  · obtain ⟨hpower, hbuffer, -⟩ := hs.on hmode
    exact ⟨hpower, hbuffer, fun _ => rfl⟩
  · exact fun _ hquiet => absurd hquiet.1 (Option.some_ne_none _)

theorem handlerEnd_cases {s t : LightSystem} {nowMs : ℤ}
    (houtputs : s.control.lightOutputsReady = true) (ht : s.handlerEnd nowMs = some t) :
    t.control.lightState = s.control.lightState ∧ t.control.power = false ∧
      t.control.lightOutputsReady = true ∧ t.control.ledStripReady = s.control.ledStripReady ∧
      t.control.offWork = s.control.offWork ∧ t.handler = none ∧ t.call = s.call := by
  unfold handlerEnd at ht
  split_ifs at ht
  obtain rfl := Option.some.inj ht
  rw [offWorkEnd_eq houtputs]
  exact ⟨rfl, rfl, houtputs, rfl, rfl, rfl, rfl⟩

theorem Invariant.handlerEnd {s t : LightSystem} (hs : s.Invariant) {nowMs : ℤ}
    (ht : s.handlerEnd nowMs = some t) (hoff : s.control.lightState.mode = LightMode.off) :
    t.Invariant := by
  obtain ⟨hstate, hpower, houtputs, hstrip, hwork, -, hcall⟩ := handlerEnd_cases hs.outputs ht
  refine .of_off houtputs (hstrip.trans hs.strip) ?_ (fun _ => hpower) ?_
  · rw [hstate]
    exact hoff
  · intro c hc
    obtain ⟨hnone, hiff⟩ := hs.call c (hcall.symm.trans hc)
    refine ⟨hwork.trans hnone, ?_⟩
    cases hp : c.policy.powerOn with
    | false => rfl
    | true => exact absurd hoff (hiff.mp hp)

theorem writeBegin_cases {s t : LightSystem} {offset : ℕ} {buf : List Byte} {nowMs : ℤ}
    (houtputs : s.control.lightOutputsReady = true) (hstrip : s.control.ledStripReady = true)
    (ht : s.writeBegin offset buf nowMs = some t) :
    t = s ∨ ∃ command policy, LightPolicy.resolve command = .ok policy ∧ s.call = none ∧
      (policy.powerOn = false ∧ t = { s with
          control := (s.control.setLightState LightState.init).cancelOffWork.offWorkBegin.2
          call := some ⟨policy, false⟩
          accepted := some command } ∨
        policy.powerOn = true ∧ t = { s with
          control := ((s.control.setLightState ⟨policy.mode, nowMs + policy.timeoutS.toNat * 1000⟩
            ).cancelOffWork.driveLedsCommandBegin command).2
          call := some ⟨policy, false⟩
          accepted := some command }) := by
  unfold writeBegin at ht
  split_ifs at ht with hbusy hlen
  · exact Or.inl (Option.some.inj ht).symm
  · have hidle : s.call = none := not_ne_iff.mp hbusy
    cases hresolve : LightPolicy.resolve (LightCommand.ofBytes buf) with
    | error err =>
      simp only [applyBegin_of_error hresolve] at ht
      exact Or.inl (Option.some.inj ht).symm
    | ok policy =>
      refine Or.inr ⟨_, policy, hresolve, hidle, ?_⟩
      cases hpower : policy.powerOn with
      | false =>
        have hbegin := offWorkBegin_called
          (s := (s.control.setLightState LightState.init).cancelOffWork) hstrip
        simp only [applyBegin_of_off hresolve hpower] at ht
        rw [hbegin] at ht
        exact Or.inl ⟨rfl, (Option.some.inj ht).symm⟩
      | true =>
        let control := (s.control.setLightState
          ⟨policy.mode, nowMs + policy.timeoutS.toNat * 1000⟩).cancelOffWork
        have hbegin := driveLedsCommandBegin_called (s := control) houtputs hstrip
          (LightCommand.ofBytes buf)
        simp only [applyBegin_of_on hresolve hpower] at ht
        rw [hbegin] at ht
        exact Or.inr ⟨rfl, (Option.some.inj ht).symm⟩

theorem Invariant.writeBegin {s t : LightSystem} (hs : s.Invariant) {offset : ℕ}
    {buf : List Byte} {nowMs : ℤ} (ht : s.writeBegin offset buf nowMs = some t) :
    t.Invariant := by
  rcases writeBegin_cases hs.outputs hs.strip ht with
    rfl | ⟨command, policy, hresolve, -, ⟨hpower, rfl⟩ | ⟨hpower, rfl⟩⟩
  · exact hs
  · rw [offWorkBegin_eq]
    refine .of_off hs.outputs hs.strip rfl ?_ fun c hc => ?_
    · exact fun hquiet => absurd hquiet.2 (Option.some_ne_none _)
    · obtain rfl := Option.some.inj hc
      exact ⟨rfl, hpower⟩
  · have hmode : policy.mode ≠ LightMode.off :=
      (LightPolicy.granted_of_resolve hresolve).1.mode_ne_off hpower
    have hstrip : (s.control.setLightState
        ⟨policy.mode, nowMs + policy.timeoutS.toNat * 1000⟩).cancelOffWork.ledStripReady = true :=
      hs.strip
    rw [driveLedsCommandBegin_eq]
    · refine ⟨hs.outputs, hs.strip, fun _ => ⟨rfl, ⟨command, rfl, if_pos hstrip⟩, ?_⟩, ?_, ?_⟩
      · exact fun hsent => absurd (hsent _ rfl) Bool.false_ne_true
      · exact fun hoff => absurd hoff hmode
      · intro c hc
        obtain rfl := Option.some.inj hc
        exact ⟨rfl, iff_of_true hpower hmode⟩
    · exact hs.outputs

theorem writeSend_cases {s t : LightSystem} (ht : s.writeSend = some t) :
    ∃ policy, s.call = some ⟨policy, false⟩ ∧
      t = { s with control := s.control.ledStripUpdateRgb, call := some ⟨policy, true⟩ } := by
  unfold writeSend at ht
  split at ht
  · rename_i policy hcall
    exact ⟨policy, hcall, (Option.some.inj ht).symm⟩
  · exact absurd ht.symm (Option.some_ne_none _)

theorem Invariant.writeSend {s t : LightSystem} (hs : s.Invariant) (ht : s.writeSend = some t) :
    t.Invariant := by
  obtain ⟨policy, hcall, rfl⟩ := writeSend_cases ht
  obtain ⟨hwork, hiff⟩ := hs.call _ hcall
  refine ⟨hs.outputs, hs.strip, fun hmode => ?_, ?_, fun c hc => ?_⟩
  · obtain ⟨hpower, hbuffer, -⟩ := hs.on hmode
    exact ⟨hpower, hbuffer, fun _ => rfl⟩
  · exact fun _ hquiet => absurd hquiet.2 (Option.some_ne_none _)
  · obtain rfl := Option.some.inj hc
    exact ⟨hwork, hiff⟩

theorem writeEnd_cases {s t : LightSystem} {nowMs : ℤ} (ht : s.writeEnd nowMs = some t) :
    ∃ policy, s.call = some ⟨policy, true⟩ ∧
      t = { s with control := s.control.applyEnd policy nowMs, call := none } := by
  unfold writeEnd at ht
  split at ht
  · rename_i policy hcall
    exact ⟨policy, hcall, (Option.some.inj ht).symm⟩
  · exact absurd ht.symm (Option.some_ne_none _)

theorem applyEnd_of_on {s : LightControl} {policy : LightPolicy} (hpower : policy.powerOn = true)
    (hwork : s.offWork = none) (nowMs : ℤ) : s.applyEnd policy nowMs = { s with
      reports := s.reports ++ [(s.lightState.mode, s.lightState.remainingS nowMs)]
      offWork := some (nowMs + policy.timeoutS.toNat * 1000) } := by
  rw [applyEnd, if_neg (by simp [hpower]), scheduleOffWork, reportLightChanged]
  simp only [hwork]

theorem applyEnd_of_off {s : LightControl} {policy : LightPolicy} (hpower : policy.powerOn = false)
    (houtputs : s.lightOutputsReady = true) (nowMs : ℤ) : s.applyEnd policy nowMs = { s with
      power := false
      reports := s.reports ++ [(s.lightState.mode, s.lightState.remainingS nowMs)] } := by
  rw [applyEnd, if_pos hpower, offWorkEnd_eq houtputs]

theorem Invariant.writeEnd {s t : LightSystem} (hs : s.Invariant) {nowMs : ℤ}
    (ht : s.writeEnd nowMs = some t) : t.Invariant := by
  obtain ⟨policy, hcall, rfl⟩ := writeEnd_cases ht
  obtain ⟨hwork, hiff⟩ := hs.call _ hcall
  have hnone : ∀ c, (none : Option LightCall) = some c → False := fun c hc =>
    absurd hc.symm (Option.some_ne_none c)
  cases hpower : policy.powerOn with
  | false =>
    have hoff : s.control.lightState.mode = LightMode.off := by
      by_contra hmode
      exact absurd (hpower.symm.trans (hiff.mpr hmode)) Bool.false_ne_true
    rw [applyEnd_of_off hpower hs.outputs]
    exact .of_off hs.outputs hs.strip hoff (fun _ => rfl) fun c hc => (hnone c hc).elim
  | true =>
    have hmode := hiff.mp hpower
    obtain ⟨hon, hbuffer, hshown⟩ := hs.on hmode
    have hsent : ∀ c, s.call = some c → c.sent = true := by
      intro c hc
      rw [← Option.some.inj (hcall.symm.trans hc)]
    rw [applyEnd_of_on hpower hwork]
    refine ⟨hs.outputs, hs.strip, fun _ => ⟨hon, hbuffer, fun _ => hshown hsent⟩, ?_, ?_⟩
    · exact fun hoff => absurd hoff hmode
    · exact fun c hc => (hnone c hc).elim

theorem Invariant.step {s t : LightSystem} (hs : s.Invariant) {e : Event}
    (ht : s.step e = some t) (hgood : s.StillOff e) : t.Invariant := by
  cases e with
  | handlerBegin nowMs => exact hs.handlerBegin ht
  | handlerSend => exact hs.handlerSend ht
  | handlerEnd nowMs => exact hs.handlerEnd ht hgood
  | writeBegin offset buf nowMs => exact hs.writeBegin ht
  | writeSend => exact hs.writeSend ht
  | writeEnd nowMs => exact hs.writeEnd ht

theorem Invariant.consistent {s : LightSystem} (hs : s.Invariant) (hquiet : s.Quiet) :
    s.Consistent := by
  refine ⟨fun hmode => ?_, fun hoff => hs.off hoff hquiet⟩
  obtain ⟨hpower, ⟨command, hlast, hbuffer⟩, hshown⟩ := hs.on hmode
  refine ⟨hpower, command, hlast, (hshown fun c hc => ?_).trans hbuffer⟩
  exact absurd (hquiet.2.symm.trans hc).symm (Option.some_ne_none c)

/-! ## A handler that comes too late -/

/-- The mode says on, and the power is off. -/
structure SwitchedOff (s : LightSystem) : Prop where
  mode : s.control.lightState.mode ≠ LightMode.off
  power : s.control.power = false

theorem SwitchedOff.not_consistent {s : LightSystem} (hs : s.SwitchedOff) : ¬s.Consistent :=
  fun h => absurd (hs.power.symm.trans (h.1 hs.mode).1) Bool.false_ne_true

theorem switchedOff_writeEnd {s : LightSystem} {policy : LightPolicy} (hs : s.SwitchedOff)
    (hhandler : s.handler = none) (hcall : s.call = some ⟨policy, true⟩)
    (hpower : policy.powerOn = true) (hwork : s.control.offWork = none) (nowMs : ℤ) :
    ∃ t, s.step (.writeEnd nowMs) = some t ∧ t.Quiet ∧ t.SwitchedOff := by
  refine ⟨{ s with control := s.control.applyEnd policy nowMs, call := none }, ?_, ⟨hhandler, rfl⟩,
    ?_⟩
  · simp only [LightSystem.step, LightSystem.writeEnd, hcall]
  · rw [applyEnd_of_on hpower hwork]
    exact ⟨hs.mode, hs.power⟩

/-- A handler that comes out of the driver with the mode not off leaves the strip without
power, at the latest when the call in progress has ended. -/
theorem Invariant.switchedOff {s t : LightSystem} (hs : s.Invariant) {e : Event}
    (ht : s.step e = some t) (hbad : ¬s.StillOff e) :
    ∃ (later : List Event) (u : LightSystem), t.run later = some u ∧ u.Quiet ∧ ¬u.Consistent := by
  cases e with
  | handlerEnd nowMs =>
    have hmode : s.control.lightState.mode ≠ LightMode.off := hbad
    obtain ⟨hstate, hpower, -, -, hwork, hhandler, hcall⟩ := handlerEnd_cases hs.outputs ht
    have hoff : t.SwitchedOff := ⟨by rwa [hstate], hpower⟩
    cases hc : s.call with
    | none => exact ⟨[], t, rfl, ⟨hhandler, hcall.trans hc⟩, hoff.not_consistent⟩
    | some c =>
      obtain ⟨policy, sent⟩ := c
      obtain ⟨hnone, hiff⟩ := hs.call _ hc
      have hon : policy.powerOn = true := hiff.mpr hmode
      cases sent with
      | true =>
        obtain ⟨u, hend, hquiet, hu⟩ :=
          switchedOff_writeEnd hoff hhandler (hcall.trans hc) hon (hwork.trans hnone) nowMs
        refine ⟨[.writeEnd nowMs], u, ?_, hquiet, hu.not_consistent⟩
        simp only [LightSystem.run, List.foldlM_cons, hend]
        rfl
      | false =>
        let t' : LightSystem :=
          { t with control := t.control.ledStripUpdateRgb, call := some ⟨policy, true⟩ }
        have hsend : t.step .writeSend = some t' := by
          simp only [LightSystem.step, LightSystem.writeSend, hcall.trans hc, t']
        have hoff' : t'.SwitchedOff := ⟨hoff.mode, hoff.power⟩
        obtain ⟨u, hend, hquiet, hu⟩ :=
          switchedOff_writeEnd hoff' hhandler rfl hon (hwork.trans hnone) nowMs
        refine ⟨[.writeSend, .writeEnd nowMs], u, ?_, hquiet, hu.not_consistent⟩
        simp only [LightSystem.run, List.foldlM_cons, hsend, Option.bind_eq_bind,
          Option.bind_some, hend]
        rfl
  | handlerBegin nowMs => exact absurd trivial hbad
  | handlerSend => exact absurd trivial hbad
  | writeBegin offset buf nowMs => exact absurd trivial hbad
  | writeSend => exact absurd trivial hbad
  | writeEnd nowMs => exact absurd trivial hbad

instance : DecidablePred Quiet := fun s =>
  inferInstanceAs (Decidable (s.handler = none ∧ s.call = none))

instance : DecidablePred Consistent := fun s =>
  inferInstanceAs (Decidable ((s.control.lightState.mode ≠ LightMode.off →
    s.control.power = true ∧
      ∃ command ∈ s.accepted, s.control.shown = (LightFrame.build command).slots) ∧
    (s.control.lightState.mode = LightMode.off → s.control.power = false)))

instance (s : LightSystem) : (e : Event) → Decidable (s.StillOff e)
  | .handlerEnd _ => inferInstanceAs (Decidable (s.control.lightState.mode = LightMode.off))
  | .handlerBegin _ | .handlerSend | .writeBegin _ _ _ | .writeSend | .writeEnd _ => isTrue trivial

/-- In a run in which every handler that comes out of the driver finds the mode still off,
the lights do what the mode says whenever neither process is in the middle of a call. A
handler that does not find it off ends in such a state in which they do not. -/
theorem consistent_along (events : List Event)
    (h : Runs.Meets LightSystem.step StillOff init events) :
    Runs.Along LightSystem.step (fun s => s.Quiet → s.Consistent) init events ∧
    Runs.Along LightSystem.step (fun s => ∀ e t, s.step e = some t → ¬s.StillOff e →
      ∃ (later : List Event) (u : LightSystem),
        t.run later = some u ∧ u.Quiet ∧ ¬u.Consistent) init events := by
  have hinv : Runs.Along LightSystem.step Invariant init events :=
    Runs.along_of_meets (fun _ _ _ hs ht hgood => hs.step ht hgood) invariant_init h
  constructor
  · exact hinv.imp (fun _ hs _ => hs.consistent) hinv
  · refine hinv.imp (fun s hs _ e t ht hbad => ?_) hinv
    exact hs.switchedOff ht hbad

/-- FIND for 10 s; when it expires, the handler is switched out inside the driver, and a
second FIND and an OFF are carried out before it goes on. -/
theorem consistent_along_off : Runs.Along LightSystem.step (fun s => s.Quiet → s.Consistent) init
    [.writeBegin 0 findSlot1 500, .writeSend, .writeEnd 500, .handlerBegin 10500,
      .writeBegin 0 findSlot1 10502, .writeSend, .writeEnd 10503,
      .writeBegin 0 (List.replicate 17 0x00) 10504, .writeSend, .writeEnd 10505, .handlerSend,
      .handlerEnd 10510] :=
  (consistent_along _ (by decide)).1

theorem not_consistent_find : ¬Runs.Along LightSystem.step (fun s => s.Quiet → s.Consistent) init
    [.writeBegin 0 findSlot1 500, .writeSend, .writeEnd 500, .handlerBegin 10500,
      .writeBegin 0 findSlot1 10505, .handlerSend, .handlerEnd 10510, .writeSend,
      .writeEnd 10520] := by
  decide

end LightSystem
end PartRack
