import PartRack.Light.Control

/-! The command in force: the last one that turned the lights on, until it is superseded or its
time is up. The strip shows its pixels. -/

namespace PartRack
namespace LightControl

/-- A command that has turned the lights on, with its time. -/
abbrev Order := ℤ × LightCommand

/-- The order in force after an event. -/
def Event.next (order : Option Order) : Event → Option Order
  | .write offset buf nowMs =>
    if offset ≠ 0 ∨ buf.length ≠ 17 then order
    else
      match LightPolicy.resolve (LightCommand.ofBytes buf) with
      | .error _ => order
      | .ok policy => if policy.powerOn then some (nowMs, LightCommand.ofBytes buf) else none
  | .expire _ => none

/-- The lights are on as this order says, until `dueMs`. -/
structure Shines (order : Order) (dueMs : ℤ) (s : LightControl) : Prop
    extends Lit s dueMs where
  lightState : s.lightState = ⟨order.2.mode, dueMs⟩
  valid : order.2.mode.toNat ≤ 5
  due : ∃ policy, LightPolicy.resolve order.2 = .ok policy ∧ policy.powerOn = true ∧
    dueMs = order.1 + policy.timeoutS.toNat * 1000
  timeout : order.1 + 1000 ≤ dueMs ∧ dueMs ≤ order.1 + 300000
  shown : s.ledStripReady = true → s.shown = (LightFrame.build order.2).slots

/-- The lights are off, and the strip is black. -/
structure AllOff (s : LightControl) : Prop extends Dark s where
  lightState : s.lightState = LightState.init
  shown : s.ledStripReady = true → s.shown = blackPixels

/-- The lights are as the order in force says. -/
inductive Obeys : Option Order → LightControl → Prop
  | off {s : LightControl} (h : AllOff s) : Obeys none s
  | on {order : Order} {dueMs : ℤ} {s : LightControl} (h : Shines order dueMs s) :
      Obeys (some order) s

theorem Obeys.ready {order : Option Order} {s : LightControl} (h : Obeys order s) :
    s.lightOutputsReady = true := by
  cases h with
  | off h => exact h.ready
  | on h => exact h.ready

theorem allOff_offWorkHandler {s : LightControl} (h : s.lightOutputsReady = true)
    (hcancelled : s.offWork = none) (nowMs : ℤ) : AllOff (offWorkHandler nowMs s) := by
  rw [offWorkHandler, offWorkBegin_eq, callDriver_eq, offWorkEnd_eq]
  · refine ⟨⟨h, rfl, rfl, hcancelled⟩, rfl, fun hready => ?_⟩
    change (if s.ledStripReady then (if s.ledStripReady then blackPixels else s.stripPixels)
      else s.shown) = blackPixels
    have hstrip : s.ledStripReady = true := hready
    rw [if_pos hstrip, if_pos hstrip]
  · exact h

theorem allOff_lightControlInit (stripErr : Int) : AllOff (lightControlInit 0 stripErr) := by
  rw [lightControlInit, driveLedsOff, driveLedsOffBegin, showBegin_eq, callDriver_eq,
    setLightOutputs_of_ready]
  · refine ⟨⟨rfl, rfl, rfl, rfl⟩, rfl, fun _ => ?_⟩
    change (if _ then (if _ then blackPixels else blackPixels) else blackPixels) = blackPixels
    rw [ite_self, ite_self]
  · rfl

section Apply
variable {s : LightControl} {command : LightCommand} {policy : LightPolicy}

theorem allOff_apply (h : s.lightOutputsReady = true)
    (hresolve : LightPolicy.resolve command = .ok policy) (hoff : policy.powerOn = false)
    (nowMs : ℤ) : AllOff (s.apply command nowMs).2 := by
  rw [apply, applyBegin_of_off hresolve hoff]
  change AllOff (applyEnd policy nowMs _)
  rw [applyEnd, if_pos hoff]
  exact allOff_offWorkHandler (s := (s.setLightState LightState.init).cancelOffWork) h rfl nowMs

theorem shines_apply (h : s.lightOutputsReady = true)
    (hresolve : LightPolicy.resolve command = .ok policy) (hon : policy.powerOn = true)
    (nowMs : ℤ) : Shines (nowMs, command) (nowMs + policy.timeoutS.toNat * 1000)
      (s.apply command nowMs).2 := by
  obtain ⟨hgranted, hmode⟩ := LightPolicy.granted_of_resolve hresolve
  obtain ⟨hpos, hle, -⟩ := hgranted.bounds hon
  have heq : (s.apply command nowMs).2 = scheduleOffWork (nowMs + policy.timeoutS.toNat * 1000)
      (reportLightChanged nowMs (callDriver
        ((s.setLightState ⟨policy.mode, nowMs + policy.timeoutS.toNat * 1000⟩
          ).cancelOffWork.driveLedsCommandBegin command))) := by
    rw [apply, applyBegin_of_on hresolve hon]
    change applyEnd policy nowMs _ = _
    rw [applyEnd, if_neg (by simp [hon])]
  have hready : ((s.setLightState ⟨policy.mode, nowMs + policy.timeoutS.toNat * 1000⟩
      ).cancelOffWork).lightOutputsReady = true := h
  rw [heq, driveLedsCommandBegin_eq hready, callDriver_eq]
  refine ⟨⟨h, hgranted.mode_ne_off hon, rfl, rfl⟩, ?_, ?_, ⟨policy, hresolve, hon, rfl⟩, ?_, ?_⟩
  · exact congrArg (LightState.mk · _) hmode
  · by_contra hlarge
    rw [LightPolicy.resolve_of_invalid (Nat.not_le.mp hlarge)] at hresolve
    cases hresolve
  · exact ⟨by dsimp only; omega, by dsimp only; omega⟩
  · intro hready
    change (if s.ledStripReady then (if s.ledStripReady then (LightFrame.build command).slots
      else s.stripPixels) else s.shown) = _
    have hstrip : s.ledStripReady = true := hready
    rw [if_pos hstrip, if_pos hstrip]

end Apply

theorem Obeys.step {order : Option Order} {s t : LightControl} (h : Obeys order s) {e : Event}
    (ht : s.step e = some t) : Obeys (e.next order) t := by
  cases e with
  | write offset buf nowMs =>
    obtain rfl := Option.some.inj ht
    simp only [lightCommandWrite, Event.next]
    by_cases hlen : offset ≠ 0 ∨ buf.length ≠ 17
    · rw [if_pos hlen, if_pos hlen]
      exact h
    rw [if_neg hlen, if_neg hlen]
    cases hresolve : LightPolicy.resolve (LightCommand.ofBytes buf) with
    | error err =>
      rw [apply, applyBegin_of_error hresolve]
      exact h
    | ok policy =>
      cases hpower : policy.powerOn with
      | false =>
        simp only [hpower, Bool.false_eq_true, if_false]
        exact .off (allOff_apply h.ready hresolve hpower nowMs)
      | true =>
        simp only [hpower, if_true]
        exact .on (shines_apply h.ready hresolve hpower nowMs)
  | expire nowMs =>
    cases hwork : s.offWork with
    | none =>
      simp only [LightControl.step, hwork] at ht
      exact absurd ht.symm (Option.some_ne_none _)
    | some dueMs =>
      simp only [LightControl.step, hwork] at ht
      split_ifs at ht
      obtain rfl := Option.some.inj ht
      exact .off (allOff_offWorkHandler (s := s.cancelOffWork) h.ready rfl nowMs)

end LightControl
end PartRack
