import Mathlib.Data.BitVec
import PartRack.Lib.Runs
import PartRack.Lifecycle.Model

/-! Invalidations of the advertisement. A report leaves a work item outstanding unless
the device is connected, and `process` looks at the generation again after its call;
`start` does not. -/

namespace PartRack

namespace Lifecycle

@[simp] theorem scheduleLocked_generation (l : Lifecycle) :
    l.scheduleLocked.2.advertisingGeneration = l.advertisingGeneration := by
  unfold scheduleLocked
  split_ifs <;> rfl

@[simp] theorem scheduleLocked_applied (l : Lifecycle) :
    l.scheduleLocked.2.appliedGeneration = l.appliedGeneration := by
  unfold scheduleLocked
  split_ifs <;> rfl

@[simp] theorem scheduleLocked_running (l : Lifecycle) :
    l.scheduleLocked.2.advertisingRunning = l.advertisingRunning := by
  unfold scheduleLocked
  split_ifs <;> rfl

/-- What is done about the work item before the lock is given up: it is only scheduled
once ready, and afterwards it is pending if there is something to apply. -/
structure Scheduled (l : Lifecycle) (r : Lifecycle × List AdapterCall) : Prop where
  ready : r.1.ready = l.ready
  unready : l.ready = false → r.1.workPending = l.workPending
  queued : r.1.workPending = true → l.workPending = true ∨ r.2.contains .scheduleWork = true
  pending : r.1.ready = true → r.1.connected = false →
    r.1.advertisingGeneration ≠ r.1.appliedGeneration → r.1.workPending = true

theorem scheduled_scheduleLocked (l : Lifecycle) :
    Scheduled l (l.scheduleLocked.2, scheduleIfNeeded l.scheduleLocked.1) := by
  unfold scheduleLocked scheduleIfNeeded
  obtain ⟨-, ready, -, -, workPending, -, -⟩ := l
  cases ready <;> cases workPending <;> constructor <;> simp

/-- A report or a disconnect: one invalidation, and what `Scheduled` says. -/
structure Invalidates (l : Lifecycle) (r : Lifecycle × List AdapterCall) : Prop
    extends Scheduled l r where
  generation : r.1.advertisingGeneration = l.advertisingGeneration + 1
  applied : r.1.appliedGeneration = l.appliedGeneration

theorem Scheduled.of_eq {l l' : Lifecycle} {r : Lifecycle × List AdapterCall}
    (h : Scheduled l' r) (hready : l'.ready = l.ready) (hpending : l'.workPending = l.workPending) :
    Scheduled l r := by
  obtain ⟨h₁, h₂, h₃, h₄⟩ := h
  rw [hready] at h₁ h₂
  rw [hpending] at h₂ h₃
  exact ⟨h₁, h₂, h₃, h₄⟩

theorem invalidates_onDisconnected (l : Lifecycle) : Invalidates l l.onDisconnected := by
  refine ⟨(scheduled_scheduleLocked _).of_eq rfl rfl, ?_, ?_⟩
  · exact scheduleLocked_generation _
  · exact scheduleLocked_applied _

theorem invalidates_reportNfcFd (l : Lifecycle) : Invalidates l l.reportNfcFd := by
  refine ⟨(scheduled_scheduleLocked _).of_eq rfl rfl, ?_, ?_⟩
  · exact scheduleLocked_generation _
  · exact scheduleLocked_applied _

theorem invalidates_reportChanged (notify : AdapterCall) (l : Lifecycle) :
    Invalidates l (l.reportChanged notify) := by
  unfold reportChanged
  by_cases hconn : l.connected = true
  · have hif : l.markDirty.connected = true := hconn
    simp only [hif, if_true]
    refine ⟨⟨rfl, fun _ => rfl, Or.inl, fun _ hno => ?_⟩, rfl, rfl⟩
    exact absurd (hconn.symm.trans hno) (by decide)
  · have hif : ¬l.markDirty.connected = true := hconn
    simp only [hif]
    refine ⟨(scheduled_scheduleLocked _).of_eq rfl rfl, ?_, ?_⟩
    · exact scheduleLocked_generation _
    · exact scheduleLocked_applied _

theorem processEnd_of_err (l : Lifecycle) (target : BitVec 32) {err : Int} (h : err ≠ 0) :
    l.processEnd target err = (l, []) := if_neg h

theorem scheduled_processEnd (l : Lifecycle) (target : BitVec 32) :
    Scheduled l (l.processEnd target 0) := by
  unfold processEnd
  simp only [if_true]
  split_ifs with h
  · exact (scheduled_scheduleLocked _).of_eq rfl rfl
  · refine ⟨rfl, fun _ => rfl, Or.inl, fun hready hconn hne => absurd ?_ h⟩
    simp only [Bool.and_eq_true, Bool.not_eq_true', decide_eq_true_eq]
    exact ⟨⟨hready, hconn⟩, hne⟩

end Lifecycle

namespace World

/-- With no call in progress, an invalidation that waits for its apply has a work item,
unless the last call failed. -/
def NoneLost (w : World) : Prop :=
  w.call = none → w.lifecycle.ready = true → w.lifecycle.connected = false →
    w.lifecycle.advertisingGeneration ≠ w.lifecycle.appliedGeneration →
    w.lifecycle.workPending = true ∧ w.workQueued = true ∨ ∃ err ∈ w.lastApply, err ≠ 0

instance : DecidablePred NoneLost := fun w =>
  inferInstanceAs (Decidable (w.call = none → _))

/-- A successful `start` does not return with an invalidation that came during its call,
unless the device is connected by then. -/
def StartUndisturbed (w : World) (e : LifecycleEvent) : Prop :=
  e = .applyReturn → ∀ c ∈ w.call, c.byStart = true → c.result = some 0 →
    c.invalidations ≠ 0 → w.lifecycle.connected = true

instance (w : World) (e : LifecycleEvent) : Decidable (w.StartUndisturbed e) := by
  unfold StartUndisturbed
  infer_instance

structure CallInvariant (w : World) (c : ApplyCall) : Prop where
  generation : w.lifecycle.advertisingGeneration =
    c.targetGeneration + BitVec.ofNat 32 c.invalidations
  le : c.invalidations ≤ w.invalidations
  unready : c.byStart = true → w.lifecycle.ready = false

structure Invariant (w : World) : Prop where
  unready : w.lifecycle.ready = false → w.lifecycle.workPending = false
  queued : w.lifecycle.workPending = true → w.workQueued = true
  noneLost : w.NoneLost
  call : ∀ c, w.call = some c → w.CallInvariant c

theorem invariant_init : init.Invariant :=
  ⟨fun _ => rfl, (fun h => nomatch h), (fun _ h => nomatch h), (fun _ h => nomatch h)⟩

/-! ## One lemma for each kind of step -/

theorem Invariant.invalidate {w : World} (hw : w.Invariant) {r : Lifecycle × List AdapterCall}
    (hr : Lifecycle.Invalidates w.lifecycle r) : (w.invalidate r).Invariant := by
  have hqueued : r.1.workPending = true →
      (w.workQueued || r.2.contains .scheduleWork) = true := by
    intro hpending
    rw [Bool.or_eq_true]
    rcases hr.queued hpending with h | h
    · exact Or.inl (hw.queued h)
    · exact Or.inr h
  refine ⟨?_, hqueued, ?_, ?_⟩
  · intro hready
    have hold : w.lifecycle.ready = false := hr.ready.symm.trans hready
    exact (hr.unready hold).trans (hw.unready hold)
  · intro _ hready hconn hne
    have hpending := hr.pending hready hconn hne
    exact Or.inl ⟨hpending, hqueued hpending⟩
  · intro c' hc'
    obtain ⟨c, hc, rfl⟩ := Option.map_eq_some_iff.mp hc'
    obtain ⟨hgen, hle, hunready⟩ := hw.call c hc
    refine ⟨?_, Nat.succ_le_succ hle, fun hstart => hr.ready.trans (hunready hstart)⟩
    show r.1.advertisingGeneration = c.targetGeneration + BitVec.ofNat 32 (c.invalidations + 1)
    rw [hr.generation, hgen, BitVec.ofNat_add, BitVec.add_assoc]
    rfl

theorem Invariant.disturb {w : World} (hw : w.Invariant) : w.disturb.Invariant := by
  refine ⟨hw.unready, hw.queued, ?_, ?_⟩
  · intro hcall
    exact hw.noneLost (Option.map_eq_none_iff.mp hcall)
  · intro c' hc'
    obtain ⟨c, hc, rfl⟩ := Option.map_eq_some_iff.mp hc'
    exact ⟨(hw.call c hc).generation, (hw.call c hc).le, (hw.call c hc).unready⟩

theorem Invariant.disconnect {w : World} (hw : w.Invariant) : w.disconnect.Invariant := by
  obtain ⟨h₁, h₂, h₃, h₄⟩ :=
    (hw.invalidate (Lifecycle.invalidates_onDisconnected w.lifecycle)).disturb
  exact ⟨h₁, h₂, h₃, fun c hc => ⟨(h₄ c hc).generation, (h₄ c hc).le, (h₄ c hc).unready⟩⟩

theorem Invariant.connect {w : World} (hw : w.Invariant) : w.connect.Invariant := by
  obtain ⟨h₁, h₂, -, h₄⟩ := hw.disturb
  refine ⟨h₁, h₂, (fun _ _ hconn => nomatch hconn), fun c hc => ?_⟩
  exact ⟨(h₄ c hc).generation, (h₄ c hc).le, (h₄ c hc).unready⟩

theorem Invariant.startCall {w t : World} (hw : w.Invariant) (ht : w.startCall = some t) :
    t.Invariant := by
  obtain ⟨hgen, hready, hpending, -⟩ := w.lifecycle.startBegin_spec
  obtain ⟨-, hnot, rfl⟩ := startCall_cases ht
  refine ⟨?_, ?_, (fun hcall => nomatch hcall), ?_⟩
  · intro hr
    exact hpending.trans (hw.unready (hready.symm.trans hr))
  · intro hp
    exact hw.queued (hpending.symm.trans hp)
  · intro c hc
    obtain rfl := Option.some.inj hc
    exact ⟨hgen.trans (BitVec.add_zero _).symm, Nat.zero_le _, fun _ => hready.trans hnot⟩

theorem invariant_processCall {w t : World} (ht : w.processCall = some t) : t.Invariant := by
  obtain ⟨hidle, ⟨-, rfl⟩ | ⟨hclean, rfl⟩⟩ := processCall_cases ht
  · refine ⟨fun _ => rfl, (fun h => nomatch h), (fun h => nomatch h), ?_⟩
    intro c hc
    obtain rfl := Option.some.inj hc
    exact ⟨(BitVec.add_zero _).symm, Nat.zero_le _, (fun h => nomatch h)⟩
  · refine ⟨fun _ => rfl, (fun h => nomatch h), ?_, ?_⟩
    · intro _ hready hconn hne
      exact absurd ⟨hready, hconn, hne⟩ hclean
    · intro c hc
      exact nomatch hidle.symm.trans hc

theorem Invariant.stackApply {w t : World} (hw : w.Invariant) {err : Int}
    (ht : w.stackApply err = some t) : t.Invariant := by
  obtain ⟨c, hcall, -, rfl⟩ := stackApply_cases ht
  obtain ⟨hgen, hle, hunready⟩ := hw.call c hcall
  refine ⟨hw.unready, hw.queued, (fun h => nomatch h), ?_⟩
  intro c' hc'
  obtain rfl := Option.some.inj hc'
  exact ⟨hgen, hle, hunready⟩

theorem Invariant.no_call {t : World} (hcall : t.call = none)
    (hunready : t.lifecycle.ready = false → t.lifecycle.workPending = false)
    (hqueued : t.lifecycle.workPending = true → t.workQueued = true) (hlost : t.NoneLost) :
    t.Invariant :=
  ⟨hunready, hqueued, hlost, fun _ hc => nomatch hcall.symm.trans hc⟩

theorem generation_ne {target : BitVec 32} {n : ℕ} (hn : n ≠ 0) (hlt : n < 2 ^ 32) :
    target + BitVec.ofNat 32 n ≠ target := by
  -- a generation reached by fewer than 2^32 invalidations differs from where they began
  intro h
  have hzero : BitVec.ofNat 32 n = 0 := by
    have hcancel := congrArg (fun x => x - target) h
    simpa [BitVec.add_sub_cancel, BitVec.add_comm] using hcancel
  have hmod := congrArg BitVec.toNat hzero
  rw [BitVec.toNat_ofNat, Nat.mod_eq_of_lt hlt] at hmod
  exact hn hmod

theorem Invariant.failed {w t : World} (hw : w.Invariant) (htcall : t.call = none)
    (hl : t.lifecycle = w.lifecycle) (hq : w.workQueued = true → t.workQueued = true) {err : Int}
    (hlast : t.lastApply = some err) (herr : err ≠ 0) : t.Invariant := by
  refine .no_call htcall ?_ ?_ fun _ _ _ _ => Or.inr ⟨err, hlast, herr⟩
  · rw [hl]
    exact hw.unready
  · rw [hl]
    exact fun hp => hq (hw.queued hp)

theorem Invariant.start_succeeded {w t : World} (hw : w.Invariant) {c : ApplyCall}
    (hcall : w.call = some c) (hstart : c.byStart = true) (htcall : t.call = none)
    (hl : t.lifecycle = w.lifecycle.startEnd c.targetGeneration 0)
    (hq : t.workQueued = w.workQueued)
    (hquiet : c.invalidations ≠ 0 → w.lifecycle.connected = true) : t.Invariant := by
  -- `start` relies on there having been no invalidation during its call
  obtain ⟨hgen, -, hunready⟩ := hw.call c hcall
  have hidle := hw.unready (hunready hstart)
  have hlifecycle : t.lifecycle = { w.lifecycle with
      ready := true, advertisingRunning := true, appliedGeneration := c.targetGeneration } := hl
  refine .no_call htcall ?_ ?_ ?_
  · rw [hlifecycle]
    exact fun _ => hidle
  · rw [hlifecycle, hq]
    exact hw.queued
  · rintro - - hconn hne
    rw [hlifecycle] at hconn hne
    refine absurd ?_ hne
    have hnone : c.invalidations = 0 := by
      by_contra hsome
      exact nomatch (hquiet hsome).symm.trans hconn
    rw [hnone] at hgen
    exact hgen.trans (BitVec.add_zero _)

theorem Invariant.process_succeeded {w t : World} (hw : w.Invariant) {target : BitVec 32}
    (htcall : t.call = none) (hl : t.lifecycle = (w.lifecycle.processEnd target 0).1)
    (hq : t.workQueued =
      (w.workQueued || (w.lifecycle.processEnd target 0).2.contains .scheduleWork)) :
    t.Invariant := by
  -- `process` looks at the generation again and schedules another work item if needed
  have hsched := w.lifecycle.scheduled_processEnd target
  have hqueued : t.lifecycle.workPending = true → t.workQueued = true := by
    intro hp
    rw [hl] at hp
    rcases hsched.queued hp with h | h
    · rw [hq, hw.queued h, Bool.true_or]
    · rw [hq, h, Bool.or_true]
  refine .no_call htcall ?_ hqueued ?_
  · intro hready
    rw [hl] at hready ⊢
    have hold := hsched.ready.symm.trans hready
    exact (hsched.unready hold).trans (hw.unready hold)
  · rintro - hready hconn hne
    rw [hl] at hready hconn hne
    have hpending := hsched.pending hready hconn hne
    rw [← hl] at hpending
    exact Or.inl ⟨hpending, hqueued hpending⟩

theorem Invariant.applyReturn {w t : World} (hw : w.Invariant)
    (ht : w.applyReturn = some t) (hgood : w.StartUndisturbed .applyReturn) : t.Invariant := by
  obtain ⟨c, err, hcall, hres, htcall, hlast, -, -, hend⟩ := applyReturn_cases ht
  by_cases herr : err = 0
  · subst herr
    rcases hend with ⟨hstart, hl, hq⟩ | ⟨-, hl, hq⟩
    · exact hw.start_succeeded hcall hstart htcall hl hq (hgood rfl c hcall hstart hres)
    · exact hw.process_succeeded htcall hl hq
  · rcases hend with ⟨-, hl, hq⟩ | ⟨-, hl, hq⟩
    · have hkept : t.lifecycle = w.lifecycle := hl.trans (if_neg herr)
      exact hw.failed htcall hkept (fun h => hq.trans h) hlast herr
    · rw [Lifecycle.processEnd_of_err _ _ herr] at hl hq
      refine hw.failed htcall hl (fun h => ?_) hlast herr
      rw [hq, h, Bool.true_or]

theorem not_noneLost_of_disturbed {w t : World} (hw : w.Invariant)
    (hbound : w.invalidations < 2 ^ 32) (ht : w.applyReturn = some t)
    (hbad : ¬w.StartUndisturbed .applyReturn) : ¬t.NoneLost := by
  unfold StartUndisturbed at hbad
  push Not at hbad
  obtain ⟨-, c, hcall, hstart, hres, hsome, hconn⟩ := hbad
  obtain ⟨c', err, hcall', hres', htcall, hlast, -, -, hend⟩ := applyReturn_cases ht
  obtain rfl := Option.some.inj (hcall.symm.trans hcall')
  obtain rfl := Option.some.inj (hres.symm.trans hres')
  obtain ⟨hgen, hle, hunready⟩ := hw.call c hcall
  have hpending := hw.unready (hunready hstart)
  rcases hend with ⟨-, hl, -⟩ | ⟨hprocess, -⟩
  · have hlifecycle : t.lifecycle = { w.lifecycle with
        ready := true, advertisingRunning := true, appliedGeneration := c.targetGeneration } := hl
    intro hlost
    have hdirty : w.lifecycle.advertisingGeneration ≠ c.targetGeneration := by
      rw [hgen]
      exact generation_ne hsome (lt_of_le_of_lt hle hbound)
    have hconn' : w.lifecycle.connected = false := by simpa using hconn
    unfold NoneLost at hlost
    rw [hlifecycle, hlast] at hlost
    rcases hlost htcall rfl hconn' hdirty with ⟨h, -⟩ | ⟨err, herr, hne⟩
    · exact nomatch hpending.symm.trans h
    · exact hne (Option.some.inj herr).symm
  · exact nomatch hstart.symm.trans hprocess

theorem Invariant.step {w t : World} (hw : w.Invariant) {e : LifecycleEvent}
    (ht : w.step e = some t) (hgood : w.StartUndisturbed e) : t.Invariant := by
  cases e with
  | startCall => exact hw.startCall ht
  | processCall => exact invariant_processCall ht
  | stackApply err => exact hw.stackApply ht
  | applyReturn => exact hw.applyReturn ht hgood
  | connected =>
    obtain rfl := Option.some.inj ht
    exact hw.connect
  | disconnected =>
    obtain rfl := Option.some.inj ht
    exact hw.disconnect
  | reportNfcFd =>
    obtain rfl := Option.some.inj ht
    exact hw.invalidate (Lifecycle.invalidates_reportNfcFd _)
  | reportBindingChanged =>
    obtain rfl := Option.some.inj ht
    exact hw.invalidate (Lifecycle.invalidates_reportChanged _ _)
  | reportLightChanged mode remainingS =>
    obtain rfl := Option.some.inj ht
    exact hw.invalidate (Lifecycle.invalidates_reportChanged _ _)

theorem not_noneLost_of_bad_step {w t : World} {e : LifecycleEvent} (hw : w.Invariant)
    (hbound : w.invalidations < 2 ^ 32) (ht : w.step e = some t)
    (hbad : ¬w.StartUndisturbed e) : ¬t.NoneLost := by
  have he : e = .applyReturn := by
    by_contra hne
    exact hbad fun h => absurd h hne
  subst he
  exact not_noneLost_of_disturbed hw hbound ht hbad

abbrev FewInvalidations (w : World) : Prop := w.invalidations < 2 ^ 32

/-- Along a run no invalidation is lost exactly when no successful `start` returns over
one that came during its call. -/
theorem noneLost_along_iff (events : List LifecycleEvent)
    (hbound : Runs.Along step FewInvalidations init events) :
    Runs.Along step NoneLost init events ↔ Runs.Meets step StartUndisturbed init events := by
  have himp : ∀ w : World, w.Invariant → w.NoneLost := fun _ hw => hw.noneLost
  exact Runs.along_iff_meets himp (fun _ _ _ hw _ ht hgood => hw.step ht hgood)
    (fun _ _ _ hw hQ ht hbad => not_noneLost_of_bad_step hw hQ ht hbad) invariant_init hbound

theorem noneLost_along_process : Runs.Along step NoneLost init
    [.startCall, .stackApply 0, .applyReturn, .reportNfcFd, .processCall, .reportNfcFd,
      .stackApply 0, .applyReturn, .processCall, .stackApply 0, .applyReturn] :=
  (noneLost_along_iff _ (by decide)).mpr (by decide)

theorem not_noneLost_report_during_start :
    Runs.Along step FewInvalidations init [.startCall, .reportNfcFd, .stackApply 0, .applyReturn] ∧
    ¬Runs.Along step NoneLost init [.startCall, .reportNfcFd, .stackApply 0, .applyReturn] := by
  decide

end World
end PartRack
