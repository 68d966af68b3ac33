import PartRack.Lifecycle.Invalidations

/-! Whether the device advertises. The flag `advertising_running` is cleared by every
connection event and set when a call succeeds, also when such an event came during the
call. -/

namespace PartRack

namespace Lifecycle

@[simp] theorem onDisconnected_running (l : Lifecycle) :
    l.onDisconnected.1.advertisingRunning = false := scheduleLocked_running _

@[simp] theorem reportNfcFd_running (l : Lifecycle) :
    l.reportNfcFd.1.advertisingRunning = l.advertisingRunning := scheduleLocked_running _

@[simp] theorem reportChanged_running (notify : AdapterCall) (l : Lifecycle) :
    (l.reportChanged notify).1.advertisingRunning = l.advertisingRunning := by
  unfold reportChanged
  dsimp only
  split_ifs
  · rfl
  · exact scheduleLocked_running _

theorem processEnd_running (l : Lifecycle) (target : BitVec 32) (err : Int) :
    (l.processEnd target err).1.advertisingRunning =
      if err = 0 then true else l.advertisingRunning := by
  unfold processEnd
  dsimp only
  split_ifs
  · exact scheduleLocked_running _
  · rfl
  · rfl

theorem startEnd_running (l : Lifecycle) (target : BitVec 32) (err : Int) :
    (l.startEnd target err).advertisingRunning =
      if err = 0 then true else l.advertisingRunning := by
  unfold startEnd
  split_ifs <;> rfl

end Lifecycle

namespace World

/-- With no call in progress the flag tells the truth, and it is not set while a restart
is owed; a call made while a restart was owed is a restart. -/
structure Truthful (w : World) : Prop where
  running : w.call = none → w.lifecycle.advertisingRunning = true → w.stackAdvertising = true
  owed : w.call = none → w.restartOwed = true → w.lifecycle.advertisingRunning = false
  restart : ∀ c ∈ w.call, c.owed = true → c.restart = true

instance : DecidablePred Truthful := fun w =>
  decidable_of_iff
    ((w.call = none → w.lifecycle.advertisingRunning = true → w.stackAdvertising = true) ∧
      (w.call = none → w.restartOwed = true → w.lifecycle.advertisingRunning = false) ∧
      ∀ c ∈ w.call, c.owed = true → c.restart = true)
    ⟨fun ⟨h₁, h₂, h₃⟩ => ⟨h₁, h₂, h₃⟩, fun ⟨h₁, h₂, h₃⟩ => ⟨h₁, h₂, h₃⟩⟩

/-- A call that succeeds does not return over a connection event that came after the call
had taken effect. -/
def CallUndisturbed (w : World) (e : LifecycleEvent) : Prop :=
  e = .applyReturn → ∀ c ∈ w.call, c.result = some 0 → c.disturbed = false

instance (w : World) (e : LifecycleEvent) : Decidable (w.CallUndisturbed e) := by
  unfold CallUndisturbed
  infer_instance

/-- The advertiser runs and no restart is owed. -/
abbrev Settled (w : World) : Prop := w.stackAdvertising = true ∧ w.restartOwed = false

/-- A call that has taken effect leaves the advertiser settled until it is disturbed, and
not from then on. -/
structure CallEffect (w : World) (c : ApplyCall) : Prop where
  restart : c.owed = true → c.restart = true
  undisturbed : c.disturbed = false → c.restart = false ∨ c.result = some 0 → w.Settled
  disturbed : c.disturbed = true → ¬w.Settled ∧ (c.restart = false ∨ c.result.isSome = true)

structure AdvertisingInvariant (w : World) : Prop where
  running : w.lifecycle.advertisingRunning = true → w.Settled
  call : ∀ c ∈ w.call, w.CallEffect c

theorem AdvertisingInvariant.truthful {w : World} (hw : w.AdvertisingInvariant) :
    w.Truthful := by
  refine ⟨fun _ hr => (hw.running hr).1, ?_, fun c hc => (hw.call c hc).restart⟩
  intro _ howed
  by_contra hr
  have hset := hw.running (by simpa using hr)
  exact nomatch howed.symm.trans hset.2

theorem advertisingInvariant_init : init.AdvertisingInvariant :=
  ⟨(fun h => nomatch h), (fun _ h => nomatch h)⟩

/-! ## One lemma for each kind of step -/

theorem AdvertisingInvariant.startCall {w t : World} (hw : w.AdvertisingInvariant)
    (ht : w.startCall = some t) : t.AdvertisingInvariant := by
  obtain ⟨-, -, -, hrunning⟩ := w.lifecycle.startBegin_spec
  obtain ⟨-, -, rfl⟩ := startCall_cases ht
  refine ⟨fun hr => hw.running (hrunning.symm.trans hr), ?_⟩
  intro c hc
  obtain rfl := Option.some.inj hc
  refine ⟨fun _ => rfl, ?_, (fun h => nomatch h)⟩
  rintro - (h | h)
  · exact nomatch h
  · exact nomatch h

theorem AdvertisingInvariant.processCall {w t : World} (hw : w.AdvertisingInvariant)
    (ht : w.processCall = some t) : t.AdvertisingInvariant := by
  obtain ⟨hidle, ⟨-, rfl⟩ | ⟨-, rfl⟩⟩ := processCall_cases ht
  · refine ⟨hw.running, ?_⟩
    intro c hc
    obtain rfl := Option.some.inj hc
    refine ⟨?_, ?_, (fun h => nomatch h)⟩
    · intro howed
      have hstopped := hw.truthful.owed hidle howed
      show (!w.lifecycle.advertisingRunning) = true
      rw [hstopped]
      rfl
    · rintro - (hrestart | h)
      · exact hw.running (by simpa using hrestart)
      · exact nomatch h
  · exact ⟨hw.running, fun c hc => nomatch hidle.symm.trans hc⟩

theorem AdvertisingInvariant.stackApply {w t : World} (hw : w.AdvertisingInvariant) {err : Int}
    (ht : w.stackApply err = some t) : t.AdvertisingInvariant := by
  obtain ⟨c, hcall, hres, rfl⟩ := stackApply_cases ht
  have hset : w.Settled → (w.stackAdvertising || (decide (err = 0) && c.restart)) = true ∧
      (w.restartOwed && !(decide (err = 0) && c.restart)) = false := by
    rintro ⟨h1, h2⟩
    exact ⟨by rw [h1, Bool.true_or], by rw [h2, Bool.false_and]⟩
  obtain ⟨hrestart, hund, hdist⟩ := hw.call c hcall
  refine ⟨fun hr => hset (hw.running hr), ?_⟩
  intro c' hc'
  obtain rfl := Option.some.inj hc'
  refine ⟨hrestart, ?_, ?_⟩
  · rintro hno (hupdate | hok)
    · exact hset (hund hno (Or.inl hupdate))
    · obtain rfl := Option.some.inj hok
      by_cases hr : c.restart = true
      · simp [Settled, hr]
      · exact hset (hund hno (Or.inl (by simpa using hr)))
  · intro hyes
    obtain ⟨hnot, hupdate | hdone⟩ := hdist hyes
    · refine ⟨?_, Or.inl hupdate⟩
      simpa [Settled, hupdate] using hnot
    · rw [hres] at hdone
      exact nomatch hdone

theorem AdvertisingInvariant.invalidate {w : World} (hw : w.AdvertisingInvariant)
    {r : Lifecycle × List AdapterCall}
    (hr : r.1.advertisingRunning = true → w.lifecycle.advertisingRunning = true) :
    (w.invalidate r).AdvertisingInvariant := by
  refine ⟨fun h => hw.running (hr h), ?_⟩
  intro c' hc'
  obtain ⟨c, hc, rfl⟩ := Option.map_eq_some_iff.mp hc'
  obtain ⟨hrestart, hund, hdist⟩ := hw.call c hc
  exact ⟨hrestart, hund, hdist⟩

theorem AdvertisingInvariant.unsettle {w t : World} (hw : w.AdvertisingInvariant)
    (hcall : t.call = w.call.map ApplyCall.disturb)
    (hrunning : t.lifecycle.advertisingRunning = false) (hset : ¬t.Settled) :
    t.AdvertisingInvariant := by
  refine ⟨(fun hr => nomatch hrunning.symm.trans hr), ?_⟩
  intro c' hc'
  rw [Option.mem_def, hcall] at hc'
  obtain ⟨c, hc, rfl⟩ := Option.map_eq_some_iff.mp hc'
  obtain ⟨hrestart, -, hdist⟩ := hw.call c hc
  refine ⟨hrestart, ?_, ?_⟩
  · intro hno heffect
    simp only [ApplyCall.disturb, Bool.or_eq_false_iff, Bool.not_eq_false'] at hno
    obtain ⟨⟨-, hrestart⟩, hpending⟩ := hno
    rcases heffect with hupdate | hdone
    · exact nomatch hrestart.symm.trans hupdate
    · have hdone : c.result = some 0 := hdone
      rw [hdone] at hpending
      exact nomatch hpending
  · intro hyes
    refine ⟨hset, ?_⟩
    simp only [ApplyCall.disturb, Bool.or_eq_true, Bool.not_eq_true'] at hyes
    rcases hyes with (hyes | hupdate) | hdone
    · exact (hdist hyes).2
    · exact Or.inl hupdate
    · exact Or.inr hdone

theorem AdvertisingInvariant.applyReturn {w t : World} (hw : w.AdvertisingInvariant)
    (ht : w.applyReturn = some t) (hgood : w.CallUndisturbed .applyReturn) :
    t.AdvertisingInvariant := by
  obtain ⟨c, err, hcall, hres, htcall, -, hstack, howed, hend⟩ := applyReturn_cases ht
  have hrunning : t.lifecycle.advertisingRunning =
      if err = 0 then true else w.lifecycle.advertisingRunning := by
    rcases hend with ⟨-, hl, -⟩ | ⟨-, hl, -⟩
    · rw [hl, Lifecycle.startEnd_running]
    · rw [hl, Lifecycle.processEnd_running]
  refine ⟨?_, fun c hc => nomatch htcall.symm.trans hc⟩
  intro hr
  show t.stackAdvertising = true ∧ t.restartOwed = false
  rw [hstack, howed]
  by_cases herr : err = 0
  · subst herr
    exact (hw.call c hcall).undisturbed (hgood rfl c hcall hres) (Or.inr hres)
  · rw [hrunning, if_neg herr] at hr
    exact hw.running hr

theorem not_truthful_of_disturbed {w t : World} (hw : w.AdvertisingInvariant)
    (ht : w.applyReturn = some t) (hbad : ¬w.CallUndisturbed .applyReturn) : ¬t.Truthful := by
  unfold CallUndisturbed at hbad
  push Not at hbad
  obtain ⟨-, c, hcall, hres, hdist⟩ := hbad
  obtain ⟨c', err, hcall', hres', htcall, -, hstack, howed, hend⟩ := applyReturn_cases ht
  obtain rfl := Option.some.inj (hcall.symm.trans hcall')
  obtain rfl := Option.some.inj (hres.symm.trans hres')
  have hrunning : t.lifecycle.advertisingRunning = true := by
    rcases hend with ⟨-, hl, -⟩ | ⟨-, hl, -⟩
    · rw [hl, Lifecycle.startEnd_running, if_pos rfl]
    · rw [hl, Lifecycle.processEnd_running, if_pos rfl]
  have hnot := ((hw.call c hcall).disturbed (by simpa using hdist)).1
  intro htruth
  refine hnot ⟨hstack.symm.trans (htruth.running htcall hrunning), ?_⟩
  by_contra howes
  have hidle := htruth.owed htcall (howed.trans (by simpa using howes))
  exact nomatch hrunning.symm.trans hidle

/-! ## Runs -/

theorem AdvertisingInvariant.step {w t : World} (hw : w.AdvertisingInvariant)
    {e : LifecycleEvent} (ht : w.step e = some t) (hgood : w.CallUndisturbed e) :
    t.AdvertisingInvariant := by
  cases e with
  | startCall => exact hw.startCall ht
  | processCall => exact hw.processCall ht
  | stackApply err => exact hw.stackApply ht
  | applyReturn => exact hw.applyReturn ht hgood
  | connected =>
    obtain rfl := Option.some.inj ht
    exact hw.unsettle rfl rfl (fun h => nomatch h.1)
  | disconnected =>
    obtain rfl := Option.some.inj ht
    have hinv : (w.invalidate w.lifecycle.onDisconnected).AdvertisingInvariant :=
      hw.invalidate fun h => nomatch (Lifecycle.onDisconnected_running _).symm.trans h
    exact hinv.unsettle rfl (Lifecycle.onDisconnected_running _) (fun h => nomatch h.2)
  | reportNfcFd =>
    obtain rfl := Option.some.inj ht
    exact hw.invalidate fun h => (Lifecycle.reportNfcFd_running _).symm.trans h
  | reportBindingChanged =>
    obtain rfl := Option.some.inj ht
    exact hw.invalidate fun h => (Lifecycle.reportChanged_running _ _).symm.trans h
  | reportLightChanged mode remainingS =>
    obtain rfl := Option.some.inj ht
    exact hw.invalidate fun h => (Lifecycle.reportChanged_running _ _).symm.trans h

theorem not_truthful_of_bad_step {w t : World} {e : LifecycleEvent}
    (hw : w.AdvertisingInvariant) (ht : w.step e = some t) (hbad : ¬w.CallUndisturbed e) :
    ¬t.Truthful := by
  have he : e = .applyReturn := by
    by_contra hne
    exact hbad fun h => absurd h hne
  subst he
  exact not_truthful_of_disturbed hw ht hbad

/-- Along a run the flag tells the truth, and every call owed as a restart is one, exactly
when no connection event comes between the effect of a successful call and its return. -/
theorem truthful_along_iff (events : List LifecycleEvent) :
    Runs.Along step Truthful init events ↔ Runs.Meets step CallUndisturbed init events := by
  have htrivial : Runs.Along step (fun _ => True) init events :=
    Runs.along_of_invariant (fun _ _ _ _ _ => trivial) trivial events
  have himp : ∀ w : World, w.AdvertisingInvariant → w.Truthful := fun _ hw => hw.truthful
  exact Runs.along_iff_meets himp (fun _ _ _ hw _ ht hgood => hw.step ht hgood)
    (fun _ _ _ hw _ ht hbad => not_truthful_of_bad_step hw ht hbad) advertisingInvariant_init
    htrivial

theorem not_truthful_connection_during_start :
    ¬Runs.Along step Truthful init
      [.startCall, .stackApply 0, .connected, .disconnected, .applyReturn] := by
  decide

end World
end PartRack
