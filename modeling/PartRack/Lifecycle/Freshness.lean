import PartRack.AdvPayload
import PartRack.Lifecycle.Invalidations

/-! What an advertisement that is not dirty tells about the device. `apply_advertising`
fills in the payload from the state of the table and the light (fill_adv_msd of
firmware/nrf52/app/src/app_ble.c), which change among the events of the lifecycle and are
reported to it later. -/

namespace PartRack

/-- `vbrk_ble_lifecycle_is_advertising_dirty`. -/
def Lifecycle.isAdvertisingDirty (l : Lifecycle) : Bool :=
  decide (l.advertisingGeneration ≠ l.appliedGeneration)

namespace Lifecycle

theorem processEnd_generation (l : Lifecycle) (target : BitVec 32) :
    (l.processEnd target 0).1.advertisingGeneration = l.advertisingGeneration := by
  unfold processEnd
  simp only [if_true]
  split_ifs
  · exact scheduleLocked_generation _
  · rfl

theorem processEnd_applied (l : Lifecycle) (target : BitVec 32) :
    (l.processEnd target 0).1.appliedGeneration = target := by
  unfold processEnd
  simp only [if_true]
  split_ifs
  · exact scheduleLocked_applied _
  · rfl

end Lifecycle

/-- What the payload is filled in from. The counts only record the past: how often the
table and the light have changed so far. -/
structure Domain where
  tableSeq : BitVec 32
  hasUnboundSlot : Bool
  lightMode : Byte
  tableChanges : ℕ
  lightChanges : ℕ
deriving DecidableEq, Repr

/-- `fill_adv_msd`. -/
def fillAdvMsd (d : Domain) (batteryPct : Byte) (fault : Bool) : List Byte :=
  AdvPayload.build (some {
    companyId := devCompanyId
    batchId := 1
    batteryPct := batteryPct
    tableSeq := d.tableSeq
    hasUnboundSlot := d.hasUnboundSlot
    lightActive := decide (d.lightMode ≠ 0)
    fault := fault })

/-- A payload, with the state it was filled in from. -/
structure Filled where
  domain : Domain
  advMsd : List Byte
deriving DecidableEq, Repr

/-- The payload of the last successful `apply_advertising`, with the number of
invalidations since that call began. -/
structure Applied where
  filled : Filled
  invalidations : ℕ
deriving DecidableEq, Repr

/-- The lifecycle among its callers, and the state it advertises. `tableReported` and
`lightReported` count the changes that have been reported; `filled` is what the call in
progress has filled in. -/
structure Beacon where
  world : World
  domain : Domain
  tableReported : ℕ
  lightReported : ℕ
  filled : Option Filled
  applied : Option Applied
deriving DecidableEq, Repr

inductive BeaconEvent
  | lifecycle (event : LifecycleEvent)
  | tableChange (tableSeq : BitVec 32) (hasUnboundSlot : Bool)
  | lightChange (lightMode : Byte)
  | fillAdvMsd (batteryPct : Byte) (fault : Bool)
deriving DecidableEq, Repr

namespace Domain

def changeTable (d : Domain) (tableSeq : BitVec 32) (hasUnboundSlot : Bool) : Domain :=
  { d with
    tableSeq := tableSeq
    hasUnboundSlot := hasUnboundSlot
    tableChanges := d.tableChanges + 1 }

def changeLight (d : Domain) (lightMode : Byte) : Domain :=
  { d with lightMode := lightMode, lightChanges := d.lightChanges + 1 }

end Domain

namespace Beacon

def init (tableSeq : BitVec 32) (hasUnboundSlot : Bool) (lightMode : Byte) : Beacon :=
  ⟨World.init, ⟨tableSeq, hasUnboundSlot, lightMode, 0, 0⟩, 0, 0, none, none⟩

/-- The payload that a successful call leaves applied. -/
def settle (b : Beacon) : Option Applied :=
  match b.world.call, b.filled with
  | some c, some f => if c.result = some 0 then some ⟨f, c.invalidations⟩ else b.applied
  | _, _ => b.applied

def countInvalidation (b : Beacon) : Option Applied :=
  b.applied.map fun a => { a with invalidations := a.invalidations + 1 }

/-- The records of the past after an event of the lifecycle, which leads to `w`. -/
def follow (b : Beacon) (w : World) : LifecycleEvent → Beacon
  | .startCall | .processCall => { b with world := w, filled := none }
  | .applyReturn => { b with world := w, filled := none, applied := b.settle }
  | .reportBindingChanged => { b with
      world := w, applied := b.countInvalidation, tableReported := b.domain.tableChanges }
  | .reportLightChanged _ _ => { b with
      world := w, applied := b.countInvalidation, lightReported := b.domain.lightChanges }
  | .reportNfcFd | .disconnected => { b with world := w, applied := b.countInvalidation }
  | .connected | .stackApply _ => { b with world := w }

/-- The payload is filled in once in a call, before the stack acts on it. -/
def fillStep (batteryPct : Byte) (fault : Bool) (b : Beacon) : Option Beacon :=
  match b.world.call with
  | some c =>
    if c.result = none ∧ b.filled = none then
      some { b with filled := some ⟨b.domain, fillAdvMsd b.domain batteryPct fault⟩ }
    else none
  | none => none

/-- The stack has nothing to act on before the payload is filled in. -/
def Enabled (b : Beacon) : LifecycleEvent → Prop
  | .stackApply _ => b.filled ≠ none
  | _ => True

instance (b : Beacon) : (e : LifecycleEvent) → Decidable (b.Enabled e)
  | .stackApply _ => inferInstanceAs (Decidable (b.filled ≠ none))
  | .startCall | .processCall | .applyReturn | .connected | .disconnected | .reportNfcFd
  | .reportBindingChanged | .reportLightChanged _ _ => isTrue trivial

def step (b : Beacon) : BeaconEvent → Option Beacon
  | .lifecycle e => if b.Enabled e then (b.world.step e).map fun w => b.follow w e else none
  | .tableChange tableSeq hasUnboundSlot =>
    some { b with domain := b.domain.changeTable tableSeq hasUnboundSlot }
  | .lightChange lightMode => some { b with domain := b.domain.changeLight lightMode }
  | .fillAdvMsd batteryPct fault => b.fillStep batteryPct fault

end Beacon

/-! ## States of the device -/

namespace Domain

/-- An earlier state: as many changes or fewer, and the same values where the counts are
the same. -/
structure Precedes (d d' : Domain) : Prop where
  table_le : d.tableChanges ≤ d'.tableChanges
  light_le : d.lightChanges ≤ d'.lightChanges
  table_eq : d.tableChanges = d'.tableChanges →
    d.tableSeq = d'.tableSeq ∧ d.hasUnboundSlot = d'.hasUnboundSlot
  light_eq : d.lightChanges = d'.lightChanges → d.lightMode = d'.lightMode

theorem Precedes.refl (d : Domain) : d.Precedes d :=
  ⟨Nat.le_refl _, Nat.le_refl _, fun _ => ⟨rfl, rfl⟩, fun _ => rfl⟩

theorem Precedes.changeTable {d d' : Domain} (h : d.Precedes d') (tableSeq : BitVec 32)
    (hasUnboundSlot : Bool) : d.Precedes (d'.changeTable tableSeq hasUnboundSlot) := by
  refine ⟨Nat.le_succ_of_le h.table_le, h.light_le, fun heq => ?_, h.light_eq⟩
  exact absurd heq (Nat.ne_of_lt (Nat.lt_succ_of_le h.table_le))

theorem Precedes.changeLight {d d' : Domain} (h : d.Precedes d') (lightMode : Byte) :
    d.Precedes (d'.changeLight lightMode) := by
  refine ⟨h.table_le, Nat.le_succ_of_le h.light_le, h.table_eq, fun heq => ?_⟩
  exact absurd heq (Nat.ne_of_lt (Nat.lt_succ_of_le h.light_le))

theorem Precedes.eq {d d' : Domain} (h : d.Precedes d') (htable : d'.tableChanges ≤ d.tableChanges)
    (hlight : d'.lightChanges ≤ d.lightChanges) : d = d' := by
  have ht := Nat.le_antisymm h.table_le htable
  have hl := Nat.le_antisymm h.light_le hlight
  obtain ⟨hseq, hunbound⟩ := h.table_eq ht
  have hmode := h.light_eq hl
  cases d
  cases d'
  simp only at ht hl hseq hunbound hmode
  rw [ht, hl, hseq, hunbound, hmode]

end Domain

namespace Filled

/-- The payload of an earlier state of the device. -/
structure From (f : Filled) (d : Domain) : Prop where
  advMsd : ∃ batteryPct fault, f.advMsd = fillAdvMsd f.domain batteryPct fault
  precedes : f.domain.Precedes d

/-- Every change reported so far had been made when the payload was filled in. -/
structure Covers (f : Filled) (tableReported lightReported : ℕ) : Prop where
  table : tableReported ≤ f.domain.tableChanges
  light : lightReported ≤ f.domain.lightChanges

theorem From.changeTable {f : Filled} {d : Domain} (h : f.From d) (tableSeq : BitVec 32)
    (hasUnboundSlot : Bool) : f.From (d.changeTable tableSeq hasUnboundSlot) :=
  ⟨h.advMsd, h.precedes.changeTable tableSeq hasUnboundSlot⟩

theorem From.changeLight {f : Filled} {d : Domain} (h : f.From d) (lightMode : Byte) :
    f.From (d.changeLight lightMode) := ⟨h.advMsd, h.precedes.changeLight lightMode⟩

end Filled

/-! ## The invariant -/

namespace Beacon

/-- A call in progress: the generation has moved by the invalidations since it began. -/
structure CallInvariant (b : Beacon) (c : ApplyCall) : Prop where
  generation : b.world.lifecycle.advertisingGeneration =
    c.targetGeneration + BitVec.ofNat 32 c.invalidations
  filled : c.result ≠ none → b.filled ≠ none
  covers : ∀ f, b.filled = some f → c.invalidations = 0 →
    f.Covers b.tableReported b.lightReported
  ready : c.byStart = false → b.world.lifecycle.ready = true

/-- The payload applied: the generation has moved by the invalidations since its call. -/
structure AppliedInvariant (b : Beacon) (a : Applied) : Prop where
  generation : b.world.lifecycle.advertisingGeneration =
    b.world.lifecycle.appliedGeneration + BitVec.ofNat 32 a.invalidations
  source : a.filled.From b.domain
  covers : a.invalidations = 0 → a.filled.Covers b.tableReported b.lightReported

structure Invariant (b : Beacon) : Prop where
  table : b.tableReported ≤ b.domain.tableChanges
  light : b.lightReported ≤ b.domain.lightChanges
  ready : b.world.lifecycle.ready = true ↔ b.applied ≠ none
  filled : ∀ f, b.filled = some f → f.From b.domain
  call : ∀ c, b.world.call = some c → b.CallInvariant c
  applied : ∀ a, b.applied = some a → b.AppliedInvariant a

theorem invariant_init (tableSeq : BitVec 32) (hasUnboundSlot : Bool) (lightMode : Byte) :
    (init tableSeq hasUnboundSlot lightMode).Invariant := by
  refine ⟨Nat.le_refl _, Nat.le_refl _, ?_, ?_, ?_, ?_⟩
  · exact iff_of_false Bool.false_ne_true (fun h => h rfl)
  · exact fun _ hf => absurd hf.symm (Option.some_ne_none _)
  · exact fun _ hc => absurd hc.symm (Option.some_ne_none _)
  · exact fun _ ha => absurd ha.symm (Option.some_ne_none _)

/-! ### Changes of the device, and the payload -/

theorem Invariant.tableChange {b : Beacon} (hb : b.Invariant) (tableSeq : BitVec 32)
    (hasUnboundSlot : Bool) :
    Invariant { b with domain := b.domain.changeTable tableSeq hasUnboundSlot } := by
  refine ⟨Nat.le_succ_of_le hb.table, hb.light, hb.ready, ?_, ?_, ?_⟩
  · exact fun f hf => (hb.filled f hf).changeTable _ _
  · intro c hc
    obtain ⟨hgen, hfilled, hcovers, hready⟩ := hb.call c hc
    exact ⟨hgen, hfilled, hcovers, hready⟩
  · intro a ha
    obtain ⟨hgen, hsource, hcovers⟩ := hb.applied a ha
    exact ⟨hgen, hsource.changeTable _ _, hcovers⟩

theorem Invariant.lightChange {b : Beacon} (hb : b.Invariant) (lightMode : Byte) :
    Invariant { b with domain := b.domain.changeLight lightMode } := by
  refine ⟨hb.table, Nat.le_succ_of_le hb.light, hb.ready, ?_, ?_, ?_⟩
  · exact fun f hf => (hb.filled f hf).changeLight _
  · intro c hc
    obtain ⟨hgen, hfilled, hcovers, hready⟩ := hb.call c hc
    exact ⟨hgen, hfilled, hcovers, hready⟩
  · intro a ha
    obtain ⟨hgen, hsource, hcovers⟩ := hb.applied a ha
    exact ⟨hgen, hsource.changeLight _, hcovers⟩

theorem fillStep_cases {b b' : Beacon} {batteryPct : Byte} {fault : Bool}
    (h : b.fillStep batteryPct fault = some b') :
    b' = { b with filled := some ⟨b.domain, fillAdvMsd b.domain batteryPct fault⟩ } := by
  unfold fillStep at h
  cases hcall : b.world.call with
  | none =>
    rw [hcall] at h
    exact absurd h.symm (Option.some_ne_none _)
  | some c =>
    simp only [hcall] at h
    split_ifs at h
    exact (Option.some.inj h).symm

theorem Invariant.fillStep {b b' : Beacon} (hb : b.Invariant) {batteryPct : Byte} {fault : Bool}
    (h : b.fillStep batteryPct fault = some b') : b'.Invariant := by
  -- the payload filled in now tells of every change reported so far
  rw [fillStep_cases h]
  refine ⟨hb.table, hb.light, hb.ready, ?_, ?_, ?_⟩
  · intro f hf
    obtain rfl := Option.some.inj hf
    exact ⟨⟨batteryPct, fault, rfl⟩, Domain.Precedes.refl _⟩
  · intro c hc
    obtain ⟨hgen, -, -, hready⟩ := hb.call c hc
    refine ⟨hgen, fun _ => Option.some_ne_none _, fun f hf _ => ?_, hready⟩
    obtain rfl := Option.some.inj hf
    exact ⟨hb.table, hb.light⟩
  · intro a ha
    obtain ⟨hgen, hsource, hcovers⟩ := hb.applied a ha
    exact ⟨hgen, hsource, hcovers⟩

/-! ### Events of the lifecycle -/

/-- One invalidation, counted in the call in progress. -/
structure Invalidated (w t : World) : Prop where
  generation : t.lifecycle.advertisingGeneration = w.lifecycle.advertisingGeneration + 1
  applied : t.lifecycle.appliedGeneration = w.lifecycle.appliedGeneration
  ready : t.lifecycle.ready = w.lifecycle.ready
  call : ∀ c', t.call = some c' → ∃ c, w.call = some c ∧ c'.byStart = c.byStart ∧
    c'.targetGeneration = c.targetGeneration ∧ c'.result = c.result ∧
    c'.invalidations = c.invalidations + 1

theorem invalidated_invalidate {w : World} {r : Lifecycle × List AdapterCall}
    (hr : Lifecycle.Invalidates w.lifecycle r) : Invalidated w (w.invalidate r) := by
  refine ⟨hr.generation, hr.applied, hr.ready, fun c' hc' => ?_⟩
  obtain ⟨c, hc, rfl⟩ := Option.map_eq_some_iff.mp hc'
  exact ⟨c, hc, rfl, rfl, rfl, rfl⟩

theorem invalidated_disconnect (w : World) : Invalidated w w.disconnect := by
  have hr := Lifecycle.invalidates_onDisconnected w.lifecycle
  refine ⟨hr.generation, hr.applied, hr.ready, fun c' hc' => ?_⟩
  obtain ⟨c₁, hc₁, rfl⟩ := Option.map_eq_some_iff.mp hc'
  obtain ⟨c, hc, rfl⟩ := Option.map_eq_some_iff.mp hc₁
  exact ⟨c, hc, rfl, rfl, rfl, rfl⟩

theorem ofNat_succ_invalidations (g : BitVec 32) (n : ℕ) :
    g + BitVec.ofNat 32 n + 1 = g + BitVec.ofNat 32 (n + 1) := by
  rw [BitVec.ofNat_add, BitVec.add_assoc]
  rfl

theorem Invariant.invalidated {b : Beacon} (hb : b.Invariant) {t : World}
    (ht : Invalidated b.world t) {tableReported lightReported : ℕ}
    (htable : tableReported ≤ b.domain.tableChanges)
    (hlight : lightReported ≤ b.domain.lightChanges) :
    Invariant { b with
      world := t
      applied := b.countInvalidation
      tableReported := tableReported
      lightReported := lightReported } := by
  refine ⟨htable, hlight, ?_, hb.filled, ?_, ?_⟩
  · show t.lifecycle.ready = true ↔ b.countInvalidation ≠ none
    rw [ht.ready, hb.ready, countInvalidation, ne_eq, ne_eq, Option.map_eq_none_iff]
  · intro c' hc'
    obtain ⟨c, hc, hstart, htarget, hresult, hcount⟩ := ht.call c' hc'
    obtain ⟨hgen, hfilled, -, hready⟩ := hb.call c hc
    refine ⟨?_, ?_, fun f _ hzero => ?_, ?_⟩
    · show t.lifecycle.advertisingGeneration = _
      rw [ht.generation, hgen, htarget, hcount, ofNat_succ_invalidations]
    · rwa [hresult]
    · exact absurd (hcount.symm.trans hzero) (Nat.succ_ne_zero _)
    · rw [hstart]
      exact fun h => ht.ready.trans (hready h)
  · intro a' ha'
    obtain ⟨a, ha, rfl⟩ := Option.map_eq_some_iff.mp ha'
    obtain ⟨hgen, hsource, -⟩ := hb.applied a ha
    refine ⟨?_, hsource, fun hzero => absurd hzero (Nat.succ_ne_zero _)⟩
    show t.lifecycle.advertisingGeneration = _
    rw [ht.generation, hgen, ofNat_succ_invalidations]
    exact congrArg (· + _) ht.applied.symm

theorem Invariant.begun {b : Beacon} (hb : b.Invariant) {t : World}
    (hready : t.lifecycle.ready = b.world.lifecycle.ready)
    (hcall : ∀ c, t.call = some c → c.targetGeneration = t.lifecycle.advertisingGeneration ∧
      c.result = none ∧ c.invalidations = 0 ∧ (c.byStart = false → t.lifecycle.ready = true))
    (hgen : b.applied ≠ none →
      t.lifecycle.advertisingGeneration = b.world.lifecycle.advertisingGeneration ∧
      t.lifecycle.appliedGeneration = b.world.lifecycle.appliedGeneration) :
    Invariant { b with world := t, filled := none } := by
  refine ⟨hb.table, hb.light, ?_, ?_, ?_, ?_⟩
  · show t.lifecycle.ready = true ↔ _
    rw [hready]
    exact hb.ready
  · exact fun _ hf => absurd hf.symm (Option.some_ne_none _)
  · intro c hc
    obtain ⟨htarget, hresult, hcount, hprocess⟩ := hcall c hc
    refine ⟨?_, fun h => absurd hresult h, fun _ hf => ?_, hprocess⟩
    · rw [htarget, hcount]
      exact (BitVec.add_zero _).symm
    · exact absurd hf.symm (Option.some_ne_none _)
  · intro a ha
    obtain ⟨hold, hsource, hcovers⟩ := hb.applied a ha
    have hsome : b.applied ≠ none := by
      rw [show b.applied = some a from ha]
      exact Option.some_ne_none a
    obtain ⟨hadv, happ⟩ := hgen hsome
    refine ⟨?_, hsource, hcovers⟩
    show t.lifecycle.advertisingGeneration = t.lifecycle.appliedGeneration + _
    rw [hadv, happ, hold]

theorem Invariant.startCall {b : Beacon} (hb : b.Invariant) {t : World}
    (ht : b.world.startCall = some t) : Invariant { b with world := t, filled := none } := by
  obtain ⟨hgen, hready, -, -⟩ := b.world.lifecycle.startBegin_spec
  obtain ⟨-, hnot, rfl⟩ := World.startCall_cases ht
  refine hb.begun hready ?_ ?_
  · intro c hc
    obtain rfl := Option.some.inj hc
    exact ⟨hgen.symm, rfl, rfl, fun h => absurd h.symm Bool.false_ne_true⟩
  · intro hsome
    exact absurd (hnot.symm.trans (hb.ready.mpr hsome)) Bool.false_ne_true

theorem Invariant.processCall {b : Beacon} (hb : b.Invariant) {t : World}
    (ht : b.world.processCall = some t) : Invariant { b with world := t, filled := none } := by
  obtain ⟨hidle, ⟨hready, rfl⟩ | ⟨-, rfl⟩⟩ := World.processCall_cases ht
  · refine hb.begun rfl ?_ fun _ => ⟨rfl, rfl⟩
    intro c hc
    obtain rfl := Option.some.inj hc
    exact ⟨rfl, rfl, rfl, fun _ => hready⟩
  · refine hb.begun rfl ?_ fun _ => ⟨rfl, rfl⟩
    intro c hc
    exact absurd (hidle.symm.trans hc).symm (Option.some_ne_none _)

theorem Invariant.kept {b : Beacon} (hb : b.Invariant) {t : World}
    (hadv : t.lifecycle.advertisingGeneration = b.world.lifecycle.advertisingGeneration)
    (happ : t.lifecycle.appliedGeneration = b.world.lifecycle.appliedGeneration)
    (hready : t.lifecycle.ready = b.world.lifecycle.ready)
    (hcall : ∀ c', t.call = some c' → ∃ c, b.world.call = some c ∧ c'.byStart = c.byStart ∧
      c'.targetGeneration = c.targetGeneration ∧ c'.invalidations = c.invalidations ∧
      (c'.result ≠ none → b.filled ≠ none)) :
    Invariant { b with world := t } := by
  refine ⟨hb.table, hb.light, ?_, hb.filled, ?_, ?_⟩
  · show t.lifecycle.ready = true ↔ _
    rw [hready]
    exact hb.ready
  · intro c' hc'
    obtain ⟨c, hc, hstart, htarget, hcount, hfilled⟩ := hcall c' hc'
    obtain ⟨hgen, -, hcovers, hprocess⟩ := hb.call c hc
    refine ⟨?_, hfilled, ?_, ?_⟩
    · show t.lifecycle.advertisingGeneration = _
      rw [hadv, htarget, hcount, hgen]
    · rw [hcount]
      exact hcovers
    · rw [hstart]
      exact fun h => hready.trans (hprocess h)
  · intro a ha
    obtain ⟨hgen, hsource, hcovers⟩ := hb.applied a ha
    refine ⟨?_, hsource, hcovers⟩
    show t.lifecycle.advertisingGeneration = t.lifecycle.appliedGeneration + _
    rw [hadv, happ, hgen]

theorem Invariant.connected {b : Beacon} (hb : b.Invariant) :
    Invariant { b with world := b.world.connect } := by
  refine hb.kept rfl rfl rfl fun c' hc' => ?_
  obtain ⟨c, hc, rfl⟩ := Option.map_eq_some_iff.mp hc'
  exact ⟨c, hc, rfl, rfl, rfl, (hb.call c hc).filled⟩

theorem Invariant.stackApply {b : Beacon} (hb : b.Invariant) {err : Int} {t : World}
    (hfilled : b.filled ≠ none) (ht : b.world.stackApply err = some t) :
    Invariant { b with world := t } := by
  obtain ⟨c, hcall, -, rfl⟩ := World.stackApply_cases ht
  refine hb.kept rfl rfl rfl fun c' hc' => ?_
  obtain rfl := Option.some.inj hc'
  exact ⟨c, hcall, rfl, rfl, rfl, fun _ => hfilled⟩

theorem settle_of_success {b : Beacon} {c : ApplyCall} {f : Filled} (hcall : b.world.call = some c)
    (hfilled : b.filled = some f) (hresult : c.result = some 0) :
    b.settle = some ⟨f, c.invalidations⟩ := by
  simp only [settle, hcall, hfilled, hresult, if_true]

theorem settle_of_failure {b : Beacon} {c : ApplyCall} {err : Int} (hcall : b.world.call = some c)
    (hresult : c.result = some err) (herr : err ≠ 0) : b.settle = b.applied := by
  have hne : ¬c.result = some 0 := by
    rw [hresult]
    exact fun h => herr (Option.some.inj h)
  unfold settle
  cases hfilled : b.filled with
  | none => rw [hcall]
  | some f => simp only [hcall, hne, if_false]

theorem Invariant.failed {b : Beacon} (hb : b.Invariant) {t : World} (htcall : t.call = none)
    (hl : t.lifecycle = b.world.lifecycle) :
    Invariant { b with world := t, filled := none } := by
  refine hb.begun (congrArg Lifecycle.ready hl) ?_ fun _ => ?_
  · exact fun c hc => absurd (htcall.symm.trans hc).symm (Option.some_ne_none _)
  · rw [hl]
    exact ⟨rfl, rfl⟩

theorem Invariant.succeeded {b : Beacon} (hb : b.Invariant) {c : ApplyCall} {f : Filled}
    (hcall : b.world.call = some c) (hfilled : b.filled = some f) {t : World}
    (htcall : t.call = none) (hready : t.lifecycle.ready = true)
    (hadv : t.lifecycle.advertisingGeneration = b.world.lifecycle.advertisingGeneration)
    (happ : t.lifecycle.appliedGeneration = c.targetGeneration) :
    Invariant { b with world := t, filled := none, applied := some ⟨f, c.invalidations⟩ } := by
  -- a call that succeeds acknowledges the generation it began with, and no other
  obtain ⟨hgen, -, hcovers, -⟩ := hb.call c hcall
  refine ⟨hb.table, hb.light, ?_, ?_, ?_, ?_⟩
  · exact iff_of_true hready (Option.some_ne_none _)
  · exact fun _ hf => absurd hf.symm (Option.some_ne_none _)
  · exact fun _ hc => absurd (htcall.symm.trans hc).symm (Option.some_ne_none _)
  · intro a ha
    obtain rfl := Option.some.inj ha
    refine ⟨?_, hb.filled f hfilled, hcovers f hfilled⟩
    show t.lifecycle.advertisingGeneration = t.lifecycle.appliedGeneration + _
    rw [hadv, happ, hgen]

theorem Invariant.applyReturn {b : Beacon} (hb : b.Invariant) {t : World}
    (ht : b.world.applyReturn = some t) :
    Invariant { b with world := t, filled := none, applied := b.settle } := by
  obtain ⟨c, err, hcall, hresult, htcall, -, -, -, hend⟩ := World.applyReturn_cases ht
  by_cases herr : err = 0
  · subst herr
    have hne : c.result ≠ none := by
      rw [hresult]
      exact Option.some_ne_none _
    obtain ⟨f, hfilled⟩ := Option.ne_none_iff_exists'.mp ((hb.call c hcall).filled hne)
    rw [settle_of_success hcall hfilled hresult]
    rcases hend with ⟨-, hl, -⟩ | ⟨hprocess, hl, -⟩
    · have hstart : t.lifecycle = { b.world.lifecycle with
          ready := true, advertisingRunning := true, appliedGeneration := c.targetGeneration } := hl
      refine hb.succeeded hcall hfilled htcall ?_ ?_ ?_
      · rw [hstart]
      · rw [hstart]
      · rw [hstart]
    · have hready := (hb.call c hcall).ready hprocess
      refine hb.succeeded hcall hfilled htcall ?_ ?_ ?_
      · rw [hl]
        exact (Lifecycle.scheduled_processEnd _ _).ready.trans hready
      · rw [hl, Lifecycle.processEnd_generation]
      · rw [hl, Lifecycle.processEnd_applied]
  · rw [settle_of_failure hcall hresult herr]
    rcases hend with ⟨-, hl, -⟩ | ⟨-, hl, -⟩
    · exact hb.failed htcall (hl.trans (if_neg herr))
    · rw [Lifecycle.processEnd_of_err _ _ herr] at hl
      exact hb.failed htcall hl

theorem Invariant.lifecycle {b : Beacon} (hb : b.Invariant) {e : LifecycleEvent} {t : World}
    (he : b.Enabled e) (ht : b.world.step e = some t) : (b.follow t e).Invariant := by
  cases e with
  | startCall => exact hb.startCall ht
  | processCall => exact hb.processCall ht
  | stackApply err => exact hb.stackApply he ht
  | applyReturn => exact hb.applyReturn ht
  | connected =>
    obtain rfl := Option.some.inj ht
    exact hb.connected
  | disconnected =>
    obtain rfl := Option.some.inj ht
    exact hb.invalidated (invalidated_disconnect _) hb.table hb.light
  | reportNfcFd =>
    obtain rfl := Option.some.inj ht
    exact hb.invalidated (invalidated_invalidate (Lifecycle.invalidates_reportNfcFd _))
      hb.table hb.light
  | reportBindingChanged =>
    obtain rfl := Option.some.inj ht
    exact hb.invalidated (invalidated_invalidate (Lifecycle.invalidates_reportChanged _ _))
      (Nat.le_refl _) hb.light
  | reportLightChanged mode remainingS =>
    obtain rfl := Option.some.inj ht
    exact hb.invalidated (invalidated_invalidate (Lifecycle.invalidates_reportChanged _ _))
      hb.table (Nat.le_refl _)

theorem Invariant.step {b b' : Beacon} (hb : b.Invariant) {e : BeaconEvent}
    (h : b.step e = some b') : b'.Invariant := by
  cases e with
  | lifecycle e =>
    simp only [Beacon.step] at h
    split_ifs at h with he
    obtain ⟨t, ht, rfl⟩ := Option.map_eq_some_iff.mp h
    exact hb.lifecycle he ht
  | tableChange tableSeq hasUnboundSlot =>
    obtain rfl := Option.some.inj h
    exact hb.tableChange tableSeq hasUnboundSlot
  | lightChange lightMode =>
    obtain rfl := Option.some.inj h
    exact hb.lightChange lightMode
  | fillAdvMsd batteryPct fault => exact hb.fillStep h

/-! ## Fresh advertisements -/

/-- Fewer than 2^32 invalidations from the beginning of the last successful call on. -/
def FewInvalidations (b : Beacon) : Prop := ∀ a ∈ b.applied, a.invalidations < 2 ^ 32

instance : DecidablePred FewInvalidations := fun b =>
  inferInstanceAs (Decidable (∀ a ∈ b.applied, a.invalidations < 2 ^ 32))

/-- If the advertisement is not dirty, the last successful call began after the last
invalidation. Its payload tells of every change that has been reported, and of the present
state if all of them have been. -/
def Fresh (b : Beacon) : Prop :=
  b.world.lifecycle.ready = true → b.world.lifecycle.isAdvertisingDirty = false →
    ∃ a, b.applied = some a ∧ a.invalidations = 0 ∧
      ∃ batteryPct fault, a.filled.advMsd = fillAdvMsd a.filled.domain batteryPct fault ∧
        b.tableReported ≤ a.filled.domain.tableChanges ∧
        b.lightReported ≤ a.filled.domain.lightChanges ∧
        (b.tableReported = b.domain.tableChanges → b.lightReported = b.domain.lightChanges →
          a.filled.advMsd = fillAdvMsd b.domain batteryPct fault)

theorem Invariant.fresh {b : Beacon} (hb : b.Invariant) (hfew : b.FewInvalidations) :
    b.Fresh := by
  intro hready hclean
  obtain ⟨a, ha⟩ := Option.ne_none_iff_exists'.mp (hb.ready.mp hready)
  obtain ⟨hgen, ⟨⟨batteryPct, fault, hmsd⟩, hprecedes⟩, hcovers⟩ := hb.applied a ha
  have hsame : b.world.lifecycle.advertisingGeneration = b.world.lifecycle.appliedGeneration := by
    simpa [Lifecycle.isAdvertisingDirty] using hclean
  have hnone : a.invalidations = 0 := by
    by_contra hsome
    exact World.generation_ne hsome (hfew a ha) (hgen.symm.trans hsame)
  obtain ⟨htable, hlight⟩ := hcovers hnone
  refine ⟨a, ha, hnone, batteryPct, fault, hmsd, htable, hlight, fun hall hall' => ?_⟩
  rw [hmsd, hprecedes.eq (hall ▸ htable) (hall' ▸ hlight)]

theorem dirty_of_failed {b b' : Beacon} (h : b.step (.lifecycle .applyReturn) = some b')
    (hfailed : ∀ c, b.world.call = some c → c.result ≠ some 0) :
    b'.world.lifecycle.isAdvertisingDirty = b.world.lifecycle.isAdvertisingDirty := by
  simp only [Beacon.step] at h
  split_ifs at h
  obtain ⟨t, ht, rfl⟩ := Option.map_eq_some_iff.mp h
  obtain ⟨c, err, hcall, hresult, -, -, -, -, hend⟩ := World.applyReturn_cases ht
  have herr : err ≠ 0 := fun hzero => hfailed c hcall (hzero ▸ hresult)
  have hkept : t.lifecycle = b.world.lifecycle := by
    rcases hend with ⟨-, hl, -⟩ | ⟨-, hl, -⟩
    · exact hl.trans (if_neg herr)
    · rwa [Lifecycle.processEnd_of_err _ _ herr] at hl
  exact congrArg Lifecycle.isAdvertisingDirty hkept

/-- In every state of a run an advertisement that is not dirty is fresh, and a call of
`apply_advertising` that fails does not make a dirty one clean. -/
theorem fresh_along (tableSeq : BitVec 32) (hasUnboundSlot : Bool) (lightMode : Byte)
    (events : List BeaconEvent)
    (hbound : Runs.Along step FewInvalidations (init tableSeq hasUnboundSlot lightMode) events) :
    Runs.Along step Fresh (init tableSeq hasUnboundSlot lightMode) events ∧
      ∀ b b' : Beacon, b.step (.lifecycle .applyReturn) = some b' →
        (∀ c, b.world.call = some c → c.result ≠ some 0) →
        b.world.lifecycle.isAdvertisingDirty = true →
        b'.world.lifecycle.isAdvertisingDirty = true := by
  have hinv : Runs.Along step Invariant (init tableSeq hasUnboundSlot lightMode) events :=
    Runs.along_of_invariant (fun _ _ _ hb h => hb.step h) (invariant_init _ _ _) events
  refine ⟨hinv.imp (fun _ hb hfew => hb.fresh hfew) hbound, ?_⟩
  intro b b' h hfailed hdirty
  rw [dirty_of_failed h hfailed, hdirty]

/-- A start, and a change of the table that is reported while an update is under way: the
update leaves the state dirty, and the next one acknowledges the change. -/
theorem fresh_along_report : Runs.Along step Fresh (init 1 true 0)
    [.lifecycle .startCall, .fillAdvMsd 90 false, .lifecycle (.stackApply 0),
      .lifecycle .applyReturn, .lifecycle .reportNfcFd, .lifecycle .processCall,
      .fillAdvMsd 90 false, .tableChange 2 true, .lifecycle .reportBindingChanged,
      .lifecycle (.stackApply 0), .lifecycle .applyReturn, .lifecycle .processCall,
      .fillAdvMsd 89 false, .lifecycle (.stackApply 0), .lifecycle .applyReturn] :=
  (fresh_along 1 true 0 _ (by decide)).1

end Beacon
end PartRack
