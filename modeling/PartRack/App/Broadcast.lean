import PartRack.App.Invariant
import PartRack.Lib.Simulation

/-! What the device advertises. The firmware simulates the beacon, whose table and light
it changes and reports within one handler, so that the advertisement tells of the present
state whenever it is not dirty. -/

namespace PartRack

theorem World.dirty_of_processCall {w t : World} (h : w.processCall = some t) (hcall : t.call ≠ none) :
    w.lifecycle.advertisingGeneration ≠ w.lifecycle.appliedGeneration := by
  obtain ⟨hidle, -⟩ := processCall_cases h
  intro hclean
  have hbegin : w.lifecycle.processBegin = ({ w.lifecycle with workPending := false }, none) := by
    unfold Lifecycle.processBegin
    simp [hclean]
  rw [processCall, if_pos hidle, hbegin] at h
  exact hcall (Option.some.inj h ▸ hidle)

/-- A call in progress: the device is not ready, or more has been invalidated than during the
call. -/
structure AppState.CallDirty (s : AppState) (c : ApplyCall) : Prop where
  unready : c.byStart = true → s.world.lifecycle.ready = false
  dirty : c.byStart = false → c.invalidations < s.invalidations

namespace App
open AppState BindingTable Simulation

/-- A payload that the stack has taken in the call in progress, else the one applied last. -/
def broadcast (s : AppState) (b : Beacon) : Option (List Byte) :=
  if b.world.call.bind ApplyCall.result = some 0 then some s.advMsd
  else b.applied.map fun a => a.filled.advMsd

/-- The state of the beacon that belongs to a state of the firmware. -/
structure Related (s : AppState) (b : Beacon) : Prop where
  world : b.world = s.world
  table : b.domain.tableSeq = s.table.tableSeq ∧ b.domain.hasUnboundSlot = s.table.hasUnboundSlot
  light : b.domain.lightMode = s.light.lightState.mode
  tableReported : b.tableReported = b.domain.tableChanges
  lightReported : b.lightReported = b.domain.lightChanges
  filled : b.filled.map Filled.advMsd = if s.advFilled then some s.advMsd else none
  invalidations : ∀ a ∈ b.applied, a.invalidations = s.invalidations
  call : ∀ c, s.world.call = some c → s.CallDirty c
  advData : s.advData = broadcast s b

/-- The simulation is between states that have the invariant of the firmware. -/
def Simulated (s : App) (b : Beacon) : Prop := s.Invariant ∧ Related s.env b

def Started (b : Beacon) : Prop := ∃ tableSeq hasUnboundSlot lightMode,
  b = Beacon.init tableSeq hasUnboundSlot lightMode

theorem related_boot (device : Device) (outputsErr stripErr : Int) (commits : ℕ) :
    Related (AppState.boot device outputsErr stripErr commits)
      (Beacon.init (AppState.boot device outputsErr stripErr commits).table.tableSeq
        (AppState.boot device outputsErr stripErr commits).table.hasUnboundSlot
        (AppState.boot device outputsErr stripErr commits).light.lightState.mode) := by
  refine ⟨rfl, ⟨rfl, rfl⟩, rfl, rfl, rfl, rfl, ?_, ?_, rfl⟩
  · exact fun a ha => absurd ha (Option.not_mem_none a)
  · exact fun c hc => absurd hc.symm (Option.some_ne_none c)

/-! ## Advertising -/

section Advertising
variable {s t : AppState} {b : Beacon}

theorem leads_lifecycle {e : LifecycleEvent} {w : World} (he : b.Enabled e)
    (h : b.world.step e = some w) : Leads Beacon.step b (b.follow w e) := by
  refine .single (d := .lifecycle e) ?_
  simp only [Beacon.step, if_pos he, h, Option.map_some]

theorem broadcast_of_ne (h : b.world.call.bind ApplyCall.result ≠ some 0) :
    broadcast s b = b.applied.map fun a => a.filled.advMsd := if_neg h

theorem Related.advData_of_idle (hR : Related s b) (h : s.world.call = none) :
    s.advData = b.applied.map fun a => a.filled.advMsd := by
  rw [hR.advData, broadcast_of_ne]
  rw [hR.world, h]
  exact Option.some_ne_none _ ∘ Eq.symm

theorem Related.begun (hR : Related s b) {w : World} (hidle : s.world.call = none)
    (hcall : ∀ c, w.call = some c → c.result = none ∧
      (c.byStart = true → w.lifecycle.ready = false) ∧
      (c.byStart = false → c.invalidations < s.invalidations))
    (ht : t = { s with world := w, bleStarted := t.bleStarted, advFilled := false }) :
    Related t { b with world := w, filled := none } := by
  rw [ht]
  refine ⟨rfl, hR.table, hR.light, hR.tableReported, hR.lightReported, rfl, hR.invalidations,
    fun c hc => ⟨(hcall c hc).2.1, (hcall c hc).2.2⟩, ?_⟩
  show s.advData = _
  rw [hR.advData_of_idle hidle, broadcast_of_ne]
  show w.call.bind ApplyCall.result ≠ some 0
  cases hc : w.call with
  | none => exact Option.some_ne_none _ ∘ Eq.symm
  | some c =>
    show c.result ≠ some 0
    rw [(hcall c hc).1]
    exact Option.some_ne_none _ ∘ Eq.symm

theorem Related.bleStart (hR : Related s b) (h : s.bleStart = some t) :
    ∃ b', Leads Beacon.step b b' ∧ Related t b' := by
  unfold AppState.bleStart at h
  split_ifs at h
  obtain ⟨w, hw, rfl⟩ := Option.map_eq_some_iff.mp h
  obtain ⟨hidle, hready, heq⟩ := World.startCall_cases hw
  refine ⟨_, leads_lifecycle (e := .startCall) trivial (hR.world ▸ hw), hR.begun hidle ?_ rfl⟩
  intro c hc
  rw [heq] at hc ⊢
  obtain rfl := Option.some.inj hc
  refine ⟨rfl, fun _ => ?_, fun h => absurd h.symm Bool.false_ne_true⟩
  exact s.world.lifecycle.startBegin_spec.2.1.trans hready

theorem Related.invalidations_pos (hR : Related s b) (hb : b.Invariant)
    (hready : s.world.lifecycle.ready = true)
    (hdirty : s.world.lifecycle.advertisingGeneration ≠ s.world.lifecycle.appliedGeneration) :
    0 < s.invalidations := by
  rw [← hR.world] at hready hdirty
  obtain ⟨a, ha⟩ := Option.ne_none_iff_exists'.mp (hb.ready.mp hready)
  have hgen := (hb.applied a ha).generation
  rw [hR.invalidations a ha] at hgen
  refine Nat.pos_of_ne_zero fun hzero => hdirty ?_
  rw [hgen, hzero]
  exact BitVec.add_zero _

theorem Related.lifecycleWork (hR : Related s b) (hb : b.Invariant)
    (h : s.bleLifecycleWorkHandler = some t) :
    ∃ b', Leads Beacon.step b b' ∧ Related t b' := by
  unfold bleLifecycleWorkHandler at h
  split_ifs at h
  obtain ⟨w, hw, rfl⟩ := Option.map_eq_some_iff.mp h
  obtain ⟨hidle, hcases⟩ := World.processCall_cases hw
  refine ⟨_, leads_lifecycle (e := .processCall) trivial (hR.world ▸ hw), hR.begun hidle ?_ rfl⟩
  intro c hc
  rcases hcases with ⟨hready, heq⟩ | ⟨-, heq⟩
  · rw [heq] at hc
    obtain rfl := Option.some.inj hc
    refine ⟨rfl, fun h => absurd h Bool.false_ne_true, fun _ => ?_⟩
    refine hR.invalidations_pos hb hready (World.dirty_of_processCall hw ?_)
    rw [heq]
    exact Option.some_ne_none _
  · rw [heq] at hc
    exact absurd (hidle.symm.trans hc).symm (Option.some_ne_none _)

theorem Related.fillAdvMsd (hR : Related s b) {batteryPct : Byte} {fault : Bool}
    (h : s.fillAdvMsd batteryPct fault = some t) :
    ∃ b', Leads Beacon.step b b' ∧ Related t b' := by
  unfold AppState.fillAdvMsd at h
  cases hcall : s.world.call with
  | none =>
    rw [hcall] at h
    exact absurd h.symm (Option.some_ne_none _)
  | some c =>
    simp only [hcall] at h
    split_ifs at h with hc
    obtain rfl := Option.some.inj h
    have hnone : b.filled = none := by
      have hfilled := hR.filled
      rw [if_neg (by simp [hc.2])] at hfilled
      exact Option.map_eq_none_iff.mp hfilled
    have hpayload : PartRack.fillAdvMsd b.domain batteryPct fault =
        PartRack.fillAdvMsd s.domain batteryPct fault := by
      unfold PartRack.fillAdvMsd domain
      rw [hR.table.1, hR.table.2, hR.light]
    refine ⟨{ b with
        filled := some ⟨b.domain, PartRack.fillAdvMsd b.domain batteryPct fault⟩ },
      .single (d := .fillAdvMsd batteryPct fault) ?_, ?_⟩
    · show b.fillStep batteryPct fault = some _
      unfold Beacon.fillStep
      simp only [hR.world, hcall]
      exact if_pos ⟨hc.1, hnone⟩
    · refine ⟨hR.world, hR.table, hR.light, hR.tableReported, hR.lightReported, ?_,
        hR.invalidations, fun c hc => ⟨(hR.call c hc).unready, (hR.call c hc).dirty⟩, ?_⟩
      · exact congrArg some hpayload
      · show s.advData = _
        have hne : b.world.call.bind ApplyCall.result ≠ some 0 := by
          rw [hR.world, hcall]
          show c.result ≠ some 0
          rw [hc.1]
          exact Option.some_ne_none _ ∘ Eq.symm
        rw [hR.advData, broadcast_of_ne hne]
        exact (if_neg hne).symm

theorem Related.stackApply (hR : Related s b) {err : Int} (h : s.stackApply err = some t) :
    ∃ b', Leads Beacon.step b b' ∧ Related t b' := by
  by_cases hfilled : s.advFilled = true
  swap
  · exact absurd ((if_neg hfilled).symm.trans h).symm (Option.some_ne_none _)
  rw [AppState.stackApply, if_pos hfilled] at h
  obtain ⟨w, hw, rfl⟩ := Option.map_eq_some_iff.mp h
  obtain ⟨c, hcall, hresult, heq⟩ := World.stackApply_cases hw
  have henabled : b.filled ≠ none := by
    have hmap := hR.filled
    rw [if_pos hfilled] at hmap
    intro hnone
    rw [hnone] at hmap
    exact Option.some_ne_none _ hmap.symm
  refine ⟨_, leads_lifecycle (e := .stackApply err) henabled (hR.world ▸ hw), ?_⟩
  refine ⟨rfl, hR.table, hR.light, hR.tableReported, hR.lightReported, hR.filled,
    hR.invalidations, fun c' hc' => ?_, ?_⟩
  · rw [heq] at hc' ⊢
    obtain rfl := Option.some.inj hc'
    exact ⟨(hR.call c hcall).unready, (hR.call c hcall).dirty⟩
  have hres : w.call.bind ApplyCall.result = some err := by rw [heq]; rfl
  show (if err = 0 then some s.advMsd else s.advData) = _
  unfold broadcast
  show _ = if w.call.bind ApplyCall.result = some 0 then some s.advMsd
    else b.applied.map fun a => a.filled.advMsd
  rw [hres]
  by_cases herr : err = 0
  · rw [if_pos herr, if_pos (congrArg some herr)]
  · have hne : b.world.call.bind ApplyCall.result ≠ some 0 := by
      rw [hR.world, hcall]
      show c.result ≠ some 0
      rw [hresult]
      exact Option.some_ne_none _ ∘ Eq.symm
    rw [if_neg herr, if_neg fun hsome => herr (Option.some.inj hsome), hR.advData,
      broadcast_of_ne hne]

theorem Related.applyReturn (hR : Related s b) (hb : b.Invariant) (h : s.applyReturn = some t) :
    ∃ b', Leads Beacon.step b b' ∧ Related t b' := by
  unfold AppState.applyReturn at h
  obtain ⟨w, hw, rfl⟩ := Option.map_eq_some_iff.mp h
  obtain ⟨c, err, hcall, hresult, hidle, -, -, -, -⟩ := World.applyReturn_cases hw
  refine ⟨_, leads_lifecycle (e := .applyReturn) trivial (hR.world ▸ hw), ?_⟩
  have hbcall : b.world.call = some c := by rw [hR.world, hcall]
  have hnone : ∀ {u : AppState}, u.world = w → ∀ c', u.world.call = some c' → u.CallDirty c' := by
    rintro u rfl c' hc'
    exact absurd (hidle.symm.trans hc').symm (Option.some_ne_none _)
  by_cases herr : err = 0
  · subst herr
    have hne : c.result ≠ none := by
      rw [hresult]
      exact Option.some_ne_none _
    obtain ⟨f, hfilled⟩ := Option.ne_none_iff_exists'.mp ((hb.call c hbcall).filled hne)
    have hmsd : f.advMsd = s.advMsd := by
      have hmap := hR.filled
      rw [hfilled] at hmap
      split_ifs at hmap
      · exact Option.some.inj hmap
      · exact absurd hmap (Option.some_ne_none _)
    have hsettle := Beacon.settle_of_success hbcall hfilled hresult
    refine ⟨rfl, hR.table, hR.light, hR.tableReported, hR.lightReported, rfl, ?_, hnone rfl, ?_⟩
    · intro a ha
      have ha : a ∈ b.settle := ha
      rw [hsettle] at ha
      obtain rfl := Option.some.inj ha
      simp only [hcall, hresult, if_true]
    · have hon : s.advData = some s.advMsd := by
        rw [hR.advData, broadcast, if_pos]
        rw [hbcall]
        exact hresult
      show s.advData = _
      rw [hon, broadcast_of_ne]
      · show _ = b.settle.map _
        rw [hsettle, ← hmsd]
        rfl
      · show w.call.bind _ ≠ _
        rw [hidle]
        exact Option.some_ne_none _ ∘ Eq.symm
  · have hsettle := Beacon.settle_of_failure hbcall hresult herr
    refine ⟨rfl, hR.table, hR.light, hR.tableReported, hR.lightReported, rfl, ?_, hnone rfl, ?_⟩
    · intro a ha
      have ha : a ∈ b.settle := ha
      rw [hsettle] at ha
      have hkept : ¬c.result = some 0 := by
        rw [hresult]
        exact fun hsome => herr (Option.some.inj hsome)
      simp only [hcall, hkept, if_false]
      exact hR.invalidations a ha
    · show s.advData = _
      have hne : b.world.call.bind ApplyCall.result ≠ some 0 := by
        rw [hbcall]
        show c.result ≠ some 0
        rw [hresult]
        exact fun hsome => herr (Option.some.inj hsome)
      rw [hR.advData, broadcast_of_ne hne, broadcast_of_ne]
      · show _ = b.settle.map _
        rw [hsettle]
      · show w.call.bind _ ≠ _
        rw [hidle]
        exact Option.some_ne_none _ ∘ Eq.symm

end Advertising

/-! ## Changes of the table and the light -/

section Changes
variable {s t : AppState} {b : Beacon}

theorem Related.reported (hR : Related s b) {w : World} {d : Domain} {tableReported lightReported : ℕ}
    (hworld : t.world = w) (hw : Beacon.Invalidated b.world w)
    (hcall : w.call.bind ApplyCall.result = b.world.call.bind ApplyCall.result)
    (htable : d.tableSeq = t.table.tableSeq ∧ d.hasUnboundSlot = t.table.hasUnboundSlot)
    (hlight : d.lightMode = t.light.lightState.mode) (htableReported : tableReported = d.tableChanges)
    (hlightReported : lightReported = d.lightChanges) (hfilled : t.advFilled = s.advFilled)
    (hmsd : t.advMsd = s.advMsd) (hon : t.advData = s.advData)
    (hinv : t.invalidations = s.invalidations + 1) :
    Related t { b with
      world := w
      domain := d
      applied := b.countInvalidation
      tableReported := tableReported
      lightReported := lightReported } := by
  refine ⟨hworld.symm, htable, hlight, htableReported, hlightReported, ?_, ?_, ?_, ?_⟩
  · rw [hfilled, hmsd]
    exact hR.filled
  · intro a' ha'
    obtain ⟨a, ha, rfl⟩ := Option.map_eq_some_iff.mp ha'
    rw [hinv, ← hR.invalidations a ha]
  · intro c' hc'
    obtain ⟨c, hc, hstart, -, -, hcount⟩ := hw.call c' (hworld ▸ hc')
    obtain ⟨hunready, hdirty⟩ := hR.call c (hR.world ▸ hc)
    rw [← hstart] at hunready hdirty
    refine ⟨fun h => ?_, fun h => ?_⟩
    · rw [hworld, hw.ready, hR.world]
      exact hunready h
    · rw [hcount, hinv]
      exact Nat.succ_lt_succ (hdirty h)
  · rw [hon, hR.advData]
    unfold broadcast Beacon.countInvalidation
    rw [hcall, hmsd, Option.map_map]
    rfl

theorem result_invalidate (w : World) (r : Lifecycle × List AdapterCall) :
    (w.invalidate r).call.bind ApplyCall.result = w.call.bind ApplyCall.result := by
  show (w.call.map _).bind _ = _
  cases w.call <;> rfl

theorem result_disconnect (w : World) :
    w.disconnect.call.bind ApplyCall.result = w.call.bind ApplyCall.result := by
  show ((w.call.map _).map _).bind _ = _
  cases w.call <;> rfl

theorem Related.nfcFd (hR : Related s b) (nowMs : ℤ) :
    ∃ b', Leads Beacon.step b b' ∧
      Related ({ s with lastFdMs := nowMs }.invalidate s.world.lifecycle.reportNfcFd) b' := by
  refine ⟨_, leads_lifecycle (e := .reportNfcFd) trivial rfl, ?_⟩
  refine hR.reported ?_ (Beacon.invalidated_invalidate (Lifecycle.invalidates_reportNfcFd _))
    (result_invalidate _ _) hR.table hR.light hR.tableReported hR.lightReported rfl rfl rfl rfl
  rw [hR.world]
  rfl

theorem Related.disconnected {s : App} (hR : Related s.env b) :
    ∃ b', Leads Beacon.step b b' ∧ Related s.disconnected.env b' := by
  refine ⟨_, leads_lifecycle (e := .disconnected) trivial rfl, ?_⟩
  refine hR.reported ?_ (Beacon.invalidated_disconnect _) (result_disconnect _) hR.table hR.light
    hR.tableReported hR.lightReported rfl rfl rfl rfl
  rw [hR.world]
  rfl

theorem Related.connected {s : App} (hR : Related s.env b) :
    ∃ b', Leads Beacon.step b b' ∧ Related (s.connected 0).env b' := by
  refine ⟨_, leads_lifecycle (e := .connected) trivial rfl, ?_⟩
  refine ⟨?_, hR.table, hR.light, hR.tableReported, hR.lightReported, hR.filled,
    hR.invalidations, fun c' hc' => ?_, ?_⟩
  · show b.world.connect = s.env.world.connect
    rw [hR.world]
  · obtain ⟨c, hc, rfl⟩ := Option.map_eq_some_iff.mp hc'
    exact ⟨(hR.call c hc).unready, (hR.call c hc).dirty⟩
  · show s.env.advData = _
    rw [hR.advData]
    unfold broadcast
    have hresult : b.world.connect.call.bind ApplyCall.result =
        b.world.call.bind ApplyCall.result := by
      show (b.world.call.map _).bind _ = _
      cases b.world.call <;> rfl
    show _ = if b.world.connect.call.bind ApplyCall.result = some 0 then _ else _
    rw [hresult]
    rfl

theorem Related.tableChanged (hR : Related s b) {gatt : GattNotify} {u : AppState}
    (hconn : u.world.lifecycle.connected = u.currentConn) (hworld : u.world = s.world)
    (hlight : u.light = s.light) (hfilled : u.advFilled = s.advFilled)
    (hmsd : u.advMsd = s.advMsd) (hon : u.advData = s.advData)
    (hinv : u.invalidations = s.invalidations) :
    ∃ b', Leads Beacon.step b b' ∧ Related (u.reportBindingChanged gatt) b' := by
  rw [reportBindingChanged_eq gatt hconn]
  refine ⟨_, .head (.tableChange u.table.tableSeq u.table.hasUnboundSlot) rfl
    (leads_lifecycle (e := .reportBindingChanged) trivial rfl), ?_⟩
  refine hR.reported ?_ (Beacon.invalidated_invalidate (Lifecycle.invalidates_reportChanged _ _))
    (result_invalidate _ _) ⟨rfl, rfl⟩ ?_ rfl hR.lightReported hfilled hmsd hon ?_
  · show u.world.invalidate _ = b.world.invalidate _
    rw [hworld, hR.world]
  · show b.domain.lightMode = u.light.lightState.mode
    rw [hlight, hR.light]
  · show u.invalidations + 1 = _
    rw [hinv]

theorem Related.lightChanged (hR : Related s b) {gatt : GattNotify} {u : AppState}
    (remainingS : BitVec 16) (hconn : u.world.lifecycle.connected = u.currentConn)
    (hworld : u.world = s.world) (hdevice : u.device = s.device)
    (hfilled : u.advFilled = s.advFilled) (hmsd : u.advMsd = s.advMsd) (hon : u.advData = s.advData)
    (hinv : u.invalidations = s.invalidations) :
    ∃ b', Leads Beacon.step b b' ∧
      Related (u.reportLightChanged gatt (u.light.lightState.mode, remainingS)) b' := by
  rw [reportLightChanged_eq gatt hconn]
  refine ⟨_, .head (.lightChange u.light.lightState.mode) rfl (leads_lifecycle
    (e := .reportLightChanged u.light.lightState.mode remainingS) trivial rfl), ?_⟩
  refine hR.reported ?_ (Beacon.invalidated_invalidate (Lifecycle.invalidates_reportChanged _ _))
    (result_invalidate _ _) ?_ rfl hR.tableReported rfl hfilled hmsd hon ?_
  · show u.world.invalidate _ = b.world.invalidate _
    rw [hworld, hR.world]
  · show b.domain.tableSeq = u.device.firmware.tableModel.tableSeq ∧
      b.domain.hasUnboundSlot = u.device.firmware.tableModel.hasUnboundSlot
    rw [hdevice]
    exact hR.table
  · show u.invalidations + 1 = _
    rw [hinv]

end Changes

theorem Related.did {s t : App} {e : AppEvent} {b : Beacon} (hs : s.Invariant)
    (hb : b.Invariant) (hR : Related s.env b) (hdid : Did e s t) :
    ∃ b₀ b', (b₀ = b ∨ Started b₀) ∧ Leads Beacon.step b₀ b' ∧ Related t.env b' := by
  have hsame : (∃ b', Leads Beacon.step b b' ∧ Related t.env b') →
      ∃ b₀ b', (b₀ = b ∨ Started b₀) ∧ Leads Beacon.step b₀ b' ∧ Related t.env b' :=
    fun ⟨b', hleads, hR'⟩ => ⟨b, b', Or.inl rfl, hleads, hR'⟩
  have hquiet : Related t.env b → ∃ b₀ b', (b₀ = b ∨ Started b₀) ∧
      Leads Beacon.step b₀ b' ∧ Related t.env b' := fun h => hsame ⟨b, .refl b, h⟩
  cases hdid with
  | advertised hstep =>
    refine hsame ?_
    cases hstep with
    | bleStart h => exact hR.bleStart h
    | lifecycleWork h => exact hR.lifecycleWork hb h
    | fillAdvMsd batteryPct fault h => exact hR.fillAdvMsd h
    | stackApply err h => exact hR.stackApply h
    | applyReturn h => exact hR.applyReturn hb h
    | nfcFd gatt nowMs => exact hR.nfcFd nowMs
  | connected _ => exact hsame hR.connected
  | disconnected _ => exact hsame hR.disconnected
  | exchanged pdus _ _ =>
    exact hquiet ⟨hR.world, hR.table, hR.light, hR.tableReported, hR.lightReported, hR.filled,
      hR.invalidations, fun c hc => ⟨(hR.call c hc).unready, (hR.call c hc).dirty⟩, hR.advData⟩
  | tableChanged save op pdus _ _ _ =>
    exact hsame (hR.tableChanged hs.connected rfl rfl rfl rfl rfl rfl)
  | lightChanged change light pdus remainingS _ _ _ =>
    exact hsame (hR.lightChanged (u := (s.env.putLight light).exchange pdus) remainingS
      hs.connected rfl rfl rfl rfl rfl rfl)
  | readAllStarted _ =>
    exact hquiet ⟨hR.world, hR.table, hR.light, hR.tableReported, hR.lightReported, hR.filled,
      hR.invalidations, fun c hc => ⟨(hR.call c hc).unready, (hR.call c hc).dirty⟩, hR.advData⟩
  | readAllWorked hwork =>
    obtain ⟨k, -, -, heq⟩ := hs.readAllWork_cases hwork e.gatt
    rw [heq] at hquiet ⊢
    refine hquiet ?_
    split_ifs
    · exact ⟨hR.world, hR.table, hR.light, hR.tableReported, hR.lightReported, hR.filled,
        hR.invalidations, fun c hc => ⟨(hR.call c hc).unready, (hR.call c hc).dirty⟩, hR.advData⟩
    · exact ⟨hR.world, hR.table, hR.light, hR.tableReported, hR.lightReported, hR.filled,
        hR.invalidations, fun c hc => ⟨(hR.call c hc).unready, (hR.call c hc).dirty⟩, hR.advData⟩
  | powerCycled outputsErr stripErr =>
    exact ⟨_, _, Or.inr ⟨_, _, _, rfl⟩, .refl _, related_boot _ _ _ _⟩

/-- The firmware simulates the beacon; a power cycle starts the beacon anew. -/
theorem simulates_beacon :
    Simulates App.step Beacon.step Simulated Beacon.Invariant Started := by
  rintro s e t b ⟨hs, hR⟩ hb hstep
  obtain ⟨b₀, b', hfrom, hleads, hR'⟩ := hR.did hs hb (step_did hstep)
  exact ⟨b₀, b', hfrom, hleads, hs.step hstep, hR'⟩

theorem simulated_along {device : Device} (h : device.Synced) (outputsErr stripErr : Int)
    (commits : ℕ) (events : List AppEvent) :
    Runs.Along App.step (fun s => ∃ b, Simulated s b ∧ b.Invariant)
      (boot device outputsErr stripErr commits) events := by
  refine simulates_beacon.along (fun b e b' hb he => hb.step he) ?_
    ⟨invariant_boot h _ _ _, related_boot _ _ _ _⟩ (Beacon.invariant_init _ _ _) events
  rintro b ⟨tableSeq, hasUnboundSlot, lightMode, rfl⟩
  exact Beacon.invariant_init _ _ _

/-- Fewer than 2^32 invalidations since the last successful `apply_advertising` began. -/
def FewInvalidations (s : App) : Prop := s.env.invalidations < 2 ^ 32

instance : DecidablePred FewInvalidations := fun s =>
  inferInstanceAs (Decidable (s.env.invalidations < 2 ^ 32))

/-- The advertisement is up to date: no update is owed or under way, and the data that the stack
took last is the payload of the present table and light. -/
def UpToDate (s : App) : Prop :=
  s.env.world.call = none ∧
    ∃ batteryPct fault, s.env.advData = some (PartRack.fillAdvMsd s.env.domain batteryPct fault)

theorem upToDate_of_clean {s : App} {b : Beacon} (hsim : Simulated s b) (hb : b.Invariant)
    (hfew : s.FewInvalidations) (hready : s.env.world.lifecycle.ready = true)
    (hclean : s.env.world.lifecycle.isAdvertisingDirty = false) : s.UpToDate := by
  obtain ⟨hs, hR⟩ := hsim
  have hfew' : b.FewInvalidations := fun a ha => by
    rw [hR.invalidations a ha]
    exact hfew
  obtain ⟨a, ha, hzero, batteryPct, fault, -, -, -, hall⟩ := hb.fresh hfew' (hR.world ▸ hready)
    (hR.world ▸ hclean)
  have hidle : s.env.world.call = none := by
    cases hcall : s.env.world.call with
    | none => rfl
    | some c =>
      obtain ⟨hunready, hdirty⟩ := hR.call c hcall
      cases hstart : c.byStart with
      | true => exact absurd (hready.symm.trans (hunready hstart)) (by decide)
      | false =>
        have hlt := hdirty hstart
        rw [← hR.invalidations a ha, hzero] at hlt
        exact absurd hlt (Nat.not_lt_zero _)
  refine ⟨hidle, batteryPct, fault, ?_⟩
  rw [hR.advData_of_idle hidle, ha]
  show some a.filled.advMsd = _
  rw [hall hR.tableReported hR.lightReported]
  unfold PartRack.fillAdvMsd domain
  rw [hR.table.1, hR.table.2, hR.light]

/-- Over the whole life of a device, power cycles included: whenever the advertisement is ready
and not dirty, the data that the stack took last tells the number of the present table, whether
the table has an unbound slot, and whether the light is on. -/
theorem upToDate_along {device : Device} (h : device.Synced) (outputsErr stripErr : Int)
    (commits : ℕ) (events : List AppEvent)
    (hfew : Runs.Along App.step FewInvalidations (boot device outputsErr stripErr commits) events) :
    Runs.Along App.step (fun s => s.env.world.lifecycle.ready = true →
      s.env.world.lifecycle.isAdvertisingDirty = false → s.UpToDate)
      (boot device outputsErr stripErr commits) events := by
  refine (simulated_along h outputsErr stripErr commits events).imp ?_ hfew
  rintro s ⟨b, hsim, hb⟩ hs hready hclean
  exact upToDate_of_clean hsim hb hs hready hclean

/-- A start, a connection on which slot 1 is cleared, and the update after it has gone. -/
def clearedOnce : List AppEvent :=
  [.bleStart, .fillAdvMsd 90 false, .stackApply 0, .applyReturn, .connected 0,
    .bindingCpWrite (fun _ => 0) (fun _ _ => 0) 0 [BindingOp.clearOne.code, 1], .disconnected,
    .lifecycleWork, .fillAdvMsd 89 false, .stackApply 0, .applyReturn]

theorem upToDate_along_clearedOnce :
    Runs.Along App.step (fun s => s.env.world.lifecycle.ready = true →
      s.env.world.lifecycle.isAdvertisingDirty = false → s.UpToDate)
      (boot Device.init 0 0 0) clearedOnce :=
  upToDate_along Device.synced_init 0 0 0 clearedOnce (by decide)

end App
end PartRack
