import PartRack.App.Broadcast

/-! The number of the table over the life of a device. Commits are the only changes of the table,
and a power cycle is none, so that whoever remembers a number can tell whether the table is
still the one it knows. -/

namespace PartRack
namespace App
open AppState BindingTable

def run (s : App) (events : List AppEvent) : Option App := events.foldlM step s

theorem run_append {s : App} {a b : List AppEvent} {t : App} :
    run s (a ++ b) = some t ↔ ∃ u, run s a = some u ∧ run u b = some t := by
  rw [run, List.foldlM_append]
  exact Option.bind_eq_some_iff

/-- `t` comes after `s`. -/
structure Later (s t : App) : Prop where
  le : s.env.commits ≤ t.env.commits
  tableSeq : t.env.table.tableSeq =
    nextSeq^[t.env.commits - s.env.commits] s.env.table.tableSeq
  table : t.env.commits = s.env.commits → t.env.table = s.env.table

theorem Later.refl (s : App) : Later s s := by
  refine ⟨Nat.le_refl _, ?_, fun _ => rfl⟩
  rw [Nat.sub_self]
  rfl

theorem Later.same {s t u : App} (h : Later s t) (htable : u.env.table = t.env.table)
    (hcommits : u.env.commits = t.env.commits) : Later s u := by
  obtain ⟨hle, hseq, hsame⟩ := h
  rw [← htable, ← hcommits] at *
  exact ⟨hle, hseq, hsame⟩

theorem Later.mutate {s t u : App} (h : Later s t) (save : SettingsSaveOne) (op : TableOp)
    (htable : u.env.table = (AppState.mutate save op t.env).2.table)
    (hcommits : u.env.commits = (AppState.mutate save op t.env).2.commits) : Later s u := by
  have hmodel : (AppState.mutate save op t.env).2.table =
    (op.run (t.env.device.firmware.saveCb save) t.env.table).model := rfl
  have hcount : (AppState.mutate save op t.env).2.commits = t.env.commits +
    (op.run (t.env.device.firmware.saveCb save) t.env.table).effects.countP Effect.isStore := rfl
  rcases TableRun.call_cases (t.env.device.firmware.saveCb save) t.env.table op with
    ⟨hnone, hsame⟩ | ⟨hone, hnext⟩
  · rw [hnone] at hcount
    exact h.same (htable.trans (hmodel.trans hsame)) (hcommits.trans hcount)
  · rw [hone] at hcount
    rw [← hmodel, ← htable] at hnext
    rw [← hcommits] at hcount
    have hle := h.le
    refine ⟨by omega, ?_, fun heq => by omega⟩
    have hsub : u.env.commits - s.env.commits = t.env.commits - s.env.commits + 1 := by omega
    rw [hnext, h.tableSeq, hsub, Function.iterate_succ_apply']

theorem Later.did {s t u : App} {e : AppEvent} (h : Later s t) (ht : t.Invariant)
    (hdid : Did e t u) : Later s u := by
  cases hdid with
  | @advertised env hstep =>
    have hsame := hstep.sameData
    refine h.same ?_ hsame.commits
    show env.device.firmware.tableModel = _
    rw [hsame.device]
    rfl
  | connected _ => exact h.same rfl rfl
  | disconnected _ => exact h.same rfl rfl
  | exchanged pdus _ _ => exact h.same rfl rfl
  | tableChanged save op pdus _ _ _ =>
    rw [reportBindingChanged_eq e.gatt (s := (AppState.mutate save op t.env).2.exchange pdus)
      ht.connected]
    exact h.mutate save op rfl rfl
  | lightChanged change light pdus remainingS _ _ _ =>
    rw [reportLightChanged_eq e.gatt (s := (t.env.putLight light).exchange pdus) ht.connected]
    exact h.same rfl rfl
  | readAllStarted _ => exact h.same rfl rfl
  | readAllWorked hwork =>
    obtain ⟨k, -, -, heq⟩ := ht.readAllWork_cases hwork e.gatt
    rw [heq]
    split_ifs
    · exact h.same rfl rfl
    · exact h.same rfl rfl
  | powerCycled outputsErr stripErr =>
    refine h.same ?_ rfl
    show t.env.device.reboot.firmware.tableModel = _
    rw [ht.synced.reboot_eq]
    rfl

theorem later_along {s : App} (hs : s.Invariant) (events : List AppEvent) :
    Runs.Along step (fun t => t.Invariant ∧ Later s t) s events :=
  Runs.along_of_invariant (fun _ _ _ h hstep => ⟨h.1.step hstep, h.2.did h.1 (step_did hstep)⟩)
    ⟨hs, .refl s⟩ events

theorem later_of_run {s t : App} (hs : s.Invariant) {events : List AppEvent}
    (ht : run s events = some t) : Later s t :=
  ((later_along hs events).of_foldlM ht).2

theorem Invariant.tableSeq_ne_zero {s : App} (hs : s.Invariant) : s.env.table.tableSeq ≠ 0 :=
  hs.synced.seq_ne_zero

theorem Later.tableSeq_eq_iff {s t : App} (h : Later s t) (hs : s.Invariant)
    (hfew : t.env.commits - s.env.commits < 2 ^ 32 - 1) :
    t.env.table.tableSeq = s.env.table.tableSeq ↔ t.env.commits = s.env.commits := by
  rw [h.tableSeq, TableRun.iterate_nextSeq_eq_self_iff hs.tableSeq_ne_zero hfew]
  have hle := h.le
  omega

theorem Later.tableSeq_mod_eq_iff {s t : App} (h : Later s t) (hs : s.Invariant)
    (hfew : t.env.commits - s.env.commits < 65535) :
    t.env.table.tableSeq.toNat % 65536 = s.env.table.tableSeq.toNat % 65536 ↔
      t.env.commits = s.env.commits := by
  -- the lower half of the number is all that an advertisement has room for
  have hle := h.le
  rcases Nat.eq_zero_or_pos (t.env.commits - s.env.commits) with hzero | hpos
  · refine iff_of_true ?_ (by omega)
    rw [h.tableSeq, hzero]
    rfl
  · refine iff_of_false ?_ (by omega)
    rw [h.tableSeq]
    exact TableRun.iterate_nextSeq_mod_ne hs.tableSeq_ne_zero hpos (by omega)

theorem seqBytes_eq_iff (d d' : Domain) (batteryPct batteryPct' : Byte) (fault fault' : Bool) :
    AdvPayload.seqBytes (PartRack.fillAdvMsd d batteryPct fault) =
        AdvPayload.seqBytes (PartRack.fillAdvMsd d' batteryPct' fault') ↔
      d.tableSeq.toNat % 65536 = d'.tableSeq.toNat % 65536 := by
  constructor
  · intro h
    have hvalue := congrArg LittleEndian.value h
    unfold PartRack.fillAdvMsd at hvalue
    rwa [AdvPayload.value_seqBytes_build, AdvPayload.value_seqBytes_build] at hvalue
  · intro h
    unfold PartRack.fillAdvMsd
    rw [AdvPayload.seqBytes_build, AdvPayload.seqBytes_build]
    have hlow : d.tableSeq.setWidth 16 = d'.tableSeq.setWidth 16 := by
      apply BitVec.eq_of_toNat_eq
      rw [BitVec.toNat_setWidth, BitVec.toNat_setWidth]
      exact h
    exact congrArg AdvPayload.putLe16 hlow

/-- What a scanner that never connects can tell from two advertisements. -/
def Scanned (s t : App) : Prop :=
  ∃ p q, s.env.advData = some p ∧ t.env.advData = some q ∧
    (AdvPayload.seqBytes q = AdvPayload.seqBytes p ↔ t.env.commits = s.env.commits) ∧
    (AdvPayload.seqBytes q = AdvPayload.seqBytes p → t.env.table = s.env.table)

/-- At two moments of the life of a device at which the advertisement is ready and not dirty,
fewer than 65535 commits apart, the two bytes of the number are the same exactly if nothing
has been committed, and then the table is the same, over any connections and power cycles. -/
theorem scanned {device : Device} (h : device.Synced) (outputsErr stripErr : Int) (commits : ℕ)
    (before between : List AppEvent) (s t : App)
    (hfew : Runs.Along App.step FewInvalidations (boot device outputsErr stripErr commits)
      (before ++ between))
    (hs : run (boot device outputsErr stripErr commits) before = some s)
    (ht : run s between = some t)
    (hsready : s.env.world.lifecycle.ready = true)
    (hsclean : s.env.world.lifecycle.isAdvertisingDirty = false)
    (htready : t.env.world.lifecycle.ready = true)
    (htclean : t.env.world.lifecycle.isAdvertisingDirty = false)
    (hnear : t.env.commits - s.env.commits < 65535) : Scanned s t := by
  have hsim := simulated_along h outputsErr stripErr commits (before ++ between)
  obtain ⟨b, hsb, hb⟩ := (hsim.drop hs).head
  obtain ⟨c, htc, hc⟩ := (hsim.drop hs).of_foldlM ht
  obtain ⟨-, batteryPct, fault, hp⟩ :=
    upToDate_of_clean hsb hb (hfew.drop hs).head hsready hsclean
  obtain ⟨-, batteryPct', fault', hq⟩ :=
    upToDate_of_clean htc hc ((hfew.drop hs).of_foldlM ht) htready htclean
  have hlater := later_of_run hsb.1 ht
  have hiff : AdvPayload.seqBytes (PartRack.fillAdvMsd t.env.domain batteryPct' fault') =
      AdvPayload.seqBytes (PartRack.fillAdvMsd s.env.domain batteryPct fault) ↔
        t.env.commits = s.env.commits :=
    (seqBytes_eq_iff _ _ _ _ _ _).trans (hlater.tableSeq_mod_eq_iff hsb.1 hnear)
  exact ⟨_, _, hp, hq, hiff, fun heq => hlater.table (hiff.mp heq)⟩

theorem scanned_clearedOnce : ∃ s t,
    run (boot Device.init 0 0 0) (clearedOnce.take 4) = some s ∧
      run s (clearedOnce.drop 4) = some t ∧ Scanned s t := by
  let summary (s : App) : Bool × Bool × ℕ := (s.env.world.lifecycle.ready,
    s.env.world.lifecycle.isAdvertisingDirty, s.env.commits)
  have hbefore : (run (boot Device.init 0 0 0) (clearedOnce.take 4)).map summary =
    some (true, false, 0) := by decide
  have hafter : (run (boot Device.init 0 0 0) clearedOnce).map summary = some (true, false, 1) := by
    decide
  obtain ⟨s, hs, hsummary⟩ := Option.map_eq_some_iff.mp hbefore
  obtain ⟨t, ht, htsummary⟩ := Option.map_eq_some_iff.mp hafter
  obtain ⟨u, hu, hrest⟩ := run_append.mp ((congrArg (run _) (List.take_append_drop 4 _)).trans ht)
  obtain rfl := Option.some.inj (hs.symm.trans hu)
  simp only [summary, Prod.mk.injEq] at hsummary htsummary
  obtain ⟨hsready, hsclean, hscommits⟩ := hsummary
  obtain ⟨htready, htclean, htcommits⟩ := htsummary
  refine ⟨s, t, hs, hrest, scanned Device.synced_init 0 0 0 (clearedOnce.take 4)
    (clearedOnce.drop 4) s t (by decide) hs hrest hsready hsclean htready htclean ?_⟩
  rw [hscommits, htcommits]
  decide

end App
end PartRack
