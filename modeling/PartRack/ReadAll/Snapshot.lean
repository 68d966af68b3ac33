import Mathlib.Data.List.Infix
import PartRack.ReadAll.Session

/-! What a completed READ_ALL has delivered. The table is read one slot per work item and
may change in between: each record is the one its slot held when it was sent, and all of
them belong to one table if no slot changes once it has been sent. -/

namespace PartRack
namespace Session
open BindingTable ControlPoint

/-- The record of place `k` after the first `m` events of a run. -/
def recordAt (s : Session) (events : List Event) (m k : ℕ) : SlotRecord :=
  (run s (events.take m)).records.toList.getD k SlotRecord.zero

/-- The records delivered at the given moments, one slot after the other. -/
def recordsAt (s : Session) (events : List Event) (moments : List ℕ) : List SlotRecord :=
  moments.zipIdx.map fun p => recordAt s events p.1 p.2

theorem run_append_singleton (s : Session) (events : List Event) (e : Event) :
    run s (events ++ [e]) = (run s events).step e := by
  rw [run, List.foldl_append]
  rfl

theorem recordAt_append (s : Session) (events : List Event) (e : Event) {m : ℕ}
    (hm : m ≤ events.length) (k : ℕ) : recordAt s (events ++ [e]) m k = recordAt s events m k := by
  rw [recordAt, List.take_append_of_le_length hm, recordAt]

theorem recordsAt_append (s : Session) (events : List Event) (e : Event) {moments : List ℕ}
    (h : ∀ m ∈ moments, m < events.length) :
    recordsAt s (events ++ [e]) moments = recordsAt s events moments := by
  refine List.map_congr_left fun p hp => ?_
  exact recordAt_append s events e (h p.1 (List.fst_mem_of_mem_zipIdx hp)).le p.2

theorem recordsAt_snoc (s : Session) (events : List Event) (moments : List ℕ) (m : ℕ) :
    recordsAt s events (moments ++ [m]) =
      recordsAt s events moments ++ [recordAt s events m moments.length] := by
  rw [recordsAt, List.zipIdx_append, List.map_append, Nat.zero_add]
  rfl

/-- The `m`-th event of a run delivers the record `k` of the given ones, those before it
being out by then. -/
def DeliversAt (s : Session) (events : List Event) (records : List SlotRecord) (k m : ℕ) : Prop :=
  (run s (events.take m)).env.delivered = (records.take k).map recordReply ∧
  (run s (events.take (m + 1))).env.delivered = (records.take (k + 1)).map recordReply

/-- How far a read has come: the next slot follows the records delivered so far, and the
pacer stops with the end marker. -/
structure Progress (s : Session) (records : List SlotRecord) : Prop where
  next : s.pacer.nextSlot = BitVec.ofNat 8 (records.length + 1)
  le : records.length ≤ 25
  frames : s.pacer.active = true ∧ s.env.delivered = records.map recordReply ∨
    s.pacer.active = false ∧ records.length = 25 ∧
      s.env.delivered = readAllReplies records

theorem progress_start (s : Session) : Progress s.startReadAll [] :=
  ⟨rfl, Nat.zero_le _, Or.inl ⟨rfl, rfl⟩⟩

theorem readAllReplies_eq (records : List SlotRecord) :
    readAllReplies records = records.map recordReply ++ [endReply] := rfl

theorem Progress.write {s : Session} {records : List SlotRecord} (h : Progress s records)
    (save : Option SaveCb) (offset : ℕ) (frame : List Byte)
    (he : ¬Event.Starts (.write save offset frame)) :
    Progress (s.bindingCpWrite save offset frame).2 records := by
  obtain ⟨hpacer, hdelivered⟩ := write_frame s save offset frame he
  refine ⟨(congrArg Pacer.nextSlot hpacer).trans h.next, h.le, ?_⟩
  rw [hpacer, hdelivered]
  exact h.frames

/-- What a step that delivers the record of the next slot does, the record being the one
that the table has then. -/
structure DeliversNext (s s' : Session) (records : List SlotRecord) : Prop where
  table : s'.records = s.records
  before : s.env.delivered = records.map recordReply
  after : s'.env.delivered =
    (records ++ [s.records.toList.getD records.length SlotRecord.zero]).map recordReply
  progress : Progress s' (records ++ [s.records.toList.getD records.length SlotRecord.zero])

theorem Progress.tick_record {s : Session} {records : List SlotRecord} (h : Progress s records)
    (hactive : s.pacer.active = true) (hdelivered : s.env.delivered = records.map recordReply)
    (hlt : records.length < 25) (notifyErr : Int) :
    Progress (s.readAllWorkHandler notifyErr) records ∨
      DeliversNext s (s.readAllWorkHandler notifyErr) records := by
  rw [Session.tick_record hactive hlt h.next]
  by_cases herr : notifyErr = 0
  · right
    rw [if_pos herr]
    have hlt' : records.length < s.records.toList.length := by rwa [Vector.length_toList]
    have hrecord : s.records.toList.getD records.length SlotRecord.zero =
        s.records[records.length] := by
      rw [List.getD_eq_getElem _ _ hlt', Vector.getElem_toList]
    have hafter : s.env.delivered ++ [recordReply s.records[records.length]] =
        (records ++ [s.records.toList.getD records.length SlotRecord.zero]).map recordReply := by
      rw [hdelivered, List.map_append, hrecord]
      rfl
    refine ⟨rfl, hdelivered, hafter, ?_, ?_, Or.inl ⟨hactive, hafter⟩⟩
    · show s.pacer.nextSlot + 1 = _
      rw [h.next, List.length_append, List.length_singleton]
      exact (BitVec.ofNat_add _ 1).symm
    · rw [List.length_append, List.length_singleton]
      exact hlt
  · left
    rw [if_neg herr]
    exact ⟨h.next, h.le, Or.inl ⟨hactive, hdelivered⟩⟩

theorem Progress.tick_end {s : Session} {records : List SlotRecord} (h : Progress s records)
    (hactive : s.pacer.active = true) (hdelivered : s.env.delivered = records.map recordReply)
    (hlen : records.length = 25) (notifyErr : Int) :
    Progress (s.readAllWorkHandler notifyErr) records := by
  have hslot : 25 < s.pacer.nextSlot.toNat := by
    rw [h.next, hlen]
    decide
  rw [Session.tick_end hactive hslot]
  by_cases herr : notifyErr = 0
  · rw [if_pos herr]
    refine ⟨h.next, h.le, Or.inr ⟨rfl, hlen, ?_⟩⟩
    show s.env.delivered ++ [endReply] = _
    rw [hdelivered, readAllReplies_eq]
  · rw [if_neg herr]
    exact ⟨h.next, h.le, Or.inl ⟨hactive, hdelivered⟩⟩

/-- An event either delivers the record of the next slot as the table has it now, or
delivers no record. -/
theorem Progress.step {s : Session} {records : List SlotRecord} (h : Progress s records)
    {e : Event} (he : ¬e.Starts) :
    Progress (s.step e) records ∨ DeliversNext s (s.step e) records := by
  cases e with
  | write save offset frame => exact Or.inl (h.write save offset frame he)
  | tick notifyErr =>
    rcases h.frames with ⟨hactive, hdelivered⟩ | ⟨hactive, -, -⟩
    · rcases Nat.lt_or_eq_of_le h.le with hlt | hlen
      · exact h.tick_record hactive hdelivered hlt notifyErr
      · exact Or.inl (h.tick_end hactive hdelivered hlen notifyErr)
    · have hstep : s.step (.tick notifyErr) = s := tick_inactive hactive notifyErr
      rw [hstep]
      exact Or.inl h

/-! ## Runs -/

/-- The moments of the deliveries so far, one after the other. -/
structure Moments (s : Session) (events : List Event) (moments : List ℕ) : Prop where
  sorted : moments.Pairwise (· < ·)
  lt : ∀ m ∈ moments, m < events.length
  delivers : ∀ k m, moments[k]? = some m →
    DeliversAt s events (recordsAt s events moments) k m

theorem deliversAt_append {s : Session} {events : List Event} {e : Event}
    {records : List SlotRecord} {k m : ℕ} (hm : m < events.length)
    (h : DeliversAt s events records k m) : DeliversAt s (events ++ [e]) records k m := by
  rw [DeliversAt, List.take_append_of_le_length hm.le, List.take_append_of_le_length hm]
  exact h

theorem deliversAt_snoc {s : Session} {events : List Event} {records : List SlotRecord} {k m : ℕ}
    (hk : k < records.length) (r : SlotRecord) (h : DeliversAt s events records k m) :
    DeliversAt s events (records ++ [r]) k m := by
  rw [DeliversAt, List.take_append_of_le_length hk.le, List.take_append_of_le_length hk]
  exact h

theorem length_recordsAt (s : Session) (events : List Event) (moments : List ℕ) :
    (recordsAt s events moments).length = moments.length := by
  rw [recordsAt, List.length_map, List.length_zipIdx]

theorem Moments.append {s : Session} {events : List Event} {moments : List ℕ}
    (h : Moments s events moments) (e : Event) : Moments s (events ++ [e]) moments := by
  refine ⟨h.sorted, fun m hm => ?_, fun k m hk => ?_⟩
  · rw [List.length_append]
    exact Nat.lt_add_right _ (h.lt m hm)
  · rw [recordsAt_append s events e h.lt]
    exact deliversAt_append (h.lt m (List.mem_of_getElem? hk)) (h.delivers k m hk)

theorem recordsAt_next {s : Session} {events : List Event} {moments : List ℕ}
    (h : ∀ m ∈ moments, m < events.length) (e : Event) :
    recordsAt s (events ++ [e]) (moments ++ [events.length]) = recordsAt s events moments ++
      [(run s events).records.toList.getD (recordsAt s events moments).length
        SlotRecord.zero] := by
  rw [recordsAt_snoc, recordsAt_append s events e h, recordAt_append _ _ _ (Nat.le_refl _),
    recordAt, List.take_length, length_recordsAt]

theorem deliversAt_last {s : Session} {events : List Event} {e : Event}
    {records : List SlotRecord}
    (h : DeliversNext (run s events) ((run s events).step e) records) :
    DeliversAt s (events ++ [e])
      (records ++ [(run s events).records.toList.getD records.length SlotRecord.zero])
      records.length events.length := by
  constructor
  · rw [List.take_append_of_le_length (Nat.le_refl _), List.take_length, List.take_left]
    exact h.before
  · rw [List.take_of_length_le (by simp), List.take_of_length_le (by simp), run_append_singleton]
    exact h.after

theorem Moments.snoc {s : Session} {events : List Event} {moments : List ℕ} {e : Event}
    (h : Moments s events moments)
    (hnext : DeliversNext (run s events) ((run s events).step e) (recordsAt s events moments)) :
    Moments s (events ++ [e]) (moments ++ [events.length]) := by
  refine ⟨?_, ?_, ?_⟩
  · rw [List.pairwise_append]
    refine ⟨h.sorted, List.pairwise_singleton _ _, fun a ha b hb => ?_⟩
    rw [List.mem_singleton.mp hb]
    exact h.lt a ha
  · intro m hm
    rcases List.mem_append.mp hm with hm | hm
    · exact (h.append e).lt m hm
    · rw [List.mem_singleton.mp hm]
      simp
  · intro k m hk
    rw [recordsAt_next h.lt]
    obtain ⟨hk', hm⟩ := List.getElem?_eq_some_iff.mp hk
    rw [List.length_append, List.length_singleton] at hk'
    rcases Nat.lt_succ_iff_lt_or_eq.mp hk' with hlt | rfl
    · -- an earlier moment
      rw [List.getElem_append_left hlt] at hm
      have hold : DeliversAt s events (recordsAt s events moments) k m :=
        h.delivers k m (List.getElem?_eq_some_iff.mpr ⟨hlt, hm⟩)
      have hlen : k < (recordsAt s events moments).length := by rwa [length_recordsAt]
      exact deliversAt_snoc hlen _
        (deliversAt_append (h.lt m (hm ▸ List.getElem_mem hlt)) hold)
    · rw [List.getElem_concat_length rfl] at hm
      rw [← hm, ← length_recordsAt s events moments]
      exact deliversAt_last hnext

theorem progress_run (s : Session) (events : List Event) (h : ∀ e ∈ events, ¬e.Starts) :
    ∃ moments : List ℕ, Moments s.startReadAll events moments ∧
      Progress (run s.startReadAll events) (recordsAt s.startReadAll events moments) := by
  induction events using List.reverseRecOn with
  | nil => exact ⟨[], ⟨List.Pairwise.nil, by simp, by simp⟩, progress_start s⟩
  | append_singleton events e ih =>
    have hinit : ∀ e ∈ events, ¬e.Starts := fun e he => h e (List.mem_append_left _ he)
    obtain ⟨moments, hmoments, hprogress⟩ := ih hinit
    rw [run_append_singleton]
    rcases hprogress.step (h e (by simp)) with hstep | hnext
    · refine ⟨moments, hmoments.append e, ?_⟩
      rwa [recordsAt_append s.startReadAll events e hmoments.lt]
    · refine ⟨moments ++ [events.length], hmoments.snoc hnext, ?_⟩
      rw [recordsAt_next hmoments.lt]
      exact hnext.progress

/-- The event leaves alone every slot that has been delivered in a read that goes on. -/
def KeepsDelivered (s : Session) (e : Event) : Prop :=
  ∀ (k : ℕ) (hk : k < 25), s.pacer.active = true → k + 1 < s.pacer.nextSlot.toNat →
    (s.step e).records[k] = s.records[k]

theorem keepsDelivered_tick (s : Session) (notifyErr : Int) :
    s.KeepsDelivered (.tick notifyErr) := by
  intro k hk _ _
  exact congrArg (fun cp => cp.table.records[k]) (tick_cp s notifyErr)

theorem endReply_notMem_map (records : List SlotRecord) :
    endReply ∉ records.map recordReply := by
  intro hmem
  obtain ⟨r, -, hr⟩ := List.mem_map.mp hmem
  have hlen : r.toBytes.length = 1 := by
    rw [(CpEvent.notify.inj hr).2.2]
    rfl
  rw [SlotRecord.length_toBytes] at hlen
  exact absurd hlen (by decide)

theorem Progress.active_of_open {s : Session} {records : List SlotRecord}
    (h : Progress s records) (hopen : endReply ∉ s.env.delivered) : s.pacer.active = true := by
  rcases h.frames with ⟨hactive, -⟩ | ⟨-, -, hdelivered⟩
  · exact hactive
  · rw [hdelivered, readAllReplies_eq] at hopen
    exact absurd (List.mem_append_right _ (List.mem_singleton_self _)) hopen

theorem Progress.done {s : Session} {records : List SlotRecord} (h : Progress s records)
    (hdone : endReply ∈ s.env.delivered) :
    records.length = 25 ∧ s.env.delivered = readAllReplies records := by
  rcases h.frames with ⟨-, hdelivered⟩ | ⟨-, hlen, hdelivered⟩
  · rw [hdelivered] at hdone
    exact absurd hdone (endReply_notMem_map records)
  · exact ⟨hlen, hdelivered⟩

theorem take_eq_of_keepsDelivered {s : Session} {e : Event} {n : ℕ} (hn : n ≤ 25)
    (hactive : s.pacer.active = true) (hnext : s.pacer.nextSlot = BitVec.ofNat 8 (n + 1))
    (h : s.KeepsDelivered e) : (s.step e).records.toList.take n = s.records.toList.take n := by
  have hslot : s.pacer.nextSlot.toNat = n + 1 := by
    rw [hnext, BitVec.toNat_ofNat]
    omega
  apply List.ext_getElem
  · simp
  · intro k hk _
    rw [List.length_take, Vector.length_toList] at hk
    rw [List.getElem_take, List.getElem_take, Vector.getElem_toList, Vector.getElem_toList]
    exact h k (by omega) hactive (by omega)

theorem take_snoc {s : Session} {records : List SlotRecord} (hlt : records.length < 25)
    (hcurrent : records = s.records.toList.take records.length) :
    records ++ [s.records.toList.getD records.length SlotRecord.zero] =
      s.records.toList.take (records.length + 1) := by
  have hlt' : records.length < s.records.toList.length := by rwa [Vector.length_toList]
  rw [← List.take_append_getElem hlt', ← hcurrent, List.getD_eq_getElem _ _ hlt']

theorem Progress.step_current {s : Session} {records : List SlotRecord} (h : Progress s records)
    {e : Event} (he : ¬e.Starts) (hactive : s.pacer.active = true)
    (hcurrent : records = s.records.toList.take records.length) (hkeep : s.KeepsDelivered e) :
    ∃ records', Progress (s.step e) records' ∧
      records' = (s.step e).records.toList.take records'.length := by
  -- while no delivered slot changes, the records delivered are the table's own
  rcases h.step he with hstep | hnext
  · refine ⟨records, hstep, ?_⟩
    rw [take_eq_of_keepsDelivered h.le hactive h.next hkeep]
    exact hcurrent
  · refine ⟨_, hnext.progress, ?_⟩
    have hle := hnext.progress.le
    rw [List.length_append, List.length_singleton] at hle
    rw [hnext.table, List.length_append, List.length_singleton]
    exact take_snoc hle hcurrent

theorem step_inactive {s : Session} {e : Event} (he : ¬e.Starts)
    (h : s.pacer.active = false) : (s.step e).pacer.active = false := by
  cases e with
  | tick notifyErr => exact (congrArg (fun s => s.pacer.active) (tick_inactive h notifyErr)).trans h
  | write save offset frame =>
    exact (congrArg Pacer.active (write_frame s save offset frame he).1).trans h

theorem current_run (s : Session) (events : List Event) (h : ∀ e ∈ events, ¬e.Starts)
    (hkeep : ∀ before e after, events = before ++ e :: after →
      KeepsDelivered (run s.startReadAll before) e) :
    ∃ records, Progress (run s.startReadAll events) records ∧
      ((run s.startReadAll events).pacer.active = true →
        records = (run s.startReadAll events).records.toList.take records.length) := by
  induction events using List.reverseRecOn with
  | nil => exact ⟨[], progress_start s, fun _ => rfl⟩
  | append_singleton events e ih =>
    have hinit : ∀ e ∈ events, ¬e.Starts := fun e he => h e (List.mem_append_left _ he)
    have hlast : ¬e.Starts := h e (by simp)
    obtain ⟨records, hprogress, hcurrent⟩ := ih hinit fun before e' after hsplit =>
      hkeep before e' (after ++ [e]) (by rw [hsplit]; simp)
    rw [run_append_singleton]
    cases hactive : (run s.startReadAll events).pacer.active with
    | true =>
      obtain ⟨records', hstep, hcurrent'⟩ := hprogress.step_current hlast hactive
        (hcurrent hactive) (hkeep events e [] rfl)
      exact ⟨records', hstep, fun _ => hcurrent'⟩
    | false =>
      -- the end marker is out, so the table may change as it likes
      have hstill := step_inactive hlast hactive
      rcases hprogress.step hlast with hstep | hnext
      · exact ⟨_, hstep, fun hon => nomatch hstill.symm.trans hon⟩
      · exact ⟨_, hnext.progress, fun hon => nomatch hstill.symm.trans hon⟩

theorem step_of_starts (s : Session) {e : Event} (he : e.Starts) : s.step e = s.startReadAll := by
  cases e with
  | tick notifyErr => exact he.elim
  | write save offset frame =>
    obtain ⟨rfl, rfl⟩ := he
    rfl

/-- A READ_ALL that ends with its end marker has delivered 25 records, each as its slot
held it when the record was delivered, in the order of the slots; if no slot changed after
it had been delivered, they are the records of the table at the end. -/
theorem readAll_completed (s : Session) {start : Event} (hstart : start.Starts)
    (events : List Event) (e : Event) (h : ∀ e' ∈ events ++ [e], ¬e'.Starts)
    (hopen : endReply ∉ (run (s.step start) events).env.delivered)
    (hdone : endReply ∈ (run (s.step start) (events ++ [e])).env.delivered) :
    (∃ moments : List ℕ, moments.length = 25 ∧ moments.Pairwise (· < ·) ∧
      (∀ m ∈ moments, m < events.length) ∧
      (∀ k m, moments[k]? = some m → DeliversAt (s.step start) (events ++ [e])
        (recordsAt (s.step start) (events ++ [e]) moments) k m) ∧
      (run (s.step start) (events ++ [e])).env.delivered =
        readAllReplies (recordsAt (s.step start) (events ++ [e]) moments)) ∧
    ((∀ before e' after, events = before ++ e' :: after →
        KeepsDelivered (run (s.step start) before) e') →
      (run (s.step start) (events ++ [e])).env.delivered =
        readAllReplies (run (s.step start) events).records.toList) := by
  rw [step_of_starts s hstart] at hopen hdone ⊢
  constructor
  · obtain ⟨moments, hmoments, hprogress⟩ := progress_run s (events ++ [e]) h
    obtain ⟨hlen, hdelivered⟩ := hprogress.done hdone
    rw [length_recordsAt] at hlen
    refine ⟨moments, hlen, hmoments.sorted, fun m hm => ?_, hmoments.delivers, hdelivered⟩
    have hlast := hmoments.lt m hm
    rw [List.length_append] at hlast
    refine Nat.lt_of_le_of_ne (Nat.le_of_lt_succ hlast) fun hm' => ?_
    -- the last event delivers the end marker, so no record
    obtain ⟨k, hk⟩ := List.getElem?_of_mem hm
    have hsent := (hmoments.delivers k m hk).2
    rw [hm', List.take_of_length_le (by simp)] at hsent
    rw [hsent] at hdone
    exact endReply_notMem_map _ hdone
  · intro hkeep
    have hinit : ∀ e' ∈ events, ¬e'.Starts := fun e' he => h e' (List.mem_append_left _ he)
    obtain ⟨records, hprogress, hcurrent⟩ := current_run s events hinit hkeep
    have htake := hcurrent (hprogress.active_of_open hopen)
    rw [run_append_singleton] at hdone ⊢
    rcases hprogress.step (h e (by simp)) with hstep | hnext
    · obtain ⟨hlen, hdelivered⟩ := hstep.done hdone
      rw [hdelivered, htake, hlen, List.take_of_length_le (by simp)]
    · rw [hnext.after] at hdone
      exact absurd hdone (endReply_notMem_map _)

/-- A record at slot 2 only. -/
def secondOnly : Session :=
  ⟨Pacer.init, ⟨⟨⟨emptyRecords.set 1 (SlotRecord.zero.normalizeSlot 2), 1⟩, []⟩, [], []⟩⟩

/-- The first slot is sent, SET_QTY 2 comes in, and the other slots are sent. -/
def qtyBetween : List Event :=
  .tick 0 :: .write (some fun _ _ => 0) 0 [0x30, 0x02, 0x07, 0x00] :: List.replicate 24 (.tick 0)

theorem qtyBetween_cases {before : List Event} {e : Event} {after : List Event}
    (h : qtyBetween = before ++ e :: after) :
    e = .tick 0 ∨ before = [.tick 0] ∧
      e = .write (some fun _ _ => 0) 0 [0x30, 0x02, 0x07, 0x00] := by
  rcases before with - | ⟨first, - | ⟨second, before⟩⟩
  · exact Or.inl (List.cons.inj h).1.symm
  · obtain ⟨hfirst, hrest⟩ := List.cons.inj h
    exact Or.inr ⟨by rw [← hfirst], (List.cons.inj hrest).1.symm⟩
  · have hrest := (List.cons.inj (List.cons.inj h).2).2
    have hmem : e ∈ List.replicate 24 (Event.tick 0) := by
      rw [hrest]
      simp
    exact Or.inl (List.mem_replicate.mp hmem).2

/-- Slot 2 is bound, and gets another quantity between the deliveries of slots 1 and 2. -/
theorem readAll_completed_setQty :
    (∃ moments : List ℕ, moments.length = 25 ∧ moments.Pairwise (· < ·) ∧
      (∀ m ∈ moments, m < qtyBetween.length) ∧
      (∀ k m, moments[k]? = some m → DeliversAt (secondOnly.step (.write none 0 [0x02]))
        (qtyBetween ++ [.tick 0]) (recordsAt (secondOnly.step (.write none 0 [0x02]))
          (qtyBetween ++ [.tick 0]) moments) k m) ∧
      (run (secondOnly.step (.write none 0 [0x02])) (qtyBetween ++ [.tick 0])).env.delivered =
        readAllReplies (recordsAt (secondOnly.step (.write none 0 [0x02]))
          (qtyBetween ++ [.tick 0]) moments)) ∧
    (run (secondOnly.step (.write none 0 [0x02])) (qtyBetween ++ [.tick 0])).env.delivered =
      readAllReplies (run (secondOnly.step (.write none 0 [0x02])) qtyBetween).records.toList ∧
    (run (secondOnly.step (.write none 0 [0x02])) qtyBetween).records ≠ secondOnly.records := by
  have hstart : (Event.write none 0 [0x02]).Starts := ⟨rfl, rfl⟩
  have hevents : ∀ e ∈ qtyBetween ++ [.tick 0], ¬e.Starts := by
    intro e he
    simp only [qtyBetween, List.mem_append, List.mem_cons, List.mem_replicate,
      List.not_mem_nil, or_false] at he
    rcases he with (rfl | rfl | ⟨-, rfl⟩) | rfl
    · exact id
    · exact fun h => absurd h.2 (by decide)
    · exact id
    · exact id
  have hopen : endReply ∉
      (run (secondOnly.step (.write none 0 [0x02])) qtyBetween).env.delivered := by decide +kernel
  have hdone : endReply ∈ (run (secondOnly.step (.write none 0 [0x02]))
      (qtyBetween ++ [.tick 0])).env.delivered := by decide +kernel
  have hread := readAll_completed secondOnly hstart qtyBetween (.tick 0) hevents hopen hdone
  refine ⟨hread.1, hread.2 fun before e after hsplit => ?_, by decide +kernel⟩
  rcases qtyBetween_cases hsplit with rfl | ⟨rfl, rfl⟩
  · exact keepsDelivered_tick _ 0
  · unfold KeepsDelivered
    decide +kernel

/-- The first slot is sent, REMOVE_AT 1 comes in, and the other slots are sent. -/
def removeBetween : List Event :=
  .tick 0 :: .write (some fun _ _ => 0) 0 [0x21, 0x01] :: List.replicate 24 (.tick 0)

theorem not_snapshot_removeAt :
    endReply ∉ (run (secondOnly.step (.write none 0 [0x02])) removeBetween).env.delivered ∧
    endReply ∈ (run (secondOnly.step (.write none 0 [0x02]))
      (removeBetween ++ [Event.tick 0])).env.delivered ∧
    ∀ m ≤ (removeBetween ++ [Event.tick 0]).length,
      (run (secondOnly.step (.write none 0 [0x02]))
          (removeBetween ++ [Event.tick 0])).env.delivered ≠
        readAllReplies (run (secondOnly.step (.write none 0 [0x02]))
          ((removeBetween ++ [Event.tick 0]).take m)).records.toList := by
  refine ⟨?_, ?_, ?_⟩
  · decide +kernel
  · decide +kernel
  · decide +kernel

end Session
end PartRack
