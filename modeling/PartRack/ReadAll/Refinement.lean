import Mathlib.Data.List.Infix
import PartRack.BindingTable.Contents
import PartRack.ControlPoint.Model
import PartRack.ReadAll.Pacer

/-! The paced READ_ALL against the synchronous one of the dispatcher. Both read the same
table, which stands still: the pacer's frames are the dispatcher's, whatever notify
returns on the way. -/

namespace PartRack

/-- What notify and schedule_next have been called for: the frames accepted and the number
of those refused since the latest start, and every delay asked for. -/
structure Link where
  delivered : List CpEvent
  failed : ℕ
  delays : List ℕ
deriving DecidableEq, Repr

/-- The same table behind a dispatcher; its other callbacks are never reached. -/
def Dispatcher.readingFrom (d : Dispatcher (List CpEvent)) (readOne : Byte → Int × SlotRecord) :
    Dispatcher (List CpEvent) :=
  { d with
    readOne := fun slot sent => (readOne slot, sent)
    notifyBinding := fun op status payload sent => (0, sent ++ [.notify op status payload]) }

def CpEvent.payload : CpEvent → List Byte
  | .notify _ _ payload => payload
  | _ => []

namespace Link
variable (readOne : Byte → Int × SlotRecord)

/-- The adapter of one call of process, in which notify returns `notifyErr`. -/
def adapter (notifyErr : Int) : PacerAdapter Link where
  readOne slot := fun s => (readOne slot, s)
  notifyBinding op status payload := fun s =>
    (notifyErr, { s with env := if notifyErr = 0 then
      { s.env with delivered := s.env.delivered ++ [.notify op status payload] }
      else { s.env with failed := s.env.failed + 1 } })
  scheduleNext delayMs := fun s =>
    ((), { s with env := { s.env with delays := s.env.delays ++ [delayMs] } })

inductive Call
  | start
  | cancel
  | process (notifyErr : Int)
deriving DecidableEq, Repr

def step (s : Paced Link) : Call → Paced Link
  | .start => (Pacer.start (adapter readOne 0)
      { s with env := { s.env with delivered := [], failed := 0 } }).2
  | .cancel => (Pacer.cancel s).2
  | .process notifyErr => (Pacer.process (adapter readOne notifyErr) s).2

def init : Paced Link := ⟨Pacer.init, ⟨[], 0, []⟩⟩

def run (calls : List Call) : Paced Link := calls.foldl (step readOne) init

/-! ## The frames of the dispatcher -/

/-- The frame of place `k`: the records in the order of the slots, then the end marker. -/
def frameAt (k : ℕ) : CpEvent :=
  .notify BindingOp.readAll.code .ok
    (if k < 25 then (readOne (BitVec.ofNat 8 (k + 1))).2.toBytes else [readAllEndMarker])

def frames : List CpEvent := (List.range 26).map (frameAt readOne)

theorem frameAt_of_lt {k : ℕ} (hk : k < 25) : frameAt readOne k =
    .notify BindingOp.readAll.code .ok (readOne (BitVec.ofNat 8 (k + 1))).2.toBytes := by
  rw [frameAt, if_pos hk]

theorem frameAt_end : frameAt readOne 25 = .notify BindingOp.readAll.code .ok [readAllEndMarker] :=
  rfl

theorem map_frameAt_prefix {n : ℕ} (hn : n ≤ 26) :
    (List.range n).map (frameAt readOne) <+: frames readOne := by
  have htake : List.range n = (List.range 26).take n := by
    rw [List.take_range, Nat.min_eq_left hn]
  rw [frames, htake]
  exact (List.take_prefix n _).map _

variable {readOne}

theorem readAllFrom_eq (hread : ∀ i < 25, (readOne (BitVec.ofNat 8 (i + 1))).1 = 0)
    (d : Dispatcher (List CpEvent)) (k i : ℕ) (h : i + k = 25) (sent : List CpEvent) :
    (d.readingFrom readOne).readAllFrom k (i + 1) sent =
      (0, sent ++ (List.range' i (k + 1)).map (frameAt readOne)) := by
  induction k generalizing i sent with
  | zero =>
    have hi : i = 25 := h
    rw [hi]
    rfl
  | succ k ih =>
    have hi : i < 25 := by omega
    have hrecord := hread i hi
    have hstep : (d.readingFrom readOne).readAllFrom (k + 1) (i + 1) sent =
        (d.readingFrom readOne).readAllFrom k (i + 1 + 1) (sent ++ [frameAt readOne i]) := by
      show (let p := readOne (BitVec.ofNat 8 (i + 1))
        (if p.1 ≠ 0 then (pure 0 : StateM (List CpEvent) Int)
          else (d.readingFrom readOne).readAllFrom k (i + 1 + 1))
          (sent ++ [.notify BindingOp.readAll.code (statusFromErrno p.1)
            (if p.1 = 0 then p.2.toBytes else [])])) = _
      rw [frameAt_of_lt readOne hi]
      simp only [hrecord, ne_eq, not_true_eq_false, if_false, if_true]
      rfl
    rw [hstep, ih (i + 1) (by omega), List.append_assoc, List.range'_succ]
    rfl

theorem dispatch_readAll (hread : ∀ i < 25, (readOne (BitVec.ofNat 8 (i + 1))).1 = 0)
    (d : Dispatcher (List CpEvent)) :
    (d.readingFrom readOne).dispatchBindingCp [BindingOp.readAll.code] [] =
      (0, frames readOne) := by
  have hloop := readAllFrom_eq hread d 25 0 rfl []
  rw [Dispatcher.dispatchBindingCp_eq_serve, frames, List.range_eq_range']
  exact hloop

/-! ## One call of the pacer -/

theorem process_inactive {s : Paced Link} (h : s.pacer.active = false) (notifyErr : Int) :
    step readOne s (.process notifyErr) = s :=
  congrArg Prod.snd (Pacer.process_of_inactive (adapter readOne notifyErr) h)

def deliver (e : CpEvent) (s : Paced Link) : Paced Link :=
  { s with env := { s.env with delivered := s.env.delivered ++ [e] } }

def refuse (s : Paced Link) : Paced Link :=
  { s with env := { s.env with failed := s.env.failed + 1 } }

def schedule (delayMs : ℕ) (s : Paced Link) : Paced Link :=
  { s with env := { s.env with delays := s.env.delays ++ [delayMs] } }

theorem process_failed (hread : ∀ i < 25, (readOne (BitVec.ofNat 8 (i + 1))).1 = 0)
    {s : Paced Link} (hactive : s.pacer.active = true) {n : ℕ} (hn : n < 26)
    (hslot : s.pacer.nextSlot = BitVec.ofNat 8 (n + 1)) {notifyErr : Int} (herr : notifyErr ≠ 0) :
    step readOne s (.process notifyErr) = schedule readAllRetryDelayMs (refuse s) := by
  have hnext : s.pacer.nextSlot.toNat = n + 1 := by
    rw [hslot, BitVec.toNat_ofNat]
    omega
  have hnotify : ∀ status payload,
      Pacer.notifyReadAll (adapter readOne notifyErr) status payload s = (notifyErr, refuse s) := by
    intro status payload
    show (notifyErr, { s with env := if notifyErr = 0 then _ else _ }) = _
    rw [if_neg herr]
    rfl
  show (Pacer.process (adapter readOne notifyErr) s).2 = _
  rcases Nat.lt_or_eq_of_le (Nat.le_of_lt_succ hn) with hlt | hend
  · have hrecord : (readOne s.pacer.nextSlot).1 = 0 := by
      rw [hslot]
      exact hread n hlt
    rw [Pacer.process_of_slot _ hactive (by omega)]
    show (Pacer.processRead _ (readOne s.pacer.nextSlot).1 _ s).2 = _
    rw [hrecord, Pacer.processRead_of_failed (adapter readOne notifyErr) herr, hnotify]
    rfl
  · rw [Pacer.process_of_end _ hactive (by omega),
      Pacer.processEnd_of_failed (adapter readOne notifyErr) herr, hnotify]
    rfl

theorem process_record (hread : ∀ i < 25, (readOne (BitVec.ofNat 8 (i + 1))).1 = 0)
    {s : Paced Link} (hactive : s.pacer.active = true) {n : ℕ} (hn : n < 25)
    (hslot : s.pacer.nextSlot = BitVec.ofNat 8 (n + 1)) :
    step readOne s (.process 0) = schedule readAllNotifyDelayMs
      (Pacer.setNextSlot (s.pacer.nextSlot + 1) (deliver (frameAt readOne n) s)) := by
  have hrecord := hread n hn
  have hle : ¬25 < s.pacer.nextSlot.toNat := by
    rw [hslot, BitVec.toNat_ofNat]
    omega
  show (Pacer.process (adapter readOne 0) s).2 = _
  rw [Pacer.process_of_slot _ hactive hle, hslot, frameAt_of_lt readOne hn]
  show (Pacer.processRead _ (readOne (BitVec.ofNat 8 (n + 1))).1 _ s).2 = _
  rw [hrecord, Pacer.processRead_of_sent _ rfl, ← hslot]
  rfl

theorem process_end {s : Paced Link} (hactive : s.pacer.active = true)
    (hslot : s.pacer.nextSlot = BitVec.ofNat 8 26) :
    step readOne s (.process 0) = Pacer.setActive false (deliver (frameAt readOne 25) s) := by
  have hgt : 25 < s.pacer.nextSlot.toNat := by
    rw [hslot]
    decide
  show (Pacer.process (adapter readOne 0) s).2 = _
  rw [Pacer.process_of_end _ hactive hgt, Pacer.processEnd_of_sent _ rfl]
  rfl

/-! ## Runs -/

/-- The latest read has delivered the first `n` frames, and the next slot follows them. -/
structure InOrder (readOne : Byte → Int × SlotRecord) (s : Paced Link) (n : ℕ) : Prop where
  delivered : s.env.delivered = (List.range n).map (frameAt readOne)
  le : n ≤ 26
  next : s.pacer.active = true → n < 26 ∧ s.pacer.nextSlot = BitVec.ofNat 8 (n + 1)

theorem InOrder.isPrefix {s : Paced Link} {n : ℕ} (h : InOrder readOne s n) :
    s.env.delivered <+: frames readOne := by
  rw [h.delivered]
  exact map_frameAt_prefix readOne h.le

theorem InOrder.complete_iff {s : Paced Link} {n : ℕ} (h : InOrder readOne s n) :
    s.env.delivered = frames readOne ↔ n = 26 := by
  constructor
  · intro hall
    have hlen := congrArg List.length hall
    rwa [h.delivered, frames, List.length_map, List.length_map, List.length_range,
      List.length_range] at hlen
  · intro hn
    rw [h.delivered, hn, frames]

theorem InOrder.process_cases (hread : ∀ i < 25, (readOne (BitVec.ofNat 8 (i + 1))).1 = 0)
    {s : Paced Link} {n : ℕ} (h : InOrder readOne s n) (hactive : s.pacer.active = true)
    (notifyErr : Int) :
    (notifyErr ≠ 0 ∧
      step readOne s (.process notifyErr) = schedule readAllRetryDelayMs (refuse s)) ∨
    (notifyErr = 0 ∧ n < 25 ∧ step readOne s (.process notifyErr) =
      schedule readAllNotifyDelayMs
        (Pacer.setNextSlot (s.pacer.nextSlot + 1) (deliver (frameAt readOne n) s))) ∨
    (notifyErr = 0 ∧ n = 25 ∧ step readOne s (.process notifyErr) =
      Pacer.setActive false (deliver (frameAt readOne n) s)) := by
  obtain ⟨hn, hslot⟩ := h.next hactive
  by_cases herr : notifyErr = 0
  · subst herr
    rcases Nat.lt_or_eq_of_le (Nat.le_of_lt_succ hn) with hlt | rfl
    · exact Or.inr (Or.inl ⟨rfl, hlt, process_record hread hactive hlt hslot⟩)
    · exact Or.inr (Or.inr ⟨rfl, rfl, process_end hactive hslot⟩)
  · exact Or.inl ⟨herr, process_failed hread hactive hn hslot herr⟩

theorem InOrder.start (s : Paced Link) : InOrder readOne (step readOne s .start) 0 :=
  ⟨rfl, Nat.zero_le _, fun _ => ⟨by decide, rfl⟩⟩

theorem InOrder.cancel {s : Paced Link} {n : ℕ} (h : InOrder readOne s n) :
    InOrder readOne (step readOne s .cancel) n :=
  ⟨h.delivered, h.le, fun hactive => absurd hactive Bool.false_ne_true⟩

theorem InOrder.refuse {s : Paced Link} {n : ℕ} (h : InOrder readOne s n) (delayMs : ℕ) :
    InOrder readOne (schedule delayMs (refuse s)) n :=
  ⟨h.delivered, h.le, h.next⟩

theorem InOrder.deliver_record {s : Paced Link} {n : ℕ} (h : InOrder readOne s n)
    (hactive : s.pacer.active = true) (hn : n < 25) (delayMs : ℕ) :
    InOrder readOne (schedule delayMs (Pacer.setNextSlot (s.pacer.nextSlot + 1)
      (deliver (frameAt readOne n) s))) (n + 1) := by
  refine ⟨?_, by omega, fun _ => ⟨by omega, ?_⟩⟩
  · show s.env.delivered ++ [frameAt readOne n] = _
    rw [h.delivered, List.range_succ, List.map_append]
    rfl
  · show s.pacer.nextSlot + 1 = _
    rw [(h.next hactive).2]
    exact (BitVec.ofNat_add _ 1).symm

theorem InOrder.deliver_end {s : Paced Link} (h : InOrder readOne s 25) :
    InOrder readOne (Pacer.setActive false (deliver (frameAt readOne 25) s)) 26 := by
  refine ⟨?_, Nat.le_refl _, fun hactive => absurd hactive Bool.false_ne_true⟩
  show s.env.delivered ++ [frameAt readOne 25] = _
  rw [h.delivered, List.range_succ (n := 25), List.map_append]
  rfl

theorem InOrder.step (hread : ∀ i < 25, (readOne (BitVec.ofNat 8 (i + 1))).1 = 0)
    {s : Paced Link} {n : ℕ} (h : InOrder readOne s n) (call : Call) :
    ∃ m, InOrder readOne (step readOne s call) m := by
  cases call with
  | start => exact ⟨0, InOrder.start s⟩
  | cancel => exact ⟨n, h.cancel⟩
  | process notifyErr =>
    cases hactive : s.pacer.active with
    | false =>
      rw [process_inactive hactive]
      exact ⟨n, h⟩
    | true =>
      rcases h.process_cases hread hactive notifyErr with
        ⟨-, hstep⟩ | ⟨-, hn, hstep⟩ | ⟨-, rfl, hstep⟩
      · exact ⟨n, hstep ▸ h.refuse _⟩
      · exact ⟨n + 1, hstep ▸ h.deliver_record hactive hn _⟩
      · exact ⟨26, hstep ▸ h.deliver_end⟩

theorem run_append_singleton (calls : List Call) (call : Call) :
    run readOne (calls ++ [call]) = step readOne (run readOne calls) call := by
  rw [run, List.foldl_append]
  rfl

theorem inOrder_run (hread : ∀ i < 25, (readOne (BitVec.ofNat 8 (i + 1))).1 = 0)
    (calls : List Call) : ∃ n, InOrder readOne (run readOne calls) n := by
  induction calls using List.reverseRecOn with
  | nil => exact ⟨0, rfl, Nat.zero_le _, fun hactive => absurd hactive Bool.false_ne_true⟩
  | append_singleton calls call ih =>
    obtain ⟨n, hn⟩ := ih
    rw [run_append_singleton]
    exact hn.step hread call

theorem silent_after_cancel (calls later : List Call) (h : ∀ call ∈ later, call ≠ .start) :
    (run readOne (calls ++ .cancel :: later)).pacer.active = false ∧
      (run readOne (calls ++ .cancel :: later)).env.delivered =
        (run readOne calls).env.delivered := by
  induction later using List.reverseRecOn with
  | nil =>
    rw [run_append_singleton]
    exact ⟨rfl, rfl⟩
  | append_singleton later call ih =>
    obtain ⟨hinactive, hdelivered⟩ := ih fun c hc => h c (List.mem_append_left _ hc)
    have hcall : call ≠ .start := h call (by simp)
    rw [← List.cons_append, ← List.append_assoc, run_append_singleton]
    cases call with
    | start => exact absurd rfl hcall
    | cancel => exact ⟨rfl, hdelivered⟩
    | process notifyErr =>
      rw [process_inactive hinactive]
      exact ⟨hinactive, hdelivered⟩

/-- A read after `calls` calls of process: each has delivered a frame or failed. -/
structure Reading (readOne : Byte → Int × SlotRecord) (s : Paced Link) (calls : ℕ) : Prop where
  going : s.pacer.active = true → InOrder readOne s (calls - s.env.failed) ∧ s.env.failed ≤ calls
  done : s.pacer.active = false → InOrder readOne s 26 ∧ 26 + s.env.failed ≤ calls

theorem Reading.step (hread : ∀ i < 25, (readOne (BitVec.ofNat 8 (i + 1))).1 = 0)
    {s : Paced Link} {calls : ℕ} (h : Reading readOne s calls) (notifyErr : Int) :
    Reading readOne (step readOne s (.process notifyErr)) (calls + 1) := by
  cases hactive : s.pacer.active with
  | false =>
    obtain ⟨horder, hle⟩ := h.done hactive
    rw [process_inactive hactive]
    refine ⟨fun hon => absurd (hactive.symm.trans hon) Bool.false_ne_true, fun _ => ⟨horder, ?_⟩⟩
    exact Nat.le_succ_of_le hle
  | true =>
    obtain ⟨horder, hle⟩ := h.going hactive
    rcases horder.process_cases hread hactive notifyErr with
      ⟨-, hstep⟩ | ⟨-, hn, hstep⟩ | ⟨-, hn, hstep⟩
    · rw [hstep]
      refine ⟨fun _ => ⟨?_, Nat.succ_le_succ hle⟩, fun hoff => ?_⟩
      · have hsame : calls + 1 - (s.env.failed + 1) = calls - s.env.failed :=
          Nat.add_sub_add_right calls 1 s.env.failed
        show InOrder readOne _ (calls + 1 - (s.env.failed + 1))
        rw [hsame]
        exact horder.refuse _
      · exact absurd (hoff.symm.trans hactive) Bool.false_ne_true
    · rw [hstep]
      refine ⟨fun _ => ⟨?_, Nat.le_succ_of_le hle⟩, fun hoff => ?_⟩
      · have hmore : calls + 1 - s.env.failed = calls - s.env.failed + 1 := Nat.succ_sub hle
        show InOrder readOne _ (calls + 1 - s.env.failed)
        rw [hmore]
        exact horder.deliver_record hactive hn _
      · exact absurd (hoff.symm.trans hactive) Bool.false_ne_true
    · rw [hstep]
      refine ⟨fun hon => absurd hon Bool.false_ne_true, fun _ => ⟨?_, ?_⟩⟩
      · rw [hn] at horder ⊢
        exact horder.deliver_end
      · show 26 + s.env.failed ≤ calls + 1
        omega

theorem reading_run (hread : ∀ i < 25, (readOne (BitVec.ofNat 8 (i + 1))).1 = 0)
    (calls : List Call) (results : List Int) :
    Reading readOne (run readOne (calls ++ .start :: results.map .process)) results.length := by
  induction results using List.reverseRecOn with
  | nil =>
    rw [List.map_nil, run_append_singleton]
    exact ⟨fun _ => ⟨InOrder.start _, Nat.zero_le _⟩,
      fun hoff => absurd hoff.symm Bool.false_ne_true⟩
  | append_singleton results notifyErr ih =>
    rw [List.map_append, ← List.cons_append, ← List.append_assoc, List.map_singleton,
      run_append_singleton, List.length_append, List.length_singleton]
    exact ih.step hread notifyErr

theorem Reading.inactive_iff {s : Paced Link} {calls : ℕ} (h : Reading readOne s calls) :
    (s.pacer.active = false ↔ s.env.delivered = frames readOne) ∧
      (s.pacer.active = false ↔ 26 + s.env.failed ≤ calls) := by
  -- the read stops once every frame is out, that is after as many calls of process as there are
  -- frames and refusals
  cases hactive : s.pacer.active with
  | false =>
    obtain ⟨horder, hle⟩ := h.done hactive
    exact ⟨iff_of_true rfl (horder.complete_iff.mpr rfl), iff_of_true rfl hle⟩
  | true =>
    obtain ⟨horder, hle⟩ := h.going hactive
    obtain ⟨hn, -⟩ := horder.next hactive
    have hopen : ¬s.env.delivered = frames readOne := fun hall =>
      Nat.ne_of_lt hn (horder.complete_iff.mp hall)
    exact ⟨iff_of_false (by simp) hopen, iff_of_false (by simp) (by omega)⟩

theorem process_schedules (hread : ∀ i < 25, (readOne (BitVec.ofNat 8 (i + 1))).1 = 0)
    {s : Paced Link} {n : ℕ} (h : InOrder readOne s n) (notifyErr : Int) :
    ((step readOne s (.process notifyErr)).pacer.active = true →
      ∃ delayMs, (step readOne s (.process notifyErr)).env.delays = s.env.delays ++ [delayMs]) ∧
    ((step readOne s (.process notifyErr)).pacer.active = false →
      (step readOne s (.process notifyErr)).env.delays = s.env.delays) := by
  cases hactive : s.pacer.active with
  | false =>
    rw [process_inactive hactive]
    exact ⟨fun hon => absurd (hactive.symm.trans hon) Bool.false_ne_true, fun _ => rfl⟩
  | true =>
    rcases h.process_cases hread hactive notifyErr with
      ⟨-, hstep⟩ | ⟨-, -, hstep⟩ | ⟨-, -, hstep⟩
    · rw [hstep]
      exact ⟨fun _ => ⟨_, rfl⟩, fun hoff => absurd (hoff.symm.trans hactive) Bool.false_ne_true⟩
    · rw [hstep]
      exact ⟨fun _ => ⟨_, rfl⟩, fun hoff => absurd (hoff.symm.trans hactive) Bool.false_ne_true⟩
    · rw [hstep]
      exact ⟨fun hon => absurd hon Bool.false_ne_true, fun _ => rfl⟩

theorem Reading.stops (hread : ∀ i < 25, (readOne (BitVec.ofNat 8 (i + 1))).1 = 0)
    {s : Paced Link} {calls : ℕ} (h : Reading readOne s calls) (hactive : s.pacer.active = true)
    {notifyErr : Int}
    (hoff : (Link.step readOne s (.process notifyErr)).pacer.active = false) :
    calls + 1 = 26 + (Link.step readOne s (.process notifyErr)).env.failed := by
  obtain ⟨horder, hle⟩ := h.going hactive
  rcases horder.process_cases hread hactive notifyErr with
    ⟨-, hstep⟩ | ⟨-, -, hstep⟩ | ⟨-, hn, hstep⟩
  · rw [hstep] at hoff
    exact absurd (hoff.symm.trans hactive) Bool.false_ne_true
  · rw [hstep] at hoff
    exact absurd (hoff.symm.trans hactive) Bool.false_ne_true
  · rw [hstep]
    show calls + 1 = 26 + s.env.failed
    omega

theorem frames_eq (readOne : Byte → Int × SlotRecord) :
    frames readOne = (List.range 25).map (fun i => CpEvent.notify BindingOp.readAll.code .ok
      (readOne (BitVec.ofNat 8 (i + 1))).2.toBytes) ++
        [.notify BindingOp.readAll.code .ok [readAllEndMarker]] := by
  have hrecords : (List.range 25).map (frameAt readOne) = (List.range 25).map fun i =>
      .notify BindingOp.readAll.code .ok (readOne (BitVec.ofNat 8 (i + 1))).2.toBytes :=
    List.map_congr_left fun i hi => frameAt_of_lt readOne (List.mem_range.mp hi)
  rw [frames, List.range_succ, List.map_append, List.map_singleton, frameAt_end, hrecords]

theorem payloads_table {table : BindingTable}
    (h : ∀ slot, readOne slot = table.readOne slot SlotRecord.zero) :
    ((frames readOne).take 25).flatMap CpEvent.payload =
      table.records.toList.flatMap SlotRecord.toBytes := by
  have hrecords : table.records.toList = (List.range 25).map fun i =>
      (readOne (BitVec.ofNat 8 (i + 1))).2 := by
    apply List.ext_getElem
    · simp
    · intro i hi _
      have hlt : i < 25 := by rwa [Vector.length_toList] at hi
      rw [Vector.getElem_toList, List.getElem_map, List.getElem_range, h,
        ControlPoint.readOne_ofNat table hlt]
  rw [frames_eq, List.take_left' (by simp), hrecords, List.flatMap_map, List.flatMap_map]
  rfl

/-- The paced READ_ALL refines the synchronous one: whatever is started, cancelled and
refused, the frames out are a prefix of the dispatcher's, a cancelled pacer is silent, a
read stops with its last frame, and only then asks for no further work item. -/
theorem paced_refines_dispatcher (readOne : Byte → Int × SlotRecord)
    (hread : ∀ i < 25, (readOne (BitVec.ofNat 8 (i + 1))).1 = 0)
    (d : Dispatcher (List CpEvent)) :
    let frames := ((d.readingFrom readOne).dispatchBindingCp [0x02] []).2
    frames = (List.range 25).map (fun i => CpEvent.notify 0x02 .ok
      (readOne (BitVec.ofNat 8 (i + 1))).2.toBytes) ++ [.notify 0x02 .ok [0xFF]] ∧
    (∀ calls, (run readOne calls).env.delivered <+: frames) ∧
    (∀ calls later, (∀ call ∈ later, call ≠ .start) →
      (run readOne (calls ++ .cancel :: later)).env.delivered =
        (run readOne calls).env.delivered) ∧
    (∀ (calls : List Call) (results : List Int),
      let s := run readOne (calls ++ .start :: results.map .process)
      (s.pacer.active = false ↔ s.env.delivered = frames) ∧
      (s.pacer.active = false ↔ 26 + s.env.failed ≤ results.length)) ∧
    (∀ (calls : List Call) (results : List Int) (notifyErr : Int),
      let s := run readOne (calls ++ .start :: results.map .process)
      let s' := step readOne s (.process notifyErr)
      s.pacer.active = true → s'.pacer.active = false →
        results.length + 1 = 26 + s'.env.failed) ∧
    (∀ calls notifyErr, let s := run readOne calls
      let s' := step readOne s (.process notifyErr)
      (s'.pacer.active = true → ∃ delayMs, s'.env.delays = s.env.delays ++ [delayMs]) ∧
      (s'.pacer.active = false → s'.env.delays = s.env.delays)) ∧
    (∀ table : BindingTable, (∀ slot, readOne slot = table.readOne slot SlotRecord.zero) →
      ∀ calls, (run readOne calls).env.delivered = frames →
        crc16CcittFalse (((run readOne calls).env.delivered.take 25).flatMap CpEvent.payload) =
          table.getInfo.crc16Le) := by
  have hframes : ((d.readingFrom readOne).dispatchBindingCp [0x02] []).2 = frames readOne :=
    congrArg Prod.snd (dispatch_readAll hread d)
  simp only [hframes]
  refine ⟨frames_eq readOne, ?_, ?_, ?_, ?_, ?_, ?_⟩
  · intro calls
    obtain ⟨n, hn⟩ := inOrder_run hread calls
    exact hn.isPrefix
  · intro calls later hlater
    exact (silent_after_cancel calls later hlater).2
  · intro calls results
    exact (reading_run hread calls results).inactive_iff
  · intro calls results notifyErr hactive hoff
    exact (reading_run hread calls results).stops hread hactive hoff
  · intro calls notifyErr
    obtain ⟨n, hn⟩ := inOrder_run hread calls
    exact process_schedules hread hn notifyErr
  · intro table htable calls hall
    rw [hall, payloads_table htable]
    rfl

/-- A dispatcher whose own callbacks refuse everything. -/
def refusing : Dispatcher (List CpEvent) where
  readOne _ := pure (-Errno.EINVAL, SlotRecord.zero)
  writeOne _ := pure (-Errno.EINVAL)
  clearOne _ := pure (-Errno.EINVAL)
  insertAt _ _ := pure (-Errno.EINVAL)
  removeAt _ := pure (-Errno.EINVAL)
  moveBlock _ _ _ := pure (-Errno.EINVAL)
  setQty _ _ := pure (-Errno.EINVAL)
  factoryReset _ := pure (-Errno.EINVAL)
  notifyBinding _ _ _ := pure 0
  tableChanged := pure ()

/-- A read of a table with one record in which the first notify and the end marker fail
once. -/
theorem paced_refines_dispatcher_secondBound :
    (run (fun slot => BindingTable.secondBound.readOne slot SlotRecord.zero)
      ([] ++ .start :: ((-11 :: List.replicate 25 0 ++ [-11, 0] : List Int).map
        .process))).env.delivered =
    ((refusing.readingFrom fun slot => BindingTable.secondBound.readOne slot SlotRecord.zero)
      |>.dispatchBindingCp [0x02] []).2 := by
  have hread : ∀ i < 25, (BindingTable.secondBound.readOne (BitVec.ofNat 8 (i + 1))
      SlotRecord.zero).1 = 0 := by decide
  have hdone := (paced_refines_dispatcher (fun slot => BindingTable.secondBound.readOne slot
    SlotRecord.zero) hread refusing).2.2.2.1 [] (-11 :: List.replicate 25 0 ++ [-11, 0])
  refine hdone.1.mp (hdone.2.mpr ?_)
  decide +kernel

end Link
end PartRack
