import PartRack.Lib.Runs
import PartRack.ReadAll.Session

/-! READ_ALL requests that arrive while a frame is being sent. A request inside a callback of
process acts on the pacer at once; process goes on afterwards with what it knew before. -/

namespace PartRack

inductive PacerCall
  | start
  | cancel
deriving DecidableEq, Repr

/-- A frame that notify has accepted, with the slot of the latest read before it. -/
structure Delivery where
  slot : Byte
  table : BindingTable
  frame : CpEvent
deriving DecidableEq, Repr

/-- The frames accepted since the latest start, which is in force until it is cancelled. -/
structure Stream where
  slot : Byte
  delivered : List Delivery
  inForce : Bool
deriving DecidableEq, Repr

/-- One call of process: the table it reads, what notify returns, and the requests that
arrive within its callbacks. -/
structure ProcessCall where
  table : BindingTable
  notifyErr : Int
  duringRead : List PacerCall
  beforeSend : List PacerCall
  afterSend : List PacerCall
deriving DecidableEq, Repr

namespace Stream

def quiet : PacerAdapter Stream where
  readOne _ := pure (0, SlotRecord.zero)
  notifyBinding _ _ _ := pure 0
  scheduleNext _ := pure ()

def perform (s : Paced Stream) : PacerCall → Paced Stream
  | .start =>
    (Pacer.start quiet { s with env := { s.env with delivered := [], inForce := true } }).2
  | .cancel => (Pacer.cancel { s with env := { s.env with inForce := false } }).2

def performAll (requests : List PacerCall) (s : Paced Stream) : Paced Stream :=
  requests.foldl perform s

def reading (slot : Byte) (s : Paced Stream) : Paced Stream :=
  { s with env := { s.env with slot := slot } }

def deliver (table : BindingTable) (frame : CpEvent) (s : Paced Stream) : Paced Stream :=
  { s with env := { s.env with delivered := s.env.delivered ++ [⟨s.env.slot, table, frame⟩] } }

/-- A request made in schedule_next, the last thing process does, counts as one after it. -/
def adapter (c : ProcessCall) : PacerAdapter Stream where
  readOne slot := fun s =>
    (c.table.readOne slot SlotRecord.zero, performAll c.duringRead (reading slot s))
  notifyBinding op status payload := fun s =>
    (c.notifyErr, performAll c.afterSend (if c.notifyErr = 0 then
      deliver c.table (.notify op status payload) (performAll c.beforeSend s)
      else performAll c.beforeSend s))
  scheduleNext _ := pure ()

inductive Event
  | request (r : PacerCall)
  | process (c : ProcessCall)
deriving DecidableEq, Repr

def next (s : Paced Stream) : Event → Paced Stream
  | .request r => perform s r
  | .process c => (Pacer.process (adapter c) s).2

def init : Paced Stream := ⟨Pacer.init, ⟨0, [], false⟩⟩

def run (events : List Event) : Paced Stream := events.foldl next init

/-! ## What a request asks for -/

/-- Frame `k` of an answer: the record of its slot, or the end marker. -/
structure IsFrame (d : Delivery) (k : ℕ) : Prop where
  record : ∀ h : k < 25,
    d.slot = BitVec.ofNat 8 (k + 1) ∧ d.frame = Session.recordReply d.table.records[k]
  marker : k = 25 → d.frame = Session.endReply

def InOrder (delivered : List Delivery) : Prop :=
  delivered.length ≤ 26 ∧ ∀ (k : ℕ) (h : k < delivered.length), IsFrame delivered[k] k

/-- While the latest start is in force, the frames since then are those of the answer in
their order, and the pacer is active until they are complete. -/
def Served (s : Paced Stream) : Prop :=
  s.env.inForce = true →
    InOrder s.env.delivered ∧ (s.pacer.active = true ∨ s.env.delivered.length = 26)

/-- The requests that arrive in one call before process looks at what notify returned. -/
def arriving (s : Paced Stream) (c : ProcessCall) : List PacerCall :=
  (if 25 < s.pacer.nextSlot.toNat then [] else c.duringRead) ++ c.beforeSend

/-- A start within a call whose frame is accepted is cancelled within it, unless it comes
before the frame of slot 1 has been sent. -/
def Undisturbed (s : Paced Stream) : Event → Prop
  | .request _ => True
  | .process c => s.pacer.active = true → c.notifyErr = 0 →
      (arriving s c ++ c.afterSend).getLast? = some .start →
        c.afterSend = [] ∧ s.pacer.nextSlot = 1

instance (s : Paced Stream) (e : Event) : Decidable (Undisturbed s e) :=
  match e with
  | .request _ => isTrue trivial
  | .process _ => inferInstanceAs (Decidable (_ → _ → _ → _))

/-! ## Requests -/

theorem performAll_append (l l' : List PacerCall) (s : Paced Stream) :
    performAll (l ++ l') s = performAll l' (performAll l s) := List.foldl_append

theorem slot_performAll (l : List PacerCall) (s : Paced Stream) :
    (performAll l s).env.slot = s.env.slot := by
  induction l generalizing s with
  | nil => rfl
  | cons r l ih =>
    have hperform : (perform s r).env.slot = s.env.slot := by cases r <;> rfl
    exact (ih (perform s r)).trans hperform

/-- The state that a start leaves. -/
structure Restarted (s : Paced Stream) : Prop where
  pacer : s.pacer = ⟨1, true⟩
  delivered : s.env.delivered = []
  inForce : s.env.inForce = true

structure Cancelled (s : Paced Stream) : Prop where
  active : s.pacer.active = false
  inForce : s.env.inForce = false

theorem performAll_cases (l : List PacerCall) :
    l = [] ∨ (l.getLast? = some .start ∧ ∀ s, Restarted (performAll l s)) ∨
      (l.getLast? = some .cancel ∧ ∀ s, Cancelled (performAll l s)) := by
  -- of several requests only the last one matters
  rcases List.eq_nil_or_concat l with rfl | ⟨l', r, rfl⟩
  · exact Or.inl rfl
  · rw [List.concat_eq_append, List.getLast?_append]
    cases r with
    | start =>
      refine Or.inr (Or.inl ⟨rfl, fun s => ?_⟩)
      rw [performAll_append]
      exact ⟨rfl, rfl, rfl⟩
    | cancel =>
      refine Or.inr (Or.inr ⟨rfl, fun s => ?_⟩)
      rw [performAll_append]
      exact ⟨rfl, rfl⟩

/-! ## One call of process -/

/-- The state in which notify gets the frame. -/
def entered (s : Paced Stream) (c : ProcessCall) : Paced Stream :=
  performAll (arriving s c)
    (if 25 < s.pacer.nextSlot.toNat then s else reading s.pacer.nextSlot s)

theorem process_inactive {s : Paced Stream} (h : s.pacer.active = false) (c : ProcessCall) :
    next s (.process c) = s := congrArg Prod.snd (Pacer.process_of_inactive (adapter c) h)

theorem process_end {s : Paced Stream} (hactive : s.pacer.active = true)
    (hslot : 25 < s.pacer.nextSlot.toNat) (c : ProcessCall) :
    next s (.process c) =
      if c.notifyErr = 0 then
        Pacer.setActive false
          (performAll c.afterSend (deliver c.table Session.endReply (entered s c)))
      else performAll c.afterSend (entered s c) := by
  have hentered : entered s c = performAll c.beforeSend s := by
    rw [entered, arriving, if_pos hslot, if_pos hslot, List.nil_append]
  have hnotify : Pacer.notifyReadAll (adapter c) .ok [readAllEndMarker] s =
      (c.notifyErr, performAll c.afterSend (if c.notifyErr = 0 then
        deliver c.table Session.endReply (entered s c) else entered s c)) := by
    rw [hentered]
    rfl
  rw [next, Pacer.process_of_end _ hactive hslot]
  by_cases herr : c.notifyErr = 0
  · rw [if_pos herr] at hnotify ⊢
    rw [Pacer.processEnd_of_sent _ (by rw [hnotify]; exact herr), hnotify]
  · rw [if_neg herr] at hnotify ⊢
    rw [Pacer.processEnd_of_failed _ (by rw [hnotify]; exact herr), hnotify]
    rfl

theorem process_record {s : Paced Stream} (hactive : s.pacer.active = true) {i : ℕ} (hi : i < 25)
    (hslot : s.pacer.nextSlot = BitVec.ofNat 8 (i + 1)) (c : ProcessCall) :
    next s (.process c) =
      if c.notifyErr = 0 then
        (fun t => Pacer.setNextSlot (t.pacer.nextSlot + 1) t) (performAll c.afterSend
          (deliver c.table (Session.recordReply c.table.records[i]) (entered s c)))
      else performAll c.afterSend (entered s c) := by
  have hle : ¬25 < s.pacer.nextSlot.toNat := by
    rw [hslot, BitVec.toNat_ofNat]
    omega
  have hread : c.table.readOne s.pacer.nextSlot SlotRecord.zero = (0, c.table.records[i]) := by
    rw [hslot]
    exact ControlPoint.readOne_ofNat c.table hi SlotRecord.zero
  have hentered : entered s c =
      performAll c.beforeSend (performAll c.duringRead (reading s.pacer.nextSlot s)) := by
    rw [entered, arriving, if_neg hle, if_neg hle, performAll_append]
  have hnotify : Pacer.notifyReadAll (adapter c) .ok c.table.records[i].toBytes
      (performAll c.duringRead (reading s.pacer.nextSlot s)) =
        (c.notifyErr, performAll c.afterSend (if c.notifyErr = 0 then
          deliver c.table (Session.recordReply c.table.records[i]) (entered s c)
          else entered s c)) := by
    rw [hentered]
    rfl
  rw [next, Pacer.process_of_slot _ hactive hle]
  show (Pacer.processRead (adapter c) (c.table.readOne s.pacer.nextSlot SlotRecord.zero).1
    (c.table.readOne s.pacer.nextSlot SlotRecord.zero).2
      (performAll c.duringRead (reading s.pacer.nextSlot s))).2 = _
  rw [hread]
  by_cases herr : c.notifyErr = 0
  · rw [if_pos herr] at hnotify ⊢
    rw [Pacer.processRead_of_sent _ (by rw [hnotify]; exact herr), hnotify]
    rfl
  · rw [if_neg herr] at hnotify ⊢
    rw [Pacer.processRead_of_failed _ (by rw [hnotify]; exact herr), hnotify]
    rfl

/-! ## The invariant -/

/-- The next slot is that of the frame after those delivered. -/
structure Invariant (s : Paced Stream) : Prop where
  ordered : s.env.inForce = true → InOrder s.env.delivered
  going : s.env.inForce = true → s.pacer.active = true → s.env.delivered.length < 26 ∧
    s.pacer.nextSlot = BitVec.ofNat 8 (s.env.delivered.length + 1)
  done : s.env.inForce = true → s.pacer.active = false → s.env.delivered.length = 26
  idle : s.env.inForce = false → s.pacer.active = false

theorem inOrder_nil : InOrder [] :=
  ⟨Nat.zero_le _, fun k h => absurd h (Nat.not_lt_zero k)⟩

theorem InOrder.append {l : List Delivery} (h : InOrder l) {d : Delivery} (hlt : l.length < 26)
    (hd : IsFrame d l.length) : InOrder (l ++ [d]) := by
  refine ⟨?_, fun k hk => ?_⟩
  · rw [List.length_append, List.length_singleton]
    exact hlt
  · rw [List.length_append, List.length_singleton] at hk
    rcases Nat.lt_or_eq_of_le (Nat.le_of_lt_succ hk) with hlt | rfl
    · rw [List.getElem_append_left hlt]
      exact h.2 k hlt
    · rw [List.getElem_concat_length]
      · exact hd
      · rfl

theorem Invariant.served {s : Paced Stream} (h : Invariant s) : Served s := by
  intro hforce
  refine ⟨h.ordered hforce, ?_⟩
  cases hactive : s.pacer.active with
  | true => exact Or.inl rfl
  | false => exact Or.inr (h.done hforce hactive)

theorem invariant_init : Invariant init :=
  ⟨fun h => absurd h Bool.false_ne_true, fun h => absurd h Bool.false_ne_true,
    fun h => absurd h Bool.false_ne_true, fun _ => rfl⟩

theorem Restarted.invariant {s : Paced Stream} (h : Restarted s) : Invariant s := by
  obtain ⟨hpacer, hdelivered, hforce⟩ := h
  refine ⟨fun _ => ?_, fun _ _ => ?_, fun _ hactive => ?_, fun hidle => ?_⟩
  · rw [hdelivered]
    exact inOrder_nil
  · rw [hdelivered, hpacer]
    exact ⟨by decide, rfl⟩
  · rw [hpacer] at hactive
    exact absurd hactive.symm Bool.false_ne_true
  · exact absurd (hidle.symm.trans hforce) Bool.false_ne_true

theorem Cancelled.invariant {s : Paced Stream} (h : Cancelled s) : Invariant s :=
  ⟨fun hforce => absurd (h.inForce.symm.trans hforce) Bool.false_ne_true,
    fun hforce => absurd (h.inForce.symm.trans hforce) Bool.false_ne_true,
    fun hforce => absurd (h.inForce.symm.trans hforce) Bool.false_ne_true, fun _ => h.active⟩

theorem Invariant.performAll {s : Paced Stream} (h : Invariant s) (l : List PacerCall) :
    Invariant (performAll l s) := by
  rcases performAll_cases l with rfl | ⟨-, hstart⟩ | ⟨-, hcancel⟩
  · exact h
  · exact (hstart s).invariant
  · exact (hcancel s).invariant

theorem Invariant.inForce_of_active {s : Paced Stream} (h : Invariant s)
    (hactive : s.pacer.active = true) : s.env.inForce = true := by
  by_contra hidle
  have hoff := h.idle (eq_false_of_ne_true hidle)
  exact absurd (hoff.symm.trans hactive) Bool.false_ne_true

theorem Invariant.entered {s : Paced Stream} (h : Invariant s) (c : ProcessCall) :
    Invariant (entered s c) := by
  unfold Stream.entered
  split_ifs
  · exact h.performAll _
  · have hreading : Invariant (reading s.pacer.nextSlot s) :=
      ⟨h.ordered, h.going, h.done, h.idle⟩
    exact hreading.performAll _

theorem slot_entered {s : Paced Stream} (hslot : ¬25 < s.pacer.nextSlot.toNat) (c : ProcessCall) :
    (Stream.entered s c).env.slot = s.pacer.nextSlot := by
  rw [Stream.entered, slot_performAll, if_neg hslot]
  rfl

theorem Invariant.deliver_record {s : Paced Stream} (h : Invariant s)
    (hactive : s.pacer.active = true) {i : ℕ} (hi : i < 25) (hlen : s.env.delivered.length = i)
    (hslot : s.env.slot = BitVec.ofNat 8 (i + 1)) (table : BindingTable) :
    Invariant (Pacer.setNextSlot (s.pacer.nextSlot + 1)
      (deliver table (Session.recordReply table.records[i]) s)) := by
  have hforce := h.inForce_of_active hactive
  obtain ⟨hlt, hnext⟩ := h.going hforce hactive
  have hlen' : ∀ d : Delivery, (s.env.delivered ++ [d]).length = i + 1 := fun d => by
    rw [List.length_append, hlen, List.length_singleton]
  refine ⟨fun _ => ?_, fun _ _ => ?_, fun _ hoff => ?_, fun hidle => ?_⟩
  · refine (h.ordered hforce).append hlt ?_
    rw [hlen]
    exact ⟨fun _ => ⟨hslot, rfl⟩, fun hend => absurd hend hi.ne⟩
  · show List.length (_ ++ _) < 26 ∧ s.pacer.nextSlot + 1 = BitVec.ofNat 8 (List.length (_ ++ _) + 1)
    rw [hlen', hnext, hlen]
    exact ⟨by omega, (BitVec.ofNat_add (i + 1) 1).symm⟩
  · exact absurd (hoff.symm.trans hactive) Bool.false_ne_true
  · exact absurd (hidle.symm.trans hforce) Bool.false_ne_true

theorem Invariant.deliver_end {s : Paced Stream} (h : Invariant s)
    (hactive : s.pacer.active = true) (hlen : s.env.delivered.length = 25)
    (table : BindingTable) :
    Invariant (Pacer.setActive false (deliver table Session.endReply s)) := by
  have hforce := h.inForce_of_active hactive
  refine ⟨fun _ => ?_, fun _ hon => ?_, fun _ _ => ?_, fun _ => rfl⟩
  · refine (h.ordered hforce).append (h.going hforce hactive).1 ?_
    rw [hlen]
    exact ⟨fun hlt => absurd hlt (Nat.lt_irrefl 25), fun _ => rfl⟩
  · exact absurd hon Bool.false_ne_true
  · show List.length (_ ++ _) = 26
    rw [List.length_append, hlen]
    rfl

theorem accepted_cases {s : Paced Stream} {c : ProcessCall} (hactive : s.pacer.active = true)
    (herr : c.notifyErr = 0) (hgood : Undisturbed s (.process c)) :
    (∀ t, Cancelled (performAll c.afterSend t)) ∨
    (c.afterSend = [] ∧ Cancelled (Stream.entered s c)) ∨
    (c.afterSend = [] ∧ s.pacer.nextSlot = 1 ∧ Restarted (Stream.entered s c)) ∨
    (c.afterSend = [] ∧ arriving s c = []) := by
  rcases performAll_cases c.afterSend with hnone | ⟨hlast, -⟩ | ⟨-, hcancel⟩
  · rcases performAll_cases (arriving s c) with hempty | ⟨hlast, hstart⟩ | ⟨-, hcancel⟩
    · exact Or.inr (Or.inr (Or.inr ⟨hnone, hempty⟩))
    · have hwhole : (arriving s c ++ c.afterSend).getLast? = some .start := by
        rwa [hnone, List.append_nil]
      exact Or.inr (Or.inr (Or.inl ⟨hnone, (hgood hactive herr hwhole).2, hstart _⟩))
    · exact Or.inr (Or.inl ⟨hnone, hcancel _⟩)
  · have hwhole : (arriving s c ++ c.afterSend).getLast? = some .start := by
      rw [List.getLast?_append, hlast]
      rfl
    rw [(hgood hactive herr hwhole).1] at hlast
    exact absurd hlast.symm (Option.some_ne_none _)
  · exact Or.inl hcancel

theorem Invariant.next_record {s : Paced Stream} (h : Invariant s) {c : ProcessCall}
    (hgood : Undisturbed s (.process c)) (hactive : s.pacer.active = true)
    (hlt : s.env.delivered.length < 25)
    (hslot : s.pacer.nextSlot = BitVec.ofNat 8 (s.env.delivered.length + 1)) :
    Invariant (next s (.process c)) := by
  have hnat : s.pacer.nextSlot.toNat = s.env.delivered.length + 1 := by
    rw [hslot, BitVec.toNat_ofNat]
    omega
  have hread : (Stream.entered s c).env.slot = BitVec.ofNat 8 (s.env.delivered.length + 1) := by
    rw [slot_entered (by omega), hslot]
  rw [process_record hactive hlt hslot]
  split_ifs with herr
  · rcases accepted_cases hactive herr hgood with
      hcancel | ⟨hnone, hcancel⟩ | ⟨hnone, hone, hstart⟩ | ⟨hnone, hempty⟩
    · exact Cancelled.invariant ⟨(hcancel _).active, (hcancel _).inForce⟩
    · rw [hnone]
      exact Cancelled.invariant ⟨hcancel.active, hcancel.inForce⟩
    · -- the frame of slot 1 was on its way, and it is the first of the new answer
      have hzero : s.env.delivered.length = 0 := by
        rw [hone] at hnat
        exact (Nat.succ.inj hnat).symm
      have hon : (Stream.entered s c).pacer.active = true := by rw [hstart.pacer]
      have hlen : (Stream.entered s c).env.delivered.length = s.env.delivered.length := by
        rw [hstart.delivered, hzero]
        rfl
      rw [hnone]
      exact (h.entered c).deliver_record hon hlt hlen hread c.table
    · have hentered : Stream.entered s c = reading s.pacer.nextSlot s := by
        rw [Stream.entered, hempty, if_neg (by omega)]
        rfl
      rw [hnone]
      rw [hentered] at hread ⊢
      exact (hentered ▸ h.entered c).deliver_record hactive hlt rfl hread c.table
  · exact (h.entered c).performAll _

theorem Invariant.next_end {s : Paced Stream} (h : Invariant s) {c : ProcessCall}
    (hgood : Undisturbed s (.process c)) (hactive : s.pacer.active = true)
    (hlen : s.env.delivered.length = 25) (hslot : s.pacer.nextSlot = BitVec.ofNat 8 26) :
    Invariant (next s (.process c)) := by
  have hlast : 25 < s.pacer.nextSlot.toNat := by
    rw [hslot]
    decide
  rw [process_end hactive hlast]
  split_ifs with herr
  · rcases accepted_cases hactive herr hgood with
      hcancel | ⟨hnone, hcancel⟩ | ⟨-, hone, -⟩ | ⟨hnone, hempty⟩
    · exact Cancelled.invariant ⟨rfl, (hcancel _).inForce⟩
    · rw [hnone]
      exact Cancelled.invariant ⟨rfl, hcancel.inForce⟩
    · rw [hone] at hlast
      exact absurd hlast (by decide)
    · have hentered : Stream.entered s c = s := by
        rw [Stream.entered, hempty, if_pos hlast]
        rfl
      rw [hnone, hentered]
      exact h.deliver_end hactive hlen c.table
  · exact (h.entered c).performAll _

theorem Invariant.next {s : Paced Stream} (h : Invariant s) (e : Event) (hgood : Undisturbed s e) :
    Invariant (next s e) := by
  cases e with
  | request r => exact h.performAll [r]
  | process c =>
    cases hactive : s.pacer.active with
    | false =>
      rw [process_inactive hactive]
      exact h
    | true =>
      obtain ⟨hlt, hslot⟩ := h.going (h.inForce_of_active hactive) hactive
      rcases Nat.lt_or_eq_of_le (Nat.le_of_lt_succ hlt) with hrecord | hend
      · exact h.next_record hgood hactive hrecord hslot
      · rw [hend] at hslot
        exact h.next_end hgood hactive hend hslot

theorem invariant_along {events : List Event}
    (h : Runs.Meets (fun s e => some (Stream.next s e)) Undisturbed init events) :
    Runs.Along (fun s e => some (Stream.next s e)) Invariant init events := by
  refine Runs.along_of_meets ?_ invariant_init h
  intro s e t hs ht hgood
  exact Option.some.inj ht ▸ hs.next e hgood

/-! ## A start that is overwritten -/

theorem Served.first_slot {s : Paced Stream} (h : Served s) (hforce : s.env.inForce = true)
    {d : Delivery} (hdelivered : s.env.delivered = [d]) : d.slot = 1 := by
  have hframe := (h hforce).1.2 0
  simp only [hdelivered] at hframe
  exact ((hframe Nat.zero_lt_one).record (by decide)).1

theorem Served.not_stopped {s : Paced Stream} (h : Served s) (hforce : s.env.inForce = true)
    (hlen : s.env.delivered.length < 26) : s.pacer.active = true := by
  rcases (h hforce).2 with hactive | hall
  · exact hactive
  · exact absurd hall hlen.ne

/-- A call without requests whose frame is accepted. -/
def plainCall : ProcessCall := ⟨BindingTable.init, 0, [], [], []⟩

theorem not_served_of_skipped {s : Paced Stream} (hpacer : s.pacer = ⟨2, true⟩)
    (hdelivered : s.env.delivered = []) (hforce : s.env.inForce = true) :
    ¬Served (Stream.next s (.process plainCall)) := by
  -- a pacer that goes on with slot 2 of an answer of which nothing has been sent
  have hactive : s.pacer.active = true := by rw [hpacer]
  have hslot : s.pacer.nextSlot = BitVec.ofNat 8 (1 + 1) := by
    rw [hpacer]
    rfl
  have hentered : Stream.entered s plainCall = reading 2 s := by
    rw [Stream.entered, arriving, hpacer]
    rfl
  have hone : s.env.delivered ++ [⟨2, plainCall.table,
      Session.recordReply plainCall.table.records[1]⟩] =
        [⟨2, plainCall.table, Session.recordReply plainCall.table.records[1]⟩] := by
    rw [hdelivered, List.nil_append]
  have hok : plainCall.notifyErr = 0 := rfl
  rw [process_record hactive (by decide : 1 < 25) hslot, if_pos hok, hentered]
  intro h
  exact absurd (h.first_slot hforce hone) (by decide)

theorem Invariant.not_served_of_early {s : Paced Stream} (h : Invariant s) {c : ProcessCall}
    (hactive : s.pacer.active = true) (herr : c.notifyErr = 0) (hnone : c.afterSend = [])
    (hstart : Restarted (Stream.entered s c)) (hone : s.pacer.nextSlot ≠ 1) :
    ¬Served (Stream.next s (.process c)) := by
  -- after a start before the frame is sent, the frame is the first of the new answer
  obtain ⟨hlt, hslot⟩ := h.going (h.inForce_of_active hactive) hactive
  have hnat : s.pacer.nextSlot.toNat = s.env.delivered.length + 1 := by
    rw [hslot, BitVec.toNat_ofNat]
    omega
  rcases Nat.lt_or_eq_of_le (Nat.le_of_lt_succ hlt) with hrecord | hend
  · rw [process_record hactive hrecord hslot, if_pos herr, hnone]
    intro hserved
    have hfirst := hserved.first_slot hstart.inForce (congrArg (· ++ [_]) hstart.delivered)
    rw [slot_entered (by omega)] at hfirst
    exact hone hfirst
  · rw [process_end hactive (by omega), if_pos herr, hnone]
    intro hserved
    refine absurd (hserved.not_stopped hstart.inForce ?_) Bool.false_ne_true
    show List.length (_ ++ _) < 26
    rw [hstart.delivered]
    exact Nat.lt_of_sub_eq_succ rfl

theorem Invariant.not_served_of_late {s : Paced Stream} (h : Invariant s) {c : ProcessCall}
    (hactive : s.pacer.active = true) (herr : c.notifyErr = 0)
    (hstart : ∀ t, Restarted (Stream.performAll c.afterSend t)) :
    ∃ later : List Event, ¬Served (later.foldl Stream.next (Stream.next s (.process c))) := by
  -- after a start behind the frame, slot 1 is skipped or the request is dropped
  obtain ⟨hlt, hslot⟩ := h.going (h.inForce_of_active hactive) hactive
  rcases Nat.lt_or_eq_of_le (Nat.le_of_lt_succ hlt) with hrecord | hend
  · refine ⟨[.process plainCall], ?_⟩
    rw [List.foldl_cons, List.foldl_nil, process_record hactive hrecord hslot, if_pos herr]
    refine not_served_of_skipped ?_ (hstart _).delivered (hstart _).inForce
    show (⟨(Stream.performAll c.afterSend _).pacer.nextSlot + 1,
      (Stream.performAll c.afterSend _).pacer.active⟩ : Pacer) = _
    rw [(hstart _).pacer]
    rfl
  · have hlast : 25 < s.pacer.nextSlot.toNat := by
      rw [hslot, hend]
      decide
    refine ⟨[], ?_⟩
    rw [List.foldl_nil, process_end hactive hlast, if_pos herr]
    intro hserved
    refine absurd (hserved.not_stopped (hstart _).inForce ?_) Bool.false_ne_true
    show List.length (Stream.performAll c.afterSend _).env.delivered < 26
    rw [(hstart _).delivered]
    exact Nat.zero_lt_succ 25

/-- The start of a call that is overwritten shows at the latest with the next frame. -/
theorem Invariant.not_served {s : Paced Stream} (h : Invariant s) {e : Event}
    (hbad : ¬Undisturbed s e) :
    ∃ later : List Event, ¬Served (later.foldl Stream.next (Stream.next s e)) := by
  cases e with
  | request r => exact absurd trivial hbad
  | process c =>
    simp only [Undisturbed, Classical.not_imp] at hbad
    obtain ⟨hactive, herr, hlast, hlate⟩ := hbad
    rcases performAll_cases c.afterSend with hnone | ⟨-, hstart⟩ | ⟨hcancel, -⟩
    · rw [hnone, List.append_nil] at hlast
      have hrestarted : Restarted (Stream.entered s c) := by
        rcases performAll_cases (arriving s c) with hempty | ⟨-, hstart⟩ | ⟨hcancel, -⟩
        · rw [hempty] at hlast
          exact absurd hlast.symm (Option.some_ne_none _)
        · exact hstart _
        · exact absurd (hcancel.symm.trans hlast) (by decide)
      exact ⟨[], h.not_served_of_early hactive herr hnone hrestarted fun hone =>
        hlate ⟨hnone, hone⟩⟩
    · exact h.not_served_of_late hactive herr hstart
    · rw [List.getLast?_append, hcancel, Option.some_or] at hlast
      exact absurd (Option.some.inj hlast) (by decide)

/-! ## Runs -/

/-- Every request is served along a run in which no start within a call is overwritten. After
any step that overwrites one, the run can go on to a state in which it is not. -/
theorem request_during_notify {events : List Event}
    (h : Runs.Meets (fun s e => some (Stream.next s e)) Undisturbed init events) :
    Runs.Along (fun s e => some (Stream.next s e)) Served init events ∧
    ∀ e, ¬Undisturbed (run events) e →
      ∃ later : List Event, ¬Served (run (events ++ e :: later)) := by
  constructor
  · exact (invariant_along h).imp (fun s hs _ => hs.served) (invariant_along h)
  · intro e hbad
    obtain ⟨later, hlater⟩ := ((invariant_along h).foldl).not_served hbad
    refine ⟨later, ?_⟩
    rw [run, List.foldl_append]
    exact hlater

theorem request_during_notify_start :
    Runs.Along (fun s e => some (Stream.next s e)) Served init
      [.request .start, .process ⟨BindingTable.init, 5, [], [], [.start]⟩, .process plainCall] :=
  (request_during_notify (by decide +kernel)).1

def restartingCall : ProcessCall := { plainCall with afterSend := [.start] }

/-- A second request while the first record is being sent, and one while the end marker is. -/
theorem not_served_restarted :
    ¬Served (run [.request .start, .process restartingCall, .process plainCall]) ∧
    ¬Served (run (.request .start :: List.replicate 25 (.process plainCall) ++
      [.process restartingCall])) := by
  constructor
  · intro h
    have hdelivered : (run [.request .start, .process restartingCall,
        .process plainCall]).env.delivered =
          [⟨2, BindingTable.init, Session.recordReply BindingTable.init.records[1]⟩] := by
      decide +kernel
    exact absurd (h.first_slot (by decide +kernel) hdelivered) (by decide)
  · intro h
    exact absurd (h.not_stopped (by decide +kernel) (by decide +kernel)) (by decide +kernel)

end Stream
end PartRack
