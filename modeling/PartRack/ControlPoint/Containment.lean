import PartRack.ControlPoint.Model
import PartRack.ControlPoint.Trace

/-! What a frame can make the dispatcher do: at most one call into the table, and that
only for a frame of the right length, with one reply to it; or, for READ_ALL, the records
one by one up to the first that cannot be read. -/

namespace PartRack
open LittleEndian

theorem statusFromErrno_ne_ok {err : Int} (h : err ≠ 0) : statusFromErrno err ≠ .ok := by
  unfold statusFromErrno
  rw [if_neg h]
  split_ifs
  · exact Status.noConfusion
  · exact Status.noConfusion
  · exact Status.noConfusion
  · exact Status.noConfusion

namespace DispatchEvent

/-- The calls into the table, with what they were given. -/
def calls (events : List DispatchEvent) : List Request :=
  events.filterMap fun
    | .readOne slot _ _ => some (.readOne slot)
    | .call op _ => some (.mutate op)
    | _ => none

def notifications (events : List DispatchEvent) : List (Byte × Status × List Byte) :=
  events.filterMap fun
    | .notify op status payload => some (op, status, payload)
    | _ => none

theorem calls_append (a b : List DispatchEvent) : calls (a ++ b) = calls a ++ calls b :=
  List.filterMap_append

theorem notifications_append (a b : List DispatchEvent) :
    notifications (a ++ b) = notifications a ++ notifications b := List.filterMap_append

theorem calls_map_frameByte (l : List ℕ) : calls (l.map .frameByte) = [] := by
  simp [calls]

theorem notifications_map_frameByte (l : List ℕ) : notifications (l.map .frameByte) = [] := by
  simp [notifications]

end DispatchEvent

open DispatchEvent FrameBuffer

/-! ## The trace of a request -/

namespace Dispatcher
variable {σ : Type} (d : Dispatcher σ)

theorem readOne_traced (slot : Byte) (t : Traced σ) : d.traced.readOne slot t =
    ((d.readOne slot t.state).1, ⟨(d.readOne slot t.state).2, t.events ++
      [.readOne slot (d.readOne slot t.state).1.1 (d.readOne slot t.state).1.2]⟩) := rfl

theorem notify_traced (op : Byte) (err : Int) (payload : List Byte) (t : Traced σ) :
    d.traced.notify op err payload t = ((), ⟨(d.notify op err payload t.state).2, t.events ++
      [.notify op (statusFromErrno err) (if err = 0 then payload else [])]⟩) := rfl

theorem call_traced (op : TableOp) (t : Traced σ) : d.traced.call op t =
    ((d.call op t.state).1,
      ⟨(d.call op t.state).2, t.events ++ [.call op (d.call op t.state).1]⟩) := by
  cases op <;> rfl

theorem serve_traced_readOne (code slot : Byte) (t : Traced σ) :
    ∃ err record state, d.traced.serve code (.readOne slot) t =
      (0, ⟨state, t.events ++ [.readOne slot err record,
        .notify code (statusFromErrno err) (if err = 0 then record.toBytes else [])]⟩) := by
  have hserve : d.traced.serve code (.readOne slot) t =
      (0, (d.traced.notify code (d.traced.readOne slot t).1.1
        (d.traced.readOne slot t).1.2.toBytes (d.traced.readOne slot t).2).2) := rfl
  rw [hserve, readOne_traced, notify_traced, List.append_assoc]
  exact ⟨_, _, _, rfl⟩

theorem serve_traced_malformed (code : Byte) (t : Traced σ) :
    ∃ state, d.traced.serve code .malformed t =
      (0, ⟨state, t.events ++ [.notify code .errParam []]⟩) := ⟨_, rfl⟩

theorem tableChanged_traced (t : Traced σ) : d.traced.tableChanged t =
    ((), ⟨(d.tableChanged t.state).2, t.events ++ [.tableChanged]⟩) := rfl

theorem dispatchMutatingStatus_traced (code : Byte) (err : Int) (t : Traced σ) :
    ∃ state, d.traced.dispatchMutatingStatus code err t =
      (0, ⟨state, t.events ++ (.notify code (statusFromErrno err) [] ::
        if err = 0 then [.tableChanged] else [])⟩) := by
  by_cases herr : err = 0
  · subst herr
    have hstatus : d.traced.dispatchMutatingStatus code 0 t =
        (0, (d.traced.tableChanged (d.traced.notify code 0 [] t).2).2) := rfl
    rw [hstatus, notify_traced, tableChanged_traced, List.append_assoc]
    exact ⟨_, rfl⟩
  · have hstatus : d.traced.dispatchMutatingStatus code err t =
        (0, (d.traced.notify code err [] t).2) := by
      rw [dispatchMutatingStatus, if_neg herr]
      rfl
    rw [hstatus, notify_traced, if_neg herr, if_neg herr]
    exact ⟨_, rfl⟩

theorem serve_traced_mutate (code : Byte) (op : TableOp) (t : Traced σ) :
    ∃ err state, d.traced.serve code (.mutate op) t =
      (0, ⟨state, t.events ++ (.call op err :: .notify code (statusFromErrno err) [] ::
        if err = 0 then [.tableChanged] else [])⟩) := by
  have hserve : d.traced.serve code (.mutate op) t = d.traced.dispatchMutatingStatus code
      (d.traced.call op t).1 (d.traced.call op t).2 := rfl
  obtain ⟨state, hstatus⟩ := d.dispatchMutatingStatus_traced code (d.traced.call op t).1
    (d.traced.call op t).2
  rw [hserve, hstatus, call_traced, List.append_assoc]
  exact ⟨_, state, rfl⟩

/-- The events of reading these records from the slots `slot` on. -/
def readRecords (slot : ℕ) (records : List SlotRecord) : List DispatchEvent :=
  (records.zipIdx slot).flatMap fun p => [.readOne (BitVec.ofNat 8 p.2) 0 p.1,
    .notify BindingOp.readAll.code .ok p.1.toBytes]

theorem readRecords_cons (slot : ℕ) (r : SlotRecord) (records : List SlotRecord) :
    readRecords slot (r :: records) = [.readOne (BitVec.ofNat 8 slot) 0 r,
      .notify BindingOp.readAll.code .ok r.toBytes] ++ readRecords (slot + 1) records := by
  rw [readRecords, List.zipIdx_cons, List.flatMap_cons]
  rfl

/-- READ_ALL from `slot` on with `k` slots left: all of them and the end marker, or some
of them, a read that fails and its error. -/
inductive ReadsAll (k slot : ℕ) : List DispatchEvent → Prop
  | complete (records : List SlotRecord) (length : records.length = k) :
    ReadsAll k slot (readRecords slot records ++
      [.notify BindingOp.readAll.code .ok [readAllEndMarker]])
  | failed (records : List SlotRecord) (err : Int) (record : SlotRecord)
      (length : records.length < k) (err_ne : err ≠ 0) :
    ReadsAll k slot (readRecords slot records ++
      [.readOne (BitVec.ofNat 8 (slot + records.length)) err record,
        .notify BindingOp.readAll.code (statusFromErrno err) []])

theorem ReadsAll.cons {k slot : ℕ} {events : List DispatchEvent}
    (h : ReadsAll k (slot + 1) events) (r : SlotRecord) :
    ReadsAll (k + 1) slot ([.readOne (BitVec.ofNat 8 slot) 0 r,
      .notify BindingOp.readAll.code .ok r.toBytes] ++ events) := by
  cases h with
  | complete records length =>
    rw [← List.append_assoc, ← readRecords_cons]
    exact .complete (r :: records) (congrArg Nat.succ length)
  | failed records err record length err_ne =>
    rw [← List.append_assoc, ← readRecords_cons, Nat.add_assoc, Nat.add_comm 1]
    exact .failed (r :: records) err record (Nat.succ_lt_succ length) err_ne

theorem readAllFrom_traced (k slot : ℕ) (t : Traced σ) :
    ∃ events state, d.traced.readAllFrom k slot t = (0, ⟨state, t.events ++ events⟩) ∧
      ReadsAll k slot events := by
  induction k generalizing slot t with
  | zero => exact ⟨_, _, rfl, .complete [] rfl⟩
  | succ k ih =>
    have hturn : d.traced.readAllFrom (k + 1) slot t =
        (let r := d.traced.readOne (BitVec.ofNat 8 slot) t
        let t' := (d.traced.notify BindingOp.readAll.code r.1.1 r.1.2.toBytes r.2).2
        (if r.1.1 ≠ 0 then (pure 0 : StateM (Traced σ) Int)
          else d.traced.readAllFrom k (slot + 1)) t') := rfl
    rw [hturn, readOne_traced]
    simp only [notify_traced]
    by_cases herr : (d.readOne (BitVec.ofNat 8 slot) t.state).1.1 = 0
    · rw [if_neg (not_not_intro herr)]
      obtain ⟨events, state, hrest, hreads⟩ := ih (slot + 1) _
      rw [hrest, herr, List.append_assoc, List.append_assoc]
      exact ⟨_, state, rfl, hreads.cons _⟩
    · rw [if_pos herr, if_neg herr, List.append_assoc]
      exact ⟨_, _, rfl, .failed [] _ _ (Nat.succ_pos k) herr⟩

/-- The events of a request. -/
inductive Answered (code : Byte) : Request → List DispatchEvent → Prop
  | readOne (slot : Byte) (err : Int) (record : SlotRecord) :
    Answered code (.readOne slot) [.readOne slot err record,
      .notify code (statusFromErrno err) (if err = 0 then record.toBytes else [])]
  | readAll (events : List DispatchEvent) (reads : ReadsAll 25 1 events) :
    Answered code .readAll events
  | mutate (op : TableOp) (err : Int) :
    Answered code (.mutate op) (.call op err :: .notify code (statusFromErrno err) [] ::
      if err = 0 then [.tableChanged] else [])
  | malformed : Answered code .malformed [.notify code .errParam []]

theorem serve_traced (code : Byte) (req : Request) (t : Traced σ) :
    ∃ events state, d.traced.serve code req t = (0, ⟨state, t.events ++ events⟩) ∧
      Answered code req events := by
  cases req with
  | readOne slot =>
    obtain ⟨err, record, state, hserve⟩ := d.serve_traced_readOne code slot t
    exact ⟨_, state, hserve, .readOne slot err record⟩
  | readAll =>
    obtain ⟨events, state, hserve, hreads⟩ := d.readAllFrom_traced 25 1 t
    exact ⟨events, state, hserve, .readAll events hreads⟩
  | mutate op =>
    obtain ⟨err, state, hserve⟩ := d.serve_traced_mutate code op t
    exact ⟨_, state, hserve, .mutate op err⟩
  | malformed =>
    obtain ⟨state, hserve⟩ := d.serve_traced_malformed code t
    exact ⟨_, state, hserve, .malformed⟩

/-! ## Tracing changes nothing -/

theorem readAllFrom_traced_state (k slot : ℕ) (t : Traced σ) :
    (d.traced.readAllFrom k slot t).2.state = (d.readAllFrom k slot t.state).2 := by
  induction k generalizing slot t with
  | zero => rfl
  | succ k ih =>
    have hturn : ∀ {τ : Type} (D : Dispatcher τ) (s : τ), D.readAllFrom (k + 1) slot s =
        (let r := D.readOne (BitVec.ofNat 8 slot) s
        let s' := (D.notify BindingOp.readAll.code r.1.1 r.1.2.toBytes r.2).2
        (if r.1.1 ≠ 0 then (pure 0 : StateM τ Int) else D.readAllFrom k (slot + 1)) s') :=
      fun _ _ => rfl
    rw [hturn, hturn, readOne_traced]
    simp only [notify_traced]
    by_cases herr : (d.readOne (BitVec.ofNat 8 slot) t.state).1.1 = 0
    · rw [if_neg (not_not_intro herr), if_neg (not_not_intro herr)]
      exact ih (slot + 1) _
    · rw [if_pos herr, if_pos herr]
      rfl

theorem serve_traced_state (code : Byte) (req : Request) (t : Traced σ) :
    (d.traced.serve code req t).2.state = (d.serve code req t.state).2 := by
  cases req with
  | readAll => exact d.readAllFrom_traced_state 25 1 t
  | mutate op =>
    have hserve : ∀ {τ : Type} (D : Dispatcher τ) (s : τ), D.serve code (.mutate op) s =
        D.dispatchMutatingStatus code (D.call op s).1 (D.call op s).2 := fun _ _ => rfl
    rw [hserve, hserve, call_traced]
    by_cases herr : (d.call op t.state).1 = 0
    · rw [herr]
      rfl
    · simp only [dispatchMutatingStatus, if_neg herr]
      rfl
  | _ => rfl

/-! ## Other results of `notify_binding` -/

theorem notify_withNotifyResults (result : Byte → Status → List Byte → σ → Int) (op : Byte)
    (err : Int) (payload : List Byte) :
    (d.withNotifyResults result).notify op err payload = d.notify op err payload := rfl

theorem readAllFrom_withNotifyResults (result : Byte → Status → List Byte → σ → Int)
    (k slot : ℕ) : (d.withNotifyResults result).readAllFrom k slot = d.readAllFrom k slot := by
  induction k generalizing slot with
  | zero => rfl
  | succ k ih =>
    rw [readAllFrom, readAllFrom]
    simp only [ih, notify_withNotifyResults]
    rfl

theorem serve_withNotifyResults (result : Byte → Status → List Byte → σ → Int) (code : Byte)
    (req : Request) : (d.withNotifyResults result).serve code req = d.serve code req := by
  cases req with
  | readAll => exact d.readAllFrom_withNotifyResults result 25 1
  | mutate op =>
    cases op <;> rfl
  | _ => rfl

end Dispatcher

/-! ## What a frame is taken for -/

namespace FrameBuffer

/-- The request of a frame of the right length, its integers little-endian. -/
def expected (mem : ℕ → Byte) : BindingOp → Request
  | .readOne => .readOne (mem 1)
  | .readAll => .readAll
  | .writeOne => .mutate (.writeOne (SlotRecord.ofBytes ((List.range' 1 16).map mem)))
  | .clearOne => .mutate (.clearOne (mem 1))
  | .insertAt => .mutate (.insertAt (mem 1) (SlotRecord.ofBytes ((List.range' 2 16).map mem)))
  | .removeAt => .mutate (.removeAt (mem 1))
  | .moveBlock => .mutate (.moveBlock (mem 1) (mem 2) (mem 3))
  | .setQty => .mutate (.setQty (mem 1) (BitVec.ofNat 16 (value [mem 2, mem 3])))
  | .factoryReset =>
    .mutate (.factoryReset (BitVec.ofNat 32 (value [mem 1, mem 2, mem 3, mem 4])))

theorem ofArgs_of_length_ne {op : BindingOp} {args : List Byte}
    (h : args.length + 1 ≠ frameLength op) : Request.ofArgs op args = .malformed := by
  cases op with
  | readOne => rcases args with _ | ⟨a, _ | ⟨b, args⟩⟩ <;> first | rfl | exact absurd rfl h
  | readAll => rcases args with _ | ⟨a, args⟩ <;> first | rfl | exact absurd rfl h
  | writeOne =>
    rw [Request.ofArgs_writeOne, if_neg]
    exact fun hl => h (congrArg Nat.succ hl)
  | clearOne => rcases args with _ | ⟨a, _ | ⟨b, args⟩⟩ <;> first | rfl | exact absurd rfl h
  | insertAt =>
    cases args with
    | nil => rfl
    | cons slot record =>
      rw [Request.ofArgs_insertAt, if_neg]
      exact fun hl => h (congrArg (fun n => n + 2) hl)
  | removeAt => rcases args with _ | ⟨a, _ | ⟨b, args⟩⟩ <;> first | rfl | exact absurd rfl h
  | moveBlock =>
    rcases args with _ | ⟨a, _ | ⟨b, _ | ⟨c, _ | ⟨e, args⟩⟩⟩⟩ <;>
      first | rfl | exact absurd rfl h
  | setQty =>
    rcases args with _ | ⟨a, _ | ⟨b, _ | ⟨c, _ | ⟨e, args⟩⟩⟩⟩ <;>
      first | rfl | exact absurd rfl h
  | factoryReset =>
    rcases args with _ | ⟨a, _ | ⟨b, _ | ⟨c, _ | ⟨e, _ | ⟨f, args⟩⟩⟩⟩⟩ <;>
      first | rfl | exact absurd rfl h

theorem ofArgs_of_length (mem : ℕ → Byte) {op : BindingOp} {n : ℕ}
    (h : n + 1 = frameLength op) :
    Request.ofArgs op ((List.range' 1 n).map mem) = expected mem op := by
  obtain rfl : n = frameLength op - 1 := by omega
  cases op with
  | writeOne =>
    rw [Request.ofArgs_writeOne]
    exact if_pos rfl
  | insertAt =>
    show Request.ofArgs .insertAt (mem 1 :: (List.range' 2 16).map mem) = _
    rw [Request.ofArgs_insertAt]
    exact if_pos rfl
  | setQty => exact congrArg (fun q => Request.mutate (.setQty (mem 1) q)) (getLe16_eq _ _)
  | factoryReset => exact congrArg (fun m => Request.mutate (.factoryReset m)) (getLe32_eq _ _ _ _)
  | _ => rfl

theorem ofFrame_frame (mem : ℕ → Byte) (n : ℕ) :
    Request.ofFrame (mem 0) ((List.range' 1 n).map mem) =
      match BindingOp.ofCode? (mem 0) with
      | some op => if n + 1 = frameLength op then expected mem op else .malformed
      | none => .malformed := by
  unfold Request.ofFrame
  cases BindingOp.ofCode? (mem 0) with
  | none => rfl
  | some op =>
    simp only
    split_ifs with h
    · exact ofArgs_of_length mem h
    · exact ofArgs_of_length_ne (by rwa [List.length_map, List.length_range'])

/-! ## Containment -/

/-- The reply to a frame other than a whole READ_ALL: one notification under the frame's
own opcode, after at most one call. -/
structure SingleReply (mem : ℕ → Byte) (len : ℕ) (events : List DispatchEvent) : Prop where
  reply : ∃ status payload, notifications events = [(mem 0, status, payload)] ∧
    payload.length = if mem 0 = BindingOp.readOne.code ∧ status = .ok then 16 else 0
  calls : calls events = match BindingOp.ofCode? (mem 0) with
    | some op => if len = frameLength op then [expected mem op] else []
    | none => []

structure Contained (mem : ℕ → Byte) (len : ℕ) (events : List DispatchEvent) : Prop where
  reads : ∀ i, .frameByte i ∈ events → i < len
  frames : ∀ op status payload, .notify op status payload ∈ events → 2 + payload.length ≤ 18
  single : ¬(mem 0 = BindingOp.readAll.code ∧ len = 1) → SingleReply mem len events
  readAll : mem 0 = BindingOp.readAll.code → len = 1 →
    ∃ answer, events = .frameByte 0 :: answer ∧ Dispatcher.ReadsAll 25 1 answer

/-- Not a read of the frame, and no reply longer than a record's. -/
def Bounded : DispatchEvent → Prop
  | .frameByte _ => False
  | .notify _ _ payload => payload.length ≤ 16
  | _ => True

theorem bounded_notify_record (op : Byte) (err : Int) (record : SlotRecord) :
    Bounded (.notify op (statusFromErrno err) (if err = 0 then record.toBytes else [])) := by
  unfold Bounded
  split_ifs
  · exact Nat.le_of_eq record.length_toBytes
  · exact Nat.zero_le 16

theorem bounded_readRecords (slot : ℕ) (records : List SlotRecord) :
    ∀ e ∈ Dispatcher.readRecords slot records, Bounded e := by
  induction records generalizing slot with
  | nil => exact fun _ he => absurd he List.not_mem_nil
  | cons r records ih =>
    rw [Dispatcher.readRecords_cons, List.forall_mem_append, List.forall_mem_cons,
      List.forall_mem_singleton]
    exact ⟨⟨trivial, bounded_notify_record _ 0 r⟩, ih (slot + 1)⟩

theorem bounded_readsAll {k slot : ℕ} {events : List DispatchEvent}
    (h : Dispatcher.ReadsAll k slot events) : ∀ e ∈ events, Bounded e := by
  cases h with
  | complete records length =>
    rw [List.forall_mem_append, List.forall_mem_singleton]
    exact ⟨bounded_readRecords slot records, (show 1 ≤ 16 by decide)⟩
  | failed records err record length err_ne =>
    rw [List.forall_mem_append, List.forall_mem_cons, List.forall_mem_singleton]
    exact ⟨bounded_readRecords slot records, trivial, Nat.zero_le 16⟩

theorem bounded_answered {code : Byte} {req : Request} {events : List DispatchEvent}
    (h : Dispatcher.Answered code req events) : ∀ e ∈ events, Bounded e := by
  cases h with
  | readOne slot err record =>
    rw [List.forall_mem_cons, List.forall_mem_singleton]
    exact ⟨trivial, bounded_notify_record code err record⟩
  | readAll _ reads => exact bounded_readsAll reads
  | mutate op err =>
    rw [List.forall_mem_cons, List.forall_mem_cons]
    refine ⟨trivial, Nat.zero_le 16, ?_⟩
    split_ifs
    · exact List.forall_mem_singleton.mpr trivial
    · exact fun _ he => absurd he List.not_mem_nil
  | malformed => exact List.forall_mem_singleton.mpr (Nat.zero_le 16)

theorem single_of_answered {code : Byte} {req : Request} {events : List DispatchEvent}
    (h : Dispatcher.Answered code req events) (hreq : req ≠ .readAll) :
    (∃ status payload, notifications events = [(code, status, payload)] ∧
      (payload.length = if (∃ slot, req = .readOne slot) ∧ status = .ok then 16 else 0) ∧
      (status = .ok → req ≠ .malformed)) ∧
    calls events = if req = .malformed then [] else [req] := by
  cases h with
  | readOne slot err record =>
    refine ⟨⟨_, _, rfl, ?_, fun _ => Request.noConfusion⟩, rfl⟩
    by_cases herr : err = 0
    · subst herr
      rw [if_pos rfl, if_pos ⟨⟨slot, rfl⟩, rfl⟩, SlotRecord.length_toBytes]
    · rw [if_neg herr, if_neg fun h => statusFromErrno_ne_ok herr h.2]
      rfl
  | readAll _ reads => exact absurd rfl hreq
  | mutate op err =>
    have hno : ¬∃ slot, Request.mutate op = .readOne slot := by
      rintro ⟨slot, hslot⟩
      exact Request.noConfusion hslot
    constructor
    · refine ⟨statusFromErrno err, [], ?_, ?_, fun _ => Request.noConfusion⟩
      · split_ifs <;> rfl
      · rw [if_neg fun h => hno h.1]
        rfl
    · have hne : Request.mutate op ≠ .malformed := Request.noConfusion
      rw [if_neg hne]
      split_ifs <;> rfl
  | malformed =>
    have hno : ¬∃ slot, Request.malformed = .readOne slot := by
      rintro ⟨slot, hslot⟩
      exact Request.noConfusion hslot
    refine ⟨⟨.errParam, [], rfl, ?_, Status.noConfusion⟩, rfl⟩
    rw [if_neg fun h => hno h.1]
    rfl

theorem expected_eq_readOne_iff (mem : ℕ → Byte) (op : BindingOp) :
    (∃ slot, expected mem op = .readOne slot) ↔ op = .readOne := by
  constructor
  · rintro ⟨slot, h⟩
    cases op with
    | readOne => rfl
    | _ => exact Request.noConfusion h
  · rintro rfl
    exact ⟨_, rfl⟩

theorem expected_ne_malformed (mem : ℕ → Byte) (op : BindingOp) :
    expected mem op ≠ .malformed := by
  cases op <;> exact Request.noConfusion

theorem expected_eq_readAll {mem : ℕ → Byte} {op : BindingOp} (h : expected mem op = .readAll) :
    op = .readAll := by
  cases op with
  | readAll => rfl
  | _ => exact Request.noConfusion h

/-- The request of the frame in the buffer. -/
def request (mem : ℕ → Byte) (len : ℕ) : Request :=
  match BindingOp.ofCode? (mem 0) with
  | some op => if len = frameLength op then expected mem op else .malformed
  | none => .malformed

theorem request_of_code {mem : ℕ → Byte} {op : BindingOp} (h : mem 0 = op.code) (len : ℕ) :
    request mem len = if len = frameLength op then expected mem op else .malformed := by
  unfold request
  rw [h, BindingOp.ofCode?_code]

theorem request_cases (mem : ℕ → Byte) (len : ℕ) :
    (∃ op : BindingOp, mem 0 = op.code ∧ len = frameLength op ∧
      request mem len = expected mem op) ∨ request mem len = .malformed := by
  unfold request
  cases hop : BindingOp.ofCode? (mem 0) with
  | none => exact Or.inr rfl
  | some op =>
    simp only
    split_ifs with h
    · exact Or.inl ⟨op, BindingOp.code_of_ofCode? hop, h, rfl⟩
    · exact Or.inr rfl

theorem request_ne_readAll {mem : ℕ → Byte} {len : ℕ}
    (hne : ¬(mem 0 = BindingOp.readAll.code ∧ len = 1)) : request mem len ≠ .readAll := by
  intro hreq
  rcases request_cases mem len with ⟨op, hcode, hl, hexp⟩ | hmal
  · obtain rfl := expected_eq_readAll (hexp.symm.trans hreq)
    exact hne ⟨hcode, hl⟩
  · exact Request.noConfusion (hmal.symm.trans hreq)

theorem request_eq_readOne_iff {mem : ℕ → Byte} {len : ℕ} (h : request mem len ≠ .malformed) :
    (∃ slot, request mem len = .readOne slot) ↔ mem 0 = BindingOp.readOne.code := by
  rcases request_cases mem len with ⟨op, hcode, hl, hexp⟩ | hmal
  · rw [hexp, expected_eq_readOne_iff, hcode]
    constructor
    · rintro rfl
      rfl
    · intro heq
      have hop := BindingOp.ofCode?_code op
      rw [heq, BindingOp.ofCode?_code] at hop
      exact (Option.some.inj hop).symm
  · exact absurd hmal h

theorem singleReply_of_answered {mem : ℕ → Byte} {len : ℕ} {reads : List ℕ}
    {events : List DispatchEvent} (h : Dispatcher.Answered (mem 0) (request mem len) events)
    (hne : ¬(mem 0 = BindingOp.readAll.code ∧ len = 1)) :
    SingleReply mem len (reads.map .frameByte ++ events) := by
  obtain ⟨⟨status, payload, hreply, hlength, hok⟩, hcalls⟩ :=
    single_of_answered h (request_ne_readAll hne)
  refine ⟨⟨status, payload, ?_, ?_⟩, ?_⟩
  · rw [notifications_append, notifications_map_frameByte, List.nil_append, hreply]
  · rw [hlength]
    by_cases hs : status = .ok
    · simp only [request_eq_readOne_iff (hok hs)]
    · rw [if_neg fun h => hs h.2, if_neg fun h => hs h.2]
  · rw [calls_append, calls_map_frameByte, List.nil_append, hcalls]
    unfold request
    cases hop : BindingOp.ofCode? (mem 0) with
    | none => rfl
    | some op =>
      simp only
      by_cases hl : len = frameLength op
      · rw [if_pos hl, if_pos hl, if_neg (expected_ne_malformed mem op)]
      · rw [if_neg hl, if_neg hl, if_pos rfl]

theorem frameReads_readAll {mem : ℕ → Byte} {len : ℕ} (hcode : mem 0 = BindingOp.readAll.code)
    (hl : len = 1) : frameReads mem len = [0] := by
  rw [frameReads, hcode, BindingOp.ofCode?_code]
  exact congrArg _ (if_pos (show len = frameLength .readAll from hl))

theorem contained_of_answered {mem : ℕ → Byte} {len : ℕ} (hlen : 1 ≤ len)
    {events : List DispatchEvent} (h : Dispatcher.Answered (mem 0) (request mem len) events) :
    Contained mem len ((frameReads mem len).map .frameByte ++ events) := by
  have hbounded := bounded_answered h
  refine ⟨?_, ?_, fun hne => singleReply_of_answered h hne, ?_⟩
  · intro i hi
    rcases List.mem_append.mp hi with hi | hi
    · obtain ⟨j, hj, hji⟩ := List.mem_map.mp hi
      rw [← DispatchEvent.frameByte.inj hji]
      exact frameReads_lt mem len hlen hj
    · exact (hbounded _ hi).elim
  · intro op status payload hmem
    rcases List.mem_append.mp hmem with hmem | hmem
    · obtain ⟨j, -, hj⟩ := List.mem_map.mp hmem
      exact DispatchEvent.noConfusion hj
    · have hle : payload.length ≤ 16 := hbounded _ hmem
      omega
  · intro hcode hl
    have hreq : request mem len = .readAll := by
      rw [request_of_code hcode, if_pos (show len = frameLength .readAll from hl)]
      rfl
    rw [hreq] at h
    cases h with
    | readAll _ reads => exact ⟨events, by rw [frameReads_readAll hcode hl]; rfl, reads⟩

theorem dispatchBindingCp_frame {τ : Type} (d : Dispatcher τ) (mem : ℕ → Byte) {len : ℕ}
    (hlen : 1 ≤ len) :
    d.dispatchBindingCp (frame mem len) = d.serve (mem 0) (request mem len) := by
  obtain ⟨n, rfl⟩ : ∃ n, len = n + 1 := ⟨len - 1, by omega⟩
  rw [frame_succ, Dispatcher.dispatchBindingCp_eq_serve, ofFrame_frame]
  rfl

theorem dispatchBindingCp_traced {σ : Type} (d : Dispatcher σ) (mem : ℕ → Byte) {len : ℕ}
    (hlen : 1 ≤ len) (s : σ) : FrameBuffer.dispatchBindingCp d.traced mem len ⟨s, []⟩ =
      d.traced.serve (mem 0) (request mem len) ⟨s, (frameReads mem len).map .frameByte⟩ := by
  rw [FrameBuffer.dispatchBindingCp_eq d.traced mem len hlen, dispatchBindingCp_frame _ mem hlen]
  rfl

end FrameBuffer

open FrameBuffer

/-- Every frame gets its reply and nothing else: dispatch returns 0, stays inside the frame,
makes at most the one call the frame asks for, does to the state what the dispatcher over
the list of its bytes does, and does not care what `notify_binding` returns. -/
theorem dispatch_contained {σ : Type} (d : Dispatcher σ) (mem : ℕ → Byte) {len : ℕ}
    (hlen : 1 ≤ len) (s : σ) :
    (FrameBuffer.dispatchBindingCp d.traced mem len ⟨s, []⟩).1 = 0 ∧
    Contained mem len (FrameBuffer.dispatchBindingCp d.traced mem len ⟨s, []⟩).2.events ∧
    (FrameBuffer.dispatchBindingCp d.traced mem len ⟨s, []⟩).2.state =
      (d.dispatchBindingCp (frame mem len) s).2 ∧
    ∀ result, FrameBuffer.dispatchBindingCp (d.withNotifyResults result).traced mem len ⟨s, []⟩ =
      FrameBuffer.dispatchBindingCp d.traced mem len ⟨s, []⟩ := by
  obtain ⟨events, state, hserve, hanswered⟩ := d.serve_traced (mem 0) (request mem len)
    ⟨s, (frameReads mem len).map .frameByte⟩
  refine ⟨?_, ?_, ?_, ?_⟩
  · rw [dispatchBindingCp_traced d mem hlen, hserve]
  · rw [dispatchBindingCp_traced d mem hlen, hserve]
    exact contained_of_answered hlen hanswered
  · rw [dispatchBindingCp_traced d mem hlen, dispatchBindingCp_frame d mem hlen,
      Dispatcher.serve_traced_state]
  · intro result
    have hsame : (d.withNotifyResults result).traced = d.traced.withNotifyResults
        fun op status payload t => result op status payload t.state := rfl
    rw [dispatchBindingCp_traced _ mem hlen, dispatchBindingCp_traced d mem hlen, hsame,
      Dispatcher.serve_withNotifyResults]

theorem dispatch_contained_clearOne :
    Contained (fun _ => 0x11) 2 (FrameBuffer.dispatchBindingCp
      (ControlPoint.dispatcher none).traced (fun _ => 0x11) 2
        ⟨⟨BindingTable.init, []⟩, []⟩).2.events :=
  (dispatch_contained (ControlPoint.dispatcher none) (fun _ => 0x11) (show 1 ≤ 2 by decide)
    ⟨BindingTable.init, []⟩).2.1

end PartRack
