import Mathlib.Data.List.TakeWhile
import Mathlib.Data.Rat.Floor
import PartRack.Light.Model

/-! The light state over time, under commands, ticks and force_off in any order. A command
that was granted a timeout is in force until a tick finds its deadline passed, or until
something else takes its place. -/

namespace PartRack
namespace LightState

inductive Event
  | apply (command : LightCommand) (nowMs : ℤ)
  | tick (nowMs : ℤ)
  | forceOff
deriving DecidableEq, Repr

def deadline (nowMs : ℤ) (policy : LightPolicy) : ℤ := nowMs + policy.timeoutS.toNat * 1000

namespace Event

def time : Event → Option ℤ
  | .apply _ nowMs => some nowMs
  | .tick nowMs => some nowMs
  | .forceOff => none

/-- The time and the policy of an accepted command that turns the lights on. -/
def turnsOn : Event → Option (ℤ × LightPolicy)
  | .apply command nowMs =>
    match LightPolicy.resolve command with
    | .ok policy => if policy.powerOn then some (nowMs, policy) else none
    | .error _ => none
  | .tick _ => none
  | .forceOff => none

/-- An accepted command, or force_off. -/
def supersedes : Event → Bool
  | .apply command _ =>
    match LightPolicy.resolve command with
    | .ok _ => true
    | .error _ => false
  | .tick _ => false
  | .forceOff => true

def ticksFrom (deadlineMs : ℤ) : Event → Bool
  | .tick nowMs => decide (deadlineMs ≤ nowMs)
  | _ => false

end Event

def next (s : LightState) : Event → LightState
  | .apply command nowMs =>
    match s.apply command nowMs with
    | .ok (s, _) => s
    | .error _ => s
  | .tick nowMs => (s.tick nowMs).2
  | .forceOff => s.forceOff

def run (events : List Event) : LightState := events.foldl next init

/-- The number of ticks that return true. -/
def expirations (s : LightState) : List Event → ℕ
  | [] => 0
  | e :: events =>
    (match e with
      | .tick nowMs => (s.tick nowMs).1.toNat
      | _ => 0) + expirations (s.next e) events

/-- The events while a command before them is in force. -/
def inForce (events : List Event) : List Event := events.takeWhile fun e => !e.supersedes

/-- The number of commands that are ticked at or after their deadline while in force. -/
def expired : List Event → ℕ
  | [] => 0
  | e :: events =>
    (match e.turnsOn with
      | some (nowMs, policy) => ((inForce events).any (Event.ticksFrom (deadline nowMs policy))).toNat
      | none => 0) + expired events

def lastOn (events : List Event) : Option (ℤ × LightPolicy) :=
  (events.filterMap Event.turnsOn).getLast?

def times (events : List Event) : List ℤ := events.filterMap Event.time

structure Chronological (events : List Event) : Prop where
  bounds : ∀ t ∈ times events, 0 ≤ t ∧ t < 2 ^ 62
  sorted : (times events).Pairwise (· ≤ ·)

/-- A moment after all events. -/
structure Later (events : List Event) (nowMs : ℤ) : Prop where
  nonneg : 0 ≤ nowMs
  lt : nowMs < 2 ^ 62
  after : ∀ t ∈ times events, t ≤ nowMs

def InInt64 (x : ℤ) : Prop := -2 ^ 63 ≤ x ∧ x < 2 ^ 63

/-! ## One event -/

/-- A state that commands, ticks and force_off leave. -/
inductive Timed (on : Option (ℤ × LightPolicy)) : LightState → Prop
  | dark : Timed on init
  | lit {nowMs : ℤ} {policy : LightPolicy} (last : on = some (nowMs, policy))
      (granted : policy.Granted) (powerOn : policy.powerOn = true) (nonneg : 0 ≤ nowMs) :
      Timed on ⟨policy.mode, deadline nowMs policy⟩

/-- What an event is and what it does. -/
inductive EventCase (s : LightState) (e : Event) : Prop
  | on {nowMs : ℤ} {policy : LightPolicy} (turnsOn : e.turnsOn = some (nowMs, policy))
      (time : e.time = some nowMs) (supersedes : e.supersedes = true)
      (granted : policy.Granted) (powerOn : policy.powerOn = true)
      (next : s.next e = ⟨policy.mode, deadline nowMs policy⟩)
      (silent : ∀ events, s.expirations (e :: events) = (s.next e).expirations events)
  | off (turnsOn : e.turnsOn = none) (supersedes : e.supersedes = true) (next : s.next e = init)
      (silent : ∀ events, s.expirations (e :: events) = (s.next e).expirations events)
  | rejected (turnsOn : e.turnsOn = none) (supersedes : e.supersedes = false)
      (next : s.next e = s) (idle : ∀ deadlineMs, e.ticksFrom deadlineMs = false)
      (silent : ∀ events, s.expirations (e :: events) = (s.next e).expirations events)
  | tick {nowMs : ℤ} (tick : e = .tick nowMs)

theorem eventCase (s : LightState) (e : Event) : EventCase s e := by
  have hsilent : (∀ nowMs, e ≠ .tick nowMs) →
      ∀ events, s.expirations (e :: events) = (s.next e).expirations events := by
    intro hne events
    cases e with
    | tick nowMs => exact absurd rfl (hne nowMs)
    | apply command nowMs => exact Nat.zero_add _
    | forceOff => exact Nat.zero_add _
  cases e with
  | tick nowMs => exact .tick rfl
  | forceOff => exact .off rfl rfl rfl (hsilent (by simp))
  | apply command nowMs =>
    have hsilent' := hsilent (by simp)
    cases hresolve : LightPolicy.resolve command with
    | error err =>
      refine .rejected ?_ ?_ ?_ (fun _ => rfl) hsilent'
      · simp only [Event.turnsOn, hresolve]
      · simp only [Event.supersedes, hresolve]
      · simp only [next, apply, hresolve]
    | ok policy =>
      have hgranted := (LightPolicy.granted_of_resolve hresolve).1
      cases hpower : policy.powerOn with
      | true =>
        refine .on ?_ rfl ?_ hgranted hpower ?_ hsilent'
        · simp only [Event.turnsOn, hresolve, hpower, if_true]
        · simp only [Event.supersedes, hresolve]
        · simp only [next, apply, hresolve, hpower, Bool.true_eq_false, if_false]
          rfl
      | false =>
        refine .off ?_ ?_ ?_ hsilent'
        · simp only [Event.turnsOn, hresolve, hpower, Bool.false_eq_true, if_false]
        · simp only [Event.supersedes, hresolve]
        · simp only [next, apply, hresolve, hpower, if_true]
          rfl

theorem tick_init (nowMs : ℤ) : init.tick nowMs = (false, init) := if_pos (Or.inl rfl)

section Lit
variable {nowMs : ℤ} {policy : LightPolicy} (granted : policy.Granted)
  (powerOn : policy.powerOn = true) (nonneg : 0 ≤ nowMs)
include granted powerOn nonneg

theorem deadline_pos : 0 < deadline nowMs policy := by
  have hpos := (granted.bounds powerOn).1
  unfold deadline
  omega

theorem isActive_lit : isActive ⟨policy.mode, deadline nowMs policy⟩ = true := by
  have hdeadline := (deadline_pos granted powerOn nonneg).ne'
  rw [isActive, decide_eq_true (granted.mode_ne_off powerOn), decide_eq_true hdeadline,
    Bool.true_and]

theorem tick_lit (tickMs : ℤ) : tick ⟨policy.mode, deadline nowMs policy⟩ tickMs =
    if tickMs < deadline nowMs policy then (false, ⟨policy.mode, deadline nowMs policy⟩)
    else (true, init) := by
  have hactive : ¬(policy.mode = LightMode.off ∨ deadline nowMs policy = 0) :=
    not_or.mpr ⟨granted.mode_ne_off powerOn, (deadline_pos granted powerOn nonneg).ne'⟩
  rw [tick, if_neg hactive]
  rfl

end Lit

/-! ## Runs -/

theorem lastOn_append (events : List Event) (e : Event) :
    lastOn (events ++ [e]) = e.turnsOn.or (lastOn events) := by
  rw [lastOn, List.filterMap_append, List.getLast?_append]
  cases he : e.turnsOn with
  | none => simp [he, lastOn]
  | some p => simp [he]

theorem Timed.next {on : Option (ℤ × LightPolicy)} {s : LightState} (h : Timed on s) {e : Event}
    (ht : ∀ t, e.time = some t → 0 ≤ t) : Timed (e.turnsOn.or on) (s.next e) := by
  cases eventCase s e with
  | on turnsOn time _ granted powerOn next _ =>
    rw [next, turnsOn, Option.some_or]
    exact .lit rfl granted powerOn (ht _ time)
  | off turnsOn _ next _ =>
    rw [next]
    exact .dark
  | rejected turnsOn _ next _ _ =>
    rw [next, turnsOn, Option.none_or]
    exact h
  | @tick nowMs tick =>
    subst tick
    show Timed on (s.tick nowMs).2
    cases h with
    | dark => 
      rw [tick_init]
      exact .dark
    | lit last granted powerOn nonneg =>
      rw [tick_lit granted powerOn nonneg]
      split_ifs
      · exact .lit last granted powerOn nonneg
      · exact .dark

theorem run_append (events : List Event) (e : Event) :
    run (events ++ [e]) = (run events).next e := by
  rw [run, List.foldl_append]
  rfl

theorem timed_run {events : List Event} (h : ∀ t ∈ times events, 0 ≤ t) :
    Timed (lastOn events) (run events) := by
  induction events using List.reverseRecOn with
  | nil => exact .dark
  | append_singleton events e ih =>
    rw [times, List.filterMap_append] at h
    rw [run_append, lastOn_append]
    refine (ih fun t ht => h t (List.mem_append_left _ ht)).next fun t ht => h t ?_
    exact List.mem_append_right _ (List.mem_filterMap.mpr ⟨e, List.mem_singleton_self e, ht⟩)

theorem next_of_turnsOn (s : LightState) {e : Event} {nowMs : ℤ} {policy : LightPolicy}
    (h : e.turnsOn = some (nowMs, policy)) :
    s.next e = ⟨policy.mode, deadline nowMs policy⟩ ∧ e.time = some nowMs ∧ policy.Granted ∧
      policy.powerOn = true := by
  cases eventCase s e with
  | on turnsOn time _ granted powerOn next _ =>
    rw [h] at turnsOn
    obtain ⟨rfl, rfl⟩ := Prod.mk.inj (Option.some.inj turnsOn)
    exact ⟨next, time, granted, powerOn⟩
  | off turnsOn _ _ _ => exact absurd (turnsOn.symm.trans h).symm (Option.some_ne_none _)
  | rejected turnsOn _ _ _ _ => exact absurd (turnsOn.symm.trans h).symm (Option.some_ne_none _)
  | tick tick =>
    subst tick
    exact absurd h.symm (Option.some_ne_none _)

theorem mem_times_of_lastOn {events : List Event} {nowMs : ℤ} {policy : LightPolicy}
    (h : lastOn events = some (nowMs, policy)) : nowMs ∈ times events := by
  obtain ⟨e, he, hon⟩ := List.mem_filterMap.mp (List.mem_of_getLast? h)
  exact List.mem_filterMap.mpr ⟨e, he, (next_of_turnsOn init hon).2.1⟩

/-! ## Remaining time -/

theorem ceil_eq (x : ℤ) : ⌈(x : ℚ) / 1000⌉ = -(-x / 1000) :=
  Rat.ceil_intCast_div_natCast x 1000

theorem remainingS_init (nowMs : ℤ) : init.remainingS nowMs = 0 := if_pos rfl

theorem toNat_remainingS {s : LightState} (hactive : s.isActive = true) {nowMs : ℤ}
    (hle : s.expiresAtMs - nowMs ≤ 300000) :
    ((s.remainingS nowMs).toNat : ℤ) = ⌈((max 0 (s.expiresAtMs - nowMs) : ℤ) : ℚ) / 1000⌉ := by
  have hlit : ¬s.isActive = false := by simp [hactive]
  rw [ceil_eq, remainingS, if_neg hlit]
  dsimp only
  split_ifs with hpast
  · rw [max_eq_left hpast]
    rfl
  · have hceil : (s.expiresAtMs - nowMs + 1000 - 1).tdiv 1000 =
        -(-(s.expiresAtMs - nowMs) / 1000) := by
      rw [Int.tdiv_eq_ediv_of_nonneg (by omega)]
      omega
    rw [max_eq_right (by omega), hceil, BitVec.toNat_ofInt]
    omega

theorem Timed.remaining_le {events : List Event} {s : LightState} (h : Timed (lastOn events) s)
    {nowMs : ℤ} (hlater : Later events nowMs) : s.expiresAtMs - nowMs ≤ 300000 := by
  cases h with
  | dark =>
    have hnow := hlater.nonneg
    show (0 : ℤ) - nowMs ≤ 300000
    omega
  | lit last granted powerOn nonneg =>
    have hafter := hlater.after _ (mem_times_of_lastOn last)
    have hle := (granted.bounds powerOn).2.1
    show deadline _ _ - nowMs ≤ 300000
    unfold deadline
    omega

theorem Timed.toNat_remainingS {events : List Event} {s : LightState}
    (h : Timed (lastOn events) s) {nowMs : ℤ} (hlater : Later events nowMs) :
    ((s.remainingS nowMs).toNat : ℤ) = ⌈((max 0 (s.expiresAtMs - nowMs) : ℤ) : ℚ) / 1000⌉ := by
  have hle := h.remaining_le hlater
  cases h with
  | dark =>
    have hpast : max 0 (init.expiresAtMs - nowMs) = 0 := by
      have hnow := hlater.nonneg
      refine max_eq_left ?_
      show (0 : ℤ) - nowMs ≤ 0
      omega
    rw [remainingS_init, hpast, ceil_eq]
    rfl
  | lit last granted powerOn nonneg =>
    exact LightState.toNat_remainingS (isActive_lit granted powerOn nonneg) hle

theorem Timed.inInt64 {events : List Event} (hevents : Chronological events) {s : LightState}
    (h : Timed (lastOn events) s) {nowMs : ℤ} (hlater : Later events nowMs) :
    InInt64 s.expiresAtMs ∧ InInt64 (s.expiresAtMs - nowMs) ∧
      InInt64 (s.expiresAtMs - nowMs + 1000 - 1) := by
  have hnow := hlater.nonneg
  have hlt := hlater.lt
  have hbounds : 0 ≤ s.expiresAtMs ∧ s.expiresAtMs < 2 ^ 62 + 300001 := by
    cases h with
    | dark => exact ⟨le_refl 0, by decide⟩
    | lit last granted powerOn nonneg =>
      have hon := hevents.bounds _ (mem_times_of_lastOn last)
      have hle := (granted.bounds powerOn).2.1
      show 0 ≤ deadline _ _ ∧ deadline _ _ < _
      unfold deadline
      omega
  unfold InInt64
  omega

theorem remainingS_antitone {s : LightState} {nowMs nowMs' : ℤ} (hle : nowMs ≤ nowMs')
    (h : ((s.remainingS nowMs).toNat : ℤ) = ⌈((max 0 (s.expiresAtMs - nowMs) : ℤ) : ℚ) / 1000⌉)
    (h' : ((s.remainingS nowMs').toNat : ℤ) = ⌈((max 0 (s.expiresAtMs - nowMs') : ℤ) : ℚ) / 1000⌉) :
    (s.remainingS nowMs').toNat ≤ (s.remainingS nowMs).toNat := by
  have hmax : max 0 (s.expiresAtMs - nowMs') ≤ max 0 (s.expiresAtMs - nowMs) :=
    max_le_max le_rfl (Int.sub_le_sub_left hle _)
  rw [ceil_eq] at h h'
  omega

theorem Later.mono {events : List Event} {nowMs nowMs' : ℤ} (h : Later events nowMs)
    (hle : nowMs ≤ nowMs') (hlt : nowMs' < 2 ^ 62) : Later events nowMs' :=
  ⟨h.nonneg.trans hle, hlt, fun t ht => (h.after t ht).trans hle⟩

theorem Timed.tick_iff {events : List Event} {s : LightState} (h : Timed (lastOn events) s)
    {nowMs : ℤ} (hlater : Later events nowMs) :
    (s.tick nowMs).2.mode ≠ LightMode.off ↔ 0 < ((s.tick nowMs).2.remainingS nowMs).toNat := by
  have hceil := h.toNat_remainingS hlater
  cases h with
  | dark =>
    rw [tick_init, remainingS_init]
    exact iff_of_false (fun h => h rfl) (Nat.lt_irrefl 0)
  | @lit onMs policy last granted powerOn nonneg =>
    rw [tick_lit granted powerOn nonneg]
    split_ifs with hlt
    · refine iff_of_true (granted.mode_ne_off powerOn) ?_
      have hleft : max 0 (deadline onMs policy - nowMs) = deadline onMs policy - nowMs :=
        max_eq_right (by omega)
      rw [hleft, ceil_eq] at hceil
      show 0 < (remainingS ⟨policy.mode, deadline onMs policy⟩ nowMs).toNat
      omega
    · rw [remainingS_init]
      exact iff_of_false (fun h => h rfl) (Nat.lt_irrefl 0)

theorem Timed.of_on {events : List Event} {s : LightState} (h : Timed (lastOn events) s)
    (hon : s.mode ≠ LightMode.off) :
    ∃ nowMs policy, lastOn events = some (nowMs, policy) ∧ s.mode = policy.mode ∧
      s.expiresAtMs = nowMs + 1000 * policy.timeoutS.toNat ∧
      1 ≤ policy.timeoutS.toNat ∧ policy.timeoutS.toNat ≤ 300 ∧
      (policy.mode = LightMode.fx → policy.timeoutS.toNat ≤ 10) ∧
      ∀ t, Later events t → (s.remainingS t).toNat ≤ policy.timeoutS.toNat := by
  have hceil := fun t (hlater : Later events t) => h.toNat_remainingS hlater
  cases h with
  | dark => exact absurd rfl hon
  | @lit nowMs policy last granted powerOn nonneg =>
    obtain ⟨hpos, hle, hfx⟩ := granted.bounds powerOn
    have hdeadline : deadline nowMs policy = nowMs + 1000 * policy.timeoutS.toNat := by
      rw [deadline, Int.mul_comm]
    refine ⟨nowMs, policy, last, rfl, hdeadline, hpos, hle, hfx, fun t hlater => ?_⟩
    have hafter := hlater.after _ (mem_times_of_lastOn last)
    have hremaining := hceil t hlater
    have hmax : max 0 (deadline nowMs policy - t) ≤ 1000 * policy.timeoutS.toNat :=
      max_le (by omega) (by omega)
    rw [ceil_eq] at hremaining
    dsimp only at hremaining ⊢
    omega

/-! ## Ticks that return true -/

/-- Whether the deadline that is set passes at a tick while the command is in force. -/
def pending (s : LightState) (events : List Event) : Bool :=
  if s.mode = LightMode.off then false
  else (inForce events).any (Event.ticksFrom s.expiresAtMs)

theorem pending_init (events : List Event) : init.pending events = false := if_pos rfl

theorem pending_lit {nowMs : ℤ} {policy : LightPolicy} (granted : policy.Granted)
    (powerOn : policy.powerOn = true) (events : List Event) :
    pending ⟨policy.mode, deadline nowMs policy⟩ events =
      (inForce events).any (Event.ticksFrom (deadline nowMs policy)) :=
  if_neg (granted.mode_ne_off powerOn)

theorem inForce_cons {e : Event} (events : List Event) (h : e.supersedes = false) :
    inForce (e :: events) = e :: inForce events := by
  rw [inForce, List.takeWhile_cons_of_pos (by simp [h])]
  rfl

theorem inForce_cons_of_supersedes {e : Event} (events : List Event) (h : e.supersedes = true) :
    inForce (e :: events) = [] := by
  rw [inForce, List.takeWhile_cons_of_neg (by simp [h])]

theorem pending_of_supersedes (s : LightState) {e : Event} (events : List Event)
    (h : e.supersedes = true) : s.pending (e :: events) = false := by
  rw [pending, inForce_cons_of_supersedes events h]
  exact ite_self false

theorem expired_cons_of_none {e : Event} (events : List Event) (h : e.turnsOn = none) :
    expired (e :: events) = expired events := by
  simp only [expired, h, Nat.zero_add]

theorem Timed.tick_pending {on : Option (ℤ × LightPolicy)} {s : LightState} (h : Timed on s)
    (nowMs : ℤ) (events : List Event) :
    (s.tick nowMs).1.toNat + ((s.tick nowMs).2.pending events).toNat =
      (s.pending (.tick nowMs :: events)).toNat := by
  cases h with
  | dark => rw [tick_init, pending_init, pending_init, Bool.toNat_false]
  | @lit onMs policy last granted powerOn nonneg =>
    rw [tick_lit granted powerOn nonneg, pending_lit granted powerOn, inForce_cons events rfl,
      List.any_cons]
    split_ifs with hlt
    · have hearly : Event.ticksFrom (deadline onMs policy) (.tick nowMs) = false :=
        decide_eq_false (Int.not_le.mpr hlt)
      rw [hearly, Bool.false_or, pending_lit granted powerOn, Bool.toNat_false, Nat.zero_add]
    · have hdue : Event.ticksFrom (deadline onMs policy) (.tick nowMs) = true :=
        decide_eq_true (Int.not_lt.mp hlt)
      rw [hdue, Bool.true_or, pending_init, Bool.toNat_false, Nat.add_zero]

theorem Timed.expirations_eq {on : Option (ℤ × LightPolicy)} {s : LightState} (h : Timed on s)
    {events : List Event} (hevents : ∀ t ∈ times events, 0 ≤ t) :
    s.expirations events = (s.pending events).toNat + expired events := by
  induction events generalizing on s with
  | nil => cases h <;> simp [expirations, expired, pending, inForce]
  | cons e events ih =>
    have hrest : ∀ t ∈ times events, 0 ≤ t := by
      intro t ht
      obtain ⟨e', he', hte⟩ := List.mem_filterMap.mp ht
      exact hevents t (List.mem_filterMap.mpr ⟨e', List.mem_cons_of_mem e he', hte⟩)
    have hhead : ∀ t, e.time = some t → 0 ≤ t := fun t ht =>
      hevents t (List.mem_filterMap.mpr ⟨e, List.mem_cons_self, ht⟩)
    have hnext := ih (h.next hhead) hrest
    cases eventCase s e with
    | on turnsOn _ supersedes granted powerOn next silent =>
      rw [next, pending_lit granted powerOn] at hnext
      rw [silent, next, hnext, pending_of_supersedes s events supersedes]
      simp only [expired, turnsOn, Bool.toNat_false, Nat.zero_add]
    | off turnsOn supersedes next silent =>
      rw [next, pending_init] at hnext
      rw [silent, next, hnext, pending_of_supersedes s events supersedes,
        expired_cons_of_none events turnsOn]
    | rejected turnsOn supersedes next idle silent =>
      have hpending : s.pending (e :: events) = s.pending events := by
        rw [pending, pending, inForce_cons events supersedes, List.any_cons, idle, Bool.false_or]
      rw [next] at hnext
      rw [silent, next, hnext, hpending, expired_cons_of_none events turnsOn]
    | @tick nowMs tick =>
      subst tick
      have hticked : (s.tick nowMs).2.expirations events =
          ((s.tick nowMs).2.pending events).toNat + expired events := hnext
      rw [expired_cons_of_none events rfl, ← h.tick_pending nowMs events, Nat.add_assoc, ← hticked]
      rfl

theorem turnsOn_of_not_supersedes {e : Event} (h : e.supersedes = false) : e.turnsOn = none := by
  cases eventCase init e with
  | on _ _ supersedes _ _ _ _ => exact absurd (h.symm.trans supersedes) Bool.false_ne_true
  | off turnsOn _ _ _ => exact turnsOn
  | rejected turnsOn _ _ _ _ => exact turnsOn
  | tick tick =>
    subst tick
    rfl

theorem expired_inForce (events : List Event) : expired (inForce events) = 0 := by
  induction events with
  | nil => rfl
  | cons e events ih =>
    cases h : e.supersedes with
    | true =>
      rw [inForce_cons_of_supersedes events h]
      rfl
    | false => rw [inForce_cons events h, expired_cons_of_none _ (turnsOn_of_not_supersedes h), ih]

theorem mem_times_of_inForce {events : List Event} {t : ℤ} (h : t ∈ times (inForce events)) :
    t ∈ times events := by
  obtain ⟨e, he, ht⟩ := List.mem_filterMap.mp h
  exact List.mem_filterMap.mpr ⟨e, (List.takeWhile_subset _) he, ht⟩

theorem any_ticksFrom_iff {deadlineMs : ℤ} {events : List Event} :
    events.any (Event.ticksFrom deadlineMs) = true ↔
      ∃ t, .tick t ∈ events ∧ deadlineMs ≤ t := by
  rw [List.any_eq_true]
  constructor
  · rintro ⟨e, he, hticks⟩
    cases e with
    | tick t => exact ⟨t, he, of_decide_eq_true hticks⟩
    | apply command nowMs => exact absurd hticks Bool.false_ne_true
    | forceOff => exact absurd hticks Bool.false_ne_true
  · rintro ⟨t, ht, hle⟩
    exact ⟨.tick t, ht, decide_eq_true hle⟩

theorem expirations_inForce {nowMs : ℤ} {policy : LightPolicy} (granted : policy.Granted)
    (powerOn : policy.powerOn = true) (nonneg : 0 ≤ nowMs) {events : List Event}
    (hevents : ∀ t ∈ times events, 0 ≤ t) :
    ((∃ t, .tick t ∈ inForce events ∧ deadline nowMs policy ≤ t) →
      expirations ⟨policy.mode, deadline nowMs policy⟩ (inForce events) = 1) ∧
    ((¬∃ t, .tick t ∈ inForce events ∧ deadline nowMs policy ≤ t) →
      expirations ⟨policy.mode, deadline nowMs policy⟩ (inForce events) = 0) := by
  have hidem : inForce (inForce events) = inForce events := List.takeWhile_idem
  have hlit : Timed (some (nowMs, policy)) ⟨policy.mode, deadline nowMs policy⟩ :=
    .lit rfl granted powerOn nonneg
  have hcount := hlit.expirations_eq fun t ht => hevents t (mem_times_of_inForce ht)
  rw [expired_inForce, Nat.add_zero, pending_lit granted powerOn, hidem] at hcount
  rw [hcount, ← any_ticksFrom_iff]
  exact ⟨fun h => congrArg Bool.toNat h, fun h => congrArg Bool.toNat (eq_false_of_ne_true h)⟩

/-- The arithmetic of the light state over every sequence of events. A command is ended by
exactly one tick if a tick at or after its deadline comes while it is in force, and by none
otherwise; no other tick returns true. -/
theorem light_state_times {events : List Event} (h : Chronological events) :
    ((run events).mode ≠ LightMode.off →
      ∃ nowMs policy, lastOn events = some (nowMs, policy) ∧ (run events).mode = policy.mode ∧
        (run events).expiresAtMs = nowMs + 1000 * policy.timeoutS.toNat ∧
        1 ≤ policy.timeoutS.toNat ∧ policy.timeoutS.toNat ≤ 300 ∧
        (policy.mode = LightMode.fx → policy.timeoutS.toNat ≤ 10) ∧
        ∀ t, Later events t → ((run events).remainingS t).toNat ≤ policy.timeoutS.toNat) ∧
    (∀ t, Later events t →
      InInt64 (run events).expiresAtMs ∧ InInt64 ((run events).expiresAtMs - t) ∧
      InInt64 ((run events).expiresAtMs - t + 1000 - 1) ∧
      (((run events).remainingS t).toNat : ℤ) =
        ⌈((max 0 ((run events).expiresAtMs - t) : ℤ) : ℚ) / 1000⌉ ∧
      (∀ t', t ≤ t' → t' < 2 ^ 62 →
        ((run events).remainingS t').toNat ≤ ((run events).remainingS t).toNat) ∧
      (((run events).tick t).2.mode ≠ LightMode.off ↔
        0 < (((run events).tick t).2.remainingS t).toNat)) ∧
    (∀ before e later nowMs policy, events = before ++ e :: later →
      e.turnsOn = some (nowMs, policy) →
        ((∃ t, .tick t ∈ inForce later ∧ deadline nowMs policy ≤ t) →
          (run (before ++ [e])).expirations (inForce later) = 1) ∧
        ((¬∃ t, .tick t ∈ inForce later ∧ deadline nowMs policy ≤ t) →
          (run (before ++ [e])).expirations (inForce later) = 0)) ∧
    init.expirations events = expired events ∧
    ∀ command nowMs err, LightPolicy.resolve command = .error err →
      (run events).next (.apply command nowMs) = run events := by
  have htimes : ∀ t ∈ times events, 0 ≤ t := fun t ht => (h.bounds t ht).1
  have htimed := timed_run htimes
  refine ⟨?_, ?_, ?_, ?_, ?_⟩
  · exact htimed.of_on
  · intro t hlater
    have hceil := htimed.toNat_remainingS hlater
    obtain ⟨hexpires, hdiff, hround⟩ := htimed.inInt64 h hlater
    refine ⟨hexpires, hdiff, hround, hceil, ?_, htimed.tick_iff hlater⟩
    intro t' hle hlt
    exact remainingS_antitone hle hceil (htimed.toNat_remainingS (hlater.mono hle hlt))
  · rintro before e later nowMs policy rfl hon
    obtain ⟨hnext, htime, granted, powerOn⟩ := next_of_turnsOn (run before) hon
    have hmem : ∀ t, t ∈ times (e :: later) → t ∈ times (before ++ e :: later) := by
      intro t ht
      rw [times, List.filterMap_append]
      exact List.mem_append_right _ ht
    have hnow : nowMs ∈ times (e :: later) :=
      List.mem_filterMap.mpr ⟨e, List.mem_cons_self, htime⟩
    rw [run_append, hnext]
    refine expirations_inForce granted powerOn (htimes nowMs (hmem _ hnow)) ?_
    intro t ht
    obtain ⟨e', he', hte⟩ := List.mem_filterMap.mp ht
    exact htimes t (hmem t (List.mem_filterMap.mpr ⟨e', List.mem_cons_of_mem e he', hte⟩))
  · have hdark : Timed none init := .dark
    have hcount := hdark.expirations_eq htimes
    rwa [pending_init, Bool.toNat_false, Nat.zero_add] at hcount
  · intro command nowMs err herr
    simp only [next, apply, herr]

/-- A command for one slot. -/
def lightFor (mode : Byte) (timeoutS : BitVec 16) : LightCommand :=
  ⟨mode, 1, 0, Vector.replicate 3 255, Vector.replicate 3 0, timeoutS⟩

theorem light_state_times_fx :
    init.expirations [.apply (lightFor LightMode.fx 60) 500, .tick 9999, .tick 10500, .tick 20000] =
      expired [.apply (lightFor LightMode.fx 60) 500, .tick 9999, .tick 10500, .tick 20000] :=
  (light_state_times ⟨by decide, by decide⟩).2.2.2.1

theorem no_tick_after_superseded :
    ¬∀ (command : LightCommand) (nowMs : ℤ) (policy : LightPolicy) (later : List Event),
      Chronological (.apply command nowMs :: later) →
      (Event.apply command nowMs).turnsOn = some (nowMs, policy) →
      (∀ e ∈ later, e.supersedes = true → ∃ t, e.time = some t ∧ deadline nowMs policy ≤ t) →
      (∃ t, .tick t ∈ later ∧ deadline nowMs policy ≤ t) →
      1 ≤ (run [.apply command nowMs]).expirations later := by
  intro h
  have hone := h (lightFor 1 1) 0 ⟨1, 1, true⟩ [.apply (lightFor 1 5) 2000, .tick 3000]
    ⟨by decide, by decide⟩ (by decide) ?_ ⟨3000, by decide, by decide⟩
  · exact absurd hone (by decide)
  · intro e he hsupersedes
    rcases List.mem_cons.mp he with rfl | htick
    · exact ⟨2000, rfl, by decide⟩
    · rw [List.mem_singleton.mp htick] at hsupersedes
      exact absurd hsupersedes Bool.false_ne_true

end LightState
end PartRack
