import PartRack.DeviceHealth.Report
import PartRack.Lib.Deadlines

/-! The main thread (firmware/nrf52/app/src/main.c): the start, the loop that feeds the watchdog,
and the status LEDs, which tell how far the start has come. -/

namespace PartRack

inductive StatusLed
  | red
  | green
  | blue
deriving DecidableEq, Repr

/-- What the main thread does. The calls that only return an error here are `start`. -/
inductive MainAct
  | configure (led : StatusLed)
  | statusLedSet (led : StatusLed) (on : Bool)
  | msleep (ms : ℕ)
  | start
  | deviceHealthInit
  | feedWatchdog (wdtFeed : Int → Int)

/-- How the start ends. -/
inductive Ending
  | tableFailed
  | lightFailed
  | bleFailed
  | ready
deriving DecidableEq, Repr

/-- What the calls of the start return; without BT_SETTINGS there is no `settingsLoad`. Whatever
`device_health_init` and `nfc_wake_init` return is only logged. -/
structure StartResults where
  bindingTableInit : Int
  lightControlInit : Int
  appBleInit : Int
  settingsLoad : Option Int
  appBleStart : Int
deriving DecidableEq, Repr

/-- One turn of the last loop: whether a client is connected, and what `wdt_feed` returns. -/
structure MainTurn where
  bleConnected : Bool
  wdtFeed : Int → Int

namespace MainLoop

def watchdogTimeoutMs : ℕ := 8000

def statusLedsInit : List MainAct := [.configure .red, .configure .green, .configure .blue]

def blinkStatus (led : StatusLed) (count onMs offMs : ℕ) : List MainAct :=
  (List.replicate count
    [.statusLedSet led true, .msleep onMs, .statusLedSet led false, .msleep offMs]).flatten

/-- The start up to `binding_table_init`. -/
def bringUp : List MainAct :=
  statusLedsInit ++ blinkStatus .blue 3 100 100 ++ [.statusLedSet .red true, .start]

/-- The last calls before the device is ready. -/
def startBle (results : StartResults) : Ending × List MainAct :=
  -- `fatal_ble_error` switches green off before its loop
  let failed : Ending × List MainAct := (.bleFailed, [.statusLedSet .green false])
  if results.appBleInit ≠ 0 then (failed.1, [.start] ++ failed.2)
  else
    match results.settingsLoad with
    | some err =>
      if err ≠ 0 then (failed.1, [.start, .start] ++ failed.2)
      else if results.appBleStart ≠ 0 then (failed.1, [.start, .start, .start] ++ failed.2)
      else (.ready, [.start, .start, .start, .statusLedSet .red false])
    | none =>
      if results.appBleStart ≠ 0 then (failed.1, [.start, .start] ++ failed.2)
      else (.ready, [.start, .start, .statusLedSet .red false])

/-- `main` up to its endless loop. -/
def startUp (results : StartResults) : Ending × List MainAct :=
  if results.bindingTableInit ≠ 0 then (.tableFailed, bringUp)
  else if results.lightControlInit ≠ 0 then (.lightFailed, bringUp ++ [.start])
  else
    let (ending, acts) := startBle results
    (ending, bringUp ++ [.start] ++ .deviceHealthInit :: .start :: acts)

/-- One turn of the endless loop that the start has led to. -/
def turn (t : MainTurn) : Ending → List MainAct
  | .tableFailed => blinkStatus .red 1 500 500
  | .lightFailed => blinkStatus .red 2 250 250 ++ [.msleep 750]
  | .bleFailed => blinkStatus .red 3 200 200 ++ [.msleep 1000]
  | .ready =>
    -- the feed comes first, and the sleep after it depends on the connection
    if t.bleConnected then
      [.feedWatchdog t.wdtFeed, .statusLedSet .green false, .statusLedSet .blue true, .msleep 200]
    else [.feedWatchdog t.wdtFeed, .statusLedSet .blue false] ++ blinkStatus .green 1 200 1800

/-- The main thread after this many turns of its last loop. -/
def acts (results : StartResults) (turns : List MainTurn) : List MainAct :=
  (startUp results).2 ++ turns.flatMap fun t => turn t (startUp results).1

end MainLoop

/-! ## The device that it runs on -/

/-- The devices of the LEDs, and the drivers that `device_health_init` finds. -/
structure MainBoard extends HealthBoard where
  ledReady : StatusLed → Bool
  adc : Option BatteryAdc

/-- What the main thread has to do with: `watchdog` is the time since the watchdog was fed, once
it runs. -/
structure MainState where
  health : HealthState
  leds : StatusLed → Bool
  watchdog : Option ℕ

namespace MainState

def init : MainState := ⟨HealthState.init, fun _ => false, none⟩

def setLed (board : MainBoard) (led : StatusLed) (on : Bool) (s : MainState) : MainState :=
  if board.ledReady led then { s with leds := Function.update s.leds led on } else s

/-- The watchdog starts to run when `wdt_setup` succeeds, and `wdt_feed` restarts it unless it
fails. -/
def act (board : MainBoard) (s : MainState) : MainAct → MainState
  | .configure led => s.setLed board led false
  | .statusLedSet led on => s.setLed board led on
  | .msleep _ => s
  | .start => s
  | .deviceHealthInit => { s with
      health := (s.health.deviceHealthInit board.toHealthBoard board.adc).2
      watchdog := if board.watchdogOn then some 0 else none }
  | .feedWatchdog wdtFeed => { s with
      health := s.health.feedWatchdog wdtFeed
      watchdog :=
        if s.health.watchdogEnabled ∧ 0 ≤ s.health.watchdogChannelId ∧
            wdtFeed s.health.watchdogChannelId = 0 then s.watchdog.map fun _ => 0
        else s.watchdog }

/-- An act and the milliseconds that it takes. There is no state once the watchdog has reset the
device. -/
def step (board : MainBoard) (s : MainState) (x : MainAct × ℕ) : Option MainState :=
  -- the time passes before the act has its effect: a feed that comes too late is none
  if s.watchdog.any fun t => MainLoop.watchdogTimeoutMs < t + x.2 then none
  else some (({ s with watchdog := s.watchdog.map (· + x.2) } : MainState).act board x.1)

def run (board : MainBoard) (s : MainState) (trace : List (MainAct × ℕ)) : Option MainState :=
  trace.foldlM (step board) s

end MainState

/-! ## A trace of the main thread -/

namespace MainAct

/-- How long an act takes at least. -/
def atLeast : MainAct → ℕ
  | .msleep ms => ms
  | _ => 0

/-- The watchdog has nothing to do with the act. -/
def plain : MainAct → Bool
  | .deviceHealthInit => false
  | .feedWatchdog _ => false
  | _ => true

def feeds (board : HealthBoard) : MainAct → Bool
  | .feedWatchdog wdtFeed => wdtFeed board.channel = 0
  | _ => false

def inits : MainAct → Bool
  | .deviceHealthInit => true
  | _ => false

end MainAct

/-- The trace carries out these acts, none of them too fast. -/
structure Plays (acts : List MainAct) (trace : List (MainAct × ℕ)) : Prop where
  acts : trace.map Prod.fst = acts
  atLeast : ∀ x ∈ trace, x.1.atLeast ≤ x.2

theorem Plays.append {acts acts' : List MainAct} {u v : List (MainAct × ℕ)} (hu : Plays acts u)
    (hv : Plays acts' v) : Plays (acts ++ acts') (u ++ v) := by
  refine ⟨?_, fun x hx => ?_⟩
  · rw [List.map_append, hu.acts, hv.acts]
  · rcases List.mem_append.mp hx with hx | hx
    · exact hu.atLeast x hx
    · exact hv.atLeast x hx

theorem Plays.of_cons {a : MainAct} {acts : List MainAct} {trace : List (MainAct × ℕ)}
    (h : Plays (a :: acts) trace) : ∃ ms rest, trace = (a, ms) :: rest ∧ Plays acts rest := by
  obtain ⟨x, rest, rfl, rfl, hrest⟩ := List.map_eq_cons_iff.mp h.acts
  exact ⟨x.2, rest, rfl, hrest, fun y hy => h.atLeast y (List.mem_cons_of_mem x hy)⟩

/-- The trace as it would be if nothing took longer than it must. -/
def ideal (acts : List MainAct) : List (MainAct × ℕ) := acts.map fun a => (a, a.atLeast)

namespace MainState
variable {board : MainBoard} {s : MainState}

/-- The watchdog runs, and `t` milliseconds have passed since it was fed. -/
structure Armed (board : MainBoard) (s : MainState) (t : ℕ) : Prop where
  watchdog : s.watchdog = some t
  watchdogEnabled : s.health.watchdogEnabled = true
  channel : s.health.watchdogChannelId = board.channel
  nonneg : 0 ≤ board.channel

theorem watchdog_setLed (board : MainBoard) (led : StatusLed) (on : Bool) (s : MainState) :
    (s.setLed board led on).watchdog = s.watchdog ∧ (s.setLed board led on).health = s.health := by
  unfold setLed
  split_ifs
  · exact ⟨rfl, rfl⟩
  · exact ⟨rfl, rfl⟩

theorem act_plain {a : MainAct} (h : a.plain = true) :
    (s.act board a).watchdog = s.watchdog ∧ (s.act board a).health = s.health := by
  cases a with
  | configure led => exact watchdog_setLed board led false s
  | statusLedSet led on => exact watchdog_setLed board led on s
  | msleep ms => exact ⟨rfl, rfl⟩
  | start => exact ⟨rfl, rfl⟩
  | deviceHealthInit => exact absurd h Bool.false_ne_true
  | feedWatchdog wdtFeed => exact absurd h Bool.false_ne_true

theorem Armed.act_plain {t : ℕ} (h : Armed board s t) {a : MainAct} (ha : a.plain = true) :
    Armed board (s.act board a) t := by
  obtain ⟨hwatchdog, hhealth⟩ : (s.act board a).watchdog = s.watchdog ∧
      (s.act board a).health = s.health := MainState.act_plain ha
  refine ⟨hwatchdog.trans h.watchdog, ?_, ?_, h.nonneg⟩
  · rw [hhealth]
    exact h.watchdogEnabled
  · rw [hhealth]
    exact h.channel

theorem Armed.act {t : ℕ} (h : Armed board s t) {a : MainAct} (ha : a.inits = false) :
    Armed board (s.act board a) (if a.feeds board.toHealthBoard then 0 else t) := by
  cases a with
  | deviceHealthInit => exact absurd ha.symm Bool.false_ne_true
  | feedWatchdog wdtFeed =>
    have hfeeds : (MainAct.feedWatchdog wdtFeed).feeds board.toHealthBoard =
        decide (wdtFeed board.channel = 0) := rfl
    have hhealth : (s.health.feedWatchdog wdtFeed).watchdogEnabled = s.health.watchdogEnabled ∧
        (s.health.feedWatchdog wdtFeed).watchdogChannelId = s.health.watchdogChannelId := by
      unfold HealthState.feedWatchdog
      split_ifs <;> exact ⟨rfl, rfl⟩
    refine ⟨?_, hhealth.1.trans h.watchdogEnabled, hhealth.2.trans h.channel, h.nonneg⟩
    rw [hfeeds]
    simp only [MainState.act, h.watchdog, h.watchdogEnabled, h.channel, h.nonneg, true_and,
      Option.map_some, decide_eq_true_eq]
    split_ifs <;> rfl
  | _ => exact h.act_plain rfl

theorem run_append (board : MainBoard) (s : MainState) (u v : List (MainAct × ℕ)) :
    s.run board (u ++ v) = (s.run board u).bind fun t => t.run board v :=
  List.foldlM_append

end MainState

namespace MainLoop
variable {board : MainBoard} {results : StartResults}

theorem startBle_eq (results : StartResults) : ∃ n,
    startBle results = (.bleFailed,
      List.replicate n .start ++ [.statusLedSet .green false]) ∨
    startBle results = (.ready, List.replicate n .start ++ [.statusLedSet .red false]) := by
  unfold startBle
  cases results.settingsLoad with
  | none =>
    simp only
    split_ifs
    · exact ⟨1, .inl rfl⟩
    · exact ⟨2, .inl rfl⟩
    · exact ⟨2, .inr rfl⟩
  | some err =>
    simp only
    split_ifs
    · exact ⟨1, .inl rfl⟩
    · exact ⟨2, .inl rfl⟩
    · exact ⟨3, .inl rfl⟩
    · exact ⟨3, .inr rfl⟩

section Supervision
variable {turns : List MainTurn} {trace : List (MainAct × ℕ)}

end Supervision

theorem plays_ideal (acts : List MainAct) : Plays acts (ideal acts) := by
  refine ⟨?_, fun x hx => ?_⟩
  · rw [ideal, List.map_map]
    exact List.map_id acts
  · obtain ⟨a, -, rfl⟩ := List.mem_map.mp hx
    exact le_rfl

/-- A board whose watchdog works. -/
def watchedBoard : MainBoard where
  hwinfo := none
  watchdogEnable := true
  watchdog := some ⟨true, 0, 0⟩
  ledReady := fun _ => true
  adc := none

end MainLoop
end PartRack
