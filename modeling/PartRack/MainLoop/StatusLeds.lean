import PartRack.MainLoop
import PartRack.Lib.Runs

/-! What the status LEDs tell at all times (status_led_set and blink_status of main.c). -/

namespace PartRack
namespace MainAct

/-- The LEDs after an act. -/
def lit (board : MainBoard) (leds : StatusLed → Bool) : MainAct → StatusLed → Bool
  | .configure led => if board.ledReady led then Function.update leds led false else leds
  | .statusLedSet led on => if board.ledReady led then Function.update leds led on else leds
  | _ => leds

end MainAct

namespace MainLoop
variable {board : MainBoard} {results : StartResults} {turns : List MainTurn}
  {leds : StatusLed → Bool}

/-- `P` holds of the LEDs at all times while these acts are carried out. -/
def Shown (board : MainBoard) (P : (StatusLed → Bool) → Prop) :
    (StatusLed → Bool) → List MainAct → Prop
  | leds, [] => P leds
  | leds, a :: acts => P leds ∧ Shown board P (a.lit board leds) acts

theorem Shown.append {P : (StatusLed → Bool) → Prop} {acts acts' : List MainAct}
    (h : Shown board P leds acts)
    (h' : Shown board P (acts.foldl (MainAct.lit board) leds) acts') :
    Shown board P leds (acts ++ acts') := by
  induction acts generalizing leds with
  | nil => exact h'
  | cons a acts ih => exact ⟨h.1, ih h.2 h'⟩

theorem Shown.last {P : (StatusLed → Bool) → Prop} {acts : List MainAct}
    (h : Shown board P leds acts) : P (acts.foldl (MainAct.lit board) leds) := by
  induction acts generalizing leds with
  | nil => exact h
  | cons a acts ih => exact ih h.2

theorem leds_act (s : MainState) (a : MainAct) : (s.act board a).leds = a.lit board s.leds := by
  cases a with
  | configure led =>
    simp only [MainState.act, MainState.setLed, MainAct.lit]
    split_ifs <;> rfl
  | statusLedSet led on =>
    simp only [MainState.act, MainState.setLed, MainAct.lit]
    split_ifs <;> rfl
  | _ => rfl

theorem leds_step {s t : MainState} {x : MainAct × ℕ} (h : s.step board x = some t) :
    t.leds = x.1.lit board s.leds := by
  unfold MainState.step at h
  split_ifs at h
  obtain rfl := Option.some.inj h
  exact leds_act _ x.1

theorem leds_run {s t : MainState} {acts : List MainAct} {trace : List (MainAct × ℕ)}
    (h : Plays acts trace) (ht : s.run board trace = some t) :
    t.leds = acts.foldl (MainAct.lit board) s.leds := by
  rw [← h.acts]
  clear h
  induction trace generalizing s with
  | nil =>
    obtain rfl := Option.some.inj ht
    rfl
  | cons x trace ih =>
    obtain ⟨u, hu, hrest⟩ := Option.bind_eq_some_iff.mp ht
    rw [ih hrest, leds_step hu]
    rfl

theorem along_of_shown {P : (StatusLed → Bool) → Prop} {s : MainState} {acts : List MainAct}
    {trace : List (MainAct × ℕ)} (h : Plays acts trace) (hshown : Shown board P s.leds acts) :
    Runs.Along (MainState.step board) (fun t => P t.leds) s trace := by
  induction acts generalizing s trace with
  | nil =>
    obtain rfl := List.map_eq_nil_iff.mp h.acts
    exact hshown
  | cons a acts ih =>
    obtain ⟨ms, rest, rfl, hrest⟩ := h.of_cons
    refine ⟨hshown.1, fun t ht => ih hrest ?_⟩
    rw [leds_step ht]
    exact hshown.2

/-- Red is a failure, green and blue are the device at work, and no two of them are lit at once. -/
structure Tells (ending : Ending) (leds : StatusLed → Bool) : Prop where
  red : leds .red = true → ending ≠ .ready
  green : leds .green = true → ending = .ready
  blue : leds .blue = true → ending = .ready
  apart : leds .green = true → leds .blue = false

/-- The LEDs between two turns. -/
structure Between (board : MainBoard) (ending : Ending) (leds : StatusLed → Bool) : Prop where
  unready : ∀ led, board.ledReady led = false → leds led = false
  green : leds .green = false
  ready : ending = .ready → leds .red = false
  failed : ending ≠ .ready → leds .blue = false

/-! ## One LED -/

/-- The LEDs whose devices are not ready are dark. -/
def Dark (board : MainBoard) (leds : StatusLed → Bool) : Prop :=
  ∀ led, board.ledReady led = false → leds led = false

theorem lit_statusLedSet (led : StatusLed) (on : Bool) :
    (MainAct.statusLedSet led on).lit board leds =
      if board.ledReady led then Function.update leds led on else leds := rfl

theorem lit_of_ne {led led' : StatusLed} (h : led' ≠ led) (on : Bool) :
    (MainAct.statusLedSet led on).lit board leds led' = leds led' := by
  rw [lit_statusLedSet]
  split_ifs
  · exact Function.update_of_ne h on leds
  · rfl

theorem Dark.lit_self (h : Dark board leds) (led : StatusLed) (on : Bool) :
    (MainAct.statusLedSet led on).lit board leds led = (on && board.ledReady led) := by
  rw [lit_statusLedSet]
  cases hready : board.ledReady led with
  | true => rw [if_pos rfl, Function.update_self, Bool.and_true]
  | false => rw [if_neg Bool.false_ne_true, h led hready, Bool.and_false]

theorem Dark.lit (h : Dark board leds) (a : MainAct) : Dark board (a.lit board leds) := by
  have hset : ∀ led on, Dark board ((MainAct.statusLedSet led on).lit board leds) := by
    intro led on led' hready
    by_cases heq : led' = led
    · rw [heq, h.lit_self, ← heq, hready, Bool.and_false]
    · rw [lit_of_ne heq]
      exact h led' hready
  cases a with
  | configure led => exact hset led false
  | statusLedSet led on => exact hset led on
  | _ => exact h

theorem Dark.foldl (h : Dark board leds) (acts : List MainAct) :
    Dark board (acts.foldl (MainAct.lit board) leds) := by
  induction acts generalizing leds with
  | nil => exact h
  | cons a acts ih => exact ih (h.lit a)

/-- The LED may be switched on without a false word to anyone who looks. -/
def MayLight (ending : Ending) (leds : StatusLed → Bool) : StatusLed → Prop
  | .red => ending ≠ .ready
  | .green => ending = .ready ∧ leds .blue = false
  | .blue => ending = .ready ∧ leds .green = false

theorem mayLight_red {ending : Ending} (h : ending ≠ .ready) : MayLight ending leds .red := h

theorem MayLight.lit {ending : Ending} {led : StatusLed} (h : MayLight ending leds led) (on : Bool) :
    MayLight ending ((MainAct.statusLedSet led on).lit board leds) led := by
  cases led with
  | red => exact h
  | green => exact ⟨h.1, (lit_of_ne (by decide) on).trans h.2⟩
  | blue => exact ⟨h.1, (lit_of_ne (by decide) on).trans h.2⟩

theorem Tells.dim {ending : Ending} {leds' : StatusLed → Bool} (h : Tells ending leds)
    (hdim : ∀ led, leds' led = true → leds led = true) : Tells ending leds' := by
  refine ⟨fun hr => h.red (hdim _ hr), fun hg => h.green (hdim _ hg), fun hb => h.blue (hdim _ hb),
    fun hg => ?_⟩
  by_contra hb
  have hblue := hdim .blue (eq_true_of_ne_false hb)
  exact Bool.false_ne_true ((h.apart (hdim _ hg)).symm.trans hblue)

theorem Tells.off {ending : Ending} (h : Tells ending leds) (led : StatusLed) :
    Tells ending ((MainAct.statusLedSet led false).lit board leds) := by
  refine h.dim fun led' hlit => ?_
  rw [lit_statusLedSet] at hlit
  split_ifs at hlit
  · by_cases heq : led' = led
    · rw [heq, Function.update_self] at hlit
      exact absurd hlit Bool.false_ne_true
    · rwa [Function.update_of_ne heq] at hlit
  · exact hlit

theorem Tells.on {ending : Ending} (h : Tells ending leds) {led : StatusLed}
    (hmay : MayLight ending leds led) :
    Tells ending ((MainAct.statusLedSet led true).lit board leds) := by
  have hsame : ∀ led', led' ≠ led →
      (MainAct.statusLedSet led true).lit board leds led' = leds led' :=
    fun _ hne => lit_of_ne hne true
  have hkept : ∀ led', led' ≠ led →
      (MainAct.statusLedSet led true).lit board leds led' = true → leds led' = true :=
    fun led' hne hlit => (hsame led' hne).symm.trans hlit
  cases led with
  | red =>
    refine ⟨fun _ => hmay, fun hlit => h.green (hkept _ (by decide) hlit),
      fun hlit => h.blue (hkept _ (by decide) hlit), fun hlit => ?_⟩
    exact (hsame .blue (by decide)).trans (h.apart (hkept _ (by decide) hlit))
  | green =>
    exact ⟨fun hlit => h.red (hkept _ (by decide) hlit), fun _ => hmay.1, fun _ => hmay.1,
      fun _ => (hsame .blue (by decide)).trans hmay.2⟩
  | blue =>
    refine ⟨fun hlit => h.red (hkept _ (by decide) hlit), fun _ => hmay.1, fun _ => hmay.1,
      fun hlit => ?_⟩
    exact absurd (hmay.2.symm.trans (hkept _ (by decide) hlit)) Bool.false_ne_true

/-! ## Blinking -/

theorem blinkStatus_succ (led : StatusLed) (count onMs offMs : ℕ) :
    blinkStatus led (count + 1) onMs offMs = [.statusLedSet led true, .msleep onMs,
      .statusLedSet led false, .msleep offMs] ++ blinkStatus led count onMs offMs := by
  rw [blinkStatus, List.replicate_succ, List.flatten_cons]
  rfl

theorem shown_blinkStatus {ending : Ending} {led : StatusLed} (h : Tells ending leds)
    (hmay : MayLight ending leds led) (count onMs offMs : ℕ) :
    Shown board (Tells ending) leds (blinkStatus led count onMs offMs) := by
  induction count generalizing leds with
  | zero => exact h
  | succ count ih =>
    have hon : Tells ending ((MainAct.statusLedSet led true).lit board leds) := h.on hmay
    have hoff : Tells ending ((MainAct.statusLedSet led false).lit board
        ((MainAct.statusLedSet led true).lit board leds)) := hon.off led
    rw [blinkStatus_succ]
    exact ⟨h, hon, hon, hoff, ih hoff ((hmay.lit true).lit false)⟩

theorem lit_blinkStatus_of_ne {led led' : StatusLed} (h : led' ≠ led) (count onMs offMs : ℕ) :
    (blinkStatus led count onMs offMs).foldl (MainAct.lit board) leds led' = leds led' := by
  induction count generalizing leds with
  | zero => rfl
  | succ count ih =>
    rw [blinkStatus_succ, List.foldl_append, ih]
    exact (lit_of_ne h false).trans (lit_of_ne h true)

theorem Dark.lit_blinkStatus (h : Dark board leds) {led : StatusLed} (hoff : leds led = false)
    (count onMs offMs : ℕ) :
    (blinkStatus led count onMs offMs).foldl (MainAct.lit board) leds led = false := by
  induction count generalizing leds with
  | zero => exact hoff
  | succ count ih =>
    rw [blinkStatus_succ, List.foldl_append]
    exact ih (h.foldl _) ((h.lit (.statusLedSet led true)).lit_self led false)

/-! ## One turn -/

theorem Between.tells {ending : Ending} (h : Between board ending leds) : Tells ending leds where
  red := fun hlit hready => Bool.false_ne_true ((h.ready hready).symm.trans hlit)
  green := fun hlit => absurd (h.green.symm.trans hlit) Bool.false_ne_true
  blue := by
    intro hlit
    by_contra hfailed
    exact Bool.false_ne_true ((h.failed hfailed).symm.trans hlit)
  apart := fun hlit => absurd (h.green.symm.trans hlit) Bool.false_ne_true

theorem shown_turn {ending : Ending} (h : Between board ending leds) (t : MainTurn) :
    Shown board (Tells ending) leds (turn t ending) := by
  have htells := h.tells
  have hdark : Dark board leds := h.unready
  have hblink : ∀ {led : StatusLed} (count onMs offMs ms : ℕ), MayLight ending leds led →
      Shown board (Tells ending) leds (blinkStatus led count onMs offMs ++ [.msleep ms]) := by
    intro led count onMs offMs ms hmay
    have hshown : Shown board (Tells ending) leds (blinkStatus led count onMs offMs) :=
      shown_blinkStatus htells hmay count onMs offMs
    exact hshown.append ⟨hshown.last, hshown.last⟩
  cases ending with
  | tableFailed => exact shown_blinkStatus htells (mayLight_red (by decide)) 1 500 500
  | lightFailed => exact hblink 2 250 250 750 (mayLight_red (by decide))
  | bleFailed => exact hblink 3 200 200 1000 (mayLight_red (by decide))
  | ready =>
    unfold turn
    split_ifs
    · -- green goes off before blue comes on
      have hgreen : Tells .ready ((MainAct.statusLedSet .green false).lit board leds) :=
        htells.off .green
      have hmay : MayLight .ready ((MainAct.statusLedSet .green false).lit board leds) .blue :=
        ⟨rfl, hdark.lit_self .green false⟩
      exact ⟨htells, htells, hgreen, hgreen.on hmay, hgreen.on hmay⟩
    · -- blue goes off before green comes on
      have hblue : Tells .ready ((MainAct.statusLedSet .blue false).lit board leds) :=
        htells.off .blue
      have hmay : MayLight .ready ((MainAct.statusLedSet .blue false).lit board leds) .green :=
        ⟨rfl, hdark.lit_self .blue false⟩
      exact ⟨htells, htells, shown_blinkStatus hblue hmay 1 200 1800⟩

theorem between_turn {ending : Ending} (h : Between board ending leds) (t : MainTurn) :
    Between board ending ((turn t ending).foldl (MainAct.lit board) leds) := by
  have hdark : Dark board leds := h.unready
  have hfailed : ending ≠ .ready → ∀ count onMs offMs, Between board ending
      ((blinkStatus .red count onMs offMs).foldl (MainAct.lit board) leds) := by
    intro hne count onMs offMs
    refine ⟨hdark.foldl _, ?_, fun hready => absurd hready hne, fun _ => ?_⟩
    · exact (lit_blinkStatus_of_ne (by decide) count onMs offMs).trans h.green
    · exact (lit_blinkStatus_of_ne (by decide) count onMs offMs).trans (h.failed hne)
  cases ending with
  | tableFailed => exact hfailed (by decide) 1 500 500
  | lightFailed => exact hfailed (by decide) 2 250 250
  | bleFailed => exact hfailed (by decide) 3 200 200
  | ready =>
    have hred := h.ready rfl
    refine ⟨hdark.foldl _, ?_, fun _ => ?_, fun hne => absurd rfl hne⟩
    · unfold turn
      split_ifs
      · exact (lit_of_ne (by decide) true).trans (hdark.lit_self .green false)
      · have hgreen : (MainAct.statusLedSet .blue false).lit board leds .green = false :=
          (lit_of_ne (by decide) false).trans h.green
        exact (hdark.lit _).lit_blinkStatus hgreen 1 200 1800
    · unfold turn
      split_ifs
      · exact (lit_of_ne (by decide) true).trans ((lit_of_ne (by decide) false).trans hred)
      · exact (lit_blinkStatus_of_ne (by decide) 1 200 1800).trans
          ((lit_of_ne (by decide) false).trans hred)

theorem blue_turn (h : Between board .ready leds) (t : MainTurn) :
    (turn t .ready).foldl (MainAct.lit board) leds .blue =
      (t.bleConnected && board.ledReady .blue) := by
  have hdark : Dark board leds := h.unready
  unfold turn
  cases t.bleConnected with
  | true => exact (hdark.lit (.statusLedSet .green false)).lit_self .blue true
  | false =>
    exact (lit_blinkStatus_of_ne (by decide) 1 200 1800).trans (hdark.lit_self .blue false)

/-! ## The start, and any number of turns -/

theorem leds_bringUp (board : MainBoard) :
    bringUp.foldl (MainAct.lit board) (fun _ => false) .green = false ∧
      bringUp.foldl (MainAct.lit board) (fun _ => false) .blue = false := by
  have hinit : Dark board fun _ => false := fun _ _ => rfl
  have hconfigured : ∀ led, statusLedsInit.foldl (MainAct.lit board) (fun _ => false) led = false := by
    intro led
    cases led with
    | red =>
      exact (lit_of_ne (by decide) false).trans
        ((lit_of_ne (by decide) false).trans (hinit.lit_self .red false))
    | green =>
      exact (lit_of_ne (by decide) false).trans ((hinit.lit _).lit_self .green false)
    | blue => exact ((hinit.lit _).lit _).lit_self .blue false
  have hdark := hinit.foldl statusLedsInit
  rw [bringUp, List.foldl_append, List.foldl_append]
  constructor
  · exact (lit_of_ne (by decide) true).trans
      ((lit_blinkStatus_of_ne (by decide) 3 100 100).trans (hconfigured .green))
  · exact (lit_of_ne (by decide) true).trans
      (hdark.lit_blinkStatus (hconfigured .blue) 3 100 100)

theorem lit_startBle (board : MainBoard) (leds : StatusLed → Bool) (n : ℕ) (a : MainAct) :
    (List.replicate n MainAct.start ++ [a]).foldl (MainAct.lit board) leds = a.lit board leds := by
  induction n with
  | zero => rfl
  | succ n ih => exact ih

theorem between_startBle (h : Dark board leds) (hgreen : leds .green = false)
    (hblue : leds .blue = false) (results : StartResults) :
    Between board (startBle results).1 ((startBle results).2.foldl (MainAct.lit board) leds) := by
  have hunready := h.foldl (startBle results).2
  obtain ⟨n, heq | heq⟩ := startBle_eq results
  · rw [heq, lit_startBle] at hunready ⊢
    refine ⟨hunready, h.lit_self .green false, nofun, fun _ => ?_⟩
    exact (lit_of_ne (by decide) false).trans hblue
  · rw [heq, lit_startBle] at hunready ⊢
    refine ⟨hunready, ?_, fun _ => h.lit_self .red false, fun hne => absurd rfl hne⟩
    exact (lit_of_ne (by decide) false).trans hgreen

theorem between_startUp (results : StartResults) :
    Between board (startUp results).1
      ((startUp results).2.foldl (MainAct.lit board) fun _ => false) := by
  have hinit : Dark board fun _ => false := fun _ _ => rfl
  have hunready := hinit.foldl (startUp results).2
  obtain ⟨hgreen, hblue⟩ := leds_bringUp board
  unfold startUp at hunready ⊢
  split_ifs at hunready ⊢
  · exact ⟨hunready, hgreen, fun h => absurd h (by decide), fun _ => hblue⟩
  · rw [List.foldl_append] at hunready ⊢
    exact ⟨hunready, hgreen, fun h => absurd h (by decide), fun _ => hblue⟩
  · change Between board (startBle results).1 (List.foldl (MainAct.lit board) (fun _ => false)
      (bringUp ++ [.start] ++ .deviceHealthInit :: .start :: (startBle results).2))
    rw [List.foldl_append, List.foldl_append]
    exact between_startBle (hinit.foldl bringUp) hgreen hblue results

theorem between_turns {ending : Ending} (h : Between board ending leds) (turns : List MainTurn) :
    Between board ending
      ((turns.flatMap fun t => turn t ending).foldl (MainAct.lit board) leds) := by
  induction turns generalizing leds with
  | nil => exact h
  | cons t turns ih =>
    rw [List.flatMap_cons, List.foldl_append]
    exact ih (between_turn h t)

theorem shown_turns {ending : Ending} (h : Between board ending leds) (turns : List MainTurn) :
    Shown board (Tells ending) leds (turns.flatMap fun t => turn t ending) := by
  induction turns generalizing leds with
  | nil => exact h.tells
  | cons t turns ih => exact (shown_turn h t).append (ih (between_turn h t))

/-- At all times after the start no two status LEDs are lit; red is only lit after a failure, and
green and blue only once the device is ready. Between two turns blue tells whether a client was
connected at the last one. -/
theorem leds_tell {startTrace turnsTrace : List (MainAct × ℕ)} {s : MainState}
    (hstart : Plays (startUp results).2 startTrace)
    (hturns : Plays (turns.flatMap fun t => turn t (startUp results).1) turnsTrace)
    (hs : MainState.init.run board startTrace = some s) :
    Runs.Along (MainState.step board) (fun t => Tells (startUp results).1 t.leds) s turnsTrace ∧
      ((startUp results).1 = .ready → ∀ t ∈ turns.getLast?, ∀ s',
        s.run board turnsTrace = some s' →
          s'.leds .blue = (t.bleConnected && board.ledReady .blue)) := by
  have hbetween : Between board (startUp results).1 s.leds := by
    rw [leds_run hstart hs]
    exact between_startUp results
  refine ⟨along_of_shown hturns (shown_turns hbetween turns), fun hready t ht s' hs' => ?_⟩
  obtain ⟨earlier, rfl⟩ := List.getLast?_eq_some_iff.mp ht
  rw [leds_run hturns hs', List.flatMap_append, List.foldl_append, List.flatMap_singleton]
  rw [hready] at hbetween ⊢
  exact blue_turn (between_turns hbetween earlier) t

theorem leds_tell_connected : ∃ s, MainState.init.run watchedBoard
      (ideal (startUp ⟨0, 0, 0, none, 0⟩).2) = some s ∧
    Runs.Along (MainState.step watchedBoard) (fun t => Tells .ready t.leds) s
      (ideal ([⟨true, fun _ => 0⟩, ⟨false, fun _ => 0⟩].flatMap fun t => turn t .ready)) := by
  have hsome : (MainState.init.run watchedBoard
      (ideal (startUp ⟨0, 0, 0, none, 0⟩).2)).isSome = true := by decide +kernel
  obtain ⟨s, hs⟩ := Option.isSome_iff_exists.mp hsome
  exact ⟨s, hs, (leds_tell (plays_ideal _) (plays_ideal _) hs).1⟩

end MainLoop
end PartRack
