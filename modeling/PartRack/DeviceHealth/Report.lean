import PartRack.AdvPayload
import PartRack.DeviceHealth

/-! The health report (the rest of the application's device_health.c,
vbrk_device_health_encode of protocol/viberack_device_health.c and device_health_read of
app_ble.c). -/

namespace PartRack
open LittleEndian

def Errno.ENODEV : Int := 19

namespace ResetReason

def unknown : BitVec 16 := 0
def powerOn : BitVec 16 := 0x0001
def pin : BitVec 16 := 0x0002
def software : BitVec 16 := 0x0004
def watchdog : BitVec 16 := 0x0008
def lockup : BitVec 16 := 0x0010
def off : BitVec 16 := 0x0020
def other : BitVec 16 := 0x8000

end ResetReason

/-- The RESET_ constants of the hwinfo driver. -/
structure ResetCauses where
  por : BitVec 32
  pin : BitVec 32
  software : BitVec 32
  watchdog : BitVec 32
  cpuLockup : BitVec 32
  lowPowerWake : BitVec 32
deriving DecidableEq, Repr

/-- The driver: its constants, and what `hwinfo_get_reset_cause` returns and stores. -/
structure Hwinfo where
  causes : ResetCauses
  getResetCause : Int × BitVec 32
deriving DecidableEq, Repr

/-- What `device_is_ready`, `wdt_install_timeout` and `wdt_setup` return. -/
structure Watchdog where
  isReady : Bool
  installTimeout : Int
  setup : Int
deriving DecidableEq, Repr

/-- The drivers as `device_health_init` finds them: no `hwinfo` if it is configured away, no
`watchdog` without its devicetree alias. -/
structure HealthBoard where
  hwinfo : Option Hwinfo
  watchdogEnable : Bool
  watchdog : Option Watchdog
deriving DecidableEq, Repr

/-- `vbrk_device_health_t`. -/
structure HealthReport where
  batteryPct : Byte
  resetReason : BitVec 16
  watchdogEnabled : Bool
  fault : Bool
deriving DecidableEq, Repr

/-- All the statics of device_health.c. -/
structure HealthState extends DeviceHealth where
  resetReason : BitVec 16
  watchdogEnabled : Bool
  watchdogChannelId : Int
deriving DecidableEq, Repr

namespace ResetCauses

def known (causes : ResetCauses) : BitVec 32 :=
  causes.por ||| causes.pin ||| causes.software ||| causes.watchdog ||| causes.cpuLockup |||
    causes.lowPowerWake

def mapResetReason (causes : ResetCauses) (cause : BitVec 32) : BitVec 16 :=
  ResetReason.unknown |||
    (if cause &&& causes.por ≠ 0 then ResetReason.powerOn else 0) |||
    (if cause &&& causes.pin ≠ 0 then ResetReason.pin else 0) |||
    (if cause &&& causes.software ≠ 0 then ResetReason.software else 0) |||
    (if cause &&& causes.watchdog ≠ 0 then ResetReason.watchdog else 0) |||
    (if cause &&& causes.cpuLockup ≠ 0 then ResetReason.lockup else 0) |||
    (if cause &&& causes.lowPowerWake ≠ 0 then ResetReason.off else 0) |||
    (if cause &&& ~~~causes.known ≠ 0 then ResetReason.other else 0)

end ResetCauses

namespace HealthState

def init : HealthState := ⟨DeviceHealth.init, ResetReason.unknown, false, -1⟩

def setFault (s : HealthState) : HealthState := { s with healthFault := true }

-- the cause is cleared at the end, and a failure of that is only logged
def loadResetReason (hwinfo : Option Hwinfo) (s : HealthState) : HealthState :=
  match hwinfo with
  | none => s
  | some driver =>
    if driver.getResetCause.1 ≠ 0 then s.setFault
    else { s with resetReason := driver.causes.mapResetReason driver.getResetCause.2 }

def sampleBattery (adc : Option BatteryAdc) (s : HealthState) : HealthState :=
  { s with toDeviceHealth := s.toDeviceHealth.sampleBattery adc }

def initWatchdog (enable : Bool) (watchdog : Option Watchdog) (s : HealthState) :
    Int × HealthState :=
  if enable = false then (0, s)
  else match watchdog with
  | none => (-Errno.ENODEV, s.setFault)
  | some driver =>
    if driver.isReady = false then (-Errno.ENODEV, s.setFault)
    else
      let s := { s with watchdogChannelId := driver.installTimeout }
      if driver.installTimeout < 0 then (driver.installTimeout, s.setFault)
      else if driver.setup ≠ 0 then (driver.setup, s.setFault)
      else (0, { s with watchdogEnabled := true })

def deviceHealthInit (board : HealthBoard) (adc : Option BatteryAdc) (s : HealthState) :
    Int × HealthState :=
  ((s.loadResetReason board.hwinfo).sampleBattery adc).initWatchdog board.watchdogEnable
    board.watchdog

def deviceHealthBatteryPct (adc : Option BatteryAdc) (s : HealthState) : Byte × HealthState :=
  ((s.sampleBattery adc).batteryPct, s.sampleBattery adc)

/-- `device_health_feed_watchdog`, where `wdtFeed` tells what `wdt_feed` returns for a channel. -/
def feedWatchdog (wdtFeed : Int → Int) (s : HealthState) : HealthState :=
  if s.watchdogEnabled ∧ 0 ≤ s.watchdogChannelId then
    if wdtFeed s.watchdogChannelId ≠ 0 then s.setFault else s
  else s

def deviceHealthGet (adc : Option BatteryAdc) (s : HealthState) : HealthReport × HealthState :=
  let (batteryPct, s) := s.deviceHealthBatteryPct adc
  (⟨batteryPct, s.resetReason, s.watchdogEnabled, s.healthFault⟩, s)

end HealthState

namespace HealthReport

def watchdogEnabledFlag : Byte := 0x01
def faultFlag : Byte := 0x02

/-- `vbrk_device_health_encode`: the 4 bytes of `out`, which is never null. -/
def encode (health : Option HealthReport) : List Byte :=
  let health := health.getD ⟨0, ResetReason.unknown, false, false⟩
  let batteryPct : Byte := if 100 < health.batteryPct.toNat then 100 else health.batteryPct
  let flags : Byte := (if health.watchdogEnabled then watchdogEnabledFlag else 0) |||
    (if health.fault then faultFlag else 0)
  [batteryPct] ++ AdvPayload.putLe16 health.resetReason ++ [flags]

end HealthReport

/-- The value of a read of the characteristic. -/
def HealthState.deviceHealthRead (adc : Option BatteryAdc) (s : HealthState) :
    List Byte × HealthState :=
  (HealthReport.encode (some (s.deviceHealthGet adc).1), (s.deviceHealthGet adc).2)

/-! ## The run -/

/-- What happens after the boot: a new advertisement or a read takes a sample, and the main
loop feeds the watchdog. -/
inductive HealthEvent
  | sample (adc : Option BatteryAdc)
  | feed (wdtFeed : Int → Int)

namespace HealthEvent

def act (s : HealthState) : HealthEvent → HealthState
  | sample adc => s.sampleBattery adc
  | feed wdtFeed => s.feedWatchdog wdtFeed

end HealthEvent

namespace BatteryAdc

/-- One of the calls that a sample makes fails. -/
def fails (adc : BatteryAdc) : Bool :=
  !adc.isReady || adc.channelSetup ≠ 0 || adc.sequenceInit ≠ 0 || adc.read.1 ≠ 0 ||
    (adc.rawToMillivolts (adc.read.2.signExtend 32)).1 ≠ 0

/-- The percentage that a sample finds. -/
def found : Option BatteryAdc → Option Byte
  | none => some 100
  | some adc => if adc.fails then none else
    some (batteryPercentFromMv
      ((adc.rawToMillivolts (adc.read.2.signExtend 32)).2.setWidth 16) batteryEmptyMv
      batteryFullMv)

end BatteryAdc

namespace HealthBoard

/-- The watchdog is wanted, and each call to set it up succeeds. -/
def watchdogOn (board : HealthBoard) : Bool :=
  board.watchdogEnable && board.watchdog.any fun driver =>
    driver.isReady && 0 ≤ driver.installTimeout && driver.setup = 0

def channel (board : HealthBoard) : Int := board.watchdog.elim (-1) Watchdog.installTimeout

/-- The cause of the reset, if the driver can tell. -/
def cause (board : HealthBoard) : Option (ResetCauses × BitVec 32) :=
  board.hwinfo.bind fun driver =>
    if driver.getResetCause.1 = 0 then some (driver.causes, driver.getResetCause.2) else none

/-- Something is wrong from the boot on. -/
def fails (board : HealthBoard) : Bool :=
  board.hwinfo.any (fun driver => driver.getResetCause.1 ≠ 0) ||
    (board.watchdogEnable && !board.watchdogOn)

end HealthBoard

/-! ## The reset reason -/

namespace ResetCauses

/-- The bits of the reset reason, each with the causes that set it. -/
structure Explains (causes : ResetCauses) (cause : BitVec 32) (reason : BitVec 16) : Prop where
  powerOn : reason.getLsbD 0 = true ↔ cause &&& causes.por ≠ 0
  pin : reason.getLsbD 1 = true ↔ cause &&& causes.pin ≠ 0
  software : reason.getLsbD 2 = true ↔ cause &&& causes.software ≠ 0
  watchdog : reason.getLsbD 3 = true ↔ cause &&& causes.watchdog ≠ 0
  lockup : reason.getLsbD 4 = true ↔ cause &&& causes.cpuLockup ≠ 0
  off : reason.getLsbD 5 = true ↔ cause &&& causes.lowPowerWake ≠ 0
  other : reason.getLsbD 15 = true ↔ cause &&& ~~~causes.known ≠ 0
  unknown : reason = ResetReason.unknown ↔ cause = 0

/-- The reset reason with these of its seven bits. -/
def reasonOf (por pin software watchdog cpuLockup lowPowerWake other : Bool) : BitVec 16 :=
  ResetReason.unknown ||| (if por then ResetReason.powerOn else 0) |||
    (if pin then ResetReason.pin else 0) ||| (if software then ResetReason.software else 0) |||
    (if watchdog then ResetReason.watchdog else 0) |||
    (if cpuLockup then ResetReason.lockup else 0) |||
    (if lowPowerWake then ResetReason.off else 0) ||| (if other then ResetReason.other else 0)

theorem bits_reasonOf : ∀ por pin software watchdog cpuLockup lowPowerWake other : Bool,
    let reason := reasonOf por pin software watchdog cpuLockup lowPowerWake other
    reason.getLsbD 0 = por ∧ reason.getLsbD 1 = pin ∧ reason.getLsbD 2 = software ∧
      reason.getLsbD 3 = watchdog ∧ reason.getLsbD 4 = cpuLockup ∧
      reason.getLsbD 5 = lowPowerWake ∧ reason.getLsbD 15 = other ∧
      (reason = ResetReason.unknown ↔ (por || pin || software || watchdog || cpuLockup ||
        lowPowerWake || other) = false) := by
  decide

theorem mapResetReason_eq (causes : ResetCauses) (cause : BitVec 32) :
    causes.mapResetReason cause = reasonOf (cause &&& causes.por ≠ 0) (cause &&& causes.pin ≠ 0)
      (cause &&& causes.software ≠ 0) (cause &&& causes.watchdog ≠ 0)
      (cause &&& causes.cpuLockup ≠ 0) (cause &&& causes.lowPowerWake ≠ 0)
      (cause &&& ~~~causes.known ≠ 0) := by
  simp only [mapResetReason, reasonOf, decide_eq_true_eq]

theorem and_known_eq_zero (causes : ResetCauses) (cause : BitVec 32) :
    cause &&& causes.known = 0 ↔ cause &&& causes.por = 0 ∧ cause &&& causes.pin = 0 ∧
      cause &&& causes.software = 0 ∧ cause &&& causes.watchdog = 0 ∧
      cause &&& causes.cpuLockup = 0 ∧ cause &&& causes.lowPowerWake = 0 := by
  have hor : ∀ x y : BitVec 32, x ||| y = 0 ↔ x = 0 ∧ y = 0 := fun x y => BitVec.or_eq_zero_iff
  simp only [known, BitVec.and_or_distrib_left, hor, and_assoc]

theorem explains_mapResetReason (causes : ResetCauses) (cause : BitVec 32) :
    causes.Explains cause (causes.mapResetReason cause) := by
  rw [mapResetReason_eq]
  obtain ⟨hpor, hpin, hsoftware, hwatchdog, hlockup, hoff, hother, hunknown⟩ :=
    bits_reasonOf (cause &&& causes.por ≠ 0) (cause &&& causes.pin ≠ 0)
      (cause &&& causes.software ≠ 0) (cause &&& causes.watchdog ≠ 0)
      (cause &&& causes.cpuLockup ≠ 0) (cause &&& causes.lowPowerWake ≠ 0)
      (cause &&& ~~~causes.known ≠ 0)
  refine ⟨?_, ?_, ?_, ?_, ?_, ?_, ?_, hunknown.trans ?_⟩
  · rw [hpor, decide_eq_true_eq]
  · rw [hpin, decide_eq_true_eq]
  · rw [hsoftware, decide_eq_true_eq]
  · rw [hwatchdog, decide_eq_true_eq]
  · rw [hlockup, decide_eq_true_eq]
  · rw [hoff, decide_eq_true_eq]
  · rw [hother, decide_eq_true_eq]
  simp only [Bool.or_eq_false_iff, decide_eq_false_iff_not, not_not]
  constructor
  · -- a bit of the cause is in a known mask or outside all of them
    rintro ⟨⟨⟨⟨⟨⟨hpor, hpin⟩, hsoftware⟩, hwatchdog⟩, hlockup⟩, hoff⟩, hother⟩
    have hknown : cause &&& causes.known = 0 :=
      (and_known_eq_zero causes cause).mpr ⟨hpor, hpin, hsoftware, hwatchdog, hlockup, hoff⟩
    have hall : cause = (cause &&& causes.known) ||| (cause &&& ~~~causes.known) := by
      rw [← BitVec.and_or_distrib_left, BitVec.or_not_self, BitVec.and_allOnes]
    rw [hall, hknown, hother]
    rfl
  · rintro rfl
    simp only [BitVec.ofNat_eq_ofNat, BitVec.zero_and, and_self]

end ResetCauses

/-! ## One step -/

namespace DeviceHealth

theorem healthFault_sampleBattery (health : DeviceHealth) (adc : Option BatteryAdc) :
    (health.sampleBattery adc).healthFault = (health.healthFault || adc.any BatteryAdc.fails) := by
  cases adc with
  | none => exact (Bool.or_false _).symm
  | some adc =>
    simp only [sampleBattery, Option.any_some, BatteryAdc.fails]
    split_ifs <;> simp_all

theorem batteryPct_sampleBattery_eq (health : DeviceHealth) (adc : Option BatteryAdc) :
    (health.sampleBattery adc).batteryPct = (BatteryAdc.found adc).getD health.batteryPct := by
  cases adc with
  | none => rfl
  | some adc =>
    simp only [sampleBattery, BatteryAdc.found, BatteryAdc.fails]
    split_ifs <;> simp_all

end DeviceHealth

/-! ## The run -/

namespace HealthEvent

/-- A call that the event makes fails; the watchdog is only fed if it is on. -/
def fails (board : HealthBoard) : HealthEvent → Bool
  | sample adc => adc.any BatteryAdc.fails
  | feed wdtFeed => board.watchdogOn && wdtFeed board.channel ≠ 0

def found : HealthEvent → Option Byte
  | sample adc => BatteryAdc.found adc
  | feed _ => none

/-- The percentage of the last sample that found one, and 100 before. -/
def lastPct (events : List HealthEvent) : Byte :=
  events.foldl (fun pct e => e.found.getD pct) 100

theorem lastPct_append (events : List HealthEvent) (e : HealthEvent) :
    lastPct (events ++ [e]) = e.found.getD (lastPct events) := by
  rw [lastPct, List.foldl_append]
  rfl

end HealthEvent

namespace HealthState
open HealthEvent

/-- The statics record what has happened since the boot. -/
structure Records (board : HealthBoard) (events : List HealthEvent) (s : HealthState) : Prop where
  batteryPct : s.batteryPct = lastPct events
  resetReason : s.resetReason = board.cause.elim ResetReason.unknown fun c =>
    c.1.mapResetReason c.2
  watchdogEnabled : s.watchdogEnabled = board.watchdogOn
  watchdogChannelId : board.watchdogOn = true →
    s.watchdogChannelId = board.channel ∧ 0 ≤ board.channel
  healthFault : s.healthFault = (board.fails || events.any (HealthEvent.fails board))

section Step
variable {board : HealthBoard} {events : List HealthEvent} {s : HealthState}

theorem Records.sample (h : Records board events s) (adc : Option BatteryAdc) :
    Records board (events ++ [.sample adc]) (s.sampleBattery adc) where
  batteryPct := by
    rw [lastPct_append, ← h.batteryPct]
    exact s.toDeviceHealth.batteryPct_sampleBattery_eq adc
  resetReason := h.resetReason
  watchdogEnabled := h.watchdogEnabled
  watchdogChannelId := h.watchdogChannelId
  healthFault := by
    rw [List.any_append, ← Bool.or_assoc, ← h.healthFault, List.any_cons, List.any_nil,
      Bool.or_false]
    exact s.toDeviceHealth.healthFault_sampleBattery adc

theorem feedWatchdog_eq (h : Records board events s) (wdtFeed : Int → Int) :
    s.feedWatchdog wdtFeed =
      if HealthEvent.fails board (.feed wdtFeed) = true then s.setFault else s := by
  rw [feedWatchdog, h.watchdogEnabled, HealthEvent.fails]
  cases hon : board.watchdogOn with
  | false => rfl
  | true =>
    obtain ⟨hchannel, hnonneg⟩ := h.watchdogChannelId hon
    rw [hchannel, if_pos ⟨rfl, hnonneg⟩, Bool.true_and]
    simp only [decide_eq_true_eq]

theorem Records.feed (h : Records board events s) (wdtFeed : Int → Int) :
    Records board (events ++ [.feed wdtFeed]) (s.feedWatchdog wdtFeed) := by
  have hpct : lastPct (events ++ [HealthEvent.feed wdtFeed]) = lastPct events :=
    lastPct_append _ _
  have hany : events.any (HealthEvent.fails board) = true →
      (events ++ [HealthEvent.feed wdtFeed]).any (HealthEvent.fails board) = true := by
    intro hold
    rw [List.any_append, hold, Bool.true_or]
  rw [feedWatchdog_eq h]
  split_ifs with hfails
  · refine ⟨h.batteryPct.trans hpct.symm, h.resetReason, h.watchdogEnabled,
      h.watchdogChannelId, ?_⟩
    rw [List.any_append, List.any_cons, hfails, Bool.true_or, Bool.or_true, Bool.or_true]
    rfl
  · refine ⟨h.batteryPct.trans hpct.symm, h.resetReason, h.watchdogEnabled,
      h.watchdogChannelId, ?_⟩
    rw [List.any_append, List.any_cons, Bool.eq_false_iff.mpr hfails, List.any_nil,
      Bool.or_false, Bool.or_false]
    exact h.healthFault

theorem Records.act (h : Records board events s) (e : HealthEvent) :
    Records board (events ++ [e]) (e.act s) := by
  cases e with
  | sample adc => exact h.sample adc
  | feed wdtFeed => exact h.feed wdtFeed

theorem Records.run (h : Records board events s) (later : List HealthEvent) :
    Records board (events ++ later) (later.foldl HealthEvent.act s) := by
  induction later generalizing events s with
  | nil => rwa [List.append_nil]
  | cons e later ih =>
    have hrest := ih (h.act e)
    rwa [List.append_assoc] at hrest

end Step

/-! ## The boot -/

/-- What `init_watchdog` does, from a state in which the watchdog is off. -/
structure Starts (board : HealthBoard) (s : HealthState) (r : Int × HealthState) : Prop where
  err : r.1 = 0 ↔ (board.watchdogEnable && !board.watchdogOn) = false
  batteryPct : r.2.batteryPct = s.batteryPct
  resetReason : r.2.resetReason = s.resetReason
  watchdogEnabled : r.2.watchdogEnabled = board.watchdogOn
  watchdogChannelId : board.watchdogOn = true →
    r.2.watchdogChannelId = board.channel ∧ 0 ≤ board.channel
  healthFault : r.2.healthFault =
    (s.healthFault || (board.watchdogEnable && !board.watchdogOn))

theorem Starts.of_fault {board : HealthBoard} {s : HealthState} {err : Int}
    (h : s.watchdogEnabled = false) (henable : board.watchdogEnable = true)
    (hoff : board.watchdogOn = false) (herr : err ≠ 0) (channel : Int) :
    Starts board s (err, setFault { s with watchdogChannelId := channel }) where
  err := by
    rw [henable, hoff]
    exact iff_of_false herr nofun
  batteryPct := rfl
  resetReason := rfl
  watchdogEnabled := h.trans hoff.symm
  watchdogChannelId := fun hon => absurd (hoff.symm.trans hon) nofun
  healthFault := by
    rw [henable, hoff]
    exact (Bool.or_true _).symm

theorem starts_initWatchdog (board : HealthBoard) {s : HealthState}
    (h : s.watchdogEnabled = false) :
    Starts board s (s.initWatchdog board.watchdogEnable board.watchdog) := by
  have hnodev : -Errno.ENODEV ≠ 0 := by decide
  obtain ⟨hwinfo, enable, watchdog⟩ := board
  cases enable with
  | false => exact ⟨iff_of_true rfl rfl, rfl, rfl, h, nofun, (Bool.or_false _).symm⟩
  | true =>
    cases watchdog with
    | none => exact .of_fault h rfl rfl hnodev s.watchdogChannelId
    | some driver =>
      obtain ⟨isReady, installTimeout, setup⟩ := driver
      have hon : HealthBoard.watchdogOn ⟨hwinfo, true, some ⟨isReady, installTimeout, setup⟩⟩ =
          (isReady && 0 ≤ installTimeout && setup = 0) := rfl
      simp only [initWatchdog, Bool.true_eq_false, if_false]
      split_ifs with hready hneg hsetup
      · exact .of_fault h rfl (by rw [hon, hready]; rfl) hnodev s.watchdogChannelId
      · have hoff : decide (0 ≤ installTimeout) = false := decide_eq_false (Int.not_le.mpr hneg)
        exact .of_fault h rfl (by rw [hon, hoff, Bool.and_false, Bool.false_and]) hneg.ne _
      · exact .of_fault h rfl (by rw [hon, decide_eq_false hsetup, Bool.and_false]) hsetup _
      · have hset : HealthBoard.watchdogOn
            ⟨hwinfo, true, some ⟨isReady, installTimeout, setup⟩⟩ = true := by
          rw [hon, Bool.of_not_eq_false hready, decide_eq_true (Int.not_lt.mp hneg),
            decide_eq_true (not_not.mp hsetup)]
          rfl
        refine ⟨iff_of_true rfl ?_, rfl, rfl, hset.symm, fun _ => ⟨rfl, Int.not_lt.mp hneg⟩, ?_⟩
        · rw [hset]
          rfl
        · rw [hset]
          exact (Bool.or_false _).symm

theorem loadResetReason_eq (hwinfo : Option Hwinfo) (enable : Bool) (watchdog : Option Watchdog) :
    init.loadResetReason hwinfo = { init with
      healthFault := hwinfo.any fun driver => driver.getResetCause.1 ≠ 0
      resetReason := (HealthBoard.cause ⟨hwinfo, enable, watchdog⟩).elim ResetReason.unknown
        fun c => c.1.mapResetReason c.2 } := by
  cases hwinfo with
  | none => rfl
  | some driver =>
    simp only [loadResetReason, HealthBoard.cause, Option.bind_some, Option.any_some]
    split_ifs <;> simp_all [setFault, init, DeviceHealth.init]

theorem records_deviceHealthInit (board : HealthBoard) (adc : Option BatteryAdc) :
    Records board [.sample adc] (init.deviceHealthInit board adc).2 := by
  have hload := loadResetReason_eq board.hwinfo board.watchdogEnable board.watchdog
  have hfault := DeviceHealth.healthFault_sampleBattery
    (init.loadResetReason board.hwinfo).toDeviceHealth adc
  have hpct := DeviceHealth.batteryPct_sampleBattery_eq
    (init.loadResetReason board.hwinfo).toDeviceHealth adc
  have hstarts : Starts board ((init.loadResetReason board.hwinfo).sampleBattery adc)
      (init.deviceHealthInit board adc) :=
    starts_initWatchdog board (congrArg HealthState.watchdogEnabled hload)
  refine ⟨hstarts.batteryPct.trans (hpct.trans ?_), hstarts.resetReason.trans ?_,
    hstarts.watchdogEnabled, hstarts.watchdogChannelId, hstarts.healthFault.trans ?_⟩
  · rw [hload]
    rfl
  · exact congrArg HealthState.resetReason hload
  · have hsample : ((init.loadResetReason board.hwinfo).sampleBattery adc).healthFault =
        (board.hwinfo.any (fun driver => driver.getResetCause.1 ≠ 0) ||
          adc.any BatteryAdc.fails) := by
      rw [hload] at hfault
      rw [hload]
      exact hfault
    rw [hsample, HealthBoard.fails, List.any_cons, List.any_nil, Bool.or_false, Bool.or_assoc,
      Bool.or_assoc, Bool.or_comm (Option.any _ adc)]
    rfl

theorem found_le {e : HealthEvent} {pct : Byte} (h : e.found = some pct) : pct.toNat ≤ 100 := by
  cases e with
  | feed wdtFeed => exact nomatch h
  | sample adc =>
    cases adc with
    | none => exact Option.some.inj h ▸ (by decide)
    | some adc =>
      simp only [HealthEvent.found, BatteryAdc.found] at h
      split_ifs at h
      rw [← Option.some.inj h]
      exact (accurate_batteryPercentFromMv batteryEmptyMv_lt_fullMv).le_hundred

theorem lastPct_le (events : List HealthEvent) : (lastPct events).toNat ≤ 100 := by
  induction events using List.reverseRecOn with
  | nil => decide
  | append_singleton events e ih =>
    rw [lastPct_append]
    cases hfound : e.found with
    | none => exact ih
    | some pct => exact found_le hfound

end HealthState

/-! ## What the client reads -/

/-- The four bytes of a health report, after these events since the boot. -/
structure HealthTold (board : HealthBoard) (events : List HealthEvent) (payload : List Byte) :
    Prop where
  length_eq : payload.length = 4
  batteryPct : payload[0]? = some (HealthEvent.lastPct events)
  batteryPct_le : (HealthEvent.lastPct events).toNat ≤ 100
  resetReason : ∀ causes cause, board.cause = some (causes, cause) →
    causes.Explains cause (BitVec.ofNat 16 (value ((payload.drop 1).take 2)))
  unknown : board.cause = none → value ((payload.drop 1).take 2) = 0
  flags : payload[3]? = some
    ((if board.watchdogOn then HealthReport.watchdogEnabledFlag else 0) |||
      (if board.fails || events.any (HealthEvent.fails board) then HealthReport.faultFlag else 0))

theorem healthTold_deviceHealthRead (board : HealthBoard) (adc₀ adc : Option BatteryAdc)
    (events : List HealthEvent) :
    HealthTold board ([.sample adc₀] ++ events ++ [.sample adc])
      ((events.foldl HealthEvent.act
        (HealthState.init.deviceHealthInit board adc₀).2).deviceHealthRead adc).1 := by
  have h := ((HealthState.records_deviceHealthInit board adc₀).run events).sample adc
  have hle := HealthState.lastPct_le ([.sample adc₀] ++ events ++ [.sample adc])
  generalize [HealthEvent.sample adc₀] ++ events ++ [HealthEvent.sample adc] = history at h hle
  generalize events.foldl HealthEvent.act (HealthState.init.deviceHealthInit board adc₀).2 = s at h
  have hreason : value (AdvPayload.putLe16 (s.sampleBattery adc).resetReason) =
      (s.sampleBattery adc).resetReason.toNat := AdvPayload.value_putLe16 _
  refine ⟨rfl, ?_, hle, ?_, ?_, ?_⟩
  · have hpct : (s.sampleBattery adc).batteryPct.toNat ≤ 100 := h.batteryPct ▸ hle
    change some (if 100 < (s.sampleBattery adc).batteryPct.toNat then 100
      else (s.sampleBattery adc).batteryPct) = _
    rw [if_neg (Nat.not_lt.mpr hpct), h.batteryPct]
  · intro causes cause hcause
    change causes.Explains cause
      (BitVec.ofNat 16 (value (AdvPayload.putLe16 (s.sampleBattery adc).resetReason)))
    rw [hreason, BitVec.ofNat_toNat, BitVec.setWidth_eq, h.resetReason, hcause]
    exact causes.explains_mapResetReason cause
  · intro hcause
    change value (AdvPayload.putLe16 (s.sampleBattery adc).resetReason) = 0
    rw [hreason, h.resetReason, hcause]
    rfl
  · rw [← h.watchdogEnabled, ← h.healthFault]
    rfl

end PartRack
