import Mathlib.Tactic.SplitIfs
import PartRack.Protocol

/-! Light commands (protocol/viberack_light_policy.c, viberack_light_state.c and
viberack_light_frame.c). Pointers are never null. The times are those of the system clock
in milliseconds, which stays far below the limits of its 64 bits. -/

namespace PartRack
open LittleEndian

namespace LightMode

def off : Byte := 0x00
def fx : Byte := 0x05

end LightMode

/-- `vbrk_light_command_t`. -/
structure LightCommand where
  mode : Byte
  maskALe : BitVec 32
  maskBLe : BitVec 32
  colorA : Vector Byte 3
  colorB : Vector Byte 3
  timeoutSLe : BitVec 16
deriving DecidableEq, Repr

/-- The packed layout read out of a buffer. -/
def LightCommand.ofBytes (bs : List Byte) : LightCommand where
  mode := bs.getD 0 0
  maskALe := BitVec.ofNat 32 (value [bs.getD 1 0, bs.getD 2 0, bs.getD 3 0, bs.getD 4 0])
  maskBLe := BitVec.ofNat 32 (value [bs.getD 5 0, bs.getD 6 0, bs.getD 7 0, bs.getD 8 0])
  colorA := Vector.ofFn fun i => bs.getD (9 + i) 0
  colorB := Vector.ofFn fun i => bs.getD (12 + i) 0
  timeoutSLe := BitVec.ofNat 16 (value [bs.getD 15 0, bs.getD 16 0])

/-! ## Policy -/

/-- `vbrk_light_policy_t`. -/
structure LightPolicy where
  mode : Byte
  timeoutS : BitVec 16
  powerOn : Bool
deriving DecidableEq, Repr

namespace LightPolicy

def commandTimeoutS (command : LightCommand) : BitVec 16 :=
  let timeout := command.timeoutSLe
  if timeout = 0 then 30
  else if 300 < timeout.toNat then 300
  else timeout

def resolve (command : LightCommand) : Except Int LightPolicy :=
  if LightMode.fx.toNat < command.mode.toNat then .error (-Errno.EINVAL)
  else if command.mode = LightMode.off then .ok ⟨command.mode, 0, false⟩
  else
    let timeoutS := commandTimeoutS command
    let timeoutS := if command.mode = LightMode.fx ∧ 10 < timeoutS.toNat then 10 else timeoutS
    .ok ⟨command.mode, timeoutS, true⟩

end LightPolicy

/-! ## State -/

/-- `vbrk_light_state_t`. -/
structure LightState where
  mode : Byte
  expiresAtMs : ℤ
deriving DecidableEq, Repr

namespace LightState

def init : LightState := ⟨LightMode.off, 0⟩

def forceOff (_ : LightState) : LightState := init

def apply (state : LightState) (command : LightCommand) (nowMs : ℤ) :
    Except Int (LightState × LightPolicy) :=
  match LightPolicy.resolve command with
  | .error err => .error err
  | .ok resolved =>
    if resolved.powerOn = false then .ok (state.forceOff, resolved)
    else .ok (⟨resolved.mode, nowMs + resolved.timeoutS.toNat * 1000⟩, resolved)

/-- The result tells whether the deadline has passed. -/
def tick (state : LightState) (nowMs : ℤ) : Bool × LightState :=
  if state.mode = LightMode.off ∨ state.expiresAtMs = 0 then (false, state)
  else if nowMs < state.expiresAtMs then (false, state)
  else (true, state.forceOff)

def isActive (state : LightState) : Bool :=
  decide (state.mode ≠ LightMode.off) && decide (state.expiresAtMs ≠ 0)

def remainingS (state : LightState) (nowMs : ℤ) : BitVec 16 :=
  if state.isActive = false then 0
  else
    let remainingMs := state.expiresAtMs - nowMs
    if remainingMs ≤ 0 then 0 else BitVec.ofInt 16 ((remainingMs + 1000 - 1).tdiv 1000)

end LightState

/-! ## Frame -/

/-- `vbrk_rgb_t`. -/
structure Rgb where
  r : Byte
  g : Byte
  b : Byte
deriving DecidableEq, Repr

def Rgb.black : Rgb := ⟨0, 0, 0⟩

def setRgb (color : Vector Byte 3) : Rgb := ⟨color.get 0, color.get 1, color.get 2⟩

abbrev Pixels := Vector Rgb 25

/-- `vbrk_light_frame_t`. -/
structure LightFrame where
  slots : Pixels
deriving DecidableEq, Repr

def slotMask (slot : Byte) : BitVec 32 :=
  if slot = 0 ∨ 25 < slot.toNat then 0 else 1 <<< (slot.toNat - 1)

namespace LightFrame

/-- The frame that `memset(.., 0, ..)` leaves. -/
def zero : LightFrame := ⟨Vector.replicate 25 Rgb.black⟩

/-- One turn of the loop of `vbrk_light_frame_build`: what it leaves in `slots[slot - 1]`. -/
def buildSlot (command : LightCommand) (slot : Byte) : Rgb :=
  let mask := slotMask slot
  let rgb := if command.maskALe &&& mask ≠ 0 then setRgb command.colorA else Rgb.black
  if command.maskBLe &&& mask ≠ 0 then setRgb command.colorB else rgb

def build (command : LightCommand) : LightFrame :=
  if command.mode = LightMode.off then zero
  else ⟨Vector.ofFn fun i => buildSlot command (BitVec.ofNat 8 (i + 1))⟩

/-- `vbrk_light_frame_copy_pixels`: the pixels and the number of active slots. -/
def copyPixels (frame : LightFrame) {n : ℕ} (pixels : Vector Rgb n) :
    Except Int (Vector Rgb n × Byte) :=
  if n < 25 then .error (-Errno.ENOSPC)
  else
    .ok (Vector.ofFn fun i => frame.slots.toList.getD i (pixels.get i),
      BitVec.ofNat 8 (frame.slots.toList.countP fun rgb => rgb.r ≠ 0 || rgb.g ≠ 0 || rgb.b ≠ 0))

end LightFrame

/-! ## What a command is granted -/

namespace LightPolicy

theorem commandTimeoutS_bounds (command : LightCommand) :
    1 ≤ (commandTimeoutS command).toNat ∧ (commandTimeoutS command).toNat ≤ 300 := by
  unfold commandTimeoutS
  dsimp only
  split_ifs with hzero hlong
  · decide
  · decide
  · have hne : command.timeoutSLe.toNat ≠ 0 := fun h => hzero (BitVec.eq_of_toNat_eq h)
    exact ⟨Nat.pos_of_ne_zero hne, Nat.not_lt.mp hlong⟩

/-- A policy as `resolve` makes it: off, or a mode with power and a bounded timeout. -/
inductive Granted : LightPolicy → Prop
  | off : Granted ⟨LightMode.off, 0, false⟩
  | on {mode : Byte} {timeoutS : BitVec 16} (ne : mode ≠ LightMode.off)
      (pos : 1 ≤ timeoutS.toNat) (le : timeoutS.toNat ≤ 300)
      (fx : mode = LightMode.fx → timeoutS.toNat ≤ 10) : Granted ⟨mode, timeoutS, true⟩

theorem granted_of_resolve {command : LightCommand} {policy : LightPolicy}
    (h : resolve command = .ok policy) : Granted policy ∧ policy.mode = command.mode := by
  obtain ⟨hpos, hle⟩ := commandTimeoutS_bounds command
  unfold resolve at h
  dsimp only at h
  split_ifs at h with _ hoff hcap
  · obtain rfl := Except.ok.inj h
    rw [hoff]
    exact ⟨.off, rfl⟩
  · obtain rfl := Except.ok.inj h
    exact ⟨.on hoff (by decide) (by decide) fun _ => by decide, rfl⟩
  · obtain rfl := Except.ok.inj h
    refine ⟨.on hoff hpos hle fun hfx => ?_, rfl⟩
    by_contra hlong
    exact hcap ⟨hfx, Nat.not_le.mp hlong⟩

theorem Granted.bounds {policy : LightPolicy} (h : policy.Granted) (hon : policy.powerOn = true) :
    1 ≤ policy.timeoutS.toNat ∧ policy.timeoutS.toNat ≤ 300 ∧
      (policy.mode = LightMode.fx → policy.timeoutS.toNat ≤ 10) := by
  cases h with
  | off => exact absurd hon Bool.false_ne_true
  | on ne pos le fx => exact ⟨pos, le, fx⟩

theorem Granted.mode_ne_off {policy : LightPolicy} (h : policy.Granted)
    (hon : policy.powerOn = true) : policy.mode ≠ LightMode.off := by
  cases h with
  | off => exact absurd hon Bool.false_ne_true
  | on ne _ _ _ => exact ne

theorem resolve_of_invalid {command : LightCommand} (h : 5 < command.mode.toNat) :
    resolve command = .error (-Errno.EINVAL) := if_pos h

end LightPolicy

namespace LightFrame

theorem copyPixels_eq (frame : LightFrame) (pixels : Pixels) :
    ∃ active, frame.copyPixels pixels = .ok (frame.slots, active) := by
  have hcopy : (Vector.ofFn fun i : Fin 25 => frame.slots.toList.getD i (pixels.get i)) =
      frame.slots := by
    apply Vector.ext
    intro i hi
    rw [Vector.getElem_ofFn, List.getD_eq_getElem _ _ (by simpa using hi), Vector.getElem_toList]
  refine ⟨BitVec.ofNat 8 (frame.slots.toList.countP fun rgb =>
    rgb.r ≠ 0 || rgb.g ≠ 0 || rgb.b ≠ 0), ?_⟩
  rw [copyPixels, if_neg (by decide), hcopy]

end LightFrame
end PartRack
