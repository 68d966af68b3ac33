import Mathlib.Data.Nat.Bitwise
import PartRack.Light.Frame

/-! The host's encoder of light commands (tools/protocol_check.py), and what the firmware
shows for the 17 bytes it makes. -/

namespace PartRack
open LittleEndian

namespace HostTools

/-- The exceptions of `slot_mask` and `LightCommand.encode`. -/
inductive LightError
  | valueError (text : String)
  | overflowError
deriving DecidableEq, Repr

inductive LightMode
  | off
  | find
  | pick
  | sort
  | stockIn
  | fx
deriving DecidableEq, Repr

def LightMode.value : LightMode → ℕ
  | .off => 0x00
  | .find => 0x01
  | .pick => 0x02
  | .sort => 0x03
  | .stockIn => 0x04
  | .fx => 0x05

/-- One turn of the loop of `slot_mask`. -/
def addSlot (mask : ℕ) (slot : ℤ) : Except LightError ℕ :=
  if slot < 1 ∨ slot > 25 then .error (.valueError ("slot out of range: " ++ toString slot))
  else .ok (mask ||| 1 <<< (slot - 1).toNat)

def slotMask (slots : List ℤ) : Except LightError ℕ := slots.foldlM addSlot 0

/-- `int.to_bytes(n, "little")`. -/
def intToBytes (n : ℕ) (x : ℤ) : Except LightError (List Byte) :=
  if x < 0 ∨ 256 ^ n ≤ x then .error .overflowError else .ok (bytes n x.toNat)

/-- The dataclass `LightCommand`. -/
structure LightCommand where
  mode : LightMode
  maskA : ℤ
  maskB : ℤ := 0
  colorA : Vector ℤ 3 := #v[0, 255, 0]
  colorB : Vector ℤ 3 := #v[0, 0, 0]
  timeoutS : ℤ := 30
deriving DecidableEq, Repr

def LightCommand.encode (self : LightCommand) : Except LightError (List Byte) :=
  if self.timeoutS < 0 ∨ self.timeoutS > 300 then
    .error (.valueError ("timeout_s out of range: " ++ toString self.timeoutS))
  else
    match (self.colorA.toList ++ self.colorB.toList).find? fun color => color < 0 ∨ color > 255 with
    | some color => .error (.valueError ("color out of range: " ++ toString color))
    | none => do
      let maskA ← intToBytes 4 self.maskA
      let maskB ← intToBytes 4 self.maskB
      let timeoutS ← intToBytes 2 self.timeoutS
      pure ([BitVec.ofNat 8 self.mode.value] ++ maskA ++ maskB ++
        self.colorA.toList.map (BitVec.ofInt 8) ++ self.colorB.toList.map (BitVec.ofInt 8) ++
          timeoutS)

/-! ## Masks -/

theorem foldlM_addSlot {slots : List ℤ} (h : ∀ k ∈ slots, 1 ≤ k ∧ k ≤ 25) {mask : ℕ}
    (hmask : mask < 2 ^ 25) : ∃ mask', slots.foldlM addSlot mask = .ok mask' ∧ mask' < 2 ^ 25 ∧
      ∀ i, mask'.testBit i = (mask.testBit i || decide ((i : ℤ) + 1 ∈ slots)) := by
  induction slots generalizing mask with
  | nil => exact ⟨mask, rfl, hmask, fun i => by simp⟩
  | cons k slots ih =>
    obtain ⟨hlow, hhigh⟩ := h k List.mem_cons_self
    have hvalid : ¬(k < 1 ∨ k > 25) := by omega
    have hbit : 1 <<< (k - 1).toNat < 2 ^ 25 := by
      rw [Nat.one_shiftLeft]
      exact Nat.pow_lt_pow_right (by decide) (by omega)
    have hstep : addSlot mask k = .ok (mask ||| 1 <<< (k - 1).toNat) := if_neg hvalid
    obtain ⟨mask', hfold, hlt, hbits⟩ := ih (fun k hk => h k (List.mem_cons_of_mem _ hk))
      (Nat.or_lt_two_pow hmask hbit)
    refine ⟨mask', ?_, hlt, fun i => ?_⟩
    · rw [List.foldlM_cons, hstep]
      exact hfold
    · have hslot : (1 <<< (k - 1).toNat).testBit i = decide ((i : ℤ) + 1 = k) := by
        rw [Nat.one_shiftLeft, Nat.testBit_two_pow]
        exact decide_eq_decide.mpr (by omega)
      rw [hbits, Nat.testBit_or, hslot]
      simp only [List.mem_cons, Bool.decide_or, Bool.or_assoc]

theorem slotMask_of_slots {slots : List ℤ} (h : ∀ k ∈ slots, 1 ≤ k ∧ k ≤ 25) :
    ∃ mask, slotMask slots = .ok mask ∧ mask < 2 ^ 25 ∧
      ∀ i, mask.testBit i = decide ((i : ℤ) + 1 ∈ slots) := by
  obtain ⟨mask, hmask, hlt, hbits⟩ := foldlM_addSlot h (Nat.two_pow_pos 25)
  refine ⟨mask, hmask, hlt, fun i => ?_⟩
  rw [hbits, Nat.zero_testBit, Bool.false_or]

/-! ## The 17 bytes -/

/-- A colour as the host writes it. -/
def colorTuple (color : Vector Byte 3) : Vector ℤ 3 := color.map fun b => (b.toNat : ℤ)

theorem map_ofInt_colorTuple (color : Vector Byte 3) :
    (colorTuple color).toList.map (BitVec.ofInt 8) = [color[0], color[1], color[2]] := by
  have hbyte : ∀ b : Byte, BitVec.ofInt 8 (b.toNat : ℤ) = b := by
    intro b
    rw [BitVec.ofInt_natCast, BitVec.ofNat_toNat, BitVec.setWidth_eq]
  apply List.ext_getElem
  · simp
  · intro i hi hi'
    have hlt : i < 3 := hi'
    simp only [List.getElem_map, Vector.getElem_toList, colorTuple, Vector.getElem_map, hbyte]
    interval_cases i <;> rfl

theorem exists_of_mem_colorTuple {color : Vector Byte 3} {x : ℤ}
    (hx : x ∈ (colorTuple color).toList) : ∃ b : Byte, x = (b.toNat : ℤ) := by
  rw [colorTuple, Vector.toList_map] at hx
  obtain ⟨b, -, rfl⟩ := List.mem_map.mp hx
  exact ⟨b, rfl⟩

theorem find?_colorTuple (colorA colorB : Vector Byte 3) :
    ((colorTuple colorA).toList ++ (colorTuple colorB).toList).find?
      (fun color => color < 0 ∨ color > 255) = none := by
  rw [List.find?_eq_none]
  intro x hx
  have hbyte : ∃ b : Byte, x = (b.toNat : ℤ) :=
    (List.mem_append.mp hx).elim exists_of_mem_colorTuple exists_of_mem_colorTuple
  obtain ⟨b, rfl⟩ := hbyte
  have hlt := b.isLt
  simp only [decide_eq_true_eq, not_or]
  omega

theorem intToBytes_of_lt {n x : ℕ} (h : x < 256 ^ n) : intToBytes n x = .ok (bytes n x) := by
  have hvalid : ¬((x : ℤ) < 0 ∨ (256 : ℤ) ^ n ≤ x) := by
    rintro (hneg | hbig)
    · omega
    · exact absurd h (Nat.not_lt.mpr (by exact_mod_cast hbig))
  rw [intToBytes, if_neg hvalid, Int.toNat_natCast]

theorem encode_command (mode : LightMode) {maskA maskB timeoutS : ℕ} (hA : maskA < 2 ^ 25)
    (hB : maskB < 2 ^ 25) (colorA colorB : Vector Byte 3) (ht : timeoutS ≤ 300) :
    ∃ frame, LightCommand.encode ⟨mode, maskA, maskB, colorTuple colorA, colorTuple colorB,
        timeoutS⟩ = .ok frame ∧ frame.length = 17 ∧
      PartRack.LightCommand.ofBytes frame = ⟨BitVec.ofNat 8 mode.value, BitVec.ofNat 32 maskA,
        BitVec.ofNat 32 maskB, colorA, colorB, BitVec.ofNat 16 timeoutS⟩ := by
  have htimeout : ¬((timeoutS : ℤ) < 0 ∨ (timeoutS : ℤ) > 300) := by omega
  have hmaskA := intToBytes_of_lt (n := 4) (x := maskA) (by omega)
  have hmaskB := intToBytes_of_lt (n := 4) (x := maskB) (by omega)
  have htime := intToBytes_of_lt (n := 2) (x := timeoutS) (by omega)
  refine ⟨[BitVec.ofNat 8 mode.value] ++ bytes 4 maskA ++ bytes 4 maskB ++
    [colorA[0], colorA[1], colorA[2]] ++ [colorB[0], colorB[1], colorB[2]] ++ bytes 2 timeoutS,
      ?_, rfl, ?_⟩
  · unfold LightCommand.encode
    simp only [htimeout, if_false, find?_colorTuple, hmaskA, hmaskB, htime, map_ofInt_colorTuple]
    rfl
  · have hwordA : BitVec.ofNat 32 (value (bytes 4 maskA)) = BitVec.ofNat 32 maskA := by
      rw [value_bytes_of_lt (by omega)]
    have hwordB : BitVec.ofNat 32 (value (bytes 4 maskB)) = BitVec.ofNat 32 maskB := by
      rw [value_bytes_of_lt (by omega)]
    have hwordT : BitVec.ofNat 16 (value (bytes 2 timeoutS)) = BitVec.ofNat 16 timeoutS := by
      rw [value_bytes_of_lt (by omega)]
    unfold PartRack.LightCommand.ofBytes
    rw [PartRack.LightCommand.mk.injEq]
    refine ⟨rfl, hwordA, hwordB, ?_, ?_, hwordT⟩
    all_goals
      apply Vector.ext
      intro i hi
      rw [Vector.getElem_ofFn]
      interval_cases i <;> rfl

/-! ## From the host to the pixels -/

theorem ofNat_value_ne_off {mode : LightMode} (hmode : mode ≠ .off) :
    BitVec.ofNat 8 mode.value ≠ PartRack.LightMode.off := by
  cases mode with
  | off => exact absurd rfl hmode
  | find => decide
  | pick => decide
  | sort => decide
  | stockIn => decide
  | fx => decide

/-- The colour that slot `k` is meant to have. -/
def slotColor (slotsA slotsB : List ℤ) (colorA colorB : Vector Byte 3) (k : ℤ) : Rgb :=
  if k ∈ slotsB then setRgb colorB else if k ∈ slotsA then setRgb colorA else Rgb.black

theorem getElem_build_encoded {command : PartRack.LightCommand}
    (hmode : command.mode ≠ PartRack.LightMode.off) {slotsA slotsB : List ℤ} {maskA maskB : ℕ}
    (hmaskA : command.maskALe = BitVec.ofNat 32 maskA)
    (hmaskB : command.maskBLe = BitVec.ofNat 32 maskB)
    (hbitsA : ∀ i, maskA.testBit i = decide ((i : ℤ) + 1 ∈ slotsA))
    (hbitsB : ∀ i, maskB.testBit i = decide ((i : ℤ) + 1 ∈ slotsB)) {i : ℕ} (hi : i < 25) :
    (LightFrame.build command).slots[i] =
      slotColor slotsA slotsB command.colorA command.colorB (i + 1) := by
  have hlt : i < 32 := by omega
  rw [LightFrame.getElem_build hmode hi, hmaskA, hmaskB, BitVec.getLsbD_ofNat,
    BitVec.getLsbD_ofNat, hbitsA, hbitsB, decide_eq_true hlt, Bool.true_and, Bool.true_and]
  simp only [decide_eq_true_eq, slotColor]

theorem activeSlots_eq {frame : LightFrame} {slotsA slotsB : List ℤ}
    {colorA colorB : Vector Byte 3}
    (hslots : ∀ (i : ℕ) (_ : i < 25),
      frame.slots[i] = slotColor slotsA slotsB colorA colorB (i + 1))
    (hA : ∀ k ∈ slotsA, 1 ≤ k ∧ k ≤ 25) (hB : ∀ k ∈ slotsB, 1 ≤ k ∧ k ≤ 25) :
    frame.activeSlots = ((slotsA ++ slotsB).toFinset.filter fun k =>
      slotColor slotsA slotsB colorA colorB k ≠ Rgb.black).card := by
  unfold LightFrame.activeSlots
  refine Finset.card_bij (fun i _ => (i.val : ℤ) + 1) ?_ ?_ ?_
  · intro i hi
    have hlit : slotColor slotsA slotsB colorA colorB (i.val + 1) ≠ Rgb.black := by
      rw [← hslots i.val i.isLt]
      exact (Finset.mem_filter.mp hi).2
    have hmem : (i.val : ℤ) + 1 ∈ slotsA ++ slotsB := by
      by_contra hout
      obtain ⟨houtA, houtB⟩ := not_or.mp (mt List.mem_append.mpr hout)
      exact hlit (by rw [slotColor, if_neg houtB, if_neg houtA])
    exact Finset.mem_filter.mpr ⟨List.mem_toFinset.mpr hmem, hlit⟩
  · intro i _ j _ hij
    exact Fin.ext (by omega)
  · intro k hk
    obtain ⟨hmem, hlit⟩ := Finset.mem_filter.mp hk
    have hrange : 1 ≤ k ∧ k ≤ 25 :=
      (List.mem_append.mp (List.mem_toFinset.mp hmem)).elim (hA k) (hB k)
    have hlt : (k - 1).toNat < 25 := by omega
    have hk' : (((k - 1).toNat : ℕ) : ℤ) + 1 = k := by omega
    refine ⟨⟨(k - 1).toNat, hlt⟩, Finset.mem_filter.mpr ⟨Finset.mem_univ _, ?_⟩, hk'⟩
    have hcolor := hslots (k - 1).toNat hlt
    rw [hk'] at hcolor
    exact fun hblack => hlit (hcolor.symm.trans hblack)

/-- From the slots a host names to the pixels: the colours, the count of active slots, the
mask bits that no slot has, and the mode OFF. -/
theorem light_command_to_pixels :
    (∀ (mode : LightMode) (slotsA slotsB : List ℤ) (colorA colorB : Vector Byte 3) (timeoutS : ℤ),
      mode ≠ .off → (∀ k ∈ slotsA, 1 ≤ k ∧ k ≤ 25) → (∀ k ∈ slotsB, 1 ≤ k ∧ k ≤ 25) →
      0 ≤ timeoutS → timeoutS ≤ 300 →
      ∃ (maskA maskB : ℕ) (frame : List Byte),
        slotMask slotsA = .ok maskA ∧ slotMask slotsB = .ok maskB ∧
        LightCommand.encode ⟨mode, maskA, maskB, colorTuple colorA, colorTuple colorB, timeoutS⟩ =
          .ok frame ∧
        frame.length = 17 ∧
        (LightFrame.build (.ofBytes frame)).Shows (slotColor slotsA slotsB colorA colorB)
          ((slotsA ++ slotsB).toFinset.filter fun k =>
            slotColor slotsA slotsB colorA colorB k ≠ Rgb.black).card) ∧
    (∀ command command' : PartRack.LightCommand, command'.mode = command.mode →
      command'.colorA = command.colorA → command'.colorB = command.colorB →
      (∀ i, i < 25 → command'.maskALe.getLsbD i = command.maskALe.getLsbD i) →
      (∀ i, i < 25 → command'.maskBLe.getLsbD i = command.maskBLe.getLsbD i) →
      ∀ (n : ℕ) (pixels : Vector Rgb n), (LightFrame.build command').copyPixels pixels =
        (LightFrame.build command).copyPixels pixels) ∧
    (∀ command : PartRack.LightCommand, command.mode = PartRack.LightMode.off →
      (LightFrame.build command).Shows (fun _ => Rgb.black) 0) := by
  refine ⟨?_, ?_, ?_⟩
  · intro mode slotsA slotsB colorA colorB timeoutS hmode hA hB htimeout htimeout'
    obtain ⟨maskA, hmaskA, hltA, hbitsA⟩ := slotMask_of_slots hA
    obtain ⟨maskB, hmaskB, hltB, hbitsB⟩ := slotMask_of_slots hB
    lift timeoutS to ℕ using htimeout
    obtain ⟨frame, hencode, hlength, hread⟩ :=
      encode_command mode hltA hltB colorA colorB (by exact_mod_cast htimeout')
    refine ⟨maskA, maskB, frame, hmaskA, hmaskB, hencode, hlength, ?_⟩
    have hslots : ∀ (i : ℕ) (_ : i < 25), (LightFrame.build (.ofBytes frame)).slots[i] =
        slotColor slotsA slotsB colorA colorB (i + 1) := by
      intro i hi
      rw [hread]
      exact getElem_build_encoded (ofNat_value_ne_off hmode) rfl rfl hbitsA hbitsB hi
    rw [← activeSlots_eq hslots hA hB]
    exact LightFrame.shows_of_slots hslots
  · intro command command' hmode hcolorA hcolorB hA hB n pixels
    rw [LightFrame.build_congr hmode hcolorA hcolorB hA hB]
  · intro command hoff
    exact LightFrame.shows_of_off hoff

theorem light_command_to_pixels_overlap :
    ∃ (frame : List Byte) (pixels' : Pixels) (active : Byte),
      LightCommand.encode ⟨.pick, 6, 12, colorTuple #v[0x10, 0x20, 0x30],
        colorTuple #v[0xA0, 0xB0, 0xC0], 60⟩ = .ok frame ∧
      (LightFrame.build (.ofBytes frame)).copyPixels (Vector.replicate 25 ⟨255, 255, 255⟩) =
        .ok (pixels', active) ∧
      pixels'.get 0 = Rgb.black ∧ pixels'.get 1 = ⟨0x10, 0x20, 0x30⟩ ∧
      pixels'.get 2 = ⟨0xA0, 0xB0, 0xC0⟩ ∧ pixels'.get 3 = ⟨0xA0, 0xB0, 0xC0⟩ ∧
      active.toNat = 3 := by
  obtain ⟨maskA, maskB, frame, hA, hB, hencode, -, hshow⟩ := light_command_to_pixels.1 .pick
    [2, 3] [3, 4] #v[0x10, 0x20, 0x30] #v[0xA0, 0xB0, 0xC0] 60 (by decide) (by decide) (by decide)
      (by decide) (by decide)
  obtain rfl : 6 = maskA := Except.ok.inj hA
  obtain rfl : 12 = maskB := Except.ok.inj hB
  obtain ⟨pixels', active, hcopy, hpixels, hactive⟩ :=
    hshow 25 (Vector.replicate 25 ⟨255, 255, 255⟩) (by decide)
  refine ⟨frame, pixels', active, hencode, hcopy, ?_, ?_, ?_, ?_, ?_⟩
  · exact (hpixels 0 (by decide) (by decide)).trans (by decide)
  · exact (hpixels 1 (by decide) (by decide)).trans (by decide)
  · exact (hpixels 2 (by decide) (by decide)).trans (by decide)
  · exact (hpixels 3 (by decide) (by decide)).trans (by decide)
  · exact hactive.trans (by decide)

end HostTools
end PartRack
