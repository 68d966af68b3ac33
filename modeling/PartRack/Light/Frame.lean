import Mathlib.Data.Fintype.Fin
import PartRack.Light.Model

/-! What a light command shows. A slot has the colour of mask B if its bit is set there, else
that of mask A; the pixels are those of the frame, and the active slots are the ones that
are not black. -/

namespace PartRack
namespace LightFrame

theorem and_slotMask_ne_zero_iff (mask : BitVec 32) {i : ℕ} (hi : i < 25) :
    mask &&& slotMask (BitVec.ofNat 8 (i + 1)) ≠ 0 ↔ mask.getLsbD i = true := by
  have hslot : (BitVec.ofNat 8 (i + 1)).toNat = i + 1 := by
    rw [BitVec.toNat_ofNat]
    omega
  have hvalid : ¬(BitVec.ofNat 8 (i + 1) = 0 ∨ 25 < (BitVec.ofNat 8 (i + 1)).toNat) := by
    rintro (hzero | hlarge)
    · have hnat := congrArg BitVec.toNat hzero
      rw [hslot] at hnat
      exact Nat.succ_ne_zero i hnat
    · omega
  have hmask : slotMask (BitVec.ofNat 8 (i + 1)) = BitVec.twoPow 32 i := by
    rw [slotMask, if_neg hvalid, hslot, Nat.add_sub_cancel]
    exact (BitVec.twoPow_eq 32 i).symm
  rw [hmask, BitVec.and_twoPow]
  cases mask.getLsbD i with
  | false => simp
  | true =>
    have hne : BitVec.twoPow 32 i ≠ 0 := by
      intro hzero
      have hbit := congrArg (fun v : BitVec 32 => v.getLsbD i) hzero
      simp only [BitVec.getLsbD_twoPow] at hbit
      simp at hbit
      omega
    simpa using hne

theorem getElem_build {command : LightCommand} (hon : command.mode ≠ LightMode.off) {i : ℕ}
    (hi : i < 25) : (build command).slots[i] =
      if command.maskBLe.getLsbD i then setRgb command.colorB
      else if command.maskALe.getLsbD i then setRgb command.colorA else Rgb.black := by
  rw [build, if_neg hon, Vector.getElem_ofFn, buildSlot]
  simp only [and_slotMask_ne_zero_iff _ hi]

theorem build_of_off {command : LightCommand} (hoff : command.mode = LightMode.off) :
    build command = zero := if_pos hoff

theorem build_congr {command command' : LightCommand} (hmode : command'.mode = command.mode)
    (hcolorA : command'.colorA = command.colorA) (hcolorB : command'.colorB = command.colorB)
    (hA : ∀ i, i < 25 → command'.maskALe.getLsbD i = command.maskALe.getLsbD i)
    (hB : ∀ i, i < 25 → command'.maskBLe.getLsbD i = command.maskBLe.getLsbD i) :
    build command' = build command := by
  by_cases hoff : command.mode = LightMode.off
  · rw [build_of_off hoff, build_of_off (hmode.trans hoff)]
  · have hoff' : command'.mode ≠ LightMode.off := fun h => hoff (hmode.symm.trans h)
    have hslots : (build command').slots = (build command).slots := by
      apply Vector.ext
      intro i hi
      rw [getElem_build hoff' hi, getElem_build hoff hi, hA i hi, hB i hi, hcolorA, hcolorB]
    exact congrArg LightFrame.mk hslots

def activeSlots (frame : LightFrame) : ℕ :=
  (Finset.univ.filter fun i : Fin 25 => frame.slots.get i ≠ Rgb.black).card

theorem countP_slots (frame : LightFrame) :
    (frame.slots.toList.countP fun rgb => rgb.r ≠ 0 || rgb.g ≠ 0 || rgb.b ≠ 0) =
      frame.activeSlots := by
  have hlit : ∀ rgb : Rgb, (rgb.r ≠ 0 || rgb.g ≠ 0 || rgb.b ≠ 0) = decide (rgb ≠ Rgb.black) := by
    rintro ⟨r, g, b⟩
    rw [Bool.eq_iff_iff]
    simp only [Bool.or_eq_true, decide_eq_true_eq, Rgb.black, ne_eq, Rgb.mk.injEq]
    tauto
  have hlist : frame.slots.toList = (List.finRange 25).map fun i => frame.slots.get i := by
    apply List.ext_getElem
    · simp
    · intro i _ _
      rw [List.getElem_map, List.getElem_finRange, Vector.getElem_toList]
      rfl
  rw [hlist, List.countP_map, activeSlots, Finset.card_def, Finset.filter_val, Fin.univ_def,
    Multiset.filter_coe, Multiset.coe_card, List.countP_eq_length_filter]
  refine congrArg List.length (List.filter_congr fun i _ => ?_)
  exact hlit _

theorem copyPixels_of_room (frame : LightFrame) {n : ℕ} (pixels : Vector Rgb n) (h : 25 ≤ n) :
    ∃ (pixels' : Vector Rgb n) (active : Byte),
      frame.copyPixels pixels = .ok (pixels', active) ∧
      (∀ (i : ℕ) (_ : i < n) (_ : i < 25), pixels'[i] = frame.slots[i]) ∧
      active.toNat = frame.activeSlots := by
  refine ⟨_, _, if_neg (Nat.not_lt.mpr h), ?_, ?_⟩
  · intro i hi hslot
    rw [Vector.getElem_ofFn, List.getD_eq_getElem _ _ (by simpa using hslot), Vector.getElem_toList]
  · rw [countP_slots, BitVec.toNat_ofNat]
    have hle : frame.activeSlots ≤ 25 := Finset.card_le_univ _
    omega

/-- What copying the frame shows in any array with room for the slots: the colour of every
slot and the number of active slots. -/
def Shows (frame : LightFrame) (color : ℤ → Rgb) (count : ℕ) : Prop :=
  ∀ (n : ℕ) (pixels : Vector Rgb n), 25 ≤ n → ∃ (pixels' : Vector Rgb n) (active : Byte),
    frame.copyPixels pixels = .ok (pixels', active) ∧
    (∀ (i : ℕ) (_ : i < n) (_ : i < 25), pixels'[i] = color (i + 1)) ∧ active.toNat = count

theorem shows_of_slots {frame : LightFrame} {color : ℤ → Rgb}
    (hslots : ∀ (i : ℕ) (_ : i < 25), frame.slots[i] = color (i + 1)) :
    frame.Shows color frame.activeSlots := by
  intro n pixels hroom
  obtain ⟨pixels', active, hcopy, hpixels, hactive⟩ := frame.copyPixels_of_room pixels hroom
  refine ⟨pixels', active, hcopy, fun i hi hslot => ?_, hactive⟩
  exact (hpixels i hi hslot).trans (hslots i hslot)

theorem shows_of_off {command : LightCommand} (hoff : command.mode = LightMode.off) :
    (build command).Shows (fun _ => Rgb.black) 0 := by
  have hnone : zero.activeSlots = 0 := by decide
  rw [build_of_off hoff, ← hnone]
  exact shows_of_slots fun i hi => Vector.getElem_replicate hi

end LightFrame
end PartRack
