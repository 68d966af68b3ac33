import Mathlib.Tactic.Basic
import PartRack.BindingTable.Model

/-! What the loops of the binding table leave in each array element. -/

namespace PartRack
namespace BindingTable

theorem findEmpty_none {records : Records} {k i : ℕ} {h : i + k = 25}
    (hnone : findEmpty records k i h = none) (j : ℕ) (hij : i ≤ j) (hj : j < 25) :
    records[j].slot ≠ 0 := by
  induction k generalizing i with
  | zero => omega
  | succ k ih =>
    rw [findEmpty] at hnone
    split_ifs at hnone with hi
    rcases Nat.eq_or_lt_of_le hij with rfl | hlt
    · exact hi
    · exact ih hnone hlt

theorem findEmpty_some {records : Records} {k i : ℕ} {h : i + k = 25} {e : Fin 25}
    (hsome : findEmpty records k i h = some e) :
    i ≤ e ∧ records[e].slot = 0 ∧ ∀ j, i ≤ j → (hj : j < e) → records[j].slot ≠ 0 := by
  induction k generalizing i with
  | zero => exact nomatch hsome
  | succ k ih =>
    rw [findEmpty] at hsome
    split_ifs at hsome with hi
    · obtain rfl := Option.some.inj hsome
      exact ⟨Nat.le_refl i, hi, fun j hij hj => absurd hj (Nat.not_lt.mpr hij)⟩
    · obtain ⟨hle, hempty, hfull⟩ := ih hsome
      refine ⟨by omega, hempty, fun j hij hj => ?_⟩
      rcases Nat.eq_or_lt_of_le hij with rfl | hlt
      · exact hi
      · exact hfull j hlt hj

theorem getElem_shiftUp (slot : ℕ) {i : ℕ} (h : i < 25) (next : Records) (hslot : 1 ≤ slot)
    (j : ℕ) (hj : j < 25) :
    (shiftUp slot i h next)[j] =
      if slot ≤ j ∧ j ≤ i then next[j - 1].renumber (j + 1) else next[j] := by
  induction i generalizing next with
  | zero => rw [shiftUp, if_neg (by omega)]
  | succ i ih =>
    rw [shiftUp]
    by_cases hi : slot ≤ i + 1
    · rw [if_pos hi, ih]
      -- element i + 1 has just been written and is not touched again
      rcases Nat.lt_trichotomy j (i + 1) with hlt | rfl | hgt
      · have hle : j ≤ i := by omega
        simp only [Vector.getElem_set_ne _ _ (show i + 1 ≠ j by omega),
          Vector.getElem_set_ne _ _ (show i + 1 ≠ j - 1 by omega), hle, hlt.le, and_true]
      · rw [if_neg (by omega), if_pos ⟨hi, Nat.le_refl _⟩, Vector.getElem_set_self]
        rfl
      · rw [if_neg (by omega), if_neg (by omega), Vector.getElem_set_ne _ _ (by omega)]
    · rw [if_neg hi, if_neg (by omega)]

theorem getElem_shiftDown {k i : ℕ} (h : i + k = 24) (next : Records) (j : ℕ) (hj : j < 25) :
    (shiftDown k i h next)[j] =
      if hij : i ≤ j ∧ j < 24 then next[j + 1].renumber (j + 1) else next[j] := by
  induction k generalizing i next with
  | zero => rw [shiftDown, dif_neg (by omega)]
  | succ k ih =>
    rw [shiftDown, ih]
    -- element i has just been written, and the turns left touch later ones only
    rcases Nat.lt_trichotomy j i with hlt | rfl | hgt
    · rw [dif_neg (by omega), dif_neg (by omega), Vector.getElem_set_ne _ _ (by omega)]
    · rw [dif_neg (by omega), dif_pos (by omega), Vector.getElem_set_self]
    · by_cases hj' : j < 24
      · rw [dif_pos ⟨hgt, hj'⟩, dif_pos ⟨hgt.le, hj'⟩, Vector.getElem_set_ne _ _ (by omega)]
      · rw [dif_neg (by omega), dif_neg (by omega), Vector.getElem_set_ne _ _ (by omega)]

theorem getElem_fillRecords (l : List SlotRecord) (j : ℕ) (hj : j < 25) :
    (fillRecords l)[j] = l.getD j SlotRecord.zero := by
  rw [fillRecords, Vector.getElem_ofFn]

end BindingTable
end PartRack
