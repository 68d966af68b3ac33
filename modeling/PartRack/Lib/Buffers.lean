import Mathlib.Data.List.Basic
import Mathlib.Tactic.Basic

/-! Arrays of a fixed size whose accesses are checked: an index past the end makes the
whole computation fail. A buffer that is filled from its start is given by what has been
put in so far. -/

namespace Buffers
variable {α : Type*}

def store (buf : List α) (i : ℕ) (x : α) : Option (List α) :=
  if i < buf.length then some (buf.set i x) else none

/-- Copy `n` elements of `src` from `s` on to `dst` from `d` on. -/
def memcpy (dst : List α) (d : ℕ) (src : List α) (s n : ℕ) : Option (List α) :=
  if d + n ≤ dst.length ∧ s + n ≤ src.length then
    some (dst.take d ++ (src.drop s).take n ++ dst.drop (d + n))
  else
    none

/-- A buffer of `size` elements that starts with `l` and is `z` from there on. -/
def filled (size : ℕ) (z : α) (l : List α) : List α := l ++ List.replicate (size - l.length) z

theorem length_filled {size : ℕ} (z : α) {l : List α} (h : l.length ≤ size) :
    (filled size z l).length = size := by
  rw [filled, List.length_append, List.length_replicate, Nat.add_sub_cancel' h]

theorem store_filled {size : ℕ} (z : α) {l : List α} (h : l.length < size) (x : α) :
    store (filled size z l) l.length x = some (filled size z (l ++ [x])) := by
  have hlen := length_filled z (Nat.le_of_lt h)
  obtain ⟨k, hk⟩ : ∃ k, size - l.length = k + 1 := ⟨size - l.length - 1, by omega⟩
  have hk' : size - (l ++ [x]).length = k := by
    rw [List.length_append, List.length_singleton]
    omega
  rw [store, hlen, if_pos h, filled, filled, hk, hk', List.set_append_right _ _ (Nat.le_refl _),
    Nat.sub_self, List.replicate_succ, List.set_cons_zero, List.append_assoc]
  rfl

theorem memcpy_filled {size : ℕ} (z : α) {l src : List α} {s n : ℕ} (h : l.length + n ≤ size)
    (hs : s + n ≤ src.length) :
    memcpy (filled size z l) l.length src s n =
      some (filled size z (l ++ (src.drop s).take n)) := by
  have hlen := length_filled z (show l.length ≤ size by omega)
  have htake : (filled size z l).take l.length = l := by
    rw [filled, List.take_left']
    rfl
  have hdrop : (filled size z l).drop (l.length + n) =
      List.replicate (size - (l.length + n)) z := by
    rw [← List.drop_drop, filled, List.drop_left' rfl, List.drop_replicate, Nat.sub_sub]
  have hcopied : ((src.drop s).take n).length = n := by
    rw [List.length_take, List.length_drop]
    omega
  have hfits : l.length + n ≤ (filled size z l).length ∧ s + n ≤ src.length := by
    rw [hlen]
    exact ⟨h, hs⟩
  rw [memcpy, if_pos hfits, htake, hdrop, filled, List.length_append, hcopied]

theorem take_filled {size : ℕ} (z : α) {l : List α} {n : ℕ} (h : n ≤ l.length) :
    (filled size z l).take n = l.take n := List.take_append_of_le_length h

theorem drop_filled {size : ℕ} (z : α) {l : List α} {n : ℕ} (h : n ≤ l.length) :
    ((filled size z l).drop n).take (l.length - n) = l.drop n := by
  rw [filled, List.drop_append_of_le_length h, List.take_left']
  rw [List.length_drop]

end Buffers
