import Mathlib.Data.List.ReduceOption
import Mathlib.Tactic.Basic

/-! Rows of numbered places, some of them empty, with the three ways of shifting what
they hold: filling the first hole, closing a gap, and moving a block of places. -/

namespace Slots
variable {α β : Type*}

/-- Put `a` at place `s`; what stood there moves up into the first hole from `s` on. -/
def insertAt (s : ℕ) (a : α) (l : List (Option α)) : List (Option α) :=
  l.take s ++ some a :: (l.drop s).eraseP Option.isNone

def removeAt (s : ℕ) (l : List (Option α)) : List (Option α) :=
  l.take s ++ (l.drop (s + 1) ++ [none])

/-- `e` is the first hole at or after `s`. -/
structure FirstHole (l : List (Option α)) (s e : ℕ) : Prop where
  le : s ≤ e
  hole : l[e]? = some none
  full : ∀ j, s ≤ j → j < e → l[j]? ≠ some none

theorem FirstHole.lt_length {l : List (Option α)} {s e : ℕ} (h : FirstHole l s e) :
    e < l.length := (List.getElem?_eq_some_iff.mp h.hole).1

theorem FirstHole.drop_eq {l : List (Option α)} {s e : ℕ} (h : FirstHole l s e) :
    l.drop s = (l.drop s).take (e - s) ++ none :: l.drop (e + 1) := by
  have hlt := h.lt_length
  have hget : l[e] = none := (List.getElem?_eq_some_iff.mp h.hole).2
  have hdrop : (l.drop s).drop (e - s) = none :: l.drop (e + 1) := by
    rw [List.drop_drop, show s + (e - s) = e by have := h.le; omega,
      List.drop_eq_getElem_cons hlt, hget]
  rw [← hdrop, List.take_append_drop]

theorem FirstHole.eraseP_eq {l : List (Option α)} {s e : ℕ} (h : FirstHole l s e) :
    (l.drop s).eraseP Option.isNone = (l.drop s).take (e - s) ++ l.drop (e + 1) := by
  have hfull : ∀ x ∈ (l.drop s).take (e - s), ¬ Option.isNone x = true := by
    intro x hx hnone
    obtain ⟨j, hj, rfl⟩ := List.mem_take_iff_getElem.mp hx
    have hje : s + j < e := by omega
    refine h.full (s + j) (by omega) hje ?_
    rw [← Option.isNone_iff_eq_none.mp hnone, List.getElem_drop]
    exact List.getElem?_eq_getElem _
  rw [h.drop_eq, List.eraseP_append_right _ hfull, ← h.drop_eq]
  rfl

theorem insertAt_eq {l : List (Option α)} {s e : ℕ} (h : FirstHole l s e) (a : α) :
    insertAt s a l = l.take s ++ some a :: ((l.drop s).take (e - s) ++ l.drop (e + 1)) := by
  rw [insertAt, h.eraseP_eq]

theorem getElem?_insertAt {l : List (Option α)} {s e : ℕ} (h : FirstHole l s e) (a : α)
    (j : ℕ) :
    (insertAt s a l)[j]? =
      if j < s then l[j]? else if j = s then some (some a)
      else if j ≤ e then l[j - 1]? else l[j]? := by
  have hle := h.le
  have hlt := h.lt_length
  have htake : (l.take s).length = s := by simp; omega
  have hmid : ((l.drop s).take (e - s)).length = e - s := by simp; omega
  rw [insertAt_eq h]
  split_ifs with h1 h2 h3
  · have hleft : j < (l.take s).length := by rwa [htake]
    rw [List.getElem?_append_left hleft, List.getElem?_take_of_lt h1]
  · have hright : (l.take s).length ≤ j := by omega
    rw [List.getElem?_append_right hright, htake, h2, Nat.sub_self]
    rfl
  · -- the entry of place s + k has moved up by one
    obtain ⟨k, rfl⟩ : ∃ k, j = s + k + 1 := ⟨j - s - 1, by omega⟩
    have hright : (l.take s).length ≤ s + k + 1 := by omega
    have hindex : s + k + 1 - s = k + 1 := by omega
    have hk : k < e - s := by omega
    have hk' : k < ((l.drop s).take (e - s)).length := by rwa [hmid]
    rw [List.getElem?_append_right hright, htake, hindex, List.getElem?_cons_succ,
      List.getElem?_append_left hk', List.getElem?_take_of_lt hk, List.getElem?_drop]
    rfl
  · obtain ⟨k, rfl⟩ : ∃ k, j = e + 1 + k := ⟨j - (e + 1), by omega⟩
    have hright : (l.take s).length ≤ e + 1 + k := by omega
    have hindex : e + 1 + k - s = (e - s + k) + 1 := by omega
    have hk : ((l.drop s).take (e - s)).length ≤ e - s + k := by omega
    rw [List.getElem?_append_right hright, htake, hindex, List.getElem?_cons_succ,
      List.getElem?_append_right hk, hmid, Nat.add_sub_cancel_left, List.getElem?_drop]

theorem length_insertAt {l : List (Option α)} {s : ℕ} (a : α) (h : none ∈ l.drop s) :
    (insertAt s a l).length = l.length := by
  have herase := List.length_eraseP_add_one h (p := Option.isNone) rfl
  have hpos := List.length_pos_of_mem h
  simp only [insertAt, List.length_append, List.length_cons, List.length_take]
  simp only [List.length_drop] at herase hpos
  omega

theorem length_removeAt {l : List (Option α)} {s : ℕ} (h : s < l.length) :
    (removeAt s l).length = l.length := by
  simp only [removeAt, List.length_append, List.length_take, List.length_drop,
    List.length_singleton]
  omega

theorem getElem?_removeAt {l : List (Option α)} {s : ℕ} (hs : s < l.length) (j : ℕ) :
    (removeAt s l)[j]? =
      if j < s then l[j]? else if j + 1 < l.length then l[j + 1]?
      else if j + 1 = l.length then some none else none := by
  have htake : (l.take s).length = s := by simp; omega
  have hmid : (l.drop (s + 1)).length = l.length - (s + 1) := by simp
  unfold removeAt
  split_ifs with h1 h2 h3
  · have hleft : j < (l.take s).length := by rwa [htake]
    rw [List.getElem?_append_left hleft, List.getElem?_take_of_lt h1]
  · have hright : (l.take s).length ≤ j := by omega
    have hk : j - s < (l.drop (s + 1)).length := by omega
    have hindex : s + 1 + (j - s) = j + 1 := by omega
    rw [List.getElem?_append_right hright, htake, List.getElem?_append_left hk,
      List.getElem?_drop, hindex]
  · have hright : (l.take s).length ≤ j := by omega
    have hk : (l.drop (s + 1)).length ≤ j - s := by omega
    have hindex : j - s - (l.length - (s + 1)) = 0 := by omega
    rw [List.getElem?_append_right hright, htake, List.getElem?_append_right hk, hmid, hindex]
    rfl
  · have hright : (l.take s).length ≤ j := by omega
    have hk : (l.drop (s + 1)).length ≤ j - s := by omega
    have hend : 1 ≤ j - s - (l.length - (s + 1)) := by omega
    rw [List.getElem?_append_right hright, htake, List.getElem?_append_right hk, hmid]
    exact List.getElem?_eq_none hend

theorem reduceOption_insertAt (s : ℕ) (a : α) (l : List (Option α)) :
    (insertAt s a l).reduceOption =
      (l.take s).reduceOption ++ a :: (l.drop s).reduceOption := by
  have herase : ∀ d : List (Option α), (d.eraseP Option.isNone).reduceOption = d.reduceOption := by
    intro d
    induction d with
    | nil => rfl
    | cons x d ih =>
      cases x with
      | none => rw [List.eraseP_cons_of_pos rfl, List.reduceOption_cons_of_none]
      | some b =>
        rw [List.eraseP_cons_of_neg (by simp), List.reduceOption_cons_of_some,
          List.reduceOption_cons_of_some, ih]
  rw [insertAt, List.reduceOption_append, List.reduceOption_cons_of_some, herase]

/-! ## Repeating an insertion or a removal -/

theorem countP_drop_insertAt {l : List (Option α)} {s : ℕ} (a : α) (h : none ∈ l.drop s) :
    ((insertAt s a l).drop s).countP Option.isNone + 1 = (l.drop s).countP Option.isNone := by
  have hlt : s < l.length := by
    by_contra hge
    rw [List.drop_of_length_le (by omega)] at h
    exact List.not_mem_nil h
  have htake : (l.take s).length = s := by simp; omega
  have hdrop : (insertAt s a l).drop s = some a :: (l.drop s).eraseP Option.isNone := by
    rw [insertAt, List.drop_append_of_le_length (by omega), List.drop_of_length_le (by omega)]
    rfl
  obtain ⟨x, l₁, l₂, -, hx, hl, herase⟩ := List.exists_of_eraseP h (p := Option.isNone) rfl
  rw [hdrop, herase, hl, List.countP_cons_of_neg (by simp), List.countP_append,
    List.countP_append, List.countP_cons_of_pos hx]
  omega

theorem insertAt_insertAt_ne {l : List (Option α)} {s : ℕ} (a : α)
    (h : none ∈ (insertAt s a l).drop s) : insertAt s a (insertAt s a l) ≠ insertAt s a l := by
  -- repeating an insertion while a hole is left shows in the row
  intro heq
  have hcount := countP_drop_insertAt a h
  rw [heq] at hcount
  omega

theorem append_singleton_eq_cons {l : List β} {x c : β} :
    l ++ [c] = x :: l ↔ x = c ∧ ∀ y ∈ l, y = c := by
  induction l generalizing x with
  | nil => simp [eq_comm]
  | cons y l ih =>
    rw [List.cons_append, List.cons.injEq, ih, List.forall_mem_cons]
    constructor
    · rintro ⟨rfl, rfl, hl⟩
      exact ⟨rfl, rfl, hl⟩
    · rintro ⟨rfl, rfl, hl⟩
      exact ⟨rfl, rfl, hl⟩

theorem removeAt_removeAt_eq_iff {l : List (Option α)} {s : ℕ} (hs : s < l.length) :
    removeAt s (removeAt s l) = removeAt s l ↔ ∀ x ∈ l.drop (s + 1), x = none := by
  have htake : (l.take s).length = s := by simp; omega
  have hdrop : (removeAt s l).drop (s + 1) = (l.drop (s + 1) ++ [none]).tail := by
    rw [← List.drop_one, removeAt, List.drop_append, htake, List.drop_of_length_le (by omega),
      List.nil_append, Nat.add_sub_cancel_left]
  have hhead : (removeAt s l).take s = l.take s := by
    rw [removeAt, List.take_append_of_le_length (by omega), List.take_of_length_le (by omega)]
  rw [removeAt, hdrop, hhead, removeAt, List.append_cancel_left_eq, List.append_cancel_right_eq]
  cases hl : l.drop (s + 1) with
  | nil => simp
  | cons x d => simp only [List.cons_append, List.tail_cons, append_singleton_eq_cons,
      List.forall_mem_cons]

theorem removeAt_insertAt_eq_iff {l : List (Option α)} {s e : ℕ} (h : FirstHole l s e) (a : α) :
    removeAt s (insertAt s a l) = l ↔ ∀ x ∈ l.drop (e + 1), x = none := by
  -- closing the gap that an insertion has opened restores the row when nothing stands above the
  -- hole that the insertion has filled
  have hlt := h.lt_length
  have htake : (l.take s).length = s := by
    have hle := h.le
    rw [List.length_take]
    omega
  have hhead : (insertAt s a l).take s = l.take s := List.take_left' htake
  have hrest : (insertAt s a l).drop (s + 1) = (l.drop s).take (e - s) ++ l.drop (e + 1) := by
    rw [insertAt_eq h, ← List.drop_drop, List.drop_left' htake]
    rfl
  have hrow : l = l.take s ++ ((l.drop s).take (e - s) ++ none :: l.drop (e + 1)) := by
    rw [← h.drop_eq, List.take_append_drop]
  have hclosed : removeAt s (insertAt s a l) = l ↔
      l.take s ++ ((l.drop s).take (e - s) ++ (l.drop (e + 1) ++ [none])) =
        l.take s ++ ((l.drop s).take (e - s) ++ none :: l.drop (e + 1)) := by
    rw [removeAt, hhead, hrest, List.append_assoc, ← hrow]
  rw [hclosed, List.append_cancel_left_eq, List.append_cancel_left_eq, append_singleton_eq_cons]
  exact and_iff_right rfl

/-! ## Moving a block of places -/

/-- What is left of a row after taking out the `n` places from `i` on. -/
def cut (i n : ℕ) (l : List β) : List β := l.take i ++ l.drop (i + n)

def paste (i : ℕ) (block rest : List β) : List β := rest.take i ++ block ++ rest.drop i

def moveBlock (src dst n : ℕ) (l : List β) : List β :=
  paste dst ((l.drop src).take n) (cut src n l)

theorem length_cut {i n : ℕ} {l : List β} (h : i + n ≤ l.length) :
    (cut i n l).length = l.length - n := by
  simp [cut]
  omega

theorem length_moveBlock (dst : ℕ) {src n : ℕ} {l : List β} (h : src + n ≤ l.length) :
    (moveBlock src dst n l).length = l.length := by
  have hcut := length_cut h
  simp only [moveBlock, paste, List.length_append, List.length_take, List.length_drop, hcut]
  omega

theorem paste_cut {i n : ℕ} {l : List β} (h : i ≤ l.length) :
    paste i ((l.drop i).take n) (cut i n l) = l := by
  have htake : (l.take i).length = i := by simp [h]
  have hleft : (cut i n l).take i = l.take i := by
    rw [cut, List.take_append_of_le_length (by omega), List.take_of_length_le (by omega)]
  have hright : (cut i n l).drop i = (l.drop i).drop n := by
    rw [cut, List.drop_append_of_le_length (by omega), List.drop_of_length_le (by omega),
      List.drop_drop, List.nil_append]
  rw [paste, hleft, hright, List.append_assoc, List.take_append_drop, List.take_append_drop]

theorem cut_paste {i : ℕ} (block : List β) {rest : List β} (h : i ≤ rest.length) :
    cut i block.length (paste i block rest) = rest := by
  have htake : (rest.take i).length = i := by simp [h]
  have hlen : (rest.take i ++ block).length = i + block.length := by simp [h]
  have hleft : (paste i block rest).take i = rest.take i := by
    rw [paste, List.append_assoc, List.take_append_of_le_length (by omega),
      List.take_of_length_le (by omega)]
  have hright : (paste i block rest).drop (i + block.length) = rest.drop i := by
    rw [paste, List.drop_append_of_le_length (by omega), List.drop_of_length_le (by omega),
      List.nil_append]
  rw [cut, hleft, hright, List.take_append_drop]

theorem block_paste {i : ℕ} (block : List β) {rest : List β} (h : i ≤ rest.length) :
    ((paste i block rest).drop i).take block.length = block := by
  have htake : (rest.take i).length = i := by simp [h]
  rw [paste, List.append_assoc, List.drop_append_of_le_length (by omega),
    List.drop_of_length_le (by omega), List.nil_append,
    List.take_append_of_le_length (Nat.le_refl _), List.take_length]

theorem moveBlock_moveBlock {src dst n : ℕ} {l : List β} (hsrc : src + n ≤ l.length)
    (hdst : dst + n ≤ l.length) : moveBlock dst src n (moveBlock src dst n l) = l := by
  have hblock : ((l.drop src).take n).length = n := by simp; omega
  have hrest : dst ≤ (cut src n l).length := by rw [length_cut hsrc]; omega
  have hcut : cut dst n (moveBlock src dst n l) = cut src n l := by
    have h := cut_paste ((l.drop src).take n) hrest
    rwa [hblock] at h
  have htaken : ((moveBlock src dst n l).drop dst).take n = (l.drop src).take n := by
    have h := block_paste ((l.drop src).take n) hrest
    rwa [hblock] at h
  rw [moveBlock, hcut, htaken, paste_cut (by omega)]

theorem moveBlock_moveBlock_eq_iff {src dst n : ℕ} {l : List β} (hsrc : src + n ≤ l.length)
    (hdst : dst + n ≤ l.length) :
    moveBlock src dst n (moveBlock src dst n l) = moveBlock src dst n l ↔
      moveBlock src dst n l = l := by
  constructor
  · intro h
    have hlen := length_moveBlock dst hsrc
    have hback := congrArg (moveBlock dst src n) h
    rwa [moveBlock_moveBlock (by omega) (by omega), moveBlock_moveBlock hsrc hdst] at hback
  · intro h
    rw [h, h]

theorem mem_of_mem_moveBlock {src dst n : ℕ} {l : List β} {x : β}
    (h : x ∈ moveBlock src dst n l) : x ∈ l := by
  simp only [moveBlock, paste, cut, List.mem_append] at h
  rcases h with (h | h) | h
  · rcases List.mem_append.mp (List.mem_of_mem_take h) with h | h
    · exact List.mem_of_mem_take h
    · exact List.mem_of_mem_drop h
  · exact List.mem_of_mem_drop (List.mem_of_mem_take h)
  · rcases List.mem_append.mp (List.mem_of_mem_drop h) with h | h
    · exact List.mem_of_mem_take h
    · exact List.mem_of_mem_drop h

theorem moveBlock_perm {src n : ℕ} (dst : ℕ) (l : List β) : (moveBlock src dst n l).Perm l := by
  have hpaste : (moveBlock src dst n l).Perm ((l.drop src).take n ++ cut src n l) := by
    unfold moveBlock paste
    rw [List.append_assoc]
    refine (List.perm_append_comm_assoc _ _ _).trans ?_
    rw [List.take_append_drop]
  have hcut : ((l.drop src).take n ++ cut src n l).Perm l := by
    unfold cut
    refine (List.perm_append_comm_assoc _ _ _).trans ?_
    rw [← List.drop_drop, List.take_append_drop, List.take_append_drop]
  exact hpaste.trans hcut

theorem map_moveBlock {γ : Type*} (f : β → γ) (src dst n : ℕ) (l : List β) :
    (moveBlock src dst n l).map f = moveBlock src dst n (l.map f) := by
  simp only [moveBlock, paste, cut, List.map_append, List.map_take, List.map_drop]

end Slots
