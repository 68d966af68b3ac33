import Mathlib.Algebra.Order.Group.Multiset
import Mathlib.Tactic.Abel
import PartRack.Lib.Slots

/-! What a row of places holds, in whatever order: how each way of shifting the row changes
it, and that moves of single places lead to every order. -/

namespace Slots
variable {α β : Type*}

def stock (l : List (Option α)) : Multiset α := l.reduceOption

/-- What stands at place `i`. -/
def stockAt (l : List (Option α)) (i : ℕ) : Multiset α := l[i]?.join.toList

theorem stock_append (a b : List (Option α)) : stock (a ++ b) = stock a + stock b := by
  rw [stock, List.reduceOption_append]
  exact (Multiset.coe_add _ _).symm

theorem stock_cons (o : Option α) (l : List (Option α)) :
    stock (o :: l) = (o.toList : Multiset α) + stock l := by
  rw [← List.singleton_append, stock_append, stock, List.reduceOption_singleton]

theorem stock_of_perm {a b : List (Option α)} (h : a.Perm b) : stock a = stock b :=
  Multiset.coe_eq_coe.mpr (h.filterMap id)

theorem stock_eq_split {l : List (Option α)} {i : ℕ} (h : i < l.length) :
    stock l = stock (l.take i) + (stockAt l i + stock (l.drop (i + 1))) := by
  have hrow : l = l.take i ++ l[i] :: l.drop (i + 1) := by
    rw [← List.drop_eq_getElem_cons h, List.take_append_drop]
  have hat : stockAt l i = (l[i].toList : Multiset α) := by
    rw [stockAt, List.getElem?_eq_getElem h]
    rfl
  rw [hat, ← stock_cons, ← stock_append, ← hrow]

theorem stock_set {l : List (Option α)} {i : ℕ} (h : i < l.length) (o : Option α) :
    stock (l.set i o) + stockAt l i = stock l + (o.toList : Multiset α) := by
  rw [List.set_eq_take_append_cons_drop, if_pos h, stock_append, stock_cons, stock_eq_split h]
  abel

theorem stock_modify {l : List (Option α)} {i : ℕ} (h : i < l.length) (f : α → α) :
    stock (l.modify i (Option.map f)) + stockAt l i = stock l + (stockAt l i).map f := by
  have hat : (stockAt l i).map f = ((l[i].map f).toList : Multiset α) := by
    rw [stockAt, List.getElem?_eq_getElem h]
    cases l[i] <;> rfl
  have hset : l.modify i (Option.map f) = l.set i (l[i].map f) := by
    rw [List.modify_eq_take_cons_drop h, List.set_eq_take_append_cons_drop, if_pos h]
  rw [hat, hset, stock_set h]

theorem stock_insertAt (s : ℕ) (a : α) (l : List (Option α)) :
    stock (insertAt s a l) = stock l + {a} := by
  have hrow : stock l = stock (l.take s) + stock (l.drop s) := by
    rw [← stock_append, List.take_append_drop]
  have hnew : stock (insertAt s a l) = stock (l.take s) + ({a} + stock (l.drop s)) := by
    rw [stock, reduceOption_insertAt]
    rfl
  rw [hnew, hrow]
  abel

theorem stock_removeAt {l : List (Option α)} {s : ℕ} (h : s < l.length) :
    stock (removeAt s l) + stockAt l s = stock l := by
  have hnone : stock [(none : Option α)] = 0 := rfl
  rw [removeAt, stock_append, stock_append, stock_eq_split h, hnone]
  abel

theorem stock_moveBlock (src dst n : ℕ) (l : List (Option α)) :
    stock (moveBlock src dst n l) = stock l := stock_of_perm (moveBlock_perm dst l)

/-! ## Every order -/

/-- Moves of single places, one after the other. -/
def moveAll (moves : List (ℕ × ℕ)) (l : List β) : List β :=
  moves.foldl (fun l m => moveBlock m.1 m.2 1 l) l

theorem moveBlock_one (a b c : List β) (x : β) :
    moveBlock (a.length + b.length) a.length 1 (a ++ (b ++ x :: c)) = a ++ x :: (b ++ c) := by
  have hblock : ((a ++ (b ++ x :: c)).drop (a.length + b.length)).take 1 = [x] := by
    rw [← List.append_assoc, ← List.length_append, List.drop_left]
    rfl
  have hcut : cut (a.length + b.length) 1 (a ++ (b ++ x :: c)) = a ++ (b ++ c) := by
    rw [cut, ← List.append_assoc, ← List.length_append, List.take_left, List.drop_length_add_append,
      List.append_assoc]
    rfl
  rw [moveBlock, hblock, hcut, paste, List.take_left, List.drop_left, List.append_assoc]
  rfl

/-- Any order of a row is reached from any other by taking the places in turn and moving down
to each what belongs there. -/
theorem exists_moveAll (a : List β) {l l' : List β} (h : l.Perm l') :
    ∃ moves : List (ℕ × ℕ), moves.length ≤ l'.length - 1 ∧
      (∀ m ∈ moves, m.2 < m.1 ∧ m.1 < (a ++ l).length) ∧ moveAll moves (a ++ l) = a ++ l' := by
  induction l' generalizing a l with
  | nil =>
    obtain rfl := h.eq_nil
    exact ⟨[], Nat.le_refl _, fun m hm => absurd hm List.not_mem_nil, rfl⟩
  | cons x l' ih =>
    obtain ⟨b, c, rfl⟩ := List.append_of_mem (h.mem_iff.mpr List.mem_cons_self)
    have hrest : (b ++ c).Perm l' := (List.perm_middle.symm.trans h).cons_inv
    obtain ⟨moves, hcount, hmoves, heq⟩ := ih (a ++ [x]) hrest
    have hlen : (a ++ [x] ++ (b ++ c)).length = (a ++ (b ++ x :: c)).length := by
      simp only [List.length_append, List.length_cons, List.length_nil]
      omega
    have hshift : a ++ [x] ++ (b ++ c) = a ++ x :: (b ++ c) := List.append_assoc _ _ _
    have hend : a ++ [x] ++ l' = a ++ x :: l' := List.append_assoc _ _ _
    rw [hlen] at hmoves
    rw [hshift, hend] at heq
    cases b with
    | nil =>
      refine ⟨moves, ?_, hmoves, heq⟩
      rw [List.length_cons]
      omega
    | cons y b =>
      -- what belongs at the first open place stands further up
      refine ⟨(a.length + (y :: b).length, a.length) :: moves, ?_, ?_, ?_⟩
      · have hpos := hrest.length_eq
        rw [List.length_cons, List.length_cons]
        simp only [List.length_append, List.length_cons] at hpos
        omega
      · refine List.forall_mem_cons.mpr ⟨⟨?_, ?_⟩, hmoves⟩
        · rw [List.length_cons]
          omega
        · simp only [List.length_append, List.length_cons]
          omega
      · rw [moveAll, List.foldl_cons, moveBlock_one]
        exact heq

end Slots
