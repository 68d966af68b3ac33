import Mathlib.Tactic.SplitIfs

/-! Scripts that stop at the first check that fails, with the exact condition for all of them to
pass. -/

namespace Checks
universe u
variable {ε ε' : Type*} {α β : Type u} {P P' : Prop} {Q Q' : α → Prop} {R : β → Prop}

/-- The script passes exactly if `P` holds, with a result for which `Q` holds. -/
inductive PassesIff (P : Prop) (Q : α → Prop) : Except ε α → Prop
  | ok {a : α} (hP : P) (hQ : Q a) : PassesIff P Q (.ok a)
  | error {err : ε} (hP : ¬P) : PassesIff P Q (.error err)

namespace PassesIff

theorem pure {a : α} (hQ : Q a) : PassesIff (ε := ε) True Q (.ok a) := .ok trivial hQ

theorem ite [Decidable P] {a : α} (err : ε) (hQ : P → Q a) :
    PassesIff P Q (if P then .ok a else .error err) := by
  split_ifs with hP
  · exact .ok hP (hQ hP)
  · exact .error hP

theorem congr {x : Except ε α} (h : PassesIff P Q x) (hP : P ↔ P') : PassesIff P' Q x := by
  cases h with
  | ok h hQ => exact .ok (hP.mp h) hQ
  | error h => exact .error fun h' => h (hP.mpr h')

theorem imp {x : Except ε α} (h : PassesIff P Q x) (hQ : ∀ a, Q a → Q' a) : PassesIff P Q' x := by
  cases h with
  | ok hP ha => exact .ok hP (hQ _ ha)
  | error hP => exact .error hP

theorem condition {x : Except ε α} (h : PassesIff P Q x) : PassesIff P (fun a => P ∧ Q a) x := by
  cases h with
  | ok hP ha => exact .ok hP ⟨hP, ha⟩
  | error hP => exact .error hP

theorem bind {x : Except ε α} {f : α → Except ε β} (h : PassesIff P Q x)
    (hf : ∀ a, Q a → PassesIff P' R (f a)) : PassesIff (P ∧ P') R (x >>= f) := by
  cases h with
  | @ok a hP hQ =>
    have hrest := hf a hQ
    change PassesIff (P ∧ P') R (f a)
    exact hrest.congr (and_iff_right hP).symm
  | error hP => exact .error fun h => hP h.1

theorem andThen {x : Except ε α} {f : α → Except ε β} (h : PassesIff True Q x)
    (hf : ∀ a, Q a → PassesIff P R (f a)) : PassesIff P R (x >>= f) :=
  (h.bind hf).congr (and_iff_right trivial)

theorem mapError {x : Except ε α} (h : PassesIff P Q x) (f : ε → ε') :
    PassesIff P Q (x.mapError f) := by
  cases h with
  | ok hP hQ => exact .ok hP hQ
  | error hP => exact .error hP

theorem exists_ok_iff {x : Except ε α} (h : PassesIff P Q x) : (∃ a, x = .ok a) ↔ P := by
  cases h with
  | ok hP hQ => exact iff_of_true ⟨_, rfl⟩ hP
  | error hP => exact iff_of_false (fun ⟨_, heq⟩ => nomatch heq) hP

theorem of_ok {x : Except ε α} (h : PassesIff P Q x) {a : α} (heq : x = .ok a) : P ∧ Q a := by
  cases h with
  | ok hP hQ =>
    obtain rfl := Except.ok.inj heq
    exact ⟨hP, hQ⟩
  | error hP => exact nomatch heq

end PassesIff
end Checks
