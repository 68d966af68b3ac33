import Mathlib.Data.List.Infix
import Mathlib.Tactic.SplitIfs

/-! Timers that run out unless some act restarts them in time. A trace is a list of acts, each
with the time that it takes; the timer runs out in an act that passes the limit, whether or not
the act would have restarted it at its end. -/

namespace Deadlines
variable {α : Type*}

variable (restarts : α → Bool) (limit : ℕ)

/-- The time since the timer was last restarted, unless it has run out. -/
def tick : Option ℕ → α × ℕ → Option ℕ
  | none, _ => none
  | some t, (a, ms) =>
    if limit < t + ms then none else some (if restarts a then 0 else t + ms)

def run (t : Option ℕ) (acts : List (α × ℕ)) : Option ℕ := acts.foldl (tick restarts limit) t

variable {restarts limit}

@[simp] theorem run_nil (t : Option ℕ) : run restarts limit t [] = t := rfl

@[simp] theorem run_none (acts : List (α × ℕ)) : run restarts limit none acts = none := by
  induction acts with
  | nil => rfl
  | cons x acts ih => exact ih

theorem run_append (t : Option ℕ) (acts acts' : List (α × ℕ)) :
    run restarts limit t (acts ++ acts') = run restarts limit (run restarts limit t acts) acts' :=
  List.foldl_append

end Deadlines
