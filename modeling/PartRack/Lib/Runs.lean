import Mathlib.Tactic.ByContra

/-! Runs of a system whose events may be disabled in some states. A list of events is
followed for as long as they are enabled. -/

namespace Runs
variable {σ ε : Type*} (step : σ → ε → Option σ)

/-- `P` holds in every state along the run. -/
def Along (P : σ → Prop) : σ → List ε → Prop
  | s, [] => P s
  | s, e :: es => P s ∧ ∀ t, step s e = some t → Along P t es

/-- Every step taken along the run meets `Good`. -/
def Meets (Good : σ → ε → Prop) : σ → List ε → Prop
  | _, [] => True
  | s, e :: es => ∀ t, step s e = some t → Good s e ∧ Meets Good t es

instance decidableAlong (P : σ → Prop) [DecidablePred P] :
    (s : σ) → (es : List ε) → Decidable (Along step P s es)
  | s, [] => inferInstanceAs (Decidable (P s))
  | s, e :: es =>
    match h : step s e with
    | none => decidable_of_iff (P s)
        ⟨fun hs => ⟨hs, fun _ ht => nomatch h.symm.trans ht⟩, And.left⟩
    | some t =>
      have := decidableAlong P t es
      decidable_of_iff (P s ∧ Along step P t es)
        ⟨fun hs => ⟨hs.1, fun _ ht => Option.some.inj (h.symm.trans ht) ▸ hs.2⟩,
          fun hs => ⟨hs.1, hs.2 t h⟩⟩

instance decidableMeets (Good : σ → ε → Prop) [∀ s e, Decidable (Good s e)] :
    (s : σ) → (es : List ε) → Decidable (Meets step Good s es)
  | _, [] => isTrue trivial
  | s, e :: es =>
    match h : step s e with
    | none => isTrue fun _ ht => nomatch h.symm.trans ht
    | some t =>
      have := decidableMeets Good t es
      decidable_of_iff (Good s e ∧ Meets step Good t es)
        ⟨fun hs _ ht => Option.some.inj (h.symm.trans ht) ▸ hs, fun hs => hs t h⟩

variable {step} {P Q Inv : σ → Prop} {Good : σ → ε → Prop}

theorem Along.head {s : σ} {es : List ε} (h : Along step P s es) : P s := by
  cases es with
  | nil => exact h
  | cons e es => exact h.1

theorem Along.imp {R : σ → Prop} (h : ∀ s, P s → Q s → R s) {s : σ} {es : List ε}
    (hP : Along step P s es) (hQ : Along step Q s es) : Along step R s es := by
  induction es generalizing s with
  | nil => exact h s hP hQ
  | cons e es ih => exact ⟨h s hP.1 hQ.1, fun t ht => ih (hP.2 t ht) (hQ.2 t ht)⟩

theorem Along.drop {s t : σ} {a b : List ε} (h : Along step P s (a ++ b))
    (ht : a.foldlM step s = some t) : Along step P t b := by
  induction a generalizing s with
  | nil => exact Option.some.inj ht ▸ h
  | cons e a ih =>
    obtain ⟨u, hu, hrest⟩ := Option.bind_eq_some_iff.mp ht
    exact ih (h.2 u hu) hrest

theorem Along.of_foldlM {s t : σ} {es : List ε} (h : Along step P s es)
    (ht : es.foldlM step s = some t) : P t := by
  rw [← List.append_nil es] at h
  exact (h.drop ht).head

theorem Along.foldl {next : σ → ε → σ} {s : σ} {es : List ε}
    (h : Along (fun s e => some (next s e)) P s es) : P (es.foldl next s) := by
  induction es generalizing s with
  | nil => exact h
  | cons e es ih => exact ih (h.2 (next s e) rfl)

theorem along_of_invariant (hstep : ∀ s e t, Inv s → step s e = some t → Inv t) {s : σ}
    (hs : Inv s) (es : List ε) : Along step Inv s es := by
  induction es generalizing s with
  | nil => exact hs
  | cons e es ih => exact ⟨hs, fun t ht => ih (hstep s e t hs ht)⟩

theorem along_of_meets (hstep : ∀ s e t, Inv s → step s e = some t → Good s e → Inv t) {s : σ}
    (hs : Inv s) {es : List ε} (h : Meets step Good s es) : Along step Inv s es := by
  induction es generalizing s with
  | nil => exact hs
  | cons e es ih =>
    refine ⟨hs, fun t ht => ?_⟩
    obtain ⟨he, hrest⟩ := h t ht
    exact ih (hstep s e t hs ht he) hrest

theorem meets_of_forall {G : ε → Prop} (s : σ) {es : List ε} (h : ∀ e ∈ es, G e) :
    Meets step (fun _ e => G e) s es := by
  induction es generalizing s with
  | nil => trivial
  | cons e es ih =>
    intro t _
    exact ⟨h e List.mem_cons_self, ih t fun e' he' => h e' (List.mem_cons_of_mem e he')⟩

/-- Let an invariant imply `P` and survive every good step, and let every bad step lead
out of `P`. Then `P` holds along a run exactly when all its steps are good. The bound `Q`
may be used in every state of the run. -/
theorem along_iff_meets (hP : ∀ s, Inv s → P s)
    (hgood : ∀ s e t, Inv s → Q s → step s e = some t → Good s e → Inv t)
    (hbad : ∀ s e t, Inv s → Q s → step s e = some t → ¬Good s e → ¬P t)
    {s : σ} (hs : Inv s) {es : List ε} (hQ : Along step Q s es) :
    Along step P s es ↔ Meets step Good s es := by
  induction es generalizing s with
  | nil => exact iff_of_true (hP s hs) trivial
  | cons e es ih =>
    constructor
    · rintro ⟨-, hnext⟩ t ht
      have hrest := hnext t ht
      -- a bad step would leave `P` at once, and the run never does
      have he : Good s e := by
        by_contra hne
        exact hbad s e t hs hQ.1 ht hne hrest.head
      exact ⟨he, (ih (hgood s e t hs hQ.1 ht he) (hQ.2 t ht)).mp hrest⟩
    · intro hmeets
      refine ⟨hP s hs, fun t ht => ?_⟩
      obtain ⟨he, hrest⟩ := hmeets t ht
      exact (ih (hgood s e t hs hQ.1 ht he) (hQ.2 t ht)).mpr hrest

end Runs
