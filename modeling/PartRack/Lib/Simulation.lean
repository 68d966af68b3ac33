import PartRack.Lib.Runs

/-! Simulation between two systems whose events may be disabled. A step of the first is matched
by a list of events of the second, or by a fresh start of the second and such a list. -/

namespace Simulation
variable {σ ε τ δ : Type*} (step : σ → ε → Option σ) (next : τ → δ → Option τ)

/-- Some events lead from `t` to `t'`. -/
inductive Leads : τ → τ → Prop
  | refl (t : τ) : Leads t t
  | head {t u t' : τ} (d : δ) (first : next t d = some u) (rest : Leads u t') : Leads t t'

/-- `R` is kept by every step of the first system from a state that is related to one with the
invariant of the second; the second may start anew from one of the states in `Start`. -/
def Simulates (R : σ → τ → Prop) (Inv Start : τ → Prop) : Prop :=
  ∀ s e s' t, R s t → Inv t → step s e = some s' →
    ∃ t₀ t', (t₀ = t ∨ Start t₀) ∧ Leads next t₀ t' ∧ R s' t'

variable {step next}

theorem Leads.single {t t' : τ} {d : δ} (h : next t d = some t') : Leads next t t' :=
  .head d h (.refl t')

theorem Leads.keeps {Inv : τ → Prop} (hstep : ∀ t d t', Inv t → next t d = some t' → Inv t')
    {t t' : τ} (h : Leads next t t') (ht : Inv t) : Inv t' := by
  induction h with
  | refl t => exact ht
  | head d first _ ih => exact ih (hstep _ d _ ht first)

theorem Simulates.strengthen {R : σ → τ → Prop} {Inv Inv' Start : τ → Prop}
    (hsim : Simulates step next R Inv Start) (h : ∀ t, Inv' t → Inv t) :
    Simulates step next R Inv' Start :=
  fun s e s' t hR ht hs => hsim s e s' t hR (h t ht) hs

/-- Along every run of the first system there is a related state of the second, and it has the
invariants of the second. -/
theorem Simulates.along {R : σ → τ → Prop} {Inv Start : τ → Prop}
    (hsim : Simulates step next R Inv Start)
    (hstep : ∀ t d t', Inv t → next t d = some t' → Inv t') (hstart : ∀ t, Start t → Inv t)
    {s : σ} {t : τ} (hR : R s t) (ht : Inv t) (es : List ε) :
    Runs.Along step (fun s => ∃ t, R s t ∧ Inv t) s es := by
  refine Runs.along_of_invariant (fun s e s' hs hs' => ?_) ⟨t, hR, ht⟩ es
  obtain ⟨t, hR, ht⟩ := hs
  obtain ⟨t₀, t', hfrom, hleads, hR'⟩ := hsim s e s' t hR ht hs'
  refine ⟨t', hR', hleads.keeps hstep ?_⟩
  rcases hfrom with rfl | hnew
  · exact ht
  · exact hstart t₀ hnew

end Simulation
