import WebsocketProto.Outcome

/-! Forward simulation between two fallible machines. A step of the one may be several
steps of the other, or none, and both sides may carry conditions on their steps. -/
namespace WebsocketProto.Outcome

variable {ε δ σ τ ℓ κ : Type}

/-- Every admitted step of `step` is matched by admitted steps of `spec`. -/
def Simulates (step : σ → ℓ → Except ε σ) (given : σ → ℓ → Prop) (spec : τ → κ → Except δ τ)
    (meets : τ → κ → Prop) (R : σ → τ → Prop) : Prop :=
  ∀ s l s' t, R s t → given s l → step s l = .ok s' →
    ∃ actions t', Along spec meets t actions ∧ run spec t actions = .ok t' ∧ R s' t'

section Runs
variable {step : σ → ℓ → Except ε σ} {given : σ → ℓ → Prop} {spec : τ → κ → Except δ τ}
  {meets : τ → κ → Prop} {R : σ → τ → Prop}

theorem along_join {t middle : τ} {front back : List κ} (first : Along spec meets t front)
    (reached : run spec t front = .ok middle) (later : Along spec meets middle back) :
    Along spec meets t (front ++ back) := by
  induction front generalizing t with
  | nil => exact Except.ok.inj reached ▸ later
  | cons l rest ih =>
    obtain ⟨next, taken, after⟩ := bind_eq_ok.mp reached
    refine ⟨first.1, fun other same => ?_⟩
    cases taken.symm.trans same
    exact ih (first.2 next taken) after

theorem run_join {t middle last : τ} {front back : List κ} (first : run spec t front = .ok middle)
    (second : run spec middle back = .ok last) : run spec t (front ++ back) = .ok last := by
  rw [run_append, first, ok_bind, second]

/-- The steps of `spec` that match a run of `step`. -/
theorem Simulates.run (simulates : Simulates step given spec meets R) {s s' : σ} {t : τ}
    {labels : List ℓ} (related : R s t) (along : Along step given s labels)
    (reached : run step s labels = .ok s') :
    ∃ actions t', Along spec meets t actions ∧ run spec t actions = .ok t' ∧ R s' t' := by
  induction labels generalizing s t with
  | nil =>
    cases reached
    exact ⟨[], t, trivial, rfl, related⟩
  | cons l rest ih =>
    obtain ⟨next, taken, later⟩ := bind_eq_ok.mp reached
    obtain ⟨first, middle, met, ran, kept⟩ := simulates s l next t related along.1 taken
    obtain ⟨more, last, met', ran', final⟩ := ih kept (along.2 next taken) later
    exact ⟨first ++ more, last, along_join met ran met', run_join ran ran', final⟩

/-- An invariant of the simulated machine, seen from the one that simulates it. -/
theorem Simulates.safe (simulates : Simulates step given spec meets R) (inv : τ → Prop)
    (safe : σ → Prop) (preserved : ∀ t l t', inv t → meets t l → spec t l = .ok t' → inv t')
    (seen : ∀ s t, R s t → inv t → safe s) {s s' : σ} {t : τ} {labels : List ℓ}
    (related : R s t) (initial : inv t) (along : Along step given s labels)
    (reached : Outcome.run step s labels = .ok s') : safe s' := by
  obtain ⟨actions, t', met, ran, kept⟩ := simulates.run related along reached
  exact seen s' t' kept (along_invariant preserved initial met ran)

end Runs

theorem along_true {step : σ → ℓ → Except ε σ} (s : σ) (labels : List ℓ) :
    Along step (fun _ _ => True) s labels := by
  induction labels generalizing s with
  | nil => trivial
  | cons l rest ih => exact ⟨trivial, fun next _ => ih next⟩

end WebsocketProto.Outcome
