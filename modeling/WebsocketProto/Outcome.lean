import Mathlib.Algebra.Order.Ring.Int
import Mathlib.Algebra.Order.Ring.Nat
import Mathlib.Data.List.Basic

/-! Fallible computations and runs of fallible steps, over any state, label and
error type. `Ensures` is the postcondition logic: a set of errors is excluded and
a postcondition holds of every normal result, while other errors stay allowed. -/
namespace WebsocketProto.Outcome

variable {ε α β σ ℓ : Type}

@[simp] theorem ok_bind (a : α) (f : α → Except ε β) : (Except.ok a >>= f) = f a := rfl

@[simp] theorem error_bind (e : ε) (f : α → Except ε β) :
    ((Except.error e : Except ε α) >>= f) = .error e := rfl

@[simp] theorem pure_ok (a : α) : (pure a : Except ε α) = .ok a := rfl

theorem bind_eq_ok {x : Except ε α} {f : α → Except ε β} {b : β} :
    (x >>= f) = .ok b ↔ ∃ a, x = .ok a ∧ f a = .ok b := by
  cases x with
  | error e => simp
  | ok a => simp

theorem map_eq_ok {x : Except ε α} {f : α → β} {b : β} (done : x.map f = .ok b) :
    ∃ a, x = .ok a ∧ f a = b := by
  cases x with
  | error e => nomatch done
  | ok a => exact ⟨a, rfl, Except.ok.inj done⟩

theorem exists_ok {x : Except ε α} (done : x.isOk = true) : ∃ a, x = .ok a := by
  cases x with
  | ok a => exact ⟨a, rfl⟩
  | error e => contradiction

/-- A result that was computed as far as a function of it goes. -/
theorem reaches {x : Except ε α} {f : α → β} {b : β} (view : x.toOption.map f = some b) :
    ∃ a, x = .ok a ∧ f a = b := by
  cases x with
  | ok a => exact ⟨a, rfl, Option.some.inj view⟩
  | error e => contradiction

/-- No error of `never`, and `post` of the result when there is one. -/
def Ensures (never : ε → Prop) (x : Except ε α) (post : α → Prop) : Prop :=
  match x with
  | .ok a => post a
  | .error e => ¬ never e

section Rules
variable {never : ε → Prop} {post : α → Prop}

theorem Ensures.ok {a : α} (holds : post a) : Ensures never (.ok a) post := holds

theorem Ensures.error {e : ε} (allowed : ¬ never e) : Ensures never (.error e) post := allowed

theorem Ensures.mono {x : Except ε α} {weaker : α → Prop} (first : Ensures never x post)
    (implies : ∀ a, post a → weaker a) : Ensures never x weaker := by
  cases x with
  | ok a => exact implies a first
  | error e => exact first

theorem Ensures.narrow {x : Except ε α} {fewer : ε → Prop} (first : Ensures never x post)
    (implies : ∀ e, fewer e → never e) : Ensures fewer x post := by
  cases x with
  | ok a => exact first
  | error e => exact fun bad => first (implies e bad)

theorem Ensures.under {x : Except ε α} {given : Prop} (first : Ensures never x post) :
    Ensures (fun e => never e ∧ given) x post :=
  first.narrow fun _ => And.left

theorem Ensures.bind {x : Except ε α} {f : α → Except ε β} {final : β → Prop}
    (first : Ensures never x post) (next : ∀ a, post a → Ensures never (f a) final) :
    Ensures never (x >>= f) final := by
  cases x with
  | ok a => exact next a first
  | error e => exact first

theorem Ensures.and {x : Except ε α} {more : α → Prop} (first : Ensures never x post)
    (results : ∀ a, x = .ok a → more a) : Ensures never x fun a => post a ∧ more a := by
  cases x with
  | ok a => exact ⟨first, results a rfl⟩
  | error e => exact first

theorem Ensures.of_map {x : Except ε α} {f : α → β} {final : β → Prop}
    (first : Ensures never (x.map f) final) : Ensures never x fun a => final (f a) := by
  cases x with
  | ok a => exact first
  | error e => exact first

theorem Ensures.of_results {x : Except ε α} (results : ∀ a, x = .ok a → post a) :
    Ensures (fun _ => False) x post := by
  cases x with
  | ok a => exact results a rfl
  | error e => exact id

theorem Ensures.of_ok {x : Except ε α} {a : α} (first : Ensures never x post)
    (result : x = .ok a) : post a := by
  subst result; exact first

theorem Ensures.not_error {x : Except ε α} {e : ε} (first : Ensures never x post)
    (bad : never e) : x ≠ .error e := by
  rintro rfl
  exact first bad

end Rules

/-- Whatever the computation returns is related to the state it began in. -/
def Leads (R : σ → σ → Prop) (s : σ) (x : Except ε σ) : Prop := ∀ s', x = .ok s' → R s s'

section Relations
variable {R : σ → σ → Prop} {s : σ}

theorem Leads.ok {s' : σ} (related : R s s') : Leads R s (.ok s' : Except ε σ) :=
  fun _ done => Except.ok.inj done ▸ related

theorem Leads.error (e : ε) : Leads R s (.error e) := nofun

theorem Leads.from {x : Except ε σ} [IsTrans σ R] {s1 : σ} (later : Leads R s1 x)
    (first : R s s1) : Leads R s x :=
  fun s' done => IsTrans.trans s s1 s' first (later s' done)

theorem Leads.bind {x : Except ε σ} {f : σ → Except ε σ} [IsTrans σ R] (first : Leads R s x)
    (next : ∀ s1, Leads R s1 (f s1)) : Leads R s (x >>= f) := by
  intro s' done
  obtain ⟨s1, before, after⟩ := bind_eq_ok.mp done
  exact (next s1).from (first s1 before) s' after

/-- A value that is only read on the way. -/
theorem Leads.after {x : Except ε α} {f : α → Except ε σ} (next : ∀ a, Leads R s (f a)) :
    Leads R s (x >>= f) := by
  intro s' done
  obtain ⟨a, _, after⟩ := bind_eq_ok.mp done
  exact next a s' after

end Relations

/-- A run takes labels in order and stops at the first error. -/
def run (step : σ → ℓ → Except ε σ) : σ → List ℓ → Except ε σ
  | s, [] => .ok s
  | s, l :: rest => step s l >>= fun next => run step next rest

/-- A condition on the state before each step and on its label, along a run. -/
def Along (step : σ → ℓ → Except ε σ) (cond : σ → ℓ → Prop) : σ → List ℓ → Prop
  | _, [] => True
  | s, l :: rest => cond s l ∧ ∀ next, step s l = .ok next → Along step cond next rest

instance Along.decidable (step : σ → ℓ → Except ε σ) (cond : σ → ℓ → Prop)
    [∀ s l, Decidable (cond s l)] : ∀ s labels, Decidable (Along step cond s labels)
  | _, [] => isTrue trivial
  | s, l :: rest =>
    match taken : step s l with
    | .ok s' =>
      have := Along.decidable step cond s' rest
      decidable_of_iff (cond s l ∧ Along step cond s' rest)
        (and_congr_right fun _ => by simp [taken])
    | .error _ => decidable_of_iff (cond s l) (by simp [Along, taken])

section Runs
variable {step : σ → ℓ → Except ε σ} {cond : σ → ℓ → Prop} {never : ε → Prop}

theorem run_append (s : σ) (front back : List ℓ) :
    run step s (front ++ back) = run step s front >>= fun middle => run step middle back := by
  induction front generalizing s with
  | nil => rfl
  | cons l rest ih =>
    simp only [List.cons_append, run]
    cases taken : step s l with
    | error e => simp
    | ok next => simp [ih]

theorem run_snoc {s final : σ} {front : List ℓ} {l : ℓ} :
    run step s (front ++ [l]) = .ok final ↔
      ∃ middle, run step s front = .ok middle ∧ step middle l = .ok final := by
  rw [run_append, bind_eq_ok]
  simp only [run]
  constructor
  · rintro ⟨middle, before, after⟩
    obtain ⟨next, taken, eq⟩ := bind_eq_ok.mp after
    exact ⟨middle, before, by rw [taken, ← eq]⟩
  · rintro ⟨middle, before, after⟩
    exact ⟨middle, before, bind_eq_ok.mpr ⟨final, after, rfl⟩⟩

/-- What every admitted step preserves holds after every admitted run. -/
theorem run_ensures {inv : σ → Prop}
    (preserved : ∀ s l, inv s → cond s l → Ensures never (step s l) inv)
    (s : σ) (labels : List ℓ) (initial : inv s) (along : Along step cond s labels) :
    Ensures never (run step s labels) inv := by
  induction labels generalizing s with
  | nil => exact initial
  | cons l rest ih =>
    have first := preserved s l initial along.1
    cases taken : step s l with
    | error e =>
      rw [taken] at first
      simpa only [run, taken, error_bind] using first
    | ok next =>
      rw [taken] at first
      simpa only [run, taken, ok_bind] using ih next first (along.2 next taken)

/-- The rule for the states that admitted runs reach, whatever errors they may end in. -/
theorem along_invariant {inv : σ → Prop}
    (preserved : ∀ s l next, inv s → cond s l → step s l = .ok next → inv next)
    {s final : σ} {labels : List ℓ} (initial : inv s) (along : Along step cond s labels)
    (finished : run step s labels = .ok final) : inv final := by
  have kept (s : σ) (l : ℓ) (holds : inv s) (admitted : cond s l) :
      Ensures (fun _ => False) (step s l) inv :=
    Ensures.of_results fun next taken => preserved s l next holds admitted taken
  exact (run_ensures kept s labels initial along).of_ok finished

theorem run_invariant {inv : σ → Prop}
    (preserved : ∀ s l next, inv s → step s l = .ok next → inv next)
    {s final : σ} {labels : List ℓ} (initial : inv s)
    (finished : run step s labels = .ok final) : inv final := by
  induction labels generalizing s with
  | nil => exact Except.ok.inj finished ▸ initial
  | cons l rest ih =>
    obtain ⟨next, taken, later⟩ := bind_eq_ok.mp finished
    exact ih (preserved s l next initial taken) later

/-- Where `goes` tells of each admitted step whether it returns, it tells it of the runs. -/
theorem run_returns_iff {inv : σ → Prop} {goes : σ → ℓ → Prop}
    (preserved : ∀ s l next, inv s → cond s l → step s l = .ok next → inv next)
    (returns : ∀ s l, inv s → cond s l → ((∃ next, step s l = .ok next) ↔ goes s l))
    {s : σ} {labels : List ℓ} (initial : inv s) (along : Along step cond s labels) :
    (∃ final, run step s labels = .ok final) ↔ Along step goes s labels := by
  induction labels generalizing s with
  | nil => exact iff_of_true ⟨s, rfl⟩ trivial
  | cons l rest ih =>
    have here := returns s l initial along.1
    have later (next : σ) (taken : step s l = .ok next) :=
      ih (preserved s l next initial along.1 taken) (along.2 next taken)
    constructor
    · rintro ⟨final, finished⟩
      obtain ⟨next, taken, onward⟩ := bind_eq_ok.mp finished
      refine ⟨here.mp ⟨next, taken⟩, fun other taken' => ?_⟩
      cases taken.symm.trans taken'
      exact (later next taken).mp ⟨final, onward⟩
    · rintro ⟨admitted, follows⟩
      obtain ⟨next, taken⟩ := here.mpr admitted
      obtain ⟨final, finished⟩ := (later next taken).mpr (follows next taken)
      exact ⟨final, by rw [run, taken, ok_bind, finished]⟩

theorem along_append {s : σ} {front back : List ℓ} (along : Along step cond s (front ++ back)) :
    Along step cond s front ∧
    ∀ middle, run step s front = .ok middle → Along step cond middle back := by
  induction front generalizing s with
  | nil =>
    refine ⟨trivial, ?_⟩
    rintro middle reached
    exact Except.ok.inj reached ▸ along
  | cons l rest ih =>
    refine ⟨⟨along.1, fun next taken => (ih (along.2 next taken)).1⟩, ?_⟩
    intro middle reached
    obtain ⟨next, taken, later⟩ := bind_eq_ok.mp reached
    exact (ih (along.2 next taken)).2 middle later

end Runs
end WebsocketProto.Outcome
