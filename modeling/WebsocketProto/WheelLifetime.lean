import Mathlib.Data.Finset.Card
import WebsocketProto.Outcome
import WebsocketProto.SpinLock

/-! `init_time_wheel` and `stop_time_wheel`, called by any number of threads that are not the
wheel's own: which threads run `run_time_wheel`, and who holds the lock. -/
namespace WebsocketProto.WheelLifetime
open Outcome
open SpinLock (Balanced)

/-- Where a thread goes on. -/
inductive Place where
  | outside
  /-- In `init_time_wheel`, before the test without the lock, `lock()` and the test with it. -/
  | tests | locks | testsAgain
  /-- Before the thread of the wheel is made, and before it is assigned to `jthread_`. -/
  | makes | assigns (w : Nat)
  /-- In `stop_time_wheel`, before `try_lock()`, `request_stop()`, `join()` and what is behind. -/
  | tries | requests | joins | resets
  | unlocks
  /-- An exception of `join()` has left `stop_time_wheel`. -/
  | threw
  deriving DecidableEq, Repr

/-- `init_`, `spin_lock_` and `jthread_`; the threads of the wheel that run, and those that were
asked to stop; how many were made; and where each of the other threads goes on. -/
structure Lifetime (T : Type) where
  init : Bool
  locked : Bool
  jthread : Option Nat
  running : Finset Nat
  told : Finset Nat
  made : Nat
  place : T → Place

/-- From the lock on; an exception leaves it held. -/
def Place.inside : Place → Bool
  | .outside | .tests | .locks | .tries => false
  | _ => true

inductive Label (T : Type) where
  | initTimeWheel (t : T)
  | stopTimeWheel (t : T)
  | step (t : T)
  /-- `run_time_wheel` sees the request and returns. -/
  | ends (w : Nat)

/-- Why there is no step: a thread waits, or it has nothing to do. -/
inductive Fault where
  | waits | idle
  deriving DecidableEq, Repr

namespace Lifetime
variable {T : Type}

def start : Lifetime T := ⟨false, false, none, ∅, ∅, 0, fun _ => .outside⟩

section Steps
variable [DecidableEq T]

def goto (s : Lifetime T) (t : T) (place : Place) : Lifetime T :=
  { s with place := Function.update s.place t place }

/-- `request_stop()` of `jthread_`. -/
def requestStop (s : Lifetime T) : Finset Nat :=
  match s.jthread with
  | none => s.told
  | some w => insert w s.told

/-- The next step of a thread at a place. -/
def advance (s : Lifetime T) (t : T) : Place → Except Fault (Lifetime T)
  | .outside | .threw => .error .idle
  | .tests => .ok (s.goto t (if s.init then .outside else .locks))
  | .locks =>
    if s.locked then .error .waits else .ok ({ s with locked := true }.goto t .testsAgain)
  | .testsAgain =>
    if s.init then .ok (s.goto t .unlocks) else .ok ({ s with init := true }.goto t .makes)
  | .makes =>
    -- a thread that `jthread_` still holds is asked to stop before it is joined
    .ok ({ s with
      running := insert s.made s.running
      told := s.requestStop
      made := s.made + 1 }.goto t (.assigns s.made))
  | .assigns w =>
    if s.jthread.any (· ∈ s.running) then .error .waits
    else .ok ({ s with jthread := some w }.goto t .unlocks)
  | .tries =>
    if s.locked then .ok (s.goto t .outside)
    else .ok ({ s with locked := true }.goto t .requests)
  | .requests => .ok ({ s with told := s.requestStop }.goto t .joins)
  | .joins =>
    match s.jthread with
    | none => .ok (s.goto t .threw)
    | some w =>
      if w ∈ s.running then .error .waits
      else .ok ({ s with jthread := none }.goto t .resets)
  | .resets => .ok ({ s with init := false }.goto t .unlocks)
  | .unlocks => .ok ({ s with locked := false }.goto t .outside)

def step (s : Lifetime T) : Label T → Except Fault (Lifetime T)
  | .initTimeWheel t =>
    if s.place t = .outside then .ok (s.goto t .tests) else .error .idle
  | .stopTimeWheel t =>
    if s.place t = .outside then .ok (s.goto t .tries) else .error .idle
  | .step t => s.advance t (s.place t)
  | .ends w =>
    if w ∈ s.running ∧ w ∈ s.told then .ok { s with running := s.running.erase w }
    else .error .idle

end Steps

def Inside (s : Lifetime T) (t : T) : Prop := (s.place t).inside = true

/-- One thread runs, which nobody asked to stop. -/
def Up (s : Lifetime T) : Prop := ∃ w, s.jthread = some w ∧ s.running = {w} ∧ w ∉ s.told

def Down (s : Lifetime T) : Prop := s.jthread = none ∧ s.running = ∅

def Settled (s : Lifetime T) : Prop := if s.init then Up s else Down s

/-- What the thread that holds the lock finds at a place. -/
def Finds (s : Lifetime T) : Place → Prop
  | .makes | .resets => s.init = true ∧ Down s
  | .assigns w => s.init = true ∧ s.jthread = none ∧ s.running = {w} ∧ w ∉ s.told
  | .joins => (∃ w, s.init = true ∧ s.jthread = some w ∧ s.running ⊆ {w}) ∨
      s.init = false ∧ Down s
  | .threw => s.init = false ∧ Down s
  | _ => Settled s

structure Sound (s : Lifetime T) : Prop where
  balanced : Balanced s.locked s.Inside
  free : s.locked = false → Settled s
  finds : ∀ t, s.Inside t → Finds s (s.place t)
  told : ∀ w ∈ s.told, w < s.made
  running : ∀ w ∈ s.running, w < s.made

variable {s s' : Lifetime T} {t u : T} {place : Place}

theorem start_sound : Sound (start : Lifetime T) := by
  have outside (t : T) : ¬ (start : Lifetime T).Inside t := by
    simp [Inside, start, Place.inside]
  refine ⟨.nobody outside, fun _ => ?_, fun t inside => absurd inside (outside t), ?_, ?_⟩
  · simp [Settled, start, Down]
  · simp [start]
  · simp [start]

theorem Up.settled (up : Up s) (on : s.init = true) : Settled s := by
  rwa [Settled, if_pos on]

theorem Down.settled (down : Down s) (off : s.init = false) : Settled s := by
  rwa [Settled, if_neg (by simp [off])]

theorem Settled.cases (settled : Settled s) : s.init = true ∧ Up s ∨ s.init = false ∧ Down s := by
  rw [Settled] at settled
  split at settled
  · rename_i on
    exact Or.inl ⟨on, settled⟩
  · rename_i off
    exact Or.inr ⟨Bool.eq_false_iff.mpr off, settled⟩

theorem Sound.unasked (sound : Sound s) : s.made ∉ s.told :=
  fun asked => absurd (sound.told s.made asked) (Nat.lt_irrefl _)

/-- A thread of the wheel ends only while `stop_time_wheel` waits for it. -/
theorem ends_sound (sound : Sound s) {w : Nat} (runs : w ∈ s.running) (asked : w ∈ s.told) :
    Sound { s with running := s.running.erase w } := by
  have fewer : ∀ v ∈ s.running.erase w, v < s.made :=
    fun v there => sound.running v (Finset.mem_of_mem_erase there)
  have unsettled (settled : Settled s) : False := by
    rcases settled.cases with ⟨_, v, _, one, unasked⟩ | ⟨_, _, nobody⟩
    · rw [one, Finset.mem_singleton] at runs
      exact unasked (runs ▸ asked)
    · simp [nobody] at runs
  refine ⟨sound.balanced, fun free => (unsettled (sound.free free)).elim, fun t inside => ?_,
    sound.told, fewer⟩
  have found := sound.finds t inside
  show Finds _ (s.place t)
  cases here : s.place t with
  | makes | resets | threw =>
    rw [here] at found
    obtain ⟨_, _, nobody⟩ := found
    simp [nobody] at runs
  | assigns v =>
    rw [here] at found
    obtain ⟨_, _, one, unasked⟩ := found
    rw [one, Finset.mem_singleton] at runs
    exact absurd (runs ▸ asked) unasked
  | joins =>
    rw [here] at found
    rcases found with ⟨v, on, some_, few⟩ | ⟨_, _, nobody⟩
    · exact Or.inl ⟨v, on, some_, (Finset.erase_subset _ _).trans few⟩
    · simp [nobody] at runs
  | _ =>
    rw [here] at found
    exact (unsettled found).elim

theorem Sound.one (sound : Sound s) : s.running.card ≤ 1 := by
  have settled (settled : Settled s) : s.running.card ≤ 1 := by
    rcases settled.cases with ⟨_, w, _, one, _⟩ | ⟨_, _, nobody⟩
    · simp [one]
    · simp [nobody]
  cases held : s.locked with
  | false => exact settled (sound.free held)
  | true =>
    obtain ⟨t, inside⟩ := sound.balanced.held held
    have found := sound.finds t inside
    cases here : s.place t with
    | makes | resets | threw =>
      rw [here] at found
      obtain ⟨_, _, nobody⟩ := found
      simp [nobody]
    | assigns w =>
      rw [here] at found
      obtain ⟨_, _, one, _⟩ := found
      simp [one]
    | joins =>
      rw [here] at found
      rcases found with ⟨w, _, _, few⟩ | ⟨_, _, nobody⟩
      · exact (Finset.card_le_card few).trans (by simp)
      · simp [nobody]
    | _ =>
      rw [here] at found
      exact settled found

/-- An exception has left `stop_time_wheel`. -/
theorem Sound.stranded (sound : Sound s) (threw : s.place t = .threw) :
    s.locked = true ∧ s.running = ∅ := by
  have inside : s.Inside t := by simp [Inside, threw, Place.inside]
  have found := sound.finds t inside
  rw [threw] at found
  exact ⟨sound.balanced.taken t inside, found.2.2⟩

variable [DecidableEq T]

theorem place_goto : (s.goto t place).place t = place := Function.update_self ..

theorem place_other (apart : u ≠ t) : (s.goto t place).place u = s.place u :=
  Function.update_of_ne apart ..

theorem inside_own : (s.goto t place).Inside t ↔ place.inside = true := by
  rw [Inside, place_goto]

theorem inside_goto (apart : u ≠ t) : (s.goto t place).Inside u ↔ s.Inside u := by
  rw [Inside, Inside, place_other apart]

/-- A thread that does not hold the lock goes on without it. -/
theorem Sound.passes (sound : Sound s) (outside : ¬ s.Inside t) (later : place.inside = false) :
    Sound (s.goto t place) := by
  have same (u : T) : (s.goto t place).Inside u ↔ s.Inside u := by
    by_cases own : u = t
    · subst own
      simp [outside, inside_own, later]
    · exact inside_goto own
  refine ⟨sound.balanced.still same, sound.free, fun u inside => ?_, sound.told, sound.running⟩
  have before := (same u).mp inside
  have apart : u ≠ t := fun own => outside (own ▸ before)
  rw [place_other apart]
  exact sound.finds u before

/-- A thread takes the lock, and finds what held before. -/
theorem Sound.enters (sound : Sound s) (free : s.locked = false) (later : place.inside = true)
    (finds : Settled s → Finds s place) : Sound ({ s with locked := true }.goto t place) := by
  have settled := sound.free free
  have balanced := sound.balanced
  rw [free] at balanced
  refine ⟨balanced.enter (inside_own.mpr later) fun u apart => (inside_goto apart).mp, nofun,
    fun u inside => ?_, sound.told, sound.running⟩
  by_cases own : u = t
  · subst own
    rw [place_goto]
    exact finds settled
  · exact absurd ((inside_goto own).mp inside) (balanced.outside u)

/-- The thread that holds the lock goes on with it. -/
theorem Sound.works (sound : Sound s) (inside : s.Inside t) (later : place.inside = true)
    (locked : s'.locked = s.locked) (places : s'.place = s.place)
    (finds : Finds s' place) (told : ∀ w ∈ s'.told, w < s'.made)
    (running : ∀ w ∈ s'.running, w < s'.made) : Sound (s'.goto t place) := by
  have held := sound.balanced.taken t inside
  have same (u : T) : (s'.goto t place).Inside u ↔ s.Inside u := by
    by_cases own : u = t
    · subst own
      simp [inside, inside_own, later]
    · rw [inside_goto own, Inside, places, Inside]
  refine ⟨?_, fun free => ?_, fun u there => ?_, told, running⟩
  · have balanced := sound.balanced.still same
    rwa [← locked] at balanced
  · rw [goto, locked, held] at free
    contradiction
  · obtain rfl := sound.balanced.alone u t ((same u).mp there) inside
    rw [place_goto]
    exact finds

/-- The thread that holds the lock gives it back. -/
theorem Sound.leaves (sound : Sound s) (inside : s.Inside t) (settled : Settled s) :
    Sound ({ s with locked := false }.goto t .outside) := by
  have out : ¬ (goto { s with locked := false } t .outside).Inside t := by
    simp [inside_own, Place.inside]
  have others (u : T) (apart : u ≠ t) : (goto { s with locked := false } t .outside).Inside u →
      s.Inside u := (inside_goto apart).mp
  refine ⟨sound.balanced.leave inside out others, fun _ => settled, fun u there => ?_, sound.told,
    sound.running⟩
  by_cases own : u = t
  · subst own
    exact absurd there out
  · exact absurd (sound.balanced.alone u t (others u own there) inside) own

theorem advance_sound (sound : Sound s) (done : s.advance t (s.place t) = .ok s') : Sound s' := by
  have outside (no : (s.place t).inside = false) : ¬ s.Inside t := by simp [Inside, no]
  have inside (yes : (s.place t).inside = true) : s.Inside t := yes
  have found (yes : (s.place t).inside = true) : Finds s (s.place t) := sound.finds t yes
  cases here : s.place t with
  | outside | threw =>
    rw [here] at done
    contradiction
  | tests =>
    rw [here] at done outside
    cases done
    exact sound.passes (outside rfl) (by split <;> rfl)
  | locks =>
    rw [here, advance] at done
    split at done
    · contradiction
    · rename_i free
      cases done
      exact sound.enters (by simpa using free) rfl id
  | testsAgain =>
    rw [here, advance] at done
    rw [here] at inside found
    have settled : Settled s := found rfl
    split at done
    · cases done
      exact sound.works (inside rfl) rfl rfl rfl settled sound.told sound.running
    · rename_i off
      cases done
      rw [Settled, if_neg off] at settled
      exact sound.works (inside rfl) rfl rfl rfl ⟨rfl, settled⟩ sound.told sound.running
  | makes =>
    rw [here] at done inside found
    obtain ⟨on, none_, nobody⟩ : s.init = true ∧ Down s := found rfl
    have told : s.requestStop = s.told := by rw [requestStop, none_]
    cases done
    refine sound.works (inside rfl) rfl rfl rfl ⟨on, none_, ?_, ?_⟩ ?_ ?_
    · simp [nobody]
    · simpa [told] using sound.unasked
    · intro w asked
      have before : w ∈ s.requestStop := asked
      rw [told] at before
      exact Nat.lt_succ_of_lt (sound.told w before)
    · simp [nobody]
  | assigns w =>
    rw [here] at done inside found
    obtain ⟨on, none_, one, unasked⟩ := found rfl
    rw [advance, none_] at done
    cases done
    exact sound.works (inside rfl) rfl rfl rfl (Up.settled ⟨w, rfl, one, unasked⟩ on) sound.told
      sound.running
  | tries =>
    rw [here, advance] at done
    rw [here] at outside
    split at done
    · cases done
      exact sound.passes (outside rfl) rfl
    · rename_i free
      cases done
      exact sound.enters (by simpa using free) rfl id
  | requests =>
    rw [here] at done inside found
    cases done
    rcases Settled.cases (found rfl) with ⟨on, w, some_, one, _⟩ | ⟨off, none_, nobody⟩
    · have told : s.requestStop = insert w s.told := by rw [requestStop, some_]
      refine sound.works (inside rfl) rfl rfl rfl (Or.inl ⟨w, on, some_, one.subset⟩) ?_ sound.running
      intro v asked
      have before : v ∈ s.requestStop := asked
      rw [told] at before
      rcases Finset.mem_insert.mp before with rfl | earlier
      · exact sound.running v (by simp [one])
      · exact sound.told v earlier
    · have told : s.requestStop = s.told := by rw [requestStop, none_]
      exact sound.works (inside rfl) rfl rfl rfl (Or.inr ⟨off, none_, nobody⟩)
        (by simpa [told] using sound.told) sound.running
  | joins =>
    rw [here, advance] at done
    rw [here] at inside found
    rcases found rfl with ⟨w, on, some_, few⟩ | ⟨off, none_, nobody⟩
    · rw [some_] at done
      dsimp only at done
      split at done
      · contradiction
      · rename_i ended
        cases done
        have nobody : s.running = ∅ := by
          rcases Finset.subset_singleton_iff.mp few with empty | one
          · exact empty
          · exact absurd (by simp [one]) ended
        exact sound.works (inside rfl) rfl rfl rfl ⟨on, rfl, nobody⟩ sound.told sound.running
    · rw [none_] at done
      cases done
      exact sound.works (inside rfl) rfl rfl rfl ⟨off, none_, nobody⟩ sound.told sound.running
  | resets =>
    rw [here] at done inside found
    obtain ⟨on, down⟩ : s.init = true ∧ Down s := found rfl
    cases done
    exact sound.works (inside rfl) rfl rfl rfl (Down.settled down rfl) sound.told sound.running
  | unlocks =>
    rw [here] at done inside found
    cases done
    exact sound.leaves (inside rfl) (found rfl)

theorem step_sound {l : Label T} (sound : Sound s) (done : s.step l = .ok s') : Sound s' := by
  cases l with
  | initTimeWheel t | stopTimeWheel t =>
    rw [step] at done
    split at done
    · rename_i outside
      cases done
      exact sound.passes (by simp [Inside, outside, Place.inside]) rfl
    · contradiction
  | step t => exact advance_sound sound done
  | ends w =>
    rw [step] at done
    split at done
    · rename_i both
      cases done
      exact ends_sound sound both.1 both.2
    · contradiction

theorem run_sound {labels : List (Label T)} (sound : Sound s)
    (done : run step s labels = .ok s') : Sound s' := by
  induction labels generalizing s with
  | nil =>
    cases done
    exact sound
  | cons l rest ih =>
    obtain ⟨next, taken, later⟩ := bind_eq_ok.mp done
    exact ih (step_sound sound taken) later

/-- A step of one thread leaves the others where they are. -/
theorem advance_place (apart : u ≠ t) (done : s.advance t place = .ok s') :
    s'.place u = s.place u := by
  cases place <;> simp only [advance] at done
  all_goals repeat' split at done
  all_goals first
    | contradiction
    | (cases done; exact place_other apart)

theorem step_place {l : Label T} (done : s.step l = .ok s')
    (stuck : s.place u = .threw ∨ s.place u = .locks ∧ s.locked = true) :
    s'.place u = s.place u := by
  have outside : s.place u ≠ .outside := by
    rcases stuck with threw | ⟨locks, _⟩
    · simp [threw]
    · simp [locks]
  cases l with
  | initTimeWheel t | stopTimeWheel t =>
    rw [step] at done
    split at done
    · rename_i idle
      cases done
      exact place_other fun own => outside (own ▸ idle)
    · contradiction
  | step t =>
    by_cases own : u = t
    · subst own
      rw [step] at done
      rcases stuck with threw | ⟨locks, held⟩
      · rw [threw] at done
        contradiction
      · rw [locks, advance, held, if_pos rfl] at done
        contradiction
    · exact advance_place own done
  | ends w =>
    rw [step] at done
    split at done
    · cases done
      rfl
    · contradiction

theorem run_stranded {labels : List (Label T)} (sound : Sound s) (threw : s.place t = .threw)
    (done : run step s labels = .ok s') :
    s'.place t = .threw ∧ ∀ u, s.place u = .locks → s'.place u = .locks := by
  induction labels generalizing s with
  | nil =>
    cases done
    exact ⟨threw, fun u waits => waits⟩
  | cons l rest ih =>
    obtain ⟨next, taken, later⟩ := bind_eq_ok.mp done
    have held := (sound.stranded threw).1
    obtain ⟨still, wait⟩ := ih (step_sound sound taken)
      ((step_place taken (Or.inl threw)).trans threw) later
    exact ⟨still, fun u waits => wait u ((step_place taken (Or.inr ⟨waits, held⟩)).trans waits)⟩

end Lifetime

/-- Whoever calls `init_time_wheel` and `stop_time_wheel`, and in whichever order their steps come:
never do two threads run the wheel, and while nobody holds the lock, `init_` tells whether one
does. -/
theorem one_wheel_thread {T : Type} [DecidableEq T] (labels : List (Label T)) (s : Lifetime T)
    (done : run Lifetime.step .start labels = .ok s) :
    s.running.card ≤ 1 ∧ (s.locked = false →
      (s.init = true → ∃ w, s.jthread = some w ∧ s.running = {w} ∧ w ∉ s.told) ∧
      (s.init = false → s.jthread = none ∧ s.running = ∅)) := by
  have sound := Lifetime.run_sound Lifetime.start_sound done
  refine ⟨sound.one, fun free => ?_⟩
  rcases (sound.free free).cases with ⟨on, up⟩ | ⟨off, down⟩
  · exact ⟨fun _ => up, fun off => absurd (on.symm.trans off) (by decide)⟩
  · exact ⟨fun on => absurd (on.symm.trans off) (by decide), fun _ => down⟩

/-- Two threads come to `lock()` together; the second one finds the wheel made. -/
theorem made_once : ∃ s : Lifetime Nat, run Lifetime.step .start
      ([.initTimeWheel 0, .initTimeWheel 1, .step 0, .step 1] ++ List.replicate 5 (.step 0) ++
        List.replicate 3 (.step 1)) = .ok s ∧
    ∃ w, s.jthread = some w ∧ s.running = {w} ∧ w ∉ s.told := by
  obtain ⟨s, reached, facts⟩ := reaches (x := run Lifetime.step (.start : Lifetime Nat)
      ([.initTimeWheel 0, .initTimeWheel 1, .step 0, .step 1] ++ List.replicate 5 (.step 0) ++
        List.replicate 3 (.step 1)))
    (f := fun s => (s.locked, s.init)) (b := (false, true)) (by decide +kernel)
  obtain ⟨free, on⟩ := Prod.mk.inj facts
  exact ⟨s, reached, ((one_wheel_thread _ s reached).2 free).1 on⟩

/-- A `stop_time_wheel` that finds no thread to join throws, and then the lock is never given back:
the wheel does not run again, and a thread that waits for the lock waits for ever. -/
theorem stop_strands {T : Type} [DecidableEq T] (front back : List (Label T)) (s s' : Lifetime T)
    (done : run Lifetime.step .start front = .ok s) (t : T) (threw : s.place t = .threw)
    (later : run Lifetime.step s back = .ok s') :
    s'.locked = true ∧ s'.running = ∅ ∧ ∀ u, s.place u = .locks → s'.place u = .locks := by
  have sound := Lifetime.run_sound Lifetime.start_sound done
  obtain ⟨still, wait⟩ := Lifetime.run_stranded sound threw later
  obtain ⟨held, nobody⟩ := (Lifetime.run_sound sound later).stranded still
  exact ⟨held, nobody, wait⟩

/-- The wheel is stopped before it was started, and then two threads want to start it. -/
theorem stopped_first : ∃ s s' : Lifetime Nat, run Lifetime.step .start
      ([.stopTimeWheel 0, .step 0, .step 0, .step 0, .initTimeWheel 1, .step 1]) = .ok s ∧
    run Lifetime.step s [.initTimeWheel 2, .step 2] = .ok s' ∧
    s'.locked = true ∧ s'.running = ∅ ∧ s'.place 1 = .locks := by
  obtain ⟨s, reached, facts⟩ := reaches (x := run Lifetime.step (.start : Lifetime Nat)
      ([.stopTimeWheel 0, .step 0, .step 0, .step 0, .initTimeWheel 1, .step 1]))
    (f := fun s => (s.place 0, s.place 1)) (b := (.threw, .locks)) (by decide +kernel)
  obtain ⟨s', whole⟩ := exists_ok (x := run Lifetime.step (.start : Lifetime Nat)
      ([.stopTimeWheel 0, .step 0, .step 0, .step 0, .initTimeWheel 1, .step 1] ++
        [.initTimeWheel 2, .step 2])) (by decide +kernel)
  rw [run_append, reached, ok_bind] at whole
  obtain ⟨threw, waits⟩ := Prod.mk.inj facts
  obtain ⟨held, nobody, wait⟩ := stop_strands _ _ s s' reached 0 threw whole
  exact ⟨s, s', reached, whole, held, nobody, wait 1 waits⟩

end WebsocketProto.WheelLifetime
