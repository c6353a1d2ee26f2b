import WebsocketProto.TimeWheelCounts
import WebsocketProto.TimeWheelMisfiling

/-! A task runs in its due tick as long as ticks return. `erase_task` keeps the lock when it does
not find its id; in a run whose erasures all find theirs, no step spins and every task runs. -/
namespace WebsocketProto
open Outcome

variable {F : Type}

namespace TimeWheel
variable {s s' : TimeWheel F} {i : Insertion}

/-- An erasure is called with an id that is in `id_map_` at that moment. -/
def ErasesFound (s : TimeWheel F) : WheelOp F → Prop
  | .eraseTask id => (s.idMap (id % 2 ^ 32)).isSome = true
  | _ => True

instance (s : TimeWheel F) : (op : WheelOp F) → Decidable (s.ErasesFound op)
  | .eraseTask _ => instDecidableEqBool _ _
  | .addTask .. | .beginTick _ | .fire => isTrue trivial

theorem eraseTask_found {id : Nat} (free : s.locked = false)
    (found : (s.idMap (id % 2 ^ 32)).isSome = true) :
    ∃ s', s.eraseTask id = .ok (s', true) ∧ s'.locked = false := by
  obtain ⟨addr, designated⟩ := Option.isSome_iff_exists.mp found
  simp only [eraseTask, free, designated]
  exact ⟨_, rfl, rfl⟩

/-- A step spins only where an earlier erasure has kept the lock. -/
theorem step_unlocked (s : TimeWheel F) (op : WheelOp F) (free : s.locked = false)
    (found : s.ErasesFound op) : Ensures (· = .spins) (s.step op) (·.locked = false) := by
  cases op with
  | addTask now fn expire circleCount immediate delay =>
    obtain ⟨s', added, free'⟩ := addTask_free s now expire delay fn circleCount immediate free
    simp only [step, added]
    exact .ok free'
  | eraseTask id =>
    obtain ⟨s', erased, free'⟩ := eraseTask_found free found
    simp only [step, erased]
    exact .ok free'
  | beginTick now =>
    by_cases enabled : s.temp = [] ∧ s.current ≤ now
    · obtain ⟨s', begun, free'⟩ := beginTick_free s now free enabled.1 enabled.2
      rw [step, begun]
      exact .ok free'
    · have disabled : s.temp.isEmpty = false ∨ now < s.current := by
        by_cases idle : s.temp = []
        · exact .inr (Int.not_le.mp fun due => enabled ⟨idle, due⟩)
        · exact .inl (by simpa using idle)
      rw [step, beginTick, if_pos disabled]
      exact .error (by simp)
  | fire =>
    obtain ⟨r, fired, free'⟩ := fire_free s free
    simp only [step, fired]
    exact .ok free'

theorem step_logged {e : WheelEvent} (s : TimeWheel F) (op : WheelOp F) (s' : TimeWheel F)
    (logged : e ∈ s.log) (done : s.step op = .ok s') : e ∈ s'.log := by
  have step := step_cases done
  cases op with
  | addTask =>
    obtain ⟨node, id, adds⟩ := step
    rw [adds.eq]
    exact List.mem_append_left _ logged
  | eraseTask =>
    obtain ⟨found, erases⟩ := step
    cases erases with
    | absent => exact logged
    | unlinks => exact List.mem_append_left _ logged
  | beginTick =>
    obtain ⟨settled, begins⟩ := step
    rw [begins.eq]
    exact (cascades_moving begins.cascaded).log ▸ logged
  | fire =>
    obtain ⟨call, _, fires⟩ := step
    cases fires with
    | idle => exact logged
    | again => exact List.mem_append_left _ (List.mem_append_left _ logged)
    | last => exact List.mem_append_left _ logged

def Ticks (s : TimeWheel F) : Prop :=
  (∃ r, s.fire = .ok r) ∧
  ∀ now, s.temp = [] → s.current ≤ now → ∃ s', s.beginTick now = .ok s'

theorem ticks_of_free (free : s.locked = false) : s.Ticks := by
  obtain ⟨r, fired, _⟩ := s.fire_free free
  refine ⟨⟨r, fired⟩, fun now idle due => ?_⟩
  obtain ⟨s', begun, _⟩ := s.beginTick_free now free idle due
  exact ⟨s', begun⟩

/-- The function runs for the insertion in its due tick, and in no other: it has run when that tick
is behind, and it runs when `check` goes on. -/
structure RunsWhenDue (s : TimeWheel F) (i : Insertion) : Prop where
  only : runsOf i s.log = [] ∨ runsOf i s.log = [max i.expire i.current]
  passed : .erased i ∉ s.log → s.temp = [] → max i.expire i.current < s.current →
    runsOf i s.log = [max i.expire i.current]
  reached : .erased i ∉ s.log → ∃ ops s', (∀ op ∈ ops, WheelOp.OfCheck op) ∧
    run step s ops = .ok s' ∧ runsOf i s'.log = [max i.expire i.current]

namespace Good

theorem runs_only (good : Good s) (near : i.Near) :
    runsOf i s.log = [] ∨ runsOf i s.log = [i.due] := by
  rcases good.recorded.once i with unrun | ⟨tick, ran, due⟩
  · exact Or.inl unrun
  · exact Or.inr (by rw [ran, due near])

theorem waits_ahead (good : Good s) (near : i.Near) (idle : s.temp = []) (member : i ∈ s.waiting) :
    s.current ≤ i.due := by
  obtain ⟨c, cell, rfl⟩ := List.mem_map.mp member
  simp only [cells, idle, List.append_nil, lists, List.mem_flatMap] at cell
  obtain ⟨idx, _, cell⟩ := cell
  obtain ⟨placed, genuine⟩ := good.laid.placed idx c cell
  have behind := placed.behind_due
  rwa [genuine.due_eq near] at behind

theorem ran_when_passed (good : Good s) (near : i.Near) (inserted : .inserted i ∈ s.log)
    (kept : .erased i ∉ s.log) (idle : s.temp = []) (passed : i.due < s.current) :
    runsOf i s.log = [i.due] := by
  rcases good.recorded.fate i inserted with member | erased | ran
  · exact absurd (good.waits_ahead near idle member) (Int.not_le.mpr passed)
  · exact absurd erased kept
  · exact (good.runs_only near).resolve_left ran

theorem runsWhenDue (good : Good s) (free : s.locked = false) (near : i.Near)
    (inserted : .inserted i ∈ s.log) : s.RunsWhenDue i where
  only := good.runs_only near
  passed := good.ran_when_passed near inserted
  reached kept := by
    obtain ⟨s', passes, idle⟩ := ticks_pass s free (i.due + 1 - s.current).toNat
    obtain ⟨ops, ofCheck, done⟩ := passes.run
    have later := run_invariant step_good good done
    have still : .inserted i ∈ s'.log := run_invariant step_logged inserted done
    have unerased : .erased i ∉ s'.log := fun gone => kept (passes.erased i gone)
    have past : i.due < s'.current := by
      rw [passes.current]
      omega
    exact ⟨ops, s', ofCheck, done, later.ran_when_passed near still unerased idle past⟩

end Good
end TimeWheel

/-- In every run whose erasures all find their task no step spins, ticks return in every state that
is reached, and every task that was inserted at most 2^32 - 1 ms ahead runs in its due tick unless
it is erased, in no other tick, and once for that insertion. -/
theorem task_runs_in_due_tick {F : Type} (current : Int) (ops : List (WheelOp F))
    (found : Along TimeWheel.step TimeWheel.ErasesFound (.empty current) ops) :
    Ensures (· = .spins) (run TimeWheel.step (.empty current) ops) fun s =>
      s.Ticks ∧ ∀ i, .inserted i ∈ s.log → i.expire - i.current ≤ 2 ^ 32 - 1 →
        s.RunsWhenDue i := by
  have unlocked := run_ensures TimeWheel.step_unlocked (.empty current) ops rfl found
  cases done : run TimeWheel.step (.empty current) ops with
  | error e =>
    rw [done] at unlocked
    exact unlocked
  | ok s =>
    have free : s.locked = false := unlocked.of_ok done
    have good := TimeWheel.run_good done
    exact .ok ⟨TimeWheel.ticks_of_free free, fun i inserted near =>
      good.runsWhenDue free near inserted⟩

/-- Of two tasks one is erased before its tick; the other runs in the tick at 6. -/
theorem second_task_runs : ∃ s : TimeWheel Unit, run TimeWheel.step (.empty 5)
    [.addTask 5 () 1 1 false 0, .addTask 5 () 1 FULL_CIRCLE false 0, .beginTick 6, .eraseTask 1,
      .beginTick 6, .fire] = .ok s ∧ s.Ticks ∧ runsOf ⟨1, 2, 6, 5⟩ s.log = [6] := by
  have ran : ∃ s : TimeWheel Unit, run TimeWheel.step (.empty 5)
      [.addTask 5 () 1 1 false 0, .addTask 5 () 1 FULL_CIRCLE false 0, .beginTick 6, .eraseTask 1,
        .beginTick 6, .fire] = .ok s ∧ .inserted ⟨1, 2, 6, 5⟩ ∈ s.log ∧
      .erased ⟨1, 2, 6, 5⟩ ∉ s.log ∧ s.temp = [] ∧ 6 < s.current :=
    ⟨_, rfl, by decide +kernel, by decide +kernel, rfl, by decide⟩
  obtain ⟨s, done, inserted, kept, idle, passed⟩ := ran
  obtain ⟨ticks, runs⟩ := (task_runs_in_due_tick 5 _ (by decide +kernel)).of_ok done
  exact ⟨s, done, ticks, (runs ⟨1, 2, 6, 5⟩ inserted (by decide)).passed kept idle passed⟩

namespace TimeWheel
variable {s s' : TimeWheel F}

theorem cascades_locked {held : Bool} (done : cascades s = .ok s') (locked : s.locked = held) :
    s'.locked = held :=
  cascades_rule (motive := fun _ t => t.locked = held) (fun _ _ _ same => same)
    (fun _ _ _ same => same) done locked

/-- Between ticks nothing moves any more while the lock is kept. -/
theorem step_stuck (op : WheelOp F) (locked : s.locked = true) (idle : s.temp = [])
    (done : s.step op = .ok s') : s' = s := by
  cases op with
  | addTask =>
    simp [step, addTask, insertNode, addNode_eq, stamp, locked] at done
  | eraseTask =>
    simp [step, eraseTask, locked] at done
  | beginTick now =>
    rw [step, beginTick] at done
    split at done
    · contradiction
    obtain ⟨settled, cascaded, done⟩ := bind_eq_ok.mp done
    rw [cascades_locked cascaded locked] at done
    contradiction
  | fire =>
    simp only [step, fire, idle] at done
    exact (Except.ok.inj done).symm

theorem run_stuck {ops : List (WheelOp F)} (locked : s.locked = true) (idle : s.temp = [])
    (done : run step s ops = .ok s') : s' = s := by
  induction ops with
  | nil => exact (Except.ok.inj done).symm
  | cons op rest ih =>
    obtain ⟨next, taken, later⟩ := bind_eq_ok.mp done
    obtain rfl := step_stuck op locked idle taken
    exact ih later

end TimeWheel

/-- The first of two tasks has run when it is erased: the lock is kept, the next tick spins, and the
second task never runs. -/
theorem run_task_erased : ¬ ∀ (current : Int) (ops : List (WheelOp Unit)) (s : TimeWheel Unit),
    run TimeWheel.step (.empty current) ops = .ok s → ∀ i, .inserted i ∈ s.log →
    i.expire - i.current ≤ 2 ^ 32 - 1 → s.RunsWhenDue i := by
  intro claim
  have ran : ∃ s : TimeWheel Unit, run TimeWheel.step (.empty 5) [.addTask 5 () 1 1 false 0,
      .addTask 5 () 2 1 false 0, .beginTick 6, .beginTick 6, .fire, .eraseTask 1] = .ok s ∧
      .inserted ⟨1, 2, 7, 5⟩ ∈ s.log ∧ .erased ⟨1, 2, 7, 5⟩ ∉ s.log ∧
      runsOf ⟨1, 2, 7, 5⟩ s.log = [] ∧ s.temp = [] ∧ s.locked = true :=
    ⟨_, rfl, by decide +kernel, by decide +kernel, by decide +kernel, rfl, rfl⟩
  obtain ⟨s, done, inserted, kept, unrun, idle, locked⟩ := ran
  obtain ⟨ops, s', _, later, ran⟩ := (claim 5 _ s done _ inserted (by decide)).reached kept
  rw [TimeWheel.run_stuck locked idle later, unrun] at ran
  contradiction

end WebsocketProto
