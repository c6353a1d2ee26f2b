import WebsocketProto.Server
import WebsocketProto.SpinLock
import WebsocketProto.WheelThreads

/-! Who holds the lock of the timing wheel, and who waits for whom. -/
namespace WebsocketProto
open Outcome
open SpinLock (Balanced)

/-- Between `lock()` and `unlock()`. -/
def Point.critical {F : Type} : Point F → Bool
  | .unlock | .join => true
  | _ => false

/-- Before `lock()`. -/
def Point.acquires {F : Type} : Point F → Bool
  | .call (.eraseTask _) | .place _ _ | .take _ _ => true
  | _ => false

/-- A place in `run_time_wheel` and `check`. -/
def Point.ofWheel {F : Type} : Point F → Bool
  | .loop | .tick _ | .cascade _ _ | .readd | .advance _ _ | .take _ _ | .tasks _ => true
  | .callback _ _ _ => true
  | .call _ | .place _ _ | .unlock | .join => false

namespace WheelThreads
variable {F : Type} {s s' : WheelThreads F} {t u : Nat} {rest points : List (Point F)}

/-- The thread executes a critical section. -/
def Inside (s : WheelThreads F) (t : Nat) : Prop := ((s.control t).head?.any Point.critical) = true

/-- The thread waits for the lock. -/
def Waiting (s : WheelThreads F) (t : Nat) : Prop :=
  s.wheel.locked = true ∧ ((s.control t).head?.any Point.acquires) = true

/-- The thread holds the lock and waits for the end of the wheel's thread. -/
def Joining (s : WheelThreads F) (t : Nat) : Prop := ∃ rest, s.control t = .join :: rest

/-- The discipline: the lock is free when nobody executes a critical section, and nobody who
holds it waits for another thread that waits for it. -/
structure Disciplined (s : WheelThreads F) : Prop where
  free : (∀ t, ¬ s.Inside t) → s.wheel.locked = false
  unblocked : ∀ t, s.Joining t → t ≠ wheelThread → ¬ s.Waiting wheelThread

/-- Up to its end, the wheel's thread does not come to another `lock()`. -/
def Leaving (wheel : TimeWheel F) : List (Point F) → Prop
  | [] => True
  | .loop :: rest => rest = []
  | .tick now :: rest => now < wheel.current ∧ Leaving wheel rest
  | .tasks _ :: rest => wheel.temp = [] ∧ Leaving wheel rest
  | .callback _ _ _ :: rest => Leaving wheel rest
  | _ => False

/-- An id that is erased is found; who stops the wheel and gets the lock is another thread than
the wheel's, for the first time, and finds that one on its way out, where the functions that
it may still start make no calls. -/
def ErasesAndStopsSafelyAt (s : WheelThreads F) (t : Nat) (calls : List (WheelCall F)) :
    List (Point F) → Prop
  | .call (.eraseTask id) :: _ =>
    s.wheel.locked = false → (s.wheel.idMap (id % 2 ^ 32)).isSome = true
  | .call .stopTimeWheel :: _ => s.wheel.locked = false →
    t ≠ wheelThread ∧ s.joined = false ∧ Leaving s.wheel (s.control wheelThread)
  | .callback _ _ _ :: _ => s.stopRequested = true → calls = []
  | _ => True

def ErasesAndStopsSafely (s : WheelThreads F) : ThreadLabel F → Prop
  | .call _ _ => True
  | .step t _ calls => s.ErasesAndStopsSafelyAt t calls (s.control t)

@[simp] theorem goto_self : (s.goto t points).control t = points := Function.update_self ..

theorem goto_other (apart : u ≠ t) : (s.goto t points).control u = s.control u :=
  Function.update_of_ne apart ..

@[simp] theorem enter_self {wheel : TimeWheel F} : (s.enter t wheel points).control t = points :=
  Function.update_self ..

theorem enter_other {wheel : TimeWheel F} (apart : u ≠ t) :
    (s.enter t wheel points).control u = s.control u :=
  Function.update_of_ne apart ..

/-- No critical section is under way in any of these places. -/
def Uncritical (points : List (Point F)) : Prop := ∀ point ∈ points, point.critical = false

/-- What a step of a thread does with the lock. -/
inductive Moves (s s' : WheelThreads F) (t : Nat) : Prop where
  | plain (outside : ¬ s.Inside t) (calm : Uncritical (s'.control t))
      (same : s'.wheel.locked = s.wheel.locked)
  | enters (free : s.wheel.locked = false) (held : s'.wheel.locked = true)
      (rest : List (Point F)) (next : s'.control t = .unlock :: rest) (calm : Uncritical rest)
  | stops (rest : List (Point F)) (here : s.control t = .call .stopTimeWheel :: rest)
      (free : s.wheel.locked = false) (calm : Uncritical rest)
      (result : s' = { s with stopRequested := true }.enter t s.wheel (.join :: rest))
  | leaves (inside : s.Inside t) (calm : Uncritical (s'.control t)) (free : s'.wheel.locked = false)
  | joins (rest : List (Point F)) (here : s.control t = .join :: rest) (calm : Uncritical rest)
      (next : s'.control t = .unlock :: rest) (same : s'.wheel.locked = s.wheel.locked)

theorem inside_cons {point : Point F} (next : s.control t = point :: rest) :
    s.Inside t ↔ point.critical = true := by
  simp [Inside, next]

theorem Uncritical.outside (calm : Uncritical (s.control t)) : ¬ s.Inside t := by
  cases next : s.control t with
  | nil => simp [Inside, next]
  | cons point rest =>
    rw [inside_cons next, calm point (next ▸ List.mem_cons_self)]
    exact Bool.false_ne_true

theorem Uncritical.cons {point : Point F} (calm : Uncritical rest) (here : point.critical = false) :
    Uncritical (point :: rest) := List.forall_mem_cons.mpr ⟨here, calm⟩

theorem Uncritical.append {front : List (Point F)} (calm : Uncritical rest) (here : Uncritical front) :
    Uncritical (front ++ rest) := List.forall_mem_append.mpr ⟨here, calm⟩

theorem levels_calm (current : Int) : Uncritical (levels current : List (Point F)) := by
  unfold levels
  intro point member
  split at member
  · contradiction
  rcases List.mem_cons.mp member with rfl | member
  · rfl
  split at member
  · contradiction
  rcases List.mem_cons.mp member with rfl | member
  · rfl
  split at member
  · contradiction
  rcases List.mem_cons.mp member with rfl | member
  · rfl
  split at member
  · contradiction
  · rw [List.mem_singleton.mp member]
    rfl

theorem addNode_locked {wheel wheel' : TimeWheel F} {node : TimeNode F}
    (done : wheel.addNode node = .ok wheel') : wheel.locked = false := by
  unfold TimeWheel.addNode at done
  dsimp only at done
  split at done
  · contradiction
  · rename_i free
    exact Bool.eq_false_iff.mpr free

theorem eraseTask_locked {wheel wheel' : TimeWheel F} {id : Nat} {found : Bool}
    (done : wheel.eraseTask id = .ok (wheel', found)) : wheel.locked = false ∧
      (wheel.idMap (id % 2 ^ 32)).isSome = found := by
  unfold TimeWheel.eraseTask at done
  split at done
  · contradiction
  · rename_i free
    refine ⟨Bool.eq_false_iff.mpr free, ?_⟩
    split at done
    · rename_i missing
      cases done
      rw [missing]
      rfl
    · rename_i addr there
      cases done
      rw [there]
      rfl

/-- A step that only goes on elsewhere. -/
theorem Moves.goes (outside : ¬ s.Inside t) (calm : Uncritical points)
    (same : s'.wheel.locked = s.wheel.locked) : Moves s (s'.goto t points) t :=
  .plain outside (goto_self ▸ calm) same

theorem Moves.entered {wheel : TimeWheel F} (free : s.wheel.locked = false) (calm : Uncritical rest) :
    Moves s (s'.enter t wheel (.unlock :: rest)) t :=
  .enters free rfl rest enter_self calm

theorem begin_moves {c : WheelCall F} {now : Int} {calls : List (WheelCall F)}
    (here : s.control t = .call c :: rest) (calm : Uncritical rest)
    (safely : s.ErasesAndStopsSafely (.step t now calls)) (done : s.begin t rest c = .ok s') :
    Moves s s' t := by
  have outside : ¬ s.Inside t := by
    rw [inside_cons here]
    exact Bool.false_ne_true
  rw [ErasesAndStopsSafely, here, ErasesAndStopsSafelyAt.eq_def] at safely
  cases c with
  | addTask now fn expire circleCount immediate delay =>
    cases done
    exact .goes outside (calm.cons rfl) rfl
  | eraseTask id =>
    rw [begin] at done
    cases erased : s.wheel.eraseTask id with
    | error fault =>
      rw [erased] at done
      contradiction
    | ok result =>
      obtain ⟨wheel, found⟩ := result
      obtain ⟨free, known⟩ := eraseTask_locked erased
      have present := safely free
      rw [known] at present
      subst present
      rw [erased] at done
      cases done
      exact .entered free calm
  | stopTimeWheel =>
    rw [begin] at done
    split at done
    · cases done
      exact .goes outside calm rfl
    · rename_i free
      cases done
      exact .stops rest here (Bool.eq_false_iff.mpr free) calm rfl

theorem nextTask_moves {now : Int} (outside : ¬ s.Inside t) (calm : Uncritical rest) :
    Moves s (s.nextTask t rest now) t := by
  rw [nextTask]
  split
  · exact .goes outside calm rfl
  · dsimp only
    split
    · exact .goes outside (((calm.cons rfl).cons rfl).cons rfl) rfl
    · exact .goes outside ((calm.cons rfl).cons rfl) rfl

/-- Where a thread joins, the wheel's thread is another one that nobody has joined yet. -/
def Joins (s : WheelThreads F) : Prop :=
  ∀ t, s.Joining t → t ≠ wheelThread ∧ s.joined = false ∧ s.stopRequested = true ∧
    Leaving s.wheel (s.control wheelThread)

theorem advance_moves {now : Int} {calls : List (WheelCall F)} {point : Point F}
    (here : s.control t = point :: rest) (calm : Uncritical rest) (joins : s.Joins)
    (safely : s.ErasesAndStopsSafely (.step t now calls))
    (done : s.advance t now calls point rest = .ok s') :
    Moves s s' t := by
  have outside (away : point.critical = false) : ¬ s.Inside t := by
    rw [inside_cons here, away]
    exact Bool.false_ne_true
  cases point with
  | call c => exact begin_moves here calm safely done
  | place seen node =>
    rw [advance, addNode] at done
    split at done
    · contradiction
    · rename_i wheel placed
      have unlocked := addNode_locked placed
      have free : s.wheel.locked = false := unlocked
      cases done
      exact .entered free calm
  | unlock =>
    cases done
    exact .leaves ((inside_cons here).mpr rfl) (goto_self ▸ calm) rfl
  | join =>
    obtain ⟨other, fresh, _⟩ := joins t ⟨rest, here⟩
    rw [advance, join, if_neg (by rintro (again | own); simp [fresh] at again; exact other own)]
      at done
    split at done
    · cases done
      exact .joins rest here calm goto_self rfl
    · contradiction
  | loop =>
    cases done
    refine .goes (outside rfl) ?_ rfl
    split
    · exact calm
    · exact (calm.cons rfl).cons rfl
  | tick until_ =>
    rw [advance] at done
    split at done
    · cases done
      exact .goes (outside rfl) calm rfl
    · cases done
      exact .goes (outside rfl) (((calm.cons rfl).cons rfl).append (levels_calm _)) rfl
  | cascade offset idx =>
    cases done
    exact .goes (outside rfl) (calm.cons rfl) rfl
  | readd =>
    rw [advance] at done
    split at done
    · cases done
      exact .goes (outside rfl) calm rfl
    · cases done
      exact .goes (outside rfl) ((calm.cons rfl).cons rfl) rfl
  | advance idx until_ =>
    cases done
    exact .goes (outside rfl) (calm.cons rfl) rfl
  | take idx until_ =>
    rw [advance] at done
    split at done
    · contradiction
    · rename_i free
      cases done
      exact .entered (Bool.eq_false_iff.mpr free) (calm.cons rfl)
  | tasks until_ =>
    cases done
    exact nextTask_moves (outside rfl) calm
  | callback fn isDone id =>
    cases done
    refine .goes (outside rfl) (calm.append ?_) rfl
    intro point member
    obtain ⟨c, _, rfl⟩ := List.mem_map.mp member
    rfl

theorem begin_control {c : WheelCall F} (done : s.begin t rest c = .ok s') :
    ∃ points, s'.control = Function.update s.control t points ∧
      ((∀ p ∈ rest, p.ofWheel = false) → ∀ p ∈ points, p.ofWheel = false) := by
  have onward (p : Point F) (outer : p.ofWheel = false) (all : ∀ p ∈ rest, p.ofWheel = false) :
      ∀ q ∈ p :: rest, q.ofWheel = false := List.forall_mem_cons.mpr ⟨outer, all⟩
  cases c with
  | addTask =>
    cases done
    exact ⟨_, rfl, onward _ rfl⟩
  | eraseTask id =>
    rw [begin] at done
    split at done
    · contradiction
    · cases done
      exact ⟨_, rfl, fun all => all⟩
    · cases done
      exact ⟨_, rfl, onward _ rfl⟩
  | stopTimeWheel =>
    rw [begin] at done
    split at done
    · cases done
      exact ⟨_, rfl, fun all => all⟩
    · cases done
      exact ⟨_, rfl, onward _ rfl⟩

theorem nextTask_control {now : Int} : ∃ points,
    (s.nextTask t rest now).control = Function.update s.control t points := by
  rw [nextTask]
  split
  · exact ⟨_, rfl⟩
  · dsimp only
    split
    · exact ⟨_, rfl⟩
    · exact ⟨_, rfl⟩

/-- A step puts its own thread elsewhere, and threads other than the wheel's do not come into the
functions of the wheel's thread. -/
theorem advance_control {now : Int} {calls : List (WheelCall F)} {point : Point F}
    (done : s.advance t now calls point rest = .ok s') :
    ∃ points, s'.control = Function.update s.control t points ∧
      ((∀ p ∈ point :: rest, p.ofWheel = false) → ∀ p ∈ points, p.ofWheel = false) := by
  have back (all : ∀ p ∈ point :: rest, p.ofWheel = false) : ∀ p ∈ rest, p.ofWheel = false :=
    (List.forall_mem_cons.mp all).2
  have onward (p : Point F) (outer : p.ofWheel = false)
      (all : ∀ p ∈ point :: rest, p.ofWheel = false) : ∀ q ∈ p :: rest, q.ofWheel = false :=
    List.forall_mem_cons.mpr ⟨outer, back all⟩
  have wheels (points : List (Point F)) (inner : point.ofWheel = true)
      (all : ∀ p ∈ point :: rest, p.ofWheel = false) : ∀ p ∈ points, p.ofWheel = false := by
    rw [all point List.mem_cons_self] at inner
    contradiction
  cases point with
  | call c =>
    obtain ⟨points, moved, outer⟩ := begin_control done
    exact ⟨points, moved, fun all => outer (back all)⟩
  | place seen node =>
    rw [advance, addNode] at done
    split at done
    · contradiction
    · cases done
      exact ⟨_, rfl, onward _ rfl⟩
  | unlock =>
    cases done
    exact ⟨_, rfl, back⟩
  | join =>
    rw [advance, join] at done
    split at done
    · cases done
      exact ⟨_, rfl, back⟩
    · split at done
      · cases done
        exact ⟨_, rfl, onward _ rfl⟩
      · contradiction
  | tick until_ =>
    rw [advance] at done
    split at done
    · cases done
      exact ⟨_, rfl, back⟩
    · cases done
      exact ⟨_, rfl, wheels _ rfl⟩
  | readd =>
    rw [advance] at done
    split at done
    · cases done
      exact ⟨_, rfl, back⟩
    · cases done
      exact ⟨_, rfl, wheels _ rfl⟩
  | take idx until_ =>
    rw [advance] at done
    split at done
    · contradiction
    · cases done
      exact ⟨_, rfl, wheels _ rfl⟩
  | tasks until_ =>
    cases done
    obtain ⟨points, moved⟩ : ∃ points, (s.nextTask t rest until_).control =
      Function.update s.control t points := nextTask_control
    exact ⟨points, moved, wheels points rfl⟩
  | loop | cascade | advance | callback =>
    cases done
    exact ⟨_, rfl, wheels _ rfl⟩

/-- A step of one thread leaves the others where they are. -/
theorem advance_others {now : Int} {calls : List (WheelCall F)} {point : Point F} (apart : u ≠ t)
    (done : s.advance t now calls point rest = .ok s') : s'.control u = s.control u := by
  obtain ⟨points, moved, _⟩ := advance_control done
  rw [moved]
  exact Function.update_of_ne apart ..

theorem advance_workers {now : Int} {calls : List (WheelCall F)} {point : Point F}
    (all : ∀ p ∈ point :: rest, p.ofWheel = false)
    (done : s.advance t now calls point rest = .ok s') :
    ∀ p ∈ s'.control t, p.ofWheel = false := by
  obtain ⟨points, moved, outer⟩ := advance_control done
  rw [moved, Function.update_self]
  exact outer all

/-- The lock is held exactly by the thread that is inside, no critical section is buried under
other places, and only the wheel's thread is in the functions of the wheel's thread. -/
structure Sane (s : WheelThreads F) : Prop where
  balanced : Balanced s.wheel.locked s.Inside
  calm : ∀ t point rest, s.control t = point :: rest → Uncritical rest
  joins : s.Joins
  workers : ∀ t, t ≠ wheelThread → ∀ point ∈ s.control t, point.ofWheel = false

theorem Moves.balanced (moves : Moves s s' t) (balanced : Balanced s.wheel.locked s.Inside)
    (others : ∀ u, u ≠ t → s'.control u = s.control u) :
    Balanced s'.wheel.locked s'.Inside := by
  have outer (u : Nat) (apart : u ≠ t) : s'.Inside u ↔ s.Inside u := by
    rw [Inside, Inside, others u apart]
  have frame (stays : s'.Inside t ↔ s.Inside t) (u : Nat) : s'.Inside u ↔ s.Inside u := by
    by_cases own : u = t
    · exact own ▸ stays
    · exact outer u own
  cases moves with
  | plain outside calm same =>
    rw [same]
    exact balanced.still (frame (iff_of_false calm.outside outside))
  | enters free held rest next calm =>
    rw [free] at balanced
    rw [held]
    exact balanced.enter ((inside_cons next).mpr rfl) fun u apart => (outer u apart).mp
  | stops rest here free calm result =>
    rw [free] at balanced
    have next : s'.control t = .join :: rest := result ▸ enter_self
    have held : s'.wheel.locked = true := result ▸ rfl
    rw [held]
    exact balanced.enter ((inside_cons next).mpr rfl) fun u apart => (outer u apart).mp
  | leaves inside calm free =>
    rw [free]
    exact balanced.leave inside calm.outside fun u apart => (outer u apart).mp
  | joins rest here calm next same =>
    rw [same]
    exact balanced.still (frame (iff_of_true ((inside_cons next).mpr rfl)
      ((inside_cons here).mpr rfl)))

theorem Moves.calm (moves : Moves s s' t)
    (calm : ∀ t point rest, s.control t = point :: rest → Uncritical rest)
    (others : ∀ u, u ≠ t → s'.control u = s.control u) (u : Nat) (point : Point F)
    (rest : List (Point F)) (next : s'.control u = point :: rest) : Uncritical rest := by
  by_cases own : u = t
  · subst own
    cases moves with
    | plain _ all _ | leaves _ all _ =>
      rw [next] at all
      exact fun other member => all other (List.mem_cons_of_mem _ member)
    | enters _ _ rest' next' all | joins rest' _ all next' _ =>
      rw [next] at next'
      cases next'
      exact all
    | stops rest' _ _ all result =>
      have next' : s'.control u = .join :: rest' := result ▸ enter_self
      rw [next] at next'
      cases next'
      exact all
  · exact calm u point rest (others u own ▸ next)

theorem Leaving.same {wheel wheel' : TimeWheel F} (leaving : Leaving wheel points)
    (current : wheel'.current = wheel.current) (temp : wheel'.temp = wheel.temp) :
    Leaving wheel' points := by
  induction points with
  | nil => trivial
  | cons point rest ih =>
    cases point with
    | loop => exact leaving
    | tick now => exact ⟨current ▸ leaving.1, ih leaving.2⟩
    | tasks now => exact ⟨temp ▸ leaving.1, ih leaving.2⟩
    | callback fn isDone id => exact ih leaving
    | _ => contradiction

/-- The wheel's thread on its way out takes another step of it. -/
theorem advance_leaving {now : Int} {calls : List (WheelCall F)} {point : Point F}
    (leaving : Leaving s.wheel (point :: rest)) (stopped : s.stopRequested = true)
    (here : s.control t = point :: rest) (safely : s.ErasesAndStopsSafely (.step t now calls))
    (done : s.advance t now calls point rest = .ok s') :
    s'.joined = s.joined ∧ s'.stopRequested = s.stopRequested ∧
      Leaving s'.wheel (s'.control t) := by
  rw [ErasesAndStopsSafely, here, ErasesAndStopsSafelyAt.eq_def] at safely
  cases point with
  | loop =>
    obtain rfl : rest = [] := leaving
    cases done
    rw [stopped, if_pos rfl, goto_self]
    exact ⟨rfl, stopped, trivial⟩
  | tick until_ =>
    rw [advance, if_pos leaving.1] at done
    cases done
    rw [goto_self]
    exact ⟨rfl, rfl, leaving.2⟩
  | tasks until_ =>
    cases done
    rw [nextTask, leaving.1]
    dsimp only
    rw [goto_self]
    exact ⟨rfl, rfl, leaving.2⟩
  | callback fn isDone id =>
    obtain rfl := safely stopped
    cases done
    rw [goto_self]
    exact ⟨rfl, rfl, leaving⟩
  | _ => contradiction

/-- While the lock is held, another thread that is outside does nothing to the wheel that the
way out depends on. -/
theorem advance_blocked {now : Int} {calls : List (WheelCall F)} {point : Point F}
    (locked : s.wheel.locked = true) (worker : point.ofWheel = false)
    (outside : point.critical = false) (done : s.advance t now calls point rest = .ok s') :
    s'.joined = s.joined ∧ s'.stopRequested = s.stopRequested ∧
      s'.wheel.current = s.wheel.current ∧ s'.wheel.temp = s.wheel.temp := by
  cases point with
  | call c =>
    cases c with
    | addTask =>
      cases done
      exact ⟨rfl, rfl, rfl, rfl⟩
    | eraseTask id =>
      rw [advance, begin, TimeWheel.eraseTask, if_pos locked] at done
      contradiction
    | stopTimeWheel =>
      rw [advance, begin, if_pos locked] at done
      cases done
      exact ⟨rfl, rfl, rfl, rfl⟩
  | place seen node =>
    rw [advance, addNode, TimeWheel.addNode] at done
    dsimp only at done
    rw [if_pos locked] at done
    contradiction
  | _ => contradiction

theorem advance_joins {now : Int} {calls : List (WheelCall F)} {point : Point F} (sane : Sane s)
    (here : s.control t = point :: rest) (safely : s.ErasesAndStopsSafely (.step t now calls))
    (done : s.advance t now calls point rest = .ok s') : s'.Joins := by
  have moves := advance_moves here (sane.calm t point rest here) sane.joins safely done
  have others (u : Nat) (apart : u ≠ t) : s'.control u = s.control u := advance_others apart done
  rintro u ⟨more, joining⟩
  have inside : s'.Inside u := (inside_cons joining).mpr rfl
  by_cases own : u = t
  · subst own
    cases moves with
    | plain _ calm _ | leaves _ calm _ => exact absurd inside calm.outside
    | enters _ _ _ next _ | joins _ _ _ next _ =>
      rw [next] at joining
      cases joining
    | stops rest' here' free _ result =>
      rw [ErasesAndStopsSafely, here', ErasesAndStopsSafelyAt] at safely
      obtain ⟨worker, fresh, leaving⟩ := safely free
      subst result
      rw [enter_other worker.symm]
      exact ⟨worker, fresh, rfl, leaving.same rfl rfl⟩
  · rw [others u own] at joining
    obtain ⟨worker, fresh, stopped, leaving⟩ := sane.joins u ⟨more, joining⟩
    have inside' : s.Inside u := (inside_cons joining).mpr rfl
    have outside : ¬ s.Inside t := fun there => own (sane.balanced.alone u t inside' there)
    by_cases wheel : t = wheelThread
    · subst wheel
      rw [here] at leaving
      obtain ⟨joined, requested, still⟩ := advance_leaving leaving stopped here safely done
      exact ⟨worker, joined.trans fresh, requested.trans stopped, still⟩
    · have locked := sane.balanced.taken u inside'
      have calm : point.critical = false := by
        rw [inside_cons here] at outside
        exact Bool.eq_false_iff.mpr outside
      have ofWorker := sane.workers t wheel point (here ▸ List.mem_cons_self)
      obtain ⟨joined, requested, current, temp⟩ := advance_blocked locked ofWorker calm done
      rw [others wheelThread (Ne.symm wheel)]
      exact ⟨worker, joined.trans fresh, requested.trans stopped, leaving.same current temp⟩

theorem step_sane {l : ThreadLabel F} (sane : Sane s) (safely : s.ErasesAndStopsSafely l)
    (done : s.step l = .ok s') : Sane s' := by
  cases l with
  | call t c =>
    rw [step] at done
    split at done
    · rename_i idle
      cases done
      have empty : s.control t = [] := List.isEmpty_iff.mp idle.2
      have outside : ¬ s.Inside t := by simp [Inside, empty]
      have calm : Uncritical ([.call c] : List (Point F)) := List.forall_mem_singleton.mpr rfl
      have moves : Moves s (s.goto t [.call c]) t := .goes outside calm rfl
      have others (u : Nat) (apart : u ≠ t) : (s.goto t [.call c]).control u = s.control u :=
        goto_other apart
      refine ⟨moves.balanced sane.balanced others, moves.calm sane.calm others, ?_, ?_⟩
      · rintro u ⟨more, joining⟩
        by_cases own : u = t
        · subst own
          rw [goto_self] at joining
          cases joining
        · rw [goto_other own] at joining
          rw [goto_other (Ne.symm idle.1)]
          exact sane.joins u ⟨more, joining⟩
      · intro u worker
        by_cases own : u = t
        · subst own
          rw [goto_self]
          exact List.forall_mem_singleton.mpr rfl
        · rw [goto_other own]
          exact sane.workers u worker
    · contradiction
  | step t now calls =>
    rw [step] at done
    split at done
    · contradiction
    · rename_i point rest here
      have moves := advance_moves here (sane.calm t point rest here) sane.joins safely done
      have others (u : Nat) (apart : u ≠ t) : s'.control u = s.control u :=
        advance_others apart done
      refine ⟨moves.balanced sane.balanced others, moves.calm sane.calm others,
        advance_joins sane here safely done, fun u worker => ?_⟩
      by_cases own : u = t
      · subst own
        exact advance_workers (here ▸ sane.workers u worker) done
      · rw [others u own]
        exact sane.workers u worker

theorem Leaving.no_lock {wheel : TimeWheel F} (leaving : Leaving wheel points) :
    points.head?.any Point.acquires = false := by
  cases points with
  | nil => rfl
  | cons point rest =>
    cases point with
    | loop | tick | tasks | callback => rfl
    | _ => contradiction

theorem Sane.disciplined (sane : Sane s) : Disciplined s := by
  refine ⟨fun nobody => Bool.eq_false_iff.mpr fun locked => ?_, fun t joining worker waiting => ?_⟩
  · obtain ⟨t, inside⟩ := sane.balanced.held locked
    exact nobody t inside
  · have calm := (sane.joins t joining).2.2.2.no_lock
    rw [waiting.2] at calm
    contradiction

theorem start_other {current : Int} (worker : t ≠ wheelThread) :
    (start current : WheelThreads F).control t = [] := by
  simp [start, worker]

theorem start_sane (current : Int) : Sane (start current : WheelThreads F) := by
  have own : (start current : WheelThreads F).control wheelThread = [.loop] := by
    simp [start]
  have calm (t : Nat) : Uncritical ((start current : WheelThreads F).control t) := by
    by_cases wheel : t = wheelThread
    · rw [wheel, own]
      exact List.forall_mem_singleton.mpr rfl
    · rw [start_other wheel]
      exact nofun
  refine ⟨.nobody fun t => (calm t).outside, fun t point rest next => ?_, ?_, ?_⟩
  · have all := calm t
    rw [next] at all
    exact fun other member => all other (List.mem_cons_of_mem _ member)
  · rintro t ⟨rest, joining⟩
    have all := calm t .join (joining ▸ List.mem_cons_self)
    contradiction
  · intro t worker
    rw [start_other worker]
    exact nofun

instance Leaving.decidable (wheel : TimeWheel F) :
    (points : List (Point F)) → Decidable (Leaving wheel points)
  | [] => isTrue trivial
  | .loop :: _ => inferInstanceAs (Decidable (_ = []))
  | .tick now :: rest =>
    have := Leaving.decidable wheel rest
    inferInstanceAs (Decidable (now < wheel.current ∧ Leaving wheel rest))
  | .tasks _ :: rest =>
    have := Leaving.decidable wheel rest
    inferInstanceAs (Decidable (wheel.temp = [] ∧ Leaving wheel rest))
  | .callback _ _ _ :: rest => Leaving.decidable wheel rest
  | .call _ :: _ | .place _ _ :: _ | .unlock :: _ | .join :: _ => isFalse id
  | .cascade _ _ :: _ | .readd :: _ | .advance _ _ :: _ | .take _ _ :: _ => isFalse id

instance (s : WheelThreads F) (t : Nat) (calls : List (WheelCall F)) :
    (points : List (Point F)) → Decidable (s.ErasesAndStopsSafelyAt t calls points)
  | .call (.eraseTask _) :: _ | .call .stopTimeWheel :: _ | .callback _ _ _ :: _ =>
    inferInstanceAs (Decidable (_ → _))
  | [] | .call (.addTask ..) :: _ | .place _ _ :: _ | .unlock :: _ | .join :: _ => isTrue trivial
  | .loop :: _ | .tick _ :: _ | .cascade _ _ :: _ | .readd :: _ => isTrue trivial
  | .advance _ _ :: _ | .take _ _ :: _ | .tasks _ :: _ => isTrue trivial

instance (s : WheelThreads F) : (l : ThreadLabel F) → Decidable (s.ErasesAndStopsSafely l)
  | .call _ _ => isTrue trivial
  | .step t _ calls => inferInstanceAs (Decidable (s.ErasesAndStopsSafelyAt t calls (s.control t)))

def ThreadLabel.thread : ThreadLabel F → Nat
  | .call t _ | .step t _ _ => t

theorem run_others {labels : List (ThreadLabel F)} (apart : ∀ l ∈ labels, u ≠ ThreadLabel.thread l)
    (reached : run step s labels = .ok s') : s'.control u = s.control u := by
  induction labels generalizing s with
  | nil => exact Except.ok.inj reached ▸ rfl
  | cons l rest ih =>
    obtain ⟨next, taken, later⟩ := bind_eq_ok.mp reached
    refine (ih (fun l member => apart l (List.mem_cons_of_mem _ member)) later).trans ?_
    have away := apart l List.mem_cons_self
    cases l with
    | call t c =>
      rw [step] at taken
      split at taken
      · cases taken
        exact goto_other away
      · contradiction
    | step t now calls =>
      rw [step] at taken
      split at taken
      · contradiction
      · exact advance_others away taken

end WheelThreads

theorem lock_disciplined (F : Type) (current : Int) (labels : List (ThreadLabel F))
    (safely : Along WheelThreads.step WheelThreads.ErasesAndStopsSafely (.start current) labels)
    (s : WheelThreads F) (reached : run WheelThreads.step (.start current) labels = .ok s) :
    s.Disciplined := by
  have kept (s : WheelThreads F) (l : ThreadLabel F) (s' : WheelThreads F) (sane : s.Sane)
      (cond : s.ErasesAndStopsSafely l) (done : s.step l = .ok s') : s'.Sane :=
    WheelThreads.step_sane sane cond done
  exact (along_invariant kept (WheelThreads.start_sane current) safely reached).disciplined

/-- A thread takes its next steps. -/
def steps (t count : Nat) : List (ThreadLabel Task) := List.replicate count (.step t 1 [])

/-- Thread 1 adds an expiry task that is due at once. -/
def expiryAdded : List (ThreadLabel Task) :=
  .call 1 (.addTask 1 (.expire 0) 0 1 false 0) :: steps 1 3

/-- Another thread erases the task, and the wheel is stopped between two checks. -/
theorem erased_and_stopped : ∃ s, run WheelThreads.step (.start 1)
    (expiryAdded ++ .call 2 (.eraseTask 1) :: steps 2 2 ++
      .call 1 .stopTimeWheel :: steps 1 1 ++ steps 0 1 ++ steps 1 2) = .ok s ∧ s.Disciplined := by
  obtain ⟨s, reached⟩ : ∃ s, run WheelThreads.step (.start 1)
      (expiryAdded ++ .call 2 (.eraseTask 1) :: steps 2 2 ++
        .call 1 .stopTimeWheel :: steps 1 1 ++ steps 0 1 ++ steps 1 2) = .ok s :=
    exists_ok (by decide +kernel)
  exact ⟨s, reached, lock_disciplined Task 1 _ (by decide +kernel) s reached⟩

/-- The task runs, and its function erases it again, as the destructor of the client that it
closes does: the id is gone, and the lock stays held. -/
theorem fired_id_keeps_lock : ∃ s, run WheelThreads.step (.start 1)
    (expiryAdded ++ steps 0 6 ++ [.step 0 1 [.eraseTask 1]] ++ steps 0 1) = .ok s ∧
    s.wheel.locked = true ∧ (∀ t, ¬ s.Inside t) ∧ ¬ s.Disciplined := by
  obtain ⟨s, reached, facts⟩ := reaches (x := run WheelThreads.step (.start 1)
      (expiryAdded ++ steps 0 6 ++ [.step 0 1 [.eraseTask 1]] ++ steps 0 1))
    (f := fun s => (s.wheel.locked, (s.control 0).head?.any Point.critical,
      (s.control 1).head?.any Point.critical))
    (b := (true, false, false)) (by decide +kernel)
  obtain ⟨locked, facts⟩ := Prod.mk.inj facts
  obtain ⟨first, second⟩ := Prod.mk.inj facts
  have nobody (t : Nat) : ¬ s.Inside t := by
    unfold WheelThreads.Inside
    by_cases wheel : t = 0
    · rw [wheel, first]
      exact Bool.false_ne_true
    by_cases adder : t = 1
    · rw [adder, second]
      exact Bool.false_ne_true
    · have idle := WheelThreads.run_others (u := t) (by
        simp [expiryAdded, steps, WheelThreads.ThreadLabel.thread, wheel, adder]) reached
      rw [idle, WheelThreads.start_other wheel]
      exact Bool.false_ne_true
  refine ⟨s, reached, locked, nobody, fun disciplined => ?_⟩
  rw [disciplined.free nobody] at locked
  contradiction

end WebsocketProto
