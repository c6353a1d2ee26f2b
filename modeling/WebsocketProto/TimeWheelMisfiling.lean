import WebsocketProto.TimeWheelSchedule
import WebsocketProto.WheelThreads

/-! `add_node` computes its slot without the lock, and ticks may run before it inserts the node.
The slot comes up at one tick of every turn of its level: a task is misfiled exactly when the wheel
has passed that tick meanwhile, and the delay is the rest of the turn. -/
namespace WebsocketProto
open Outcome

variable {F : Type}

namespace TimeWheel
variable {s s' : TimeWheel F}

/-- The level of the list that the slot computation chooses, none for the near lists. -/
def level (seen expire : Int) : Option Nat :=
  if expire - seen < span 0 then none
  else if expire - seen < span 1 then some 0
  else if expire - seen < span 2 then some 1
  else if expire - seen < span 3 then some 2
  else some 3

/-- The tick for which the slot was chosen when `current_` was `seen`. -/
def slotTick (seen expire : Int) : Int :=
  match level seen expire with
  | none => max seen expire
  | some k => turn k expire

/-- The ticks from one time that the slot comes up to the next. -/
def slotPeriod (seen expire : Int) : Int :=
  match level seen expire with
  | none => span 0
  | some k => span (k + 1)

/-- The slot still comes up in time when the wheel stands at `now`. -/
def SlotAhead (seen expire now : Int) : Prop :=
  now ≤ slotTick seen expire ∨ slotPeriod seen expire ∣ now - slotTick seen expire

instance (seen expire now : Int) : Decidable (SlotAhead seen expire now) :=
  inferInstanceAs (Decidable (_ ∨ _))

/-- The first tick from `now` on in which a slot comes up. -/
def visit (tick period now : Int) : Int := now + (tick - now) % period

/-- A list with a tick and a period in which it comes up. -/
inductive Slotted (seen expire : Int) : Nat → Int → Int → Prop where
  | near (close : expire - seen < span 0) :
    Slotted seen expire (nearIndex (max seen expire)) (max seen expire) (span 0)
  | level (k : Nat) (named : k < LEVEL) (far : span k ≤ expire - seen)
    (inside : expire - seen < span (k + 1)) :
    Slotted seen expire (OFFSET k + INDEX expire k) (turn k expire) (span (k + 1))

theorem slotted_near (seen expire : Int) (close : expire - seen < span 0) :
    Slotted seen expire (nearIndex (max seen expire)) (slotTick seen expire)
      (slotPeriod seen expire) := by
  have none_ : level seen expire = none := if_pos close
  simp only [slotTick, slotPeriod, none_]
  exact .near close

theorem slotted_level {seen expire : Int} {k : Nat} (named : k < LEVEL)
    (far : span k ≤ expire - seen) (inside : expire - seen < span (k + 1)) :
    Slotted seen expire (OFFSET k + INDEX expire k) (slotTick seen expire)
      (slotPeriod seen expire) := by
  have spans : span 0 = 2 ^ 8 ∧ span 1 = 2 ^ 14 ∧ span 2 = 2 ^ 20 ∧ span 3 = 2 ^ 26 := by decide
  obtain ⟨span0, span1, span2, span3⟩ := spans
  have some_ : level seen expire = some k := by
    unfold level
    rcases k with _ | _ | _ | _ | k
    all_goals simp only [Nat.reduceAdd, Nat.add_assoc] at far inside
    · rw [if_neg (by omega), if_pos (by omega)]
    · rw [if_neg (by omega), if_neg (by omega), if_pos (by omega)]
    · rw [if_neg (by omega), if_neg (by omega), if_neg (by omega), if_pos (by omega)]
    · rw [if_neg (by omega), if_neg (by omega), if_neg (by omega), if_neg (by omega)]
    · simp only [LEVEL] at named; omega
  simp only [slotTick, slotPeriod, some_]
  exact .level k named far inside

theorem place_slotted (seen expire : Int) (near : expire - seen ≤ 2 ^ 32 - 1) :
    Slotted seen expire (place seen expire).1 (slotTick seen expire) (slotPeriod seen expire) := by
  have spans : span 0 = 2 ^ 8 ∧ span 1 = 2 ^ 14 ∧ span 2 = 2 ^ 20 ∧ span 3 = 2 ^ 26 ∧
    span 4 = 2 ^ 32 := by decide
  obtain ⟨span0, span1, span2, span3, span4⟩ := spans
  have unclamped : ¬ expire - seen > 2 ^ 32 - 1 := by omega
  simp only [place, TIME_NEAR, TIME_NEAR_SHIFT, TIME_LEVEL_SHIFT, unclamped, ↓reduceIte]
  split
  · have later : expire = max seen expire := by omega
    have slotted := slotted_near seen expire (by omega)
    rwa [← later] at slotted
  split
  · exact slotted_level (by decide) (by omega) (show _ < span 1 by omega)
  split
  · exact slotted_level (by decide) (by omega) (show _ < span 2 by omega)
  split
  · exact slotted_level (by decide) (by omega) (show _ < span 3 by omega)
  split
  · have expired : seen = max seen expire := by omega
    have slotted := slotted_near seen expire (by omega)
    rwa [← expired] at slotted
  · exact slotted_level (by decide) (by omega) (show _ < span 4 by omega)

section Visits
variable {seen expire now tick period : Int} {idx : Nat}

theorem Slotted.bounds (slotted : Slotted seen expire idx tick period) :
    seen ≤ tick ∧ tick < seen + period ∧ tick ≤ max seen expire ∧ expire < tick + period := by
  cases slotted with
  | near close =>
    have width : span 0 = 256 := by decide
    omega
  | level k named far inside =>
    have low := turn_le k expire
    have high := lt_turn_add k expire
    have wider := span_succ k
    have positive := span_pos k
    omega

theorem Slotted.period_pos (slotted : Slotted seen expire idx tick period) : 0 < period := by
  have bounds := slotted.bounds
  omega

theorem visit_ahead (ahead : now ≤ tick) (inside : tick < now + period) :
    visit tick period now = tick := by
  rw [visit, Int.emod_eq_of_lt (by omega) (by omega)]
  omega

/-- A slot that the wheel has passed comes up a number of turns later. -/
theorem visit_behind (positive : 0 < period) (passed : tick < now) :
    ∃ turns, visit tick period now = tick + turns * period ∧
      tick + period ≤ visit tick period now := by
  have division := Int.mul_ediv_add_emod (tick - now) period
  have rest := Int.emod_nonneg (tick - now) (Int.ne_of_gt positive)
  have turns : visit tick period now = tick + -((tick - now) / period) * period := by
    rw [visit, Int.neg_mul, Int.mul_comm]
    omega
  refine ⟨_, turns, ?_⟩
  have later : 0 < -((tick - now) / period) * period := by
    unfold visit at turns
    omega
  have once := Int.pos_of_mul_pos_left later positive
  have whole := Int.mul_le_mul_of_nonneg_right (Int.add_one_le_of_lt once) (Int.le_of_lt positive)
  omega

theorem visit_inside (tick now : Int) (positive : 0 < period) :
    now ≤ visit tick period now ∧ visit tick period now < now + period := by
  have low := Int.emod_nonneg (tick - now) (Int.ne_of_gt positive)
  have high := Int.emod_lt_of_pos (tick - now) positive
  unfold visit
  omega

/-- The first visit is early enough exactly when the slot is ahead. -/
theorem Slotted.visit_le (slotted : Slotted seen expire idx tick period) (passed : seen ≤ now) :
    max expire (visit tick period now) ≤ max expire now ↔
      now ≤ tick ∨ period ∣ now - tick := by
  obtain ⟨low, high, early, late⟩ := slotted.bounds
  have positive := slotted.period_pos
  by_cases ahead : now ≤ tick
  · rw [visit_ahead ahead (by omega)]
    simp only [ahead, true_or, iff_true]
    omega
  · obtain ⟨turns, same, after⟩ := visit_behind positive (Int.not_le.mp ahead)
    have behind : max expire (visit tick period now) ≤ max expire now ↔
        (tick - now) % period = 0 := by
      have inside := visit_inside tick now positive
      unfold visit at after inside ⊢
      omega
    rw [behind, ← Int.dvd_iff_emod_eq_zero, ← Int.dvd_neg, Int.neg_sub]
    simp [ahead]

end Visits

/-- A task in list `idx` that some tick due or later takes out. A late one is not placed again
before that tick. -/
structure Aimed (upto : Nat) (t : Int) (idx : Nat) (expire tick : Int) : Prop where
  placed : Placed upto t idx tick tick
  within : expire ≤ tick
  late : expire < tick → ∀ k, OFFSET k ≤ idx → tick % span k = 0

theorem Placed.aimed {upto idx : Nat} {t expire : Int} (placed : Placed upto t idx expire expire) :
    Aimed upto t idx expire expire :=
  ⟨placed, Int.le_refl _, fun late => absurd late (Int.lt_irrefl _)⟩

theorem near_aimed {upto : Nat} {t tick expire : Int} (behind : t ≤ tick) (ahead : tick < t + 256)
    (within : expire ≤ tick) : Aimed upto t (nearIndex tick) expire tick where
  placed := .near rfl behind ahead
  within := within
  late _ k above := by
    have := nearIndex_lt tick
    rw [offset_eq] at above
    omega

/-- The slot that was chosen at `seen`, when the node is inserted at `now`. -/
theorem Slotted.aimed {seen expire now tick period : Int} {idx : Nat}
    (slotted : Slotted seen expire idx tick period) (passed : seen ≤ now) :
    Aimed 0 now idx expire (max expire (visit tick period now)) := by
  have positive := slotted.period_pos
  have inside := visit_inside tick now positive
  obtain ⟨low, high, early, after⟩ := slotted.bounds
  by_cases ahead : now ≤ tick
  · rw [visit_ahead ahead (by omega)]
    cases slotted with
    | near close =>
      have width : span 0 = 256 := by decide
      have due : max expire (max seen expire) = max seen expire := by omega
      rw [due]
      exact near_aimed ahead (by omega) (by omega)
    | level k named far inside =>
      have due : max expire (turn k expire) = expire := by
        have := turn_le k expire
        omega
      rw [due]
      exact Placed.aimed (.level k named rfl rfl ahead (by omega) (by omega))
  · obtain ⟨turns, same, later⟩ := visit_behind positive (Int.not_le.mp ahead)
    have due : max expire (visit tick period now) = visit tick period now := by omega
    rw [due]
    generalize visit tick period now = v at *
    cases slotted with
    | near close =>
      have width : span 0 = 256 := by decide
      rw [width] at same
      have list : nearIndex (max seen expire) = nearIndex v := by
        have left := nearIndex_eq (max seen expire)
        have right := nearIndex_eq v
        omega
      rw [list]
      exact near_aimed inside.1 (by omega) (by omega)
    | level k named far close =>
      have whole : v = (expire / span k + turns * 64) * span k := by
        rw [same, turn, span_succ, Int.add_mul, Int.mul_assoc turns]
      have quotient : v / span k = expire / span k + turns * 64 := by
        rw [whole, Int.mul_ediv_cancel _ (Int.ne_of_gt (span_pos k))]
      have exact_ : turn k v = v := by rw [turn, quotient, ← whole]
      have list : INDEX expire k = INDEX v k := by
        have left := index_eq expire k
        have right := index_eq v k
        omega
      refine ⟨.level k named (by rw [list]) rfl (by omega) (by omega) (by omega), by omega, ?_⟩
      intro _ k' above
      have lower : k' ≤ k := by
        have := index_lt expire k
        rw [offset_eq, offset_eq] at above
        omega
      have divides : span k ∣ v := whole ▸ Int.dvd_mul_left _ _
      exact Int.emod_eq_zero_of_dvd (Int.dvd_trans (span_dvd lower) divides)

theorem place_expired {t expire : Int} (expired : expire < t) :
    place t expire = (nearIndex t, expire) := by
  simp only [place, TIME_NEAR, TIME_NEAR_SHIFT, TIME_LEVEL_SHIFT,
    Int.not_le.mpr (Int.sub_neg_of_lt expired), Int.sub_neg_of_lt expired, false_and, ↓reduceIte]

/-- The rule for the nodes of one insertion; other nodes may lie anywhere. -/
def Aims (i : Insertion) (tick : Int) (upto : Nat) (t : Int) (idx : Nat) (n : TimeNode F) : Prop :=
  n.insertion = i → Aimed upto t idx n.expire tick

theorem aims_discipline (i : Insertion) (tick : Int) : Discipline (Aims (F := F) i tick) where
  next aims moved same := by
    obtain ⟨placed, within, late⟩ := aims same
    exact ⟨placed.next moved, within, late⟩
  unaligned aims unaligned same := by
    obtain ⟨placed, within, late⟩ := aims same
    exact ⟨placed.of_unaligned unaligned, within, late⟩
  replaced {k t n} named aims aligned same := by
    obtain ⟨placed, within, late⟩ := aims same
    obtain ⟨_, behind, ahead⟩ := placed.of_cascaded aligned
    dsimp only
    by_cases tardy : n.expire < tick
    · have whole := late tardy k (Nat.le_add_right _ _)
      have apart : span k ∣ tick - t :=
        Int.dvd_sub (Int.dvd_of_emod_eq_zero whole) (Int.dvd_of_emod_eq_zero aligned)
      have now := Int.eq_zero_of_dvd_of_nonneg_of_lt (by omega) (by omega) apart
      obtain rfl : tick = t := by omega
      rw [place_expired tardy]
      exact near_aimed (Int.le_refl _) (by omega) within
    · obtain rfl : n.expire = tick := by omega
      have bound := span_lt named
      have unclamped := place_expire t n.expire (by omega)
      have filed := place_placed (k + 1) t n.expire
      have due : max n.expire t = n.expire := by omega
      rw [unclamped, due] at filed
      rw [unclamped]
      exact filed.aimed

theorem Aims.advance {i : Insertion} {tick t : Int} {idx : Nat} {n : TimeNode F}
    (aims : Aims i tick LEVEL t idx n) (other : idx ≠ nearIndex t) :
    Aims i tick 0 (t + 1) idx n := by
  intro same
  obtain ⟨placed, within, late⟩ := aims same
  exact ⟨placed.advance other, within, late⟩

/-- The locked insertion, into the slot that was chosen when `current_` was `seen`. -/
def insertSeen (s : TimeWheel F) (seen : Int) (node : TimeNode F) :
    Except WheelFault (TimeWheel F) := do
  let inserted ← addNode { s.stamp node with current := seen }
    { node with insertion := s.stamped node }
  return { inserted with current := s.current }

end TimeWheel

/-- A call of `add_node` between its two steps. The slot and the expiry that it has computed are
those of `place`, for the `current_` that it has seen. -/
structure Adding (F : Type) where
  seen : Int
  node : TimeNode F

/-- The wheel, and the calls of `add_node` that have computed their slot. -/
structure SplitWheel (F : Type) where
  wheel : TimeWheel F
  adding : List (Adding F)

inductive SplitOp (F : Type) where
  | wheel (op : WheelOp F)
  | compute (now : Int) (fn : F) (expire : Int) (circleCount : UInt32) (immediate : Bool)
      (delay : Int)
  | insert (n : Nat)

namespace SplitWheel

def empty (current : Int) : SplitWheel F := ⟨.empty current, []⟩

/-- Ticks and whole calls are those of the wheel; an `add_task` of another thread takes two steps,
and any steps may stand between them. -/
def step (s : SplitWheel F) : SplitOp F → Except WheelFault (SplitWheel F)
  | .wheel op => do
    let wheel ← s.wheel.step op
    return { s with wheel := wheel }
  | .compute now fn expire circleCount immediate delay =>
    let node := WheelThreads.newNode s.wheel now fn expire circleCount immediate delay
    .ok {
      wheel := { s.wheel with nextId := (s.wheel.getId + 1) % 2 ^ 64 }
      adding := s.adding ++ [⟨s.wheel.current, node⟩] }
  | .insert n =>
    match s.adding[n]? with
    | none => .error .disabled
    | some a => do
      let wheel ← s.wheel.insertSeen a.seen a.node
      return ⟨wheel, s.adding.eraseIdx n⟩

/-- Unless it is erased, the function runs for the insertion in a tick up to `bound`. -/
def RunsBy (s : SplitWheel F) (i : Insertion) (bound : Int) : Prop :=
  ∀ ops s', run step s ops = .ok s' → .erased i ∉ s'.wheel.log → s'.wheel.temp = [] →
    bound < s'.wheel.current → ∃ tick ∈ runsOf i s'.wheel.log, tick ≤ bound

end SplitWheel

def WheelEvent.insertion : WheelEvent → Insertion
  | .inserted i | .ran i _ _ | .erased i => i

namespace TimeWheel
variable {s s' : TimeWheel F}

/-- A node that is inserted afresh, wherever it lies. -/
structure Enters (s : TimeWheel F) (i : Insertion) (s' : TimeWheel F) : Prop where
  number : i.number = s.insertions
  insertions : s'.insertions = s.insertions + 1
  current : s'.current = s.current
  temp : s'.temp = s.temp
  held : ∀ idx, ∀ c ∈ s'.tv idx, c ∈ s.tv idx ∨ c.node.insertion = i
  cores : ∃ n, n.insertion = i ∧ s'.cores.Perm (n :: s.cores)
  log : s'.log.Perm (.inserted i :: s.log)

/-- What `add_node` leaves, with any `current_` for its slot. -/
theorem added_enters {t : TimeWheel F} (node : TimeNode F) (seen : Int)
    (number : node.insertion.number = s.insertions) (insertions : t.insertions = s.insertions + 1)
    (current : t.current = s.current) (temp : t.temp = s.temp) (tv : t.tv = s.tv)
    (log : t.log.Perm (.inserted node.insertion :: s.log)) :
    Enters s node.insertion
      { ({ t with current := seen } : TimeWheel F).added node with current := t.current } where
  number := number
  insertions := insertions
  current := current
  temp := temp
  held idx c member := by
    rcases mem_added member with old | ⟨_, rfl⟩
    · exact Or.inl (tv ▸ old)
    · exact Or.inr rfl
  cores := by
    have perm := added_cores { t with current := seen } node
    refine ⟨node.core, rfl, ?_⟩
    simpa only [TimeWheel.cores, cells, tv, temp, added] using perm
  log := log

theorem Adds.enters {node : TimeNode F} {id : Nat} (adds : Adds s node s' id) :
    Enters s node.insertion s' := by
  rw [adds.eq]
  exact added_enters (t := { s.issuing with log := s.log ++ [.inserted node.insertion] })
    node s.current (congrArg Insertion.number adds.insertion) rfl rfl rfl rfl (List.perm_append_singleton _ _)

theorem insertSeen_enters {seen : Int} {node : TimeNode F}
    (done : s.insertSeen seen node = .ok s') :
    Enters s (s.stamped node) s' ∧ s'.locked = false ∧ s' =
      { ({ s.stamp node with current := seen } : TimeWheel F).added
        { node with insertion := s.stamped node } with current := s.current } := by
  obtain ⟨inserted, first, same⟩ := bind_eq_ok.mp done
  obtain rfl := Except.ok.inj same
  have free : s.locked = false := by
    rw [addNode_eq] at first
    split at first
    · contradiction
    · rename_i free
      exact Bool.eq_false_iff.mpr free
  obtain rfl := addNode_ok first
  exact ⟨added_enters (t := s.stamp node) { node with insertion := s.stamped node } seen
    rfl rfl rfl rfl rfl (List.perm_append_singleton _ _), free, rfl⟩

/-- A task whose function is called, before it is placed again. -/
def calling (s : TimeWheel F) (v : Cell F) (rest : List (Cell F)) (isDone : Bool) : TimeWheel F :=
  { s with temp := rest, log := s.log ++ [.ran v.node.insertion (s.current - 1) isDone] }

theorem rearmed_enters (v : Cell F) (rest : List (Cell F)) :
    Enters (s.calling v rest false) (s.rearmed v.node).insertion
      { ({ s with temp := rest, insertions := s.insertions + 1 } : TimeWheel F).added
        (s.rearmed v.node) with
        log := s.log ++ [.inserted (s.rearmed v.node).insertion] ++
          [.ran v.node.insertion (s.current - 1) false] } := by
  refine added_enters (t := { s with
    temp := rest
    insertions := s.insertions + 1
    log := s.log ++ [.inserted (s.rearmed v.node).insertion] ++
      [.ran v.node.insertion (s.current - 1) false] }) (s.rearmed v.node) s.current rfl rfl rfl rfl rfl ?_
  exact (append_right_perm _ _ _).trans (List.perm_append_singleton _ _)

theorem running_cores {v : Cell F} {rest : List (Cell F)} (running : s.temp = v :: rest)
    (isDone : Bool) : s.cores.Perm (v.node.core :: (s.calling v rest isDone).cores) :=
  (running_perm running).map _

theorem step_current_le {op : WheelOp F} (done : s.step op = .ok s') : s.current ≤ s'.current := by
  have step := step_cases done
  cases op with
  | addTask =>
    obtain ⟨node, id, adds⟩ := step
    exact Int.le_of_eq adds.enters.current.symm
  | eraseTask =>
    obtain ⟨found, erases⟩ := step
    cases erases <;> exact Int.le_refl _
  | beginTick =>
    obtain ⟨settled, begins⟩ := step
    have same := (cascades_moving begins.cascaded).current
    rw [begins.eq]
    dsimp only
    omega
  | fire =>
    obtain ⟨call, _, fires⟩ := step
    cases fires <;> exact Int.le_refl _

/-- The nodes and the events are of insertions that have been made. -/
structure Numbered (s : TimeWheel F) : Prop where
  held : ∀ idx, ∀ c ∈ s.tv idx, c.node.insertion.number < s.insertions
  running : ∀ c ∈ s.temp, c.node.insertion.number < s.insertions
  logged : ∀ e ∈ s.log, e.insertion.number < s.insertions

theorem older_discipline (bound : Nat) :
    Discipline fun _ _ _ (n : TimeNode F) => n.insertion.number < bound :=
  ⟨fun older _ => older, fun older _ => older, fun _ older _ => older⟩

namespace Numbered

theorem enters {i : Insertion} (numbered : Numbered s) (enters : Enters s i s') : Numbered s' := by
  have number := enters.number
  refine ⟨fun idx c member => ?_, fun c member => ?_, fun e member => ?_⟩ <;>
    rw [enters.insertions]
  · rcases enters.held idx c member with old | rfl
    · exact Nat.lt_succ_of_lt (numbered.held idx c old)
    · exact Nat.lt_succ_of_le (Nat.le_of_eq number)
  · exact Nat.lt_succ_of_lt (numbered.running c (enters.temp ▸ member))
  · rcases List.mem_cons.mp (enters.log.mem_iff.mp member) with rfl | old
    · exact Nat.lt_succ_of_le (Nat.le_of_eq number)
    · exact Nat.lt_succ_of_lt (numbered.logged e old)

theorem calling (numbered : Numbered s) {v : Cell F} {rest : List (Cell F)}
    (running : s.temp = v :: rest) (isDone : Bool) : Numbered (s.calling v rest isDone) := by
  refine ⟨numbered.held, fun c member => ?_, fun e member => ?_⟩
  · exact numbered.running c (running ▸ List.mem_cons_of_mem v member)
  · rcases List.mem_append.mp member with old | own
    · exact numbered.logged e old
    · rw [List.mem_singleton.mp own]
      exact numbered.running v (running ▸ List.mem_cons_self)

theorem erases {id : Nat} {found : Bool} (numbered : Numbered s) (erases : Erases s id s' found) :
    Numbered s' := by
  cases erases with
  | absent => exact ⟨numbered.held, numbered.running, numbered.logged⟩
  | unlinks designated =>
    refine ⟨fun idx c member => ?_, fun c member => ?_, fun e member => ?_⟩
    · exact numbered.held idx c (List.mem_filter.mp member).1
    · exact numbered.running c (List.mem_filter.mp member).1
    · rcases List.mem_append.mp member with old | gone
      · exact numbered.logged e old
      · obtain ⟨c, inside, rfl⟩ := List.mem_map.mp gone
        rcases List.mem_append.mp (List.mem_filter.mp inside).1 with listed | waits
        · obtain ⟨idx, _, listed⟩ := List.mem_flatMap.mp listed
          exact numbered.held idx c listed
        · exact numbered.running c waits

theorem begins {now : Int} {settled : TimeWheel F} (numbered : Numbered s)
    (begins : Begins s now settled s') : Numbered s' := by
  have moving := cascades_moving begins.cascaded
  have log : s'.log = s.log := begins.eq ▸ moving.log
  have insertions : s'.insertions = s.insertions := begins.eq ▸ moving.insertions
  obtain ⟨held, running⟩ := begins.keeps (older_discipline s.insertions) (fun older _ => older)
    numbered.held
  rw [← insertions] at held running
  refine ⟨held, running, fun e member => ?_⟩
  rw [insertions]
  exact numbered.logged e (log ▸ member)

theorem step {op : WheelOp F} (numbered : Numbered s) (done : s.step op = .ok s') :
    Numbered s' := by
  have step := step_cases done
  cases op with
  | addTask =>
    obtain ⟨node, id, adds⟩ := step
    exact numbered.enters adds.enters
  | eraseTask =>
    obtain ⟨found, erases⟩ := step
    exact numbered.erases erases
  | beginTick =>
    obtain ⟨settled, begins⟩ := step
    exact numbered.begins begins
  | fire =>
    obtain ⟨call, _, fires⟩ := step
    cases fires with
    | idle => exact numbered
    | again running => exact (numbered.calling running false).enters (rearmed_enters _ _)
    | last running =>
      have called := numbered.calling running true
      exact ⟨called.held, called.running, called.logged⟩

end Numbered

/-- The nodes of an insertion are aimed at its tick, and it has run in no other. -/
structure Tracked (i : Insertion) (tick : Int) (s : TimeWheel F) : Prop where
  older : i.number < s.insertions
  lies : Lies (Aims i tick) 0 s
  running : ∀ c ∈ s.temp, c.node.insertion = i → s.current - 1 = tick
  ran : ∀ t ∈ runsOf i s.log, t = tick
  fate : (∃ n ∈ s.cores, n.insertion = i) ∨ .erased i ∈ s.log ∨ runsOf i s.log ≠ []

namespace Tracked
variable {i : Insertion} {tick : Int}

theorem enters {j : Insertion} (tracked : Tracked i tick s) (enters : Enters s j s') :
    Tracked i tick s' := by
  obtain ⟨n, _, cores⟩ := enters.cores
  have runs : (runsOf i s'.log).Perm (runsOf i s.log) := enters.log.filterMap _
  have other : j ≠ i := by
    rintro rfl
    exact Nat.ne_of_lt tracked.older enters.number
  refine ⟨?_, fun idx c member same => ?_, ?_, fun t member => ?_, ?_⟩
  · rw [enters.insertions]
    exact Nat.lt_succ_of_lt tracked.older
  · rw [enters.current]
    rcases enters.held idx c member with old | new
    · exact tracked.lies idx c old same
    · exact absurd (new.symm.trans same) other
  · rw [enters.temp, enters.current]
    exact tracked.running
  · exact tracked.ran t (runs.mem_iff.mp member)
  · rcases tracked.fate with ⟨m, member, same⟩ | erased | ran
    · exact Or.inl ⟨m, cores.mem_iff.mpr (List.mem_cons_of_mem n member), same⟩
    · exact Or.inr (Or.inl (enters.log.mem_iff.mpr (List.mem_cons_of_mem _ erased)))
    · exact Or.inr (Or.inr fun none_ => ran (List.nil_perm.mp (none_ ▸ runs)))

theorem calling {v : Cell F} {rest : List (Cell F)} (tracked : Tracked i tick s)
    (running : s.temp = v :: rest) (isDone : Bool) : Tracked i tick (s.calling v rest isDone) := by
  have runs : runsOf i (s.calling v rest isDone).log =
      runsOf i s.log ++ if v.node.insertion = i then [s.current - 1] else [] := by
    rw [TimeWheel.calling, runsOf_append]
    by_cases own : v.node.insertion = i <;> simp [runsOf, own]
  refine ⟨tracked.older, tracked.lies, fun c member => ?_, fun t member => ?_, ?_⟩
  · exact tracked.running c (running ▸ List.mem_cons_of_mem v member)
  · rw [runs] at member
    rcases List.mem_append.mp member with old | new
    · exact tracked.ran t old
    · split at new
      · rename_i own
        rw [List.mem_singleton.mp new]
        exact tracked.running v (running ▸ List.mem_cons_self) own
      · contradiction
  · rw [runs]
    by_cases own : v.node.insertion = i
    · simp [own]
    rcases tracked.fate with ⟨n, member, same⟩ | erased | ran
    · rcases List.mem_cons.mp ((running_cores running isDone).mem_iff.mp member) with rfl | old
      · exact absurd same own
      · exact Or.inl ⟨n, old, same⟩
    · exact Or.inr (Or.inl (List.mem_append_left _ erased))
    · exact Or.inr (Or.inr (by simp [ran]))

theorem erases {id : Nat} {found : Bool} (tracked : Tracked i tick s)
    (erases : Erases s id s' found) : Tracked i tick s' := by
  cases erases with
  | absent => exact ⟨tracked.older, tracked.lies, tracked.running, tracked.ran, tracked.fate⟩
  | @unlinks addr designated =>
    have runs : runsOf i (s.log ++ (s.cells.filter fun c => c.addr == addr).map
        fun c => .erased c.node.insertion) = runsOf i s.log := by
      have erased := runsOf_erased i
        ((s.cells.filter fun c => c.addr == addr).map fun c => c.node.insertion)
      rw [List.map_map] at erased
      rw [runsOf_append]
      exact (congrArg _ erased).trans (List.append_nil _)
    refine ⟨tracked.older, fun idx c member => ?_, fun c member => ?_, ?_, ?_⟩
    · exact tracked.lies idx c (List.mem_filter.mp member).1
    · exact tracked.running c (List.mem_filter.mp member).1
    · rw [runs]
      exact tracked.ran
    · rw [runs]
      rcases tracked.fate with ⟨n, member, same⟩ | erased | ran
      · obtain ⟨c, inside, rfl⟩ := List.mem_map.mp member
        by_cases gone : c.addr = addr
        · refine Or.inr (Or.inl (List.mem_append_right _ (List.mem_map.mpr ⟨c, ?_, ?_⟩)))
          · simp [inside, gone]
          · exact congrArg _ same
        · refine Or.inl ⟨c.node.core, ?_, same⟩
          simp only [TimeWheel.cores, cells, filter_cells s fun c => c.addr != addr]
          exact List.mem_map_of_mem (List.mem_filter.mpr ⟨inside, by simpa using gone⟩)
      · exact Or.inr (Or.inl (List.mem_append_left _ erased))
      · exact Or.inr (Or.inr ran)

theorem begins {now : Int} {settled : TimeWheel F} (tracked : Tracked i tick s)
    (begins : Begins s now settled s') : Tracked i tick s' := by
  have moving := cascades_moving begins.cascaded
  have log : s'.log = s.log := begins.eq ▸ moving.log
  have insertions : s'.insertions = s.insertions := begins.eq ▸ moving.insertions
  have current : s'.current = s.current + 1 := begins.eq ▸ congrArg (· + 1) moving.current
  obtain ⟨lies, running⟩ := begins.keeps (aims_discipline i tick) Aims.advance tracked.lies
  refine ⟨insertions ▸ tracked.older, lies, fun c member same => ?_, log ▸ tracked.ran, ?_⟩
  · have due := (running c member same).placed.due_of_near
    omega
  · rw [log]
    refine tracked.fate.imp_left ?_
    rintro ⟨n, member, same⟩
    exact ⟨n, begins.cores.mem_iff.mpr member, same⟩

theorem step {op : WheelOp F} (tracked : Tracked i tick s) (done : s.step op = .ok s') :
    Tracked i tick s' := by
  have step := step_cases done
  cases op with
  | addTask =>
    obtain ⟨node, id, adds⟩ := step
    exact tracked.enters adds.enters
  | eraseTask =>
    obtain ⟨found, erases⟩ := step
    exact tracked.erases erases
  | beginTick =>
    obtain ⟨settled, begins⟩ := step
    exact tracked.begins begins
  | fire =>
    obtain ⟨call, _, fires⟩ := step
    cases fires with
    | idle => exact tracked
    | again running => exact (tracked.calling running false).enters (rearmed_enters _ _)
    | last running =>
      have called := tracked.calling running true
      exact ⟨called.older, called.lies, called.running, called.ran, called.fate⟩

end Tracked

end TimeWheel

/-- A step of `check`, and not a call of another thread or of a task. -/
def WheelOp.OfCheck : WheelOp F → Prop
  | .beginTick _ | .fire => True
  | .addTask .. | .eraseTask _ => False

namespace TimeWheel
variable {s s' : TimeWheel F}

/-- A run of ticks that erases nothing. -/
structure Passes (s : TimeWheel F) (ticks : Int) (s' : TimeWheel F) : Prop where
  run : ∃ ops, (∀ op ∈ ops, op.OfCheck) ∧ run step s ops = .ok s'
  free : s'.locked = false
  current : s'.current = s.current + ticks
  erased : ∀ i, .erased i ∈ s'.log → .erased i ∈ s.log

theorem Passes.trans {t : TimeWheel F} {m n : Int} (first : Passes s m t)
    (second : Passes t n s') : Passes s (m + n) s' := by
  obtain ⟨front, ticks, before⟩ := first.run
  obtain ⟨back, more, after⟩ := second.run
  refine ⟨⟨front ++ back, List.forall_mem_append.mpr ⟨ticks, more⟩, ?_⟩, second.free, ?_,
    fun i gone => first.erased i (second.erased i gone)⟩
  · rw [run_append, before]
    exact after
  · rw [second.current, first.current, Int.add_assoc]

theorem passes_step (op : WheelOp F) (ofCheck : op.OfCheck) (done : s.step op = .ok s') :
    ∃ ops, (∀ op ∈ ops, WheelOp.OfCheck op) ∧ run step s ops = .ok s' :=
  ⟨[op], List.forall_mem_singleton.mpr ofCheck, by rw [run, done]; rfl⟩

/-- The tasks of the tick run. -/
theorem drains (s : TimeWheel F) (free : s.locked = false) :
    ∃ s', Passes s 0 s' ∧ s'.temp = [] := by
  generalize tasks : s.temp = temp
  induction temp generalizing s with
  | nil =>
    exact ⟨s, ⟨⟨[], List.forall_mem_nil _, rfl⟩, free, (Int.add_zero _).symm, fun _ gone => gone⟩, tasks⟩
  | cons v rest ih =>
    obtain ⟨⟨next, call⟩, fired, free'⟩ := fire_free s free
    have taken : s.step .fire = .ok next := by rw [step, fired]; rfl
    have once : Passes s 0 next ∧ next.temp = rest := by
      cases fire_fires fired with
      | idle none_ => rw [none_] at tasks; contradiction
      | again running =>
        obtain ⟨rfl, rfl⟩ := List.cons.inj (running.symm.trans tasks)
        exact ⟨⟨passes_step .fire trivial taken, free', (Int.add_zero _).symm, by simp⟩, rfl⟩
      | last running =>
        obtain ⟨rfl, rfl⟩ := List.cons.inj (running.symm.trans tasks)
        exact ⟨⟨passes_step .fire trivial taken, free', (Int.add_zero _).symm, by simp⟩, rfl⟩
    obtain ⟨s', later, idle⟩ := ih next free' once.2
    exact ⟨s', once.1.trans later, idle⟩

theorem ticks_pass (s : TimeWheel F) (free : s.locked = false) (n : Nat) :
    ∃ s', Passes s n s' ∧ s'.temp = [] := by
  induction n with
  | zero => exact drains s free
  | succ n ih =>
    obtain ⟨t, passed, idle⟩ := ih
    obtain ⟨next, begun, free'⟩ := beginTick_free t t.current passed.free idle (Int.le_refl _)
    obtain ⟨settled, begins⟩ := beginTick_begins begun
    have moving := cascades_moving begins.cascaded
    have tick : Passes t 1 next := by
      refine ⟨passes_step (.beginTick t.current) trivial begun, free', ?_, ?_⟩ <;> rw [begins.eq]
      · exact congrArg (· + 1) moving.current
      · intro i gone
        exact moving.log ▸ gone
    obtain ⟨s', drained, done⟩ := drains next free'
    exact ⟨s', by simpa using (passed.trans tick).trans drained, done⟩

end TimeWheel

namespace SplitWheel
variable {s s' : SplitWheel F}

theorem step_cases {op : SplitOp F} (done : s.step op = .ok s') : match op with
    | .wheel op => ∃ wheel, s.wheel.step op = .ok wheel ∧ s' = { s with wheel := wheel }
    | .compute .. => ∃ node, s' = {
      wheel := { s.wheel with nextId := (s.wheel.getId + 1) % 2 ^ 64 }
      adding := s.adding ++ [⟨s.wheel.current, node⟩] }
    | .insert n => ∃ a ∈ s.adding, s.adding[n]? = some a ∧ ∃ wheel,
      s.wheel.insertSeen a.seen a.node = .ok wheel ∧ s' = ⟨wheel, s.adding.eraseIdx n⟩ := by
  cases op with
  | wheel op =>
    obtain ⟨wheel, taken, same⟩ := bind_eq_ok.mp done
    exact ⟨wheel, taken, (Except.ok.inj same).symm⟩
  | compute => exact ⟨_, (Except.ok.inj done).symm⟩
  | insert n =>
    simp only [step] at done
    split at done
    · contradiction
    · rename_i a found
      obtain ⟨wheel, inserted, same⟩ := bind_eq_ok.mp done
      exact ⟨a, List.mem_of_getElem? found, found, wheel, inserted, (Except.ok.inj same).symm⟩

/-- Calls of `add_node` have seen a `current_` that the wheel has reached. -/
structure Ordered (s : SplitWheel F) : Prop where
  numbered : s.wheel.Numbered
  seen : ∀ a ∈ s.adding, a.seen ≤ s.wheel.current

theorem step_ordered (s : SplitWheel F) (op : SplitOp F) (s' : SplitWheel F) (ordered : Ordered s)
    (done : s.step op = .ok s') : Ordered s' := by
  have step := step_cases done
  cases op with
  | wheel op =>
    obtain ⟨wheel, taken, rfl⟩ := step
    refine ⟨ordered.numbered.step taken, fun a member => ?_⟩
    exact Int.le_trans (ordered.seen a member) (TimeWheel.step_current_le taken)
  | compute =>
    obtain ⟨node, rfl⟩ := step
    refine ⟨?_, fun a member => ?_⟩
    · exact ⟨ordered.numbered.held, ordered.numbered.running, ordered.numbered.logged⟩
    · rcases List.mem_append.mp member with old | new
      · exact ordered.seen a old
      · rw [List.mem_singleton.mp new]
  | insert n =>
    obtain ⟨a, _, _, wheel, inserted, rfl⟩ := step
    have enters := (TimeWheel.insertSeen_enters inserted).1
    refine ⟨ordered.numbered.enters enters, fun b member => ?_⟩
    rw [enters.current]
    exact ordered.seen b (List.mem_of_mem_eraseIdx member)

theorem run_ordered {current : Int} {ops : List (SplitOp F)}
    (reached : run step (empty current) ops = .ok s) : Ordered s := by
  refine run_invariant step_ordered ⟨⟨?_, ?_, ?_⟩, ?_⟩ reached <;> simp [empty, TimeWheel.empty]

theorem step_tracked {i : Insertion} {tick : Int} (s : SplitWheel F) (op : SplitOp F)
    (s' : SplitWheel F) (tracked : s.wheel.Tracked i tick) (done : s.step op = .ok s') :
    s'.wheel.Tracked i tick := by
  have step := step_cases done
  cases op with
  | wheel op =>
    obtain ⟨wheel, taken, rfl⟩ := step
    exact tracked.step taken
  | compute =>
    obtain ⟨node, rfl⟩ := step
    exact ⟨tracked.older, tracked.lies, tracked.running, tracked.ran, tracked.fate⟩
  | insert n =>
    obtain ⟨a, _, _, wheel, inserted, rfl⟩ := step
    exact tracked.enters (TimeWheel.insertSeen_enters inserted).1

theorem run_tracked {i : Insertion} {tick : Int} {ops : List (SplitOp F)}
    (tracked : s.wheel.Tracked i tick) (done : run step s ops = .ok s') :
    s'.wheel.Tracked i tick :=
  run_invariant step_tracked tracked done

theorem run_wheel {ops : List (WheelOp F)} {wheel : TimeWheel F}
    (done : run TimeWheel.step s.wheel ops = .ok wheel) :
    run step s (ops.map .wheel) = .ok { s with wheel := wheel } := by
  induction ops generalizing s with
  | nil => obtain rfl := Except.ok.inj done; rfl
  | cons op rest ih =>
    obtain ⟨next, taken, later⟩ := bind_eq_ok.mp done
    have first : s.step (.wheel op) = .ok { s with wheel := next } := by
      rw [step, taken]; rfl
    rw [List.map_cons, run, first]
    exact ih later

end SplitWheel

theorem ran_of_runsOf {i : Insertion} {tick : Int} {log : List WheelEvent}
    (member : tick ∈ runsOf i log) : ∃ isDone, .ran i tick isDone ∈ log := by
  obtain ⟨e, logged, ran⟩ := List.mem_filterMap.mp member
  cases e with
  | inserted | erased => contradiction
  | ran j t isDone =>
    simp only [Option.ite_none_right_eq_some, Option.some.injEq] at ran
    obtain ⟨rfl, rfl⟩ := ran
    exact ⟨isDone, logged⟩

namespace TimeWheel
variable {s s' : TimeWheel F} {seen : Int} {node : TimeNode F}

/-- The tick in which the slot of a new node is first taken out, and not before it expires. -/
def aim (seen expire now : Int) : Int :=
  max expire (visit (slotTick seen expire) (slotPeriod seen expire) now)

theorem insertSeen_tracked (numbered : Numbered s) (passed : seen ≤ s.current)
    (near : node.expire - seen ≤ 2 ^ 32 - 1) (inserted : s.insertSeen seen node = .ok s') :
    s'.Tracked (s.stamped node) (aim seen node.expire s.current) := by
  obtain ⟨enters, _, eq⟩ := insertSeen_enters inserted
  have fresh {j : Insertion} (older : j.number < s.insertions) : j ≠ s.stamped node := by
    rintro rfl
    exact Nat.lt_irrefl _ older
  have unrun : runsOf (s.stamped node) s'.log = [] := by
    refine List.eq_nil_iff_forall_not_mem.mpr fun tick member => ?_
    obtain ⟨isDone, logged⟩ := ran_of_runsOf member
    rcases List.mem_cons.mp (enters.log.mem_iff.mp logged) with new | old
    · contradiction
    · exact fresh (numbered.logged _ old) rfl
  obtain ⟨n, own, cores⟩ := enters.cores
  refine ⟨?_, fun idx c member same => ?_, fun c member same => ?_, ?_, Or.inl ⟨n, ?_, own⟩⟩
  · rw [enters.insertions]
    exact Nat.lt_succ_self _
  · rw [eq] at member ⊢
    rcases mem_added member with old | ⟨rfl, rfl⟩
    · exact absurd same (fresh (numbered.held idx c old))
    · have expire : (place seen node.expire).2 = node.expire := place_expire seen node.expire near
      have aimed := (place_slotted seen node.expire near).aimed passed
      simpa only [newCell, expire, aim] using aimed
  · rw [enters.temp] at member
    exact absurd same (fresh (numbered.running c member))
  · rw [unrun]
    exact List.forall_mem_nil _
  · exact cores.mem_iff.mpr List.mem_cons_self

/-- Behind its tick, a task that is not erased has run. -/
theorem Tracked.ran_by {i : Insertion} {tick : Int} (tracked : s.Tracked i tick)
    (kept : .erased i ∉ s.log) (idle : s.temp = []) (passed : tick < s.current) :
    runsOf i s.log ≠ [] := by
  rcases tracked.fate with ⟨n, member, own⟩ | erased | ran
  · obtain ⟨c, inside, rfl⟩ := List.mem_map.mp member
    simp only [cells, idle, List.append_nil, lists, List.mem_flatMap] at inside
    obtain ⟨idx, _, inside⟩ := inside
    have behind := (tracked.lies idx c inside own).placed.behind_due
    omega
  · exact absurd erased kept
  · exact ran

end TimeWheel

namespace SplitWheel

theorem runsBy_iff {s : SplitWheel F} {i : Insertion} {tick bound : Int}
    (tracked : s.wheel.Tracked i tick) (kept : .erased i ∉ s.wheel.log)
    (free : s.wheel.locked = false) (early : s.wheel.current ≤ bound) :
    s.RunsBy i bound ↔ tick ≤ bound := by
  constructor
  · intro runs
    obtain ⟨wheel, passes, idle⟩ :=
      TimeWheel.ticks_pass s.wheel free (bound + 1 - s.wheel.current).toNat
    obtain ⟨ops, _, done⟩ := passes.run
    have current := passes.current
    obtain ⟨t, ran, inside⟩ := runs _ _ (run_wheel done) (fun gone => kept (passes.erased i gone))
      idle (by dsimp only; omega)
    exact (run_tracked tracked (run_wheel done)).ran t ran ▸ inside
  · intro inside ops s' done kept idle passed
    have later := run_tracked tracked done
    obtain ⟨t, ran⟩ := List.exists_mem_of_ne_nil _ (later.ran_by kept idle (by omega))
    exact ⟨t, ran, later.ran t ran ▸ inside⟩

end SplitWheel

/-- A task whose slot was computed some steps before it is inserted runs in time exactly when the
wheel has not passed the tick of its slot, or stands a number of whole turns behind it. -/
theorem split_task_in_time_iff {F : Type} (current : Int) (ops : List (SplitOp F))
    (s s' : SplitWheel F) (n : Nat) (a : Adding F)
    (reached : run SplitWheel.step (.empty current) ops = .ok s)
    (computed : s.adding[n]? = some a) (near : a.node.expire - a.seen ≤ 2 ^ 32 - 1)
    (inserted : s.step (.insert n) = .ok s') :
    s'.RunsBy (s.wheel.stamped a.node) (max a.node.expire s.wheel.current) ↔
      TimeWheel.SlotAhead a.seen a.node.expire s.wheel.current := by
  have ordered := SplitWheel.run_ordered reached
  obtain ⟨b, member, found, wheel, done, rfl⟩ := SplitWheel.step_cases inserted
  obtain rfl : a = b := Option.some.inj (computed.symm.trans found)
  have passed := ordered.seen a member
  obtain ⟨enters, free, eq⟩ := TimeWheel.insertSeen_enters done
  have tracked := TimeWheel.insertSeen_tracked ordered.numbered passed near done
  have kept : .erased (s.wheel.stamped a.node) ∉ wheel.log := by
    intro erased
    rcases List.mem_cons.mp (enters.log.mem_iff.mp erased) with new | old
    · contradiction
    · exact Nat.lt_irrefl _ (ordered.numbered.logged _ old)
  rw [SplitWheel.runsBy_iff tracked kept (eq ▸ free) (enters.current ▸ Int.le_max_right _ _)]
  exact (TimeWheel.place_slotted a.seen a.node.expire near).visit_le passed

/-- A task whose slot is still ahead after a tick. -/
theorem slot_ahead_in_time :
    ∃ s s' : SplitWheel Unit, run SplitWheel.step (.empty 1)
      [.compute 1 () 5 1 false 0, .wheel (.beginTick 2)] = .ok s ∧
      s.step (.insert 0) = .ok s' ∧ s'.RunsBy ⟨0, 1, 6, 2⟩ 6 := by
  have ran : ∃ s s' : SplitWheel Unit, ∃ a, run SplitWheel.step (.empty 1)
      [.compute 1 () 5 1 false 0, .wheel (.beginTick 2)] = .ok s ∧ s.adding[0]? = some a ∧
      s.step (.insert 0) = .ok s' ∧ a.seen = 1 ∧ a.node.expire = 6 ∧ s.wheel.current = 2 ∧
      s.wheel.stamped a.node = ⟨0, 1, 6, 2⟩ :=
    ⟨_, _, _, rfl, rfl, rfl, rfl, rfl, rfl, rfl⟩
  obtain ⟨s, s', a, reached, computed, inserted, seen, expire, current, stamped⟩ := ran
  have inTime := split_task_in_time_iff 1 _ s s' 0 a reached computed
    (by rw [seen, expire]; decide) inserted
  rw [seen, expire, current, stamped] at inTime
  exact ⟨s, s', reached, inserted, inTime.mpr (by decide)⟩

/-- Two ticks run while a task of one millisecond is added: its slot comes up again 256 ticks
later. -/
theorem short_task_misfiled :
    ¬ ∀ (current : Int) (ops : List (SplitOp Unit)) (s s' : SplitWheel Unit) (n : Nat)
      (a : Adding Unit), run SplitWheel.step (.empty current) ops = .ok s →
      s.adding[n]? = some a → a.node.expire - a.seen ≤ 2 ^ 32 - 1 →
      s.step (.insert n) = .ok s' →
      s'.RunsBy (s.wheel.stamped a.node) (max a.node.expire s.wheel.current) := by
  intro claim
  have ran : ∃ s s' later : SplitWheel Unit, ∃ a, run SplitWheel.step (.empty 1)
      [.compute 1 () 1 1 false 0, .wheel (.beginTick 3), .wheel (.beginTick 3)] = .ok s ∧
      s.adding[0]? = some a ∧ s.step (.insert 0) = .ok s' ∧ a.seen = 1 ∧ a.node.expire = 2 ∧
      s.wheel.current = 3 ∧ run SplitWheel.step s' [.wheel (.beginTick 3)] = .ok later ∧
      later.wheel.log = [.inserted (s.wheel.stamped a.node)] ∧ later.wheel.temp = [] ∧
      later.wheel.current = 4 :=
    ⟨_, _, _, _, rfl, rfl, rfl, rfl, rfl, rfl, rfl, rfl, rfl, rfl⟩
  obtain ⟨s, s', later, a, reached, computed, inserted, seen, expire, current, ticked, log, idle,
    passed⟩ := ran
  have runs := claim 1 _ s s' 0 a reached computed (by rw [seen, expire]; decide) inserted
    _ later ticked (by simp [log]) idle (by rw [expire, current, passed]; decide)
  simp [log, runsOf] at runs

end WebsocketProto
