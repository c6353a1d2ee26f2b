import WebsocketProto.TimeWheelCounts

/-! The wheel between the calls of its public functions. A `check` is the whole loop, each task
of a tick with the `add_task` calls of its function. Between two calls the lists of `tv_` and
`id_map_` hold the same tasks, for as long as no task gets the id of one that is pending. -/
namespace WebsocketProto
open Outcome

variable {F : Type}

/-- The arguments of an `add_task`, and what `get_now()` returns to it. -/
structure NewTask (F : Type) where
  now : Int
  fn : F
  expire : Int
  circleCount : UInt32
  immediate : Bool
  delay : Int

def NewTask.op (t : NewTask F) : WheelOp F :=
  .addTask t.now t.fn t.expire t.circleCount t.immediate t.delay

/-- A call that is made outside task functions. A `check` has the clock that it reads once and,
for each tick and each task of it, what the function of the task adds. -/
inductive CompleteCall (F : Type) where
  | addTask (t : NewTask F)
  | eraseTask (id : Nat)
  | check (now : Int) (ticks : List (List (List (NewTask F))))

/-- The steps that a call consists of. -/
def CompleteCall.ops : CompleteCall F → List (WheelOp F)
  | .addTask t => [t.op]
  | .eraseTask id => [.eraseTask id]
  | .check now ticks => ticks.flatMap fun tasks =>
      .beginTick now :: tasks.flatMap fun adds => .fire :: adds.map NewTask.op

namespace TimeWheel
variable {s s' : TimeWheel F}

/-- `for (auto& v : temp)`. -/
def tasksLoop (s : TimeWheel F) : List (List (NewTask F)) → Except WheelFault (TimeWheel F)
  | [] => if s.temp.isEmpty then .ok s else .error .disabled
  | adds :: rest =>
    if s.temp.isEmpty then .error .disabled
    else do
      let (s, _) ← s.fire
      let s ← run step s (adds.map NewTask.op)
      tasksLoop s rest

/-- `while (current_ <= now)`; a tick does not begin behind `now`. -/
def check (now : Int) (s : TimeWheel F) :
    List (List (List (NewTask F))) → Except WheelFault (TimeWheel F)
  | [] => if now < s.current then .ok s else .error .disabled
  | tasks :: rest => do
    let s ← s.beginTick now
    let s ← tasksLoop s tasks
    check now s rest

def call (s : TimeWheel F) : CompleteCall F → Except WheelFault (TimeWheel F)
  | .addTask t => Prod.fst <$> s.addTask t.now t.fn t.expire t.circleCount t.immediate t.delay
  | .eraseTask id => Prod.fst <$> s.eraseTask id
  | .check now ticks => s.check now ticks

theorem tasksLoop_run {tasks : List (List (NewTask F))} (done : s.tasksLoop tasks = .ok s') :
    run step s (tasks.flatMap fun adds => .fire :: adds.map NewTask.op) = .ok s' ∧
      s'.temp = [] := by
  induction tasks generalizing s with
  | nil =>
    rw [tasksLoop] at done
    split at done
    · rename_i finished
      obtain rfl := Except.ok.inj done
      exact ⟨rfl, List.isEmpty_iff.mp finished⟩
    · contradiction
  | cons adds rest ih =>
    rw [tasksLoop] at done
    split at done
    · contradiction
    obtain ⟨⟨fired, call⟩, first, done⟩ := bind_eq_ok.mp done
    obtain ⟨added, second, done⟩ := bind_eq_ok.mp done
    obtain ⟨later, finished⟩ := ih done
    have firing : s.step .fire = .ok fired := by simp [step, first]
    refine ⟨?_, finished⟩
    simp only [List.flatMap_cons, List.cons_append, run, run_append, firing, second, ok_bind]
    exact later

theorem check_run {now : Int} {ticks : List (List (List (NewTask F)))}
    (idle : s.temp = []) (done : s.check now ticks = .ok s') :
    run step s (CompleteCall.check now ticks).ops = .ok s' ∧ s'.temp = [] := by
  induction ticks generalizing s with
  | nil =>
    rw [check] at done
    split at done
    · obtain rfl := Except.ok.inj done
      exact ⟨rfl, idle⟩
    · contradiction
  | cons tasks rest ih =>
    rw [check] at done
    obtain ⟨begun, first, done⟩ := bind_eq_ok.mp done
    obtain ⟨finished, second, done⟩ := bind_eq_ok.mp done
    obtain ⟨ran, idle'⟩ := tasksLoop_run second
    obtain ⟨later, finished_⟩ := ih idle' done
    have beginning : s.step (.beginTick now) = .ok begun := first
    refine ⟨?_, finished_⟩
    rw [CompleteCall.ops] at later ⊢
    simp only [List.flatMap_cons, List.cons_append, run, run_append, beginning, ran, ok_bind]
    exact later

theorem call_run {c : CompleteCall F} (idle : s.temp = []) (done : s.call c = .ok s') :
    run step s c.ops = .ok s' ∧ s'.temp = [] := by
  cases c with
  | addTask t =>
    have stepping : s.step t.op = .ok s' := done
    obtain ⟨node, id, adds⟩ := step_cases stepping
    refine ⟨by simp [CompleteCall.ops, run, stepping], ?_⟩
    rw [adds.eq]
    exact idle
  | eraseTask id =>
    have stepping : s.step (.eraseTask id) = .ok s' := done
    obtain ⟨found, erases⟩ := step_cases stepping
    refine ⟨by simp [CompleteCall.ops, run, stepping], ?_⟩
    cases erases with
    | absent => exact idle
    | unlinks => simp [idle]
  | check now ticks => exact check_run idle done

theorem calls_run {calls : List (CompleteCall F)} (idle : s.temp = [])
    (done : run call s calls = .ok s') :
    run step s (calls.flatMap CompleteCall.ops) = .ok s' ∧ s'.temp = [] := by
  induction calls generalizing s with
  | nil =>
    obtain rfl := Except.ok.inj done
    exact ⟨rfl, idle⟩
  | cons c rest ih =>
    obtain ⟨next, first, done⟩ := bind_eq_ok.mp done
    obtain ⟨ran, idle'⟩ := call_run idle first
    obtain ⟨later, finished⟩ := ih idle' done
    refine ⟨?_, finished⟩
    rw [List.flatMap_cons, run_append, ran, ok_bind]
    exact later

/-- The id that a new task gets is not that of a pending one. -/
def IdFree (s : TimeWheel F) : WheelOp F → Prop
  | .addTask .. => ∀ c ∈ s.cells, c.node.id ≠ s.getId
  | _ => True

/-- What a step does to the map, for the nodes of a running tick as for those of the lists. -/
theorem step_mapped {op : WheelOp F} (grounded : Grounded [] s) (mapped : Mapped s.cells s.idMap)
    (free : IdFree s op) (done : s.step op = .ok s') : Mapped s'.cells s'.idMap := by
  have step := step_cases done
  cases op with
  | addTask =>
    obtain ⟨node, id, adds⟩ := step
    have unused : ∀ c ∈ s.cells, c.node.id ≠ node.id := by
      rw [adds.named, adds.issued]
      exact free
    obtain rfl := adds.eq
    exact (mapped.enter (s.issuing.newCell node) unused).perm (added_cells_perm s.issuing node).symm
  | eraseTask id =>
    obtain ⟨found, erases⟩ := step
    exact erases_tracks mapped_tracks erases grounded.rooted mapped
  | beginTick now =>
    obtain ⟨settled, begins⟩ := step
    exact begins_tracks mapped_tracks begins mapped
  | fire =>
    obtain ⟨call, _, fires⟩ := step
    exact fires_tracks mapped_tracks fires mapped

theorem run_mapped {current : Int} {ops : List (WheelOp F)}
    (done : run step (empty current) ops = .ok s) (along : Along step IdFree (empty current) ops) :
    Mapped s.cells s.idMap := by
  have initial : Mapped (empty current : TimeWheel F).cells (empty current : TimeWheel F).idMap := by
    rw [empty_cells]
    exact ⟨.nil, List.forall_mem_nil _⟩
  have preserved (t : TimeWheel F) (op : WheelOp F) (next : TimeWheel F)
      (holds : Grounded [] t ∧ Mapped t.cells t.idMap) (free : IdFree t op)
      (taken : t.step op = .ok next) : Grounded [] next ∧ Mapped next.cells next.idMap :=
    ⟨step_grounded t op next holds.1 taken, step_mapped holds.1 holds.2 free taken⟩
  exact (along_invariant preserved ⟨empty_grounded current, initial⟩ along done).2

/-- The lists and the map hold the same tasks: the ids of the nodes are distinct and are the keys
of the map, each entry designates the node of its id, and each node names its list. -/
structure Represents (s : TimeWheel F) : Prop where
  addrs : ((lists s.tv).map Cell.addr).Nodup
  ids : ((lists s.tv).map fun c => c.node.id).Nodup
  keys : ∀ id, (s.idMap id).isSome ↔ ∃ c ∈ lists s.tv, c.node.id = id
  designated : ∀ c ∈ lists s.tv, s.idMap c.node.id = some c.addr
  listed : ∀ idx < slots, ∀ c ∈ s.tv idx, c.node.list = idx

theorem Grounded.represents (grounded : Grounded [] s) (mapped : Mapped s.cells s.idMap)
    (idle : s.temp = []) : s.Represents := by
  have all : s.cells = lists s.tv := by rw [cells, idle, List.append_nil]
  have rooted := grounded.rooted
  rw [List.nil_append, all] at rooted
  rw [all] at mapped
  refine ⟨rooted.addrs, mapped.ids, fun id => ⟨?_, ?_⟩, mapped.designated,
    fun idx _ => grounded.listed idx⟩
  · intro there
    obtain ⟨addr, entry⟩ := Option.isSome_iff_exists.mp there
    obtain ⟨c, member, -, named⟩ := rooted.found id addr entry
    exact ⟨c, member, named⟩
  · rintro ⟨c, member, rfl⟩
    simp [mapped.designated c member]

end TimeWheel

/-- After every sequence of calls in which no new task got the id of a pending one. -/
theorem calls_represent {F : Type} (current : Int) (calls : List (CompleteCall F))
    (s : TimeWheel F) (done : run TimeWheel.call (.empty current) calls = .ok s)
    (free : Along TimeWheel.step TimeWheel.IdFree (.empty current)
      (calls.flatMap CompleteCall.ops)) : s.Represents := by
  obtain ⟨ran, idle⟩ := TimeWheel.calls_run rfl done
  exact (TimeWheel.run_grounded ran).represents (TimeWheel.run_mapped ran free) idle

namespace TimeWheel

variable {s s' : TimeWheel F}

def adds : WheelOp F → Bool
  | .addTask .. => true
  | _ => false

theorem step_nextId {op : WheelOp F} (done : s.step op = .ok s') :
    s'.nextId = if adds op then (s.getId + 1) % 2 ^ 64 else s.nextId := by
  have step := step_cases done
  cases op with
  | addTask =>
    obtain ⟨node, id, adds⟩ := step
    rw [adds.eq]
    rfl
  | eraseTask id =>
    obtain ⟨found, erases⟩ := step
    cases erases <;> rfl
  | beginTick now =>
    obtain ⟨settled, begins⟩ := step
    rw [begins.eq]
    exact (cascades_moving begins.cascaded).nextId
  | fire =>
    obtain ⟨call, _, fires⟩ := step
    cases fires <;> rfl

/-- The ids from the counter on are not in use, and it does not come round. -/
theorem counted_idFree (ops : List (WheelOp F)) (s : TimeWheel F)
    (counted : ops.countP adds = 0 ∨ 0 < s.nextId ∧ (∀ id, s.nextId ≤ id → Gone id s) ∧
      s.nextId + ops.countP adds ≤ 2 ^ 64) : Along step IdFree s ops := by
  induction ops generalizing s with
  | nil => trivial
  | cons op rest ih =>
    refine ⟨?_, fun next done => ih next ?_⟩
    · cases op with
      | addTask =>
        rcases counted with none_ | ⟨positive, gone, -⟩
        · simp [adds] at none_
        · have issued : s.getId = s.nextId := if_neg (by omega)
          intro c member
          rw [issued]
          exact gone s.nextId (Nat.le_refl _) c member
      | _ => trivial
    · have nextId := step_nextId done
      by_cases adding : adds op = true
      · have more : (op :: rest).countP adds = rest.countP adds + 1 := by simp [adding]
        rw [more] at counted
        rcases counted with none_ | ⟨positive, gone, room⟩
        · omega
        have issued : s.getId = s.nextId := if_neg (by omega)
        rw [if_pos adding, issued] at nextId
        by_cases last : rest.countP adds = 0
        · exact Or.inl last
        refine Or.inr ⟨by omega, fun id later => ?_, by omega⟩
        refine (gone id (by omega)).step (fun reissued => ?_) done
        cases op with
        | addTask => exact absurd (issued.symm.trans reissued) (by omega)
        | _ => exact reissued
      · have same : (op :: rest).countP adds = rest.countP adds := by simp [adding]
        rw [same] at counted
        rw [if_neg adding] at nextId
        refine counted.imp_right ?_
        rintro ⟨positive, gone, room⟩
        rw [nextId]
        refine ⟨positive, fun id later => (gone id later).step (fun reissued => ?_) done, room⟩
        cases op with
        | addTask => exact adding rfl
        | _ => exact reissued

/-- Fewer than 2^64 calls of `add_task` never reach an id twice. -/
theorem few_idFree (current : Int) (ops : List (WheelOp F)) (few : ops.countP adds < 2 ^ 64) :
    Along step IdFree (empty current) ops := by
  apply counted_idFree
  refine Or.inr ⟨Nat.one_pos, fun id _ c member => ?_, by show 1 + _ ≤ _; omega⟩
  simp at member

theorem addTask_next (s : TimeWheel F) (t : NewTask F) (free : s.locked = false) :
    ∃ s', s.call (.addTask t) = .ok s' ∧ s'.locked = false ∧
      s'.nextId = (s.getId + 1) % 2 ^ 64 ∧
      ∃ c, c.node.id = s.getId ∧ s'.cells.Perm (c :: s.cells) := by
  obtain ⟨s', added, free'⟩ :=
    s.addTask_free t.now t.expire t.delay t.fn t.circleCount t.immediate free
  obtain ⟨node, adds, _⟩ := addTask_adds added
  have same := adds.eq
  refine ⟨s', by simp [call, added], free', by rw [same]; rfl, s.issuing.newCell node, adds.named, ?_⟩
  rw [same]
  exact added_cells_perm s.issuing node

/-- As many further tasks as the counter has ids for. -/
theorem addTasks_next (n : Nat) (t : NewTask F) (s : TimeWheel F) (free : s.locked = false)
    (positive : 0 < s.nextId) (room : s.nextId + n < 2 ^ 64) :
    ∃ s', run call s (List.replicate n (.addTask t)) = .ok s' ∧ s'.locked = false ∧
      s'.nextId = s.nextId + n ∧ ∀ c ∈ s.cells, c ∈ s'.cells := by
  induction n generalizing s with
  | zero => exact ⟨s, rfl, free, rfl, fun _ => id⟩
  | succ n ih =>
    obtain ⟨next, added, free', nextId, c, -, cells⟩ := s.addTask_next t free
    have issued : s.getId = s.nextId := if_neg (by omega)
    have counts : next.nextId = s.nextId + 1 := by rw [nextId, issued]; omega
    obtain ⟨s', ran, unlocked, later, kept⟩ := ih next free' (by omega) (by omega)
    refine ⟨s', ?_, unlocked, by omega, fun d member => kept d ?_⟩
    · rw [List.replicate_succ, run, added, ok_bind, ran]
    · exact cells.mem_iff.mpr (List.mem_cons_of_mem c member)

end TimeWheel

/-- A task that adds another one in its tick and comes back, and an endless one that is erased. -/
theorem mixed_calls_represent : ∃ s : TimeWheel Unit, run TimeWheel.call (.empty 1)
      [.addTask ⟨1, (), 2, 2, true, 0⟩, .addTask ⟨1, (), 5, FULL_CIRCLE, false, 0⟩,
        .check 2 [[[⟨2, (), 3, 1, false, 0⟩]], []], .eraseTask 2] = .ok s ∧
    s.idMap 3 = some 3 ∧ s.Represents := by
  refine ⟨_, rfl, rfl, ?_⟩
  exact calls_represent 1 [.addTask ⟨1, (), 2, 2, true, 0⟩,
    .addTask ⟨1, (), 5, FULL_CIRCLE, false, 0⟩, .check 2 [[[⟨2, (), 3, 1, false, 0⟩]], []],
    .eraseTask 2] _ rfl (TimeWheel.few_idFree 1 _ (by decide))

/-- The 2^64-th task gets the id of the first one, which is still pending. -/
theorem reissued_not_represented : ¬ ∀ (current : Int) (calls : List (CompleteCall Unit))
    (s : TimeWheel Unit), run TimeWheel.call (.empty current) calls = .ok s → s.Represents := by
  intro always
  -- endless tasks; `n` stays a variable so that nothing unfolds the list
  obtain ⟨t, -⟩ : ∃ t : NewTask Unit, t = ⟨1, (), 1000, FULL_CIRCLE, false, 0⟩ := ⟨_, rfl⟩
  obtain ⟨n, many⟩ : ∃ n, n = 2 ^ 64 - 3 := ⟨_, rfl⟩
  obtain ⟨s1, first, free1, next1, c, named, cells1⟩ := (TimeWheel.empty 1).addTask_next t rfl
  have two : s1.nextId = 2 := next1
  obtain ⟨s2, flooded, free2, next2, kept⟩ :=
    TimeWheel.addTasks_next n t s1 free1 (by omega) (by omega)
  obtain ⟨s3, last, free3, next3, d, -, cells3⟩ := s2.addTask_next t free2
  have issued : s2.getId = 2 ^ 64 - 1 := (if_neg (by omega)).trans (by omega)
  have zero : s3.nextId = 0 := by rw [next3, issued]; omega
  obtain ⟨s4, again, -, -, e, reissued, cells4⟩ := s3.addTask_next t free3
  have one : s3.getId = 1 := if_pos zero
  have done : run TimeWheel.call (.empty 1) (.addTask t ::
      (List.replicate n (.addTask t) ++ [.addTask t, .addTask t])) = .ok s4 := by
    simp only [run, run_append, first, flooded, last, again, ok_bind]
  obtain ⟨-, idle⟩ := TimeWheel.calls_run rfl done
  have ids := (always 1 _ s4 done).ids
  have all : s4.cells = TimeWheel.lists s4.tv := by
    rw [TimeWheel.cells, idle, List.append_nil]
  rw [← all] at ids
  have twice := List.nodup_cons.mp ((cells4.map fun c => c.node.id).nodup_iff.mp ids)
  have pending : c ∈ s3.cells := by
    refine cells3.mem_iff.mpr (List.mem_cons_of_mem d (kept c ?_))
    exact cells1.mem_iff.mpr List.mem_cons_self
  refine twice.1 (List.mem_map.mpr ⟨c, pending, ?_⟩)
  exact named.trans (one.symm.trans reissued.symm)

end WebsocketProto
