import WebsocketProto.TimeWheelTasks

/-! When an erasure is exact. `erase_task` finds a node through `id_map_` and unlinks it from the
list that `list_` names; both are right in every state as long as ids differ and fit the 32-bit
parameter, except that `list_` is stale while a node waits in the list of a running tick. -/
namespace WebsocketProto
open Outcome

variable {F : Type}

namespace TimeWheel
variable {s s' : TimeWheel F}

/-- Addresses are sound, and `list_` is right for every node in a list of `tv_`. -/
structure Grounded (limbo : List (Cell F)) (s : TimeWheel F) : Prop where
  rooted : Rooted (limbo ++ s.cells) s.idMap s.nextAddr
  listed : ∀ idx, ∀ c ∈ s.tv idx, c.node.list = idx

theorem added_listed (listed : ∀ idx, ∀ c ∈ s.tv idx, c.node.list = idx) (node : TimeNode F) :
    ∀ idx, ∀ c ∈ (s.added node).tv idx, c.node.list = idx := by
  intro idx c member
  rcases mem_added member with old | ⟨rfl, rfl⟩
  · exact listed idx c old
  · rfl

theorem emptied_listed (listed : ∀ idx, ∀ c ∈ s.tv idx, c.node.list = idx) (gone : Nat) :
    ∀ idx, ∀ c ∈ Function.update s.tv gone [] idx, c.node.list = idx := by
  intro idx c member
  by_cases same : idx = gone
  · simp [same] at member
  · rw [Function.update_of_ne same] at member
    exact listed idx c member

namespace Grounded
variable {limbo : List (Cell F)}

theorem added {v : Cell F} (grounded : Grounded (v :: limbo) s) (node : TimeNode F)
    (same : node.id = v.node.id) : Grounded limbo (s.added node) :=
  ⟨added_tracks rooted_tracks grounded.rooted node same, added_listed grounded.listed node⟩

theorem entered (grounded : Grounded [] s) (node : TimeNode F) : Grounded [] (s.added node) :=
  ⟨(grounded.rooted.enter (s.newCell node).node).perm (added_cells_perm s node).symm,
    added_listed grounded.listed node⟩

theorem taken (grounded : Grounded [] s) {idx : Nat} (inside : idx < slots) :
    Grounded (s.tv idx) { s with tv := Function.update s.tv idx [] } :=
  ⟨grounded.rooted.perm (emptied_perm s inside), emptied_listed grounded.listed idx⟩

end Grounded

theorem step_grounded (s : TimeWheel F) (op : WheelOp F) (s' : TimeWheel F)
    (grounded : Grounded [] s) (done : s.step op = .ok s') : Grounded [] s' := by
  have step := step_cases done
  cases op with
  | addTask =>
    obtain ⟨node, id, adds⟩ := step
    obtain rfl := adds.eq
    have issuing : Grounded [] s.issuing := ⟨grounded.rooted, grounded.listed⟩
    exact ⟨(issuing.entered node).rooted, (issuing.entered node).listed⟩
  | eraseTask id =>
    obtain ⟨found, erases⟩ := step
    refine ⟨erases_tracks rooted_tracks erases grounded.rooted grounded.rooted, ?_⟩
    cases erases with
    | absent => exact grounded.listed
    | unlinks => exact fun idx c inside => grounded.listed idx c (List.mem_filter.mp inside).1
  | beginTick now =>
    obtain ⟨settled, begins⟩ := step
    have moved : Grounded [] settled := cascades_rule (motive := Grounded)
      (fun v limbo t grounded => grounded.added v.node rfl)
      (fun t idx inside grounded => grounded.taken inside) begins.cascaded grounded
    have same := begins.cells_perm
    rw [begins.eq] at same ⊢
    exact ⟨moved.rooted.perm same.symm, emptied_listed moved.listed _⟩
  | fire =>
    obtain ⟨call, _, fires⟩ := step
    refine ⟨fires_tracks rooted_tracks fires grounded.rooted, ?_⟩
    cases fires with
    | again => exact added_listed (s := { s with temp := _ }) grounded.listed _
    | _ => exact grounded.listed

theorem empty_grounded (current : Int) : Grounded [] (empty current : TimeWheel F) := by
  refine ⟨?_, fun _ _ member => absurd member List.not_mem_nil⟩
  rw [empty_cells]
  exact ⟨.nil, List.forall_mem_nil _, by simp [empty]⟩

theorem run_grounded {current : Int} {ops : List (WheelOp F)}
    (done : run step (empty current) ops = .ok s) : Grounded [] s :=
  run_invariant step_grounded (empty_grounded current) done

/-- The step starts the function of the task. -/
def Calls (id : Nat) (s : TimeWheel F) (op : WheelOp F) : Prop :=
  op = .fire ∧ ∃ s' fn isDone, s.fire = .ok (s', some (fn, isDone, id))

/-- The step gives the id to another task. -/
def Reissues (id : Nat) (s : TimeWheel F) : WheelOp F → Prop
  | .addTask .. => s.getId = id
  | _ => False

/-- The iterator that is found stands in the list that it is erased from; exactly the nodes of the
id disappear, and until the id is given away again its function does not start. -/
def ErasesExactly (s : TimeWheel F) (id : Nat) : Prop :=
  ∃ cell s', cell.node.id = id ∧
    s.idMap (id % 2 ^ 32) = some cell.addr ∧ cell ∈ s.tv cell.node.list ∧
    s.eraseTask id = .ok (s', true) ∧
    s'.tv = (fun idx => (s.tv idx).filter fun c => c.node.id != id) ∧
    s'.temp = s.temp.filter (fun c => c.node.id != id) ∧
    s'.idMap = Function.update s.idMap id none ∧
    ∀ ops, Along step (fun s op => ¬ Reissues id s op) s' ops →
      Along step (fun s op => ¬ Calls id s op) s' ops

/-- The lock is free, the id fits the parameter, and the only node of the id is designated and
does not wait in the list of a running tick. -/
structure Erasable (s : TimeWheel F) (id : Nat) : Prop where
  free : s.locked = false
  small : id < 2 ^ 32
  alone : ∃ cell ∈ lists s.tv, cell.node.id = id ∧ s.idMap id = some cell.addr ∧
    ∀ c ∈ s.cells, c.node.id = id → c = cell

/-- No node of the id is left. -/
def Gone (id : Nat) (s : TimeWheel F) : Prop := ∀ c ∈ s.cells, c.node.id ≠ id

theorem Gone.uncalled {id : Nat} (gone : Gone id s) (op : WheelOp F) : ¬ Calls id s op := by
  rintro ⟨rfl, s', fn, isDone, fired⟩
  have named {v : Cell F} {rest : List (Cell F)} (running : s.temp = v :: rest) : v.node.id ≠ id :=
    gone v ((running_perm running).mem_iff.mpr List.mem_cons_self)
  generalize call_eq : some (fn, isDone, id) = call at fired
  cases fire_fires fired with
  | idle => contradiction
  | again running => exact named running (Prod.mk.inj (Prod.mk.inj (Option.some.inj call_eq)).2).2.symm
  | last running => exact named running (Prod.mk.inj (Prod.mk.inj (Option.some.inj call_eq)).2).2.symm

theorem Gone.step {id : Nat} (gone : Gone id s) {op : WheelOp F} (other : ¬ Reissues id s op)
    (done : s.step op = .ok s') : Gone id s' := by
  have step := step_cases done
  cases op with
  | addTask =>
    obtain ⟨node, new, adds⟩ := step
    obtain rfl := adds.eq
    intro c member
    rcases List.mem_cons.mp ((added_cells_perm s.issuing node).mem_iff.mp member) with rfl | old
    · exact fun same => other ((adds.issued.symm.trans adds.named.symm).trans same)
    · exact gone c old
  | eraseTask old =>
    obtain ⟨found, erases⟩ := step
    cases erases with
    | absent => exact gone
    | @unlinks addr designated =>
      intro c member
      unfold cells at member
      rw [filter_cells s fun c => c.addr != addr] at member
      exact gone c (List.mem_filter.mp member).1
  | beginTick now =>
    obtain ⟨settled, begins⟩ := step
    intro c member
    have core := begins.cores.mem_iff.mp (List.mem_map_of_mem member)
    obtain ⟨d, before, same⟩ := List.mem_map.mp core
    have named : d.node.id = c.node.id := congrArg (fun n => n.id) same
    exact named ▸ gone d before
  | fire =>
    obtain ⟨call, _, fires⟩ := step
    cases fires with
    | idle => exact gone
    | @again v rest running more =>
      have out {c : Cell F} := (running_perm running).mem_iff (a := c)
      intro c member
      rcases List.mem_cons.mp ((added_cells_perm _ (s.rearmed v.node)).mem_iff.mp member) with rfl | old
      · exact gone v (out.mpr List.mem_cons_self)
      · exact gone c (out.mpr (List.mem_cons_of_mem v old))
    | @last v rest running ended =>
      exact fun c member => gone c ((running_perm running).mem_iff.mpr (List.mem_cons_of_mem v member))

theorem Gone.silent {id : Nat} {s : TimeWheel F} (gone : Gone id s) (ops : List (WheelOp F))
    (others : Along TimeWheel.step (fun s op => ¬ Reissues id s op) s ops) :
    Along TimeWheel.step (fun s op => ¬ Calls id s op) s ops := by
  induction ops generalizing s with
  | nil => trivial
  | cons op rest ih =>
    exact ⟨gone.uncalled op, fun next done => ih (gone.step others.1 done) (others.2 next done)⟩

section Exact
variable {id : Nat} (grounded : Grounded [] s) (inside : ∀ idx, ∀ c ∈ s.tv idx, idx < slots)

include inside in
theorem mem_lists {idx : Nat} {c : Cell F} (listed : c ∈ s.tv idx) : c ∈ lists s.tv :=
  List.mem_flatMap.mpr ⟨idx, List.mem_range.mpr (inside idx c listed), listed⟩

include grounded inside

/-- A second node of the id would be left, since the erasure takes out one address. -/
theorem ErasesExactly.erasable (exactly : ErasesExactly s id) : Erasable s id := by
  have rooted := grounded.rooted
  rw [List.nil_append] at rooted
  obtain ⟨cell, s', rfl, designated, listed, erased, tv, temp, _, _⟩ := exactly
  obtain ⟨c, member, same, named⟩ := rooted.found _ _ designated
  obtain rfl := rooted.addr_inj member (List.mem_append_left _ (mem_lists inside listed)) same
  obtain ⟨free, erases⟩ := eraseTask_erases erased
  refine ⟨free, by omega, c, mem_lists inside listed, rfl, named ▸ designated, fun d other twin => ?_⟩
  cases erases with
  | @unlinks addr there =>
    obtain rfl : c.addr = addr := Option.some.inj (designated.symm.trans there)
    refine rooted.addr_inj other member (by_contra fun apart => ?_)
    rcases List.mem_append.mp other with listed | running
    · obtain ⟨idx, _, listed⟩ := List.mem_flatMap.mp listed
      have kept : d ∈ (s.tv idx).filter fun e => e.addr != c.addr :=
        List.mem_filter.mpr ⟨listed, by simpa using apart⟩
      rw [show (s.tv idx).filter (fun e => e.addr != c.addr) = _ from congrFun tv idx] at kept
      simp [twin] at kept
    · have kept : d ∈ s.temp.filter fun e => e.addr != c.addr :=
        List.mem_filter.mpr ⟨running, by simpa using apart⟩
      rw [show s.temp.filter (fun e => e.addr != c.addr) = _ from temp] at kept
      simp [twin] at kept

theorem Erasable.erases (erasable : Erasable s id) : ErasesExactly s id := by
  have rooted := grounded.rooted
  rw [List.nil_append] at rooted
  obtain ⟨free, small, cell, listed, rfl, designated, alone⟩ := erasable
  have member : cell ∈ s.cells := List.mem_append_left _ listed
  have low : cell.node.id % 2 ^ 32 = cell.node.id := Nat.mod_eq_of_lt small
  have same (c : Cell F) (inside : c ∈ s.cells) :
      (c.addr != cell.addr) = (c.node.id != cell.node.id) := by
    by_cases twin : c = cell
    · simp [twin]
    · have addr : c.addr ≠ cell.addr := fun eq => twin (rooted.addr_inj inside member eq)
      have named : c.node.id ≠ cell.node.id := fun eq => twin (alone c inside eq)
      rw [bne_iff_ne.mpr addr, bne_iff_ne.mpr named]
  obtain ⟨idx, _, there⟩ := List.mem_flatMap.mp listed
  have own : cell ∈ s.tv cell.node.list := (grounded.listed idx cell there).symm ▸ there
  have erased : s.eraseTask cell.node.id = .ok ({ s with
      tv := fun idx => (s.tv idx).filter fun c => c.addr != cell.addr
      temp := s.temp.filter fun c => c.addr != cell.addr
      idMap := Function.update s.idMap cell.node.id none
      log := s.log ++ (s.cells.filter fun c => c.addr == cell.addr).map
        fun c => .erased c.node.insertion }, true) := by
    simp only [eraseTask, free, low, designated]
    rfl
  refine ⟨cell, _, rfl, low.symm ▸ designated, own, erased, ?_, ?_, rfl, fun ops others => ?_⟩
  · exact funext fun idx => List.filter_congr fun c listed =>
      same c (List.mem_append_left _ (mem_lists inside listed))
  · exact List.filter_congr fun c running => same c (List.mem_append_right _ running)
  · refine Gone.silent (fun c kept => ?_) ops others
    unfold cells at kept
    rw [filter_cells s fun c => c.addr != cell.addr] at kept
    obtain ⟨inside, other⟩ := List.mem_filter.mp kept
    rw [same c inside] at other
    simpa using other

theorem Grounded.erases_iff (id : Nat) : ErasesExactly s id ↔ Erasable s id :=
  ⟨fun exactly => exactly.erasable grounded inside, fun erasable => erasable.erases grounded inside⟩

end Exact

end TimeWheel

/-- In every reachable state, the loop over the tasks of a tick included, and for every id. -/
theorem erase_exact_iff {F : Type} (current : Int) (ops : List (WheelOp F)) (s : TimeWheel F)
    (done : run TimeWheel.step (.empty current) ops = .ok s) (id : Nat) :
    s.ErasesExactly id ↔ s.Erasable id :=
  (TimeWheel.run_grounded done).erases_iff
    (fun idx c member => ((TimeWheel.run_good done).laid.placed idx c member).1.lt_slots) id

deriving instance DecidableEq for TimeNode, Cell

/-- The second of two tasks, before their tick begins. -/
theorem waiting_task_erased : ∃ s : TimeWheel Unit, run TimeWheel.step (.empty 5)
      [.addTask 5 () 1 1 false 0, .addTask 5 () 1 1 false 0, .beginTick 6] = .ok s ∧
    s.ErasesExactly 2 :=
  ⟨_, rfl, (erase_exact_iff 5 [.addTask 5 () 1 1 false 0, .addTask 5 () 1 1 false 0,
    .beginTick 6] _ rfl 2).mpr ⟨by decide, by decide, by decide +kernel⟩⟩

/-- Two tasks run in one tick, and the function of the first erases the second. -/
theorem running_task_not_erased : ¬ ∀ (ops : List (WheelOp Unit)) (s : TimeWheel Unit) (id : Nat),
    run TimeWheel.step (.empty 5) ops = .ok s → (∃ c ∈ s.cells, c.node.id = id) →
      s.ErasesExactly id := by
  intro always
  have ran : ∃ s : TimeWheel Unit, run TimeWheel.step (.empty 5) [.addTask 5 () 1 1 false 0,
      .addTask 5 () 1 1 false 0, .beginTick 6, .beginTick 6, .fire] = .ok s ∧
      (∃ c ∈ s.cells, c.node.id = 2) ∧ ∀ c ∈ TimeWheel.lists s.tv, c.node.id ≠ 2 :=
    ⟨_, rfl, by decide +kernel, by decide +kernel⟩
  obtain ⟨s, done, pending, unlisted⟩ := ran
  have laid := (TimeWheel.run_good done).laid
  have erasable := ((TimeWheel.run_grounded done).erases_iff
    (fun idx c member => (laid.placed idx c member).1.lt_slots) 2).mp (always _ s 2 done pending)
  obtain ⟨cell, listed, named, _⟩ := erasable.alone
  exact unlisted cell listed named

end WebsocketProto
