import Mathlib.Data.List.Perm.Basic
import WebsocketProto.TimeWheelPlacement

/-! What each step can do to the nodes of a wheel, and the rules for its cascades: a cascade takes
a list out and places its nodes again, so nodes only move. -/
namespace WebsocketProto
open Outcome

theorem append_right_perm (front middle back : List α) :
    (front ++ middle ++ back).Perm (front ++ back ++ middle) := by
  rw [List.append_assoc, List.append_assoc]
  exact List.perm_append_comm.append_left _

/-- The lists of `tv_` when one of them is replaced. -/
theorem flatMap_update_perm (f : Nat → List α) (idx size : Nat) (inside : idx < size)
    (l : List α) :
    ((List.range size).flatMap (Function.update f idx l) ++ f idx).Perm
      ((List.range size).flatMap f ++ l) := by
  induction size with
  | zero => exact absurd inside (Nat.not_lt_zero idx)
  | succ size ih =>
    rw [List.range_succ, List.flatMap_append, List.flatMap_append, List.flatMap_singleton,
      List.flatMap_singleton]
    by_cases last : idx = size
    · subst last
      have before : (List.range idx).flatMap (Function.update f idx l) =
          (List.range idx).flatMap f := by
        refine List.flatMap_congr fun i member => ?_
        rw [Function.update_of_ne (Nat.ne_of_lt (List.mem_range.mp member))]
      rw [before, Function.update_self]
      exact append_right_perm _ _ _
    · rw [Function.update_of_ne (Ne.symm last)]
      have earlier := ih (by omega)
      exact (append_right_perm _ _ _).trans
        ((earlier.append_right _).trans (append_right_perm _ _ _))

/-- What no placing changes in a node. -/
def TimeNode.core {F : Type} (n : TimeNode F) : TimeNode F :=
  { n with expire := 0, list := 0 }

@[simp] theorem TimeNode.core_id {F : Type} (n : TimeNode F) : n.core.id = n.id := rfl
@[simp] theorem TimeNode.core_interval {F : Type} (n : TimeNode F) : n.core.interval = n.interval := rfl
@[simp] theorem TimeNode.core_insertion {F : Type} (n : TimeNode F) :
    n.core.insertion = n.insertion := rfl
@[simp] theorem TimeNode.core_circleCount {F : Type} (n : TimeNode F) :
    n.core.circleCount = n.circleCount := rfl

namespace TimeWheel
variable {F : Type} {s s' : TimeWheel F}

theorem lists_update_perm (tv : Nat → List (Cell F)) (idx : Nat) (inside : idx < slots)
    (l : List (Cell F)) :
    (lists (Function.update tv idx l) ++ tv idx).Perm (lists tv ++ l) :=
  flatMap_update_perm tv idx slots inside l

theorem filter_cells (s : TimeWheel F) (keep : Cell F → Bool) :
    (lists fun idx => (s.tv idx).filter keep) ++ s.temp.filter keep = s.cells.filter keep := by
  simp only [cells, lists, List.filter_append, List.filter_flatMap]

@[simp] theorem empty_cells (current : Int) : (empty current : TimeWheel F).cells = [] := by
  simp [cells, lists, empty]

/-- The nodes of the wheel but for what placing changes in them. -/
def cores (s : TimeWheel F) : List (TimeNode F) := s.cells.map fun c => c.node.core

/-- The list node that `add_node` creates. -/
def newCell (s : TimeWheel F) (node : TimeNode F) : Cell F where
  addr := s.nextAddr
  node := { node with expire := (place s.current node.expire).2,
                      list := (place s.current node.expire).1 }

/-- What `add_node` leaves when the lock is free. -/
def added (s : TimeWheel F) (node : TimeNode F) : TimeWheel F :=
  { s with
    tv := Function.update s.tv (s.newCell node).node.list
      (s.tv (s.newCell node).node.list ++ [s.newCell node])
    idMap := Function.update s.idMap node.id (some s.nextAddr)
    nextAddr := s.nextAddr + 1 }

theorem addNode_eq (s : TimeWheel F) (node : TimeNode F) :
    addNode s node = if s.locked then .error .spins else .ok (s.added node) := rfl

theorem addNode_ok {node : TimeNode F} (done : addNode s node = .ok s') : s' = s.added node := by
  rw [addNode_eq] at done
  split at done
  · contradiction
  · exact (Except.ok.inj done).symm

theorem mem_added {node : TimeNode F} {idx : Nat} {c : Cell F}
    (member : c ∈ (s.added node).tv idx) :
    c ∈ s.tv idx ∨ idx = (s.newCell node).node.list ∧ c = s.newCell node := by
  by_cases same : idx = (s.newCell node).node.list
  · simp only [added, same, Function.update_self, List.mem_append, List.mem_singleton] at member
    exact member.imp (same ▸ ·) (⟨same, ·⟩)
  · simp only [added, Function.update_of_ne same] at member
    exact Or.inl member

theorem added_cells_perm (s : TimeWheel F) (node : TimeNode F) :
    (s.added node).cells.Perm (s.newCell node :: s.cells) := by
  have inside : (s.newCell node).node.list < slots := place_lt s.current node.expire
  have moved := lists_update_perm s.tv _ inside
    (s.tv (s.newCell node).node.list ++ [s.newCell node])
  have swapped := moved.trans (List.perm_append_comm.append_left _)
  rw [← List.append_assoc] at swapped
  have last := (List.perm_append_right_iff _).mp swapped
  unfold cells
  rw [← List.cons_append]
  exact (last.trans (List.perm_append_singleton _ _)).append_right s.temp

/-- A node comes back while others are still out of the wheel. -/
theorem added_limbo_perm (s : TimeWheel F) (node : TimeNode F) (limbo : List (Cell F)) :
    (s.newCell node :: (limbo ++ s.cells)).Perm (limbo ++ (s.added node).cells) :=
  List.perm_middle.symm.trans ((added_cells_perm s node).symm.append_left limbo)

theorem added_cores (s : TimeWheel F) (node : TimeNode F) :
    (s.added node).cores.Perm (node.core :: s.cores) :=
  (added_cells_perm s node).map _

/-- The wheel when a new task has its id and its number. -/
def issuing (s : TimeWheel F) : TimeWheel F :=
  { s with nextId := (s.getId + 1) % 2 ^ 64, insertions := s.insertions + 1 }

/-- A task that `add_task` puts into the wheel. -/
structure Adds (s : TimeWheel F) (node : TimeNode F) (s' : TimeWheel F) (id : Nat) : Prop where
  issued : id = s.getId
  named : node.id = id
  insertion : node.insertion = ⟨s.insertions, node.id, node.expire, s.current⟩
  eq : s' = { s.issuing.added node with log := s.log ++ [.inserted node.insertion] }

theorem addTask_adds {now expire delay : Int} {fn : F} {circleCount : UInt32} {immediate : Bool}
    {id : Nat} (done : s.addTask now fn expire circleCount immediate delay = .ok (s', id)) :
    ∃ node, Adds s node s' id ∧ node.fn = fn ∧ node.circleCount = circleCount ∧
      node.interval = expire ∧ node.expire = now + if immediate then delay else expire + delay := by
  obtain ⟨inserted, first, same⟩ := bind_eq_ok.mp done
  obtain ⟨rfl, rfl⟩ := Prod.mk.inj (Except.ok.inj same)
  obtain rfl := addNode_ok first
  refine ⟨_, ⟨rfl, ?_, ?_, rfl⟩, ?_, ?_, ?_, ?_⟩ <;> rfl

/-- An erasure unlinks the node that `id_map_` designates, or finds none and keeps the lock. -/
inductive Erases (s : TimeWheel F) (id : Nat) : TimeWheel F → Bool → Prop where
  | absent (missing : s.idMap (id % 2 ^ 32) = none) : Erases s id { s with locked := true } false
  | unlinks {addr : Nat} (designated : s.idMap (id % 2 ^ 32) = some addr) :
    Erases s id { s with
      tv := fun idx => (s.tv idx).filter fun c => c.addr != addr
      temp := s.temp.filter fun c => c.addr != addr
      idMap := Function.update s.idMap (id % 2 ^ 32) none
      log := s.log ++ (s.cells.filter fun c => c.addr == addr).map
        fun c => .erased c.node.insertion } true

theorem eraseTask_erases {id : Nat} {found : Bool} (done : s.eraseTask id = .ok (s', found)) :
    s.locked = false ∧ Erases s id s' found := by
  unfold eraseTask at done
  split at done
  · contradiction
  rename_i free
  refine ⟨by simpa using free, ?_⟩
  split at done
  · rename_i missing
    obtain ⟨rfl, rfl⟩ := Prod.mk.inj (Except.ok.inj done)
    exact .absent missing
  · rename_i addr designated
    obtain ⟨rfl, rfl⟩ := Prod.mk.inj (Except.ok.inj done)
    exact .unlinks designated

/-- A tick begins when the tick before has run its tasks. -/
structure Begins (s : TimeWheel F) (now : Int) (settled s' : TimeWheel F) : Prop where
  idle : s.temp = []
  reached : s.current ≤ now
  cascaded : cascades s = .ok settled
  eq : s' = { settled with
    current := settled.current + 1
    now := now
    temp := settled.tv (nearIndex s.current)
    tv := Function.update settled.tv (nearIndex s.current) [] }

theorem beginTick_begins {now : Int} (done : s.beginTick now = .ok s') :
    ∃ settled, Begins s now settled s' := by
  unfold beginTick at done
  split at done
  · contradiction
  rename_i enabled
  obtain ⟨settled, cascaded, done⟩ := bind_eq_ok.mp done
  split at done
  · contradiction
  refine ⟨settled, ?_, ?_, cascaded, (Except.ok.inj done).symm⟩
  · simpa using fun busy => enabled (Or.inl busy)
  · exact Int.not_lt.mp fun early => enabled (Or.inr early)

/-- A task that is placed again when its function is called. -/
def rearmed (s : TimeWheel F) (n : TimeNode F) : TimeNode F :=
  { n with
    circleCount := nextCount n.circleCount
    expire := s.now + n.interval
    insertion := ⟨s.insertions, n.id, s.now + n.interval, s.current⟩ }

/-- The rounds of the loop over the tasks of a tick. -/
inductive Fires (s : TimeWheel F) : TimeWheel F → Option (F × Bool × Nat) → Prop where
  | idle (none_ : s.temp = []) : Fires s s none
  | again {v : Cell F} {rest : List (Cell F)} (running : s.temp = v :: rest)
    (more : nextCount v.node.circleCount ≠ 0) :
    Fires s { ({ s with temp := rest, insertions := s.insertions + 1 } : TimeWheel F).added
        (s.rearmed v.node) with
        log := s.log ++ [.inserted (s.rearmed v.node).insertion] ++
          [.ran v.node.insertion (s.current - 1) false] } (some (v.node.fn, false, v.node.id))
  | last {v : Cell F} {rest : List (Cell F)} (running : s.temp = v :: rest)
    (ended : nextCount v.node.circleCount = 0) :
    Fires s { s with
        temp := rest
        idMap := Function.update s.idMap v.node.id none
        log := s.log ++ [.ran v.node.insertion (s.current - 1) true] }
      (some (v.node.fn, true, v.node.id))

theorem fire_fires {call : Option (F × Bool × Nat)} (done : s.fire = .ok (s', call)) :
    Fires s s' call := by
  unfold fire at done
  split at done
  · rename_i none_
    obtain ⟨rfl, rfl⟩ := Prod.mk.inj (Except.ok.inj done)
    exact .idle none_
  rename_i v rest running
  by_cases more : nextCount v.node.circleCount ≠ 0
  · rw [if_pos more] at done
    obtain ⟨inserted, first, same⟩ := bind_eq_ok.mp done
    obtain ⟨rfl, rfl⟩ := Prod.mk.inj (Except.ok.inj same)
    obtain rfl := addNode_ok first
    exact .again running more
  · rw [if_neg more] at done
    obtain ⟨rfl, rfl⟩ := Prod.mk.inj (Except.ok.inj done)
    exact .last running (not_not.mp more)

theorem running_perm {v : Cell F} {rest : List (Cell F)} (running : s.temp = v :: rest) :
    s.cells.Perm (v :: cells { s with temp := rest }) := by
  unfold cells
  rw [running]
  exact List.perm_middle

theorem step_cases {op : WheelOp F} (done : s.step op = .ok s') : match op with
    | .addTask .. => ∃ node id, Adds s node s' id
    | .eraseTask id => ∃ found, Erases s id s' found
    | .beginTick now => ∃ settled, Begins s now settled s'
    | .fire => ∃ call, s.fire = .ok (s', call) ∧ Fires s s' call := by
  have result {β : Type} {x : Except WheelFault (TimeWheel F × β)} (ok : Prod.fst <$> x = .ok s') :
      ∃ b, x = .ok (s', b) := by
    cases x with
    | error => contradiction
    | ok r => exact ⟨r.2, congrArg (fun first => Except.ok (first, r.2)) (Except.ok.inj ok)⟩
  cases op with
  | addTask =>
    obtain ⟨id, added⟩ := result done
    obtain ⟨node, adds, _⟩ := addTask_adds added
    exact ⟨node, id, adds⟩
  | eraseTask =>
    obtain ⟨found, erased⟩ := result done
    exact ⟨found, (eraseTask_erases erased).2⟩
  | beginTick => exact beginTick_begins done
  | fire =>
    obtain ⟨call, fired⟩ := result done
    exact ⟨call, fired, fire_fires fired⟩

theorem level_inside (named : k < LEVEL) (v : Int) : OFFSET k + INDEX v k < slots := by
  have := index_lt v k
  have all := slots_eq
  simp only [LEVEL] at named
  rw [offset_eq]
  omega

theorem near_inside (v : Int) : nearIndex v < slots := by
  have := nearIndex_lt v
  have all := slots_eq
  omega

section Rules
variable {motive : List (Cell F) → TimeWheel F → Prop}
  (back : ∀ v limbo s, motive (v :: limbo) s → motive limbo (s.added v.node))
include back

theorem addNodes_rule {limbo : List (Cell F)} (done : addNodes s limbo = .ok s')
    (out : motive limbo s) : motive [] s' := by
  induction limbo generalizing s with
  | nil => exact Except.ok.inj done ▸ out
  | cons v rest ih =>
    obtain ⟨next, first, later⟩ := bind_eq_ok.mp done
    obtain rfl := addNode_ok first
    exact ih later (back v rest s out)

variable (takes : ∀ s idx, idx < slots → motive [] s →
    motive (s.tv idx) { s with tv := Function.update s.tv idx [] })
include takes

theorem cascade_rule {offset idx : Nat} {more : Bool} (inside : offset + idx < slots)
    (done : cascade s offset idx = .ok (s', more)) (holds : motive [] s) : motive [] s' := by
  obtain ⟨next, moved, same⟩ := bind_eq_ok.mp done
  obtain ⟨rfl, rfl⟩ := Prod.mk.inj (Except.ok.inj same)
  exact addNodes_rule back moved (takes s _ inside holds)

/-- What holds when a list is taken out, and while its nodes are placed again, holds of the wheel
and of the nodes that are still out. -/
theorem cascades_rule (done : cascades s = .ok s') (holds : motive [] s) : motive [] s' := by
  unfold cascades at done
  split at done
  · exact Except.ok.inj done ▸ holds
  obtain ⟨⟨s1, more1⟩, done1, done⟩ := bind_eq_ok.mp done
  have holds1 := cascade_rule back takes (level_inside (by decide) _) done1 holds
  simp only at done
  split at done
  · exact Except.ok.inj done ▸ holds1
  obtain ⟨⟨s2, more2⟩, done2, done⟩ := bind_eq_ok.mp done
  have holds2 := cascade_rule back takes (level_inside (by decide) _) done2 holds1
  simp only at done
  split at done
  · exact Except.ok.inj done ▸ holds2
  obtain ⟨⟨s3, more3⟩, done3, done⟩ := bind_eq_ok.mp done
  have holds3 := cascade_rule back takes (level_inside (by decide) _) done3 holds2
  simp only at done
  split at done
  · exact Except.ok.inj done ▸ holds3
  obtain ⟨⟨s4, more4⟩, done4, done⟩ := bind_eq_ok.mp done
  exact Except.ok.inj done ▸ cascade_rule back takes (level_inside (by decide) _) done4 holds3

end Rules

/-- A list that is taken out of the wheel, and the nodes that stay. -/
theorem emptied_perm (s : TimeWheel F) {idx : Nat} (inside : idx < slots) :
    s.cells.Perm (s.tv idx ++ cells { s with tv := Function.update s.tv idx [] }) := by
  have lists := (lists_update_perm s.tv _ inside []).append_right s.temp
  unfold cells
  rw [List.append_nil] at lists
  rw [← List.append_assoc]
  exact lists.symm.trans (List.perm_append_comm.append_right _)

/-- What no placing of nodes changes. -/
structure Kept (s s' : TimeWheel F) : Prop where
  current : s'.current = s.current
  temp : s'.temp = s.temp
  now : s'.now = s.now
  log : s'.log = s.log
  insertions : s'.insertions = s.insertions

/-- A wheel that has been made of `s0` by moving nodes, with those that are out. -/
structure Moving (s0 : TimeWheel F) (limbo : List (Cell F)) (s : TimeWheel F) : Prop
    extends Kept s0 s where
  cores : ((limbo ++ s.cells).map fun c => c.node.core).Perm (s0.cells.map fun c => c.node.core)
  nextId : s.nextId = s0.nextId

theorem cascades_moving (done : cascades s = .ok s') : Moving s [] s' := by
  refine cascades_rule (fun v limbo t moving => ?_) (fun t idx inside moving => ?_) done
    ⟨⟨rfl, rfl, rfl, rfl, rfl⟩, .refl _, rfl⟩
  · have placed := (added_cells_perm t v.node).append_left limbo
    obtain ⟨⟨current, temp, now, log, insertions⟩, cores, nextId⟩ := moving
    exact ⟨⟨current, temp, now, log, insertions⟩,
      ((placed.trans List.perm_middle).map fun c => c.node.core).trans cores, nextId⟩
  · obtain ⟨⟨current, temp, now, log, insertions⟩, cores, nextId⟩ := moving
    exact ⟨⟨current, temp, now, log, insertions⟩,
      ((emptied_perm t inside).symm.map _).trans cores, nextId⟩

theorem Begins.cells_perm {now : Int} {settled : TimeWheel F} (begins : Begins s now settled s') :
    s'.cells.Perm settled.cells := by
  have idle : settled.temp = [] := (cascades_moving begins.cascaded).temp.trans begins.idle
  have lists := lists_update_perm settled.tv _ (near_inside s.current) []
  rw [begins.eq]
  unfold cells
  rw [idle]
  exact lists

theorem Begins.cores {now : Int} {settled : TimeWheel F} (begins : Begins s now settled s') :
    s'.cores.Perm s.cores :=
  (begins.cells_perm.map _).trans (cascades_moving begins.cascaded).cores

/-- A rule about the lists in which nodes lie at a tick, with the lists of the levels below `upto`
cascaded, that taking the lists of the tick and placing their nodes keeps. -/
structure Discipline (lies : Nat → Int → Nat → TimeNode F → Prop) : Prop where
  next : ∀ {upto t idx n}, lies upto t idx n →
    (t % span upto = 0 → idx ≠ OFFSET upto + INDEX t upto) → lies (upto + 1) t idx n
  unaligned : ∀ {upto t idx n}, lies upto t idx n → t % span upto ≠ 0 → lies LEVEL t idx n
  replaced : ∀ {k t n}, k < LEVEL → lies k t (OFFSET k + INDEX t k) n → t % span k = 0 →
    lies (k + 1) t (place t n.expire).1
      { n with expire := (place t n.expire).2, list := (place t n.expire).1 }

section Placing
variable {lies : Nat → Int → Nat → TimeNode F → Prop}

/-- Every node of `tv_` lies by the rule. -/
def Lies (lies : Nat → Int → Nat → TimeNode F → Prop) (upto : Nat) (s : TimeWheel F) : Prop :=
  ∀ idx, ∀ c ∈ s.tv idx, lies upto s.current idx c.node

theorem Lies.added {upto : Nat} (laid : Lies lies upto s) {node : TimeNode F}
    (own : lies upto s.current (s.newCell node).node.list (s.newCell node).node) :
    Lies lies upto (s.added node) := by
  intro idx c member
  rcases mem_added member with old | ⟨rfl, rfl⟩
  · exact laid idx c old
  · exact own

theorem addNodes_lies {k : Nat} {nodes : List (Cell F)} (done : addNodes s nodes = .ok s')
    (laid : Lies lies k s)
    (each : ∀ c ∈ nodes, lies k s.current (place s.current c.node.expire).1
      { c.node with expire := (place s.current c.node.expire).2
                    list := (place s.current c.node.expire).1 }) : Lies lies k s' := by
  induction nodes generalizing s with
  | nil => exact Except.ok.inj done ▸ laid
  | cons v rest ih =>
    obtain ⟨next, first, later⟩ := bind_eq_ok.mp done
    obtain rfl := addNode_ok first
    exact ih later (laid.added (each v List.mem_cons_self))
      fun c member => each c (List.mem_cons_of_mem v member)

namespace Discipline
variable (discipline : Discipline lies)
include discipline

theorem cascade {k : Nat} {more : Bool} (named : k < LEVEL)
    (done : cascade s (OFFSET k) (INDEX s.current k) = .ok (s', more)) (laid : Lies lies k s)
    (aligned : s.current % span k = 0) :
    Lies lies (k + 1) s' ∧ s'.current = s.current ∧ more = (INDEX s.current k != 0) := by
  obtain ⟨next, moved, same⟩ := bind_eq_ok.mp done
  obtain ⟨rfl, rfl⟩ := Prod.mk.inj (Except.ok.inj same)
  refine ⟨addNodes_lies moved (fun idx c member => ?_) fun c member =>
    discipline.replaced named (laid _ c member) aligned, ?_, rfl⟩
  · by_cases here : idx = OFFSET k + INDEX s.current k
    · simp only [here, Function.update_self, List.not_mem_nil] at member
    · simp only [Function.update_of_ne here] at member
      exact discipline.next (laid idx c member) fun _ => here
  · exact addNodes_rule (motive := fun _ t => t.current = s.current) (fun _ _ _ same => same) moved rfl

theorem unaligned_lies {upto : Nat} (laid : Lies lies upto s)
    (unaligned : s.current % span upto ≠ 0) : Lies lies LEVEL s :=
  fun idx c member => discipline.unaligned (laid idx c member) unaligned

/-- One link of the chain: the next level is asked only when this level's index is zero. -/
theorem link {k : Nat} {more : Bool} (named : k < LEVEL) {middle : TimeWheel F}
    (laid : Lies lies k s) (aligned : s.current % span k = 0)
    (done : TimeWheel.cascade s (OFFSET k) (INDEX s.current k) = .ok (middle, more))
    (stop : more = true → s' = middle)
    (next : more = false → Lies lies (k + 1) middle → middle.current % span (k + 1) = 0 →
      Lies lies LEVEL s') : Lies lies LEVEL s' := by
  obtain ⟨laid', current, test⟩ := discipline.cascade named done laid aligned
  have succ := aligned_succ k s.current
  rw [← current] at succ
  rcases h : more with _ | _
  · have zero : INDEX s.current k = 0 := by simpa [h] using test
    rw [← current] at aligned zero
    exact next h laid' (succ.mpr ⟨aligned, zero⟩)
  · have index : INDEX s.current k ≠ 0 := by simpa [h] using test
    rw [← current] at index
    obtain rfl := stop h
    exact discipline.unaligned_lies laid' fun whole => index (succ.mp whole).2

theorem cascades (done : cascades s = .ok s') (laid : Lies lies 0 s) : Lies lies LEVEL s' := by
  have first : s.current % span 0 = 0 ↔ nearIndex s.current = 0 := by
    have index := nearIndex_eq s.current
    have width : span 0 = 256 := by decide
    rw [width]
    omega
  unfold TimeWheel.cascades at done
  split at done
  · rename_i unaligned
    obtain rfl := Except.ok.inj done
    exact discipline.unaligned_lies laid fun aligned => unaligned (first.mp aligned)
  rename_i aligned
  obtain ⟨⟨s1, more1⟩, done1, done⟩ := bind_eq_ok.mp done
  refine discipline.link (by decide) laid (first.mpr (not_not.mp aligned)) done1 ?_ ?_
  · rintro rfl
    exact (Except.ok.inj done).symm
  rintro rfl laid1 aligned1
  obtain ⟨⟨s2, more2⟩, done2, done⟩ := bind_eq_ok.mp done
  refine discipline.link (by decide) laid1 aligned1 done2 ?_ ?_
  · rintro rfl
    exact (Except.ok.inj done).symm
  rintro rfl laid2 aligned2
  obtain ⟨⟨s3, more3⟩, done3, done⟩ := bind_eq_ok.mp done
  refine discipline.link (by decide) laid2 aligned2 done3 ?_ ?_
  · rintro rfl
    exact (Except.ok.inj done).symm
  rintro rfl laid3 aligned3
  obtain ⟨⟨s4, more4⟩, done4, done⟩ := bind_eq_ok.mp done
  obtain rfl := Except.ok.inj done
  exact (discipline.cascade (by decide) done4 laid3 aligned3).1

end Discipline

/-- The list of the tick is taken out, and the others wait for a later tick. -/
theorem Begins.keeps {now : Int} {settled : TimeWheel F} (begins : Begins s now settled s')
    (discipline : Discipline lies)
    (advance : ∀ {t idx n}, lies LEVEL t idx n → idx ≠ nearIndex t → lies 0 (t + 1) idx n)
    (laid : Lies lies 0 s) :
    Lies lies 0 s' ∧ ∀ c ∈ s'.temp, lies LEVEL s.current (nearIndex s.current) c.node := by
  have settles := discipline.cascades begins.cascaded laid
  have current := (cascades_moving begins.cascaded).current
  rw [begins.eq, ← current]
  constructor
  · intro idx c member
    by_cases here : idx = nearIndex settled.current
    · simp [here] at member
    · simp only [Function.update_of_ne here] at member
      exact advance (settles idx c member) here
  · exact fun c member => settles _ c member

end Placing

end TimeWheel
end WebsocketProto
