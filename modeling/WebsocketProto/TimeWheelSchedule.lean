import WebsocketProto.TimeWheelSteps

/-! What all steps of the wheel keep: each node lies where its due tick will find it, and the log
accounts for every insertion as waiting, erased or run. -/
namespace WebsocketProto
open Outcome

def Insertion.due (i : Insertion) : Int := max i.expire i.current

/-- Not further ahead than the wheel can see. -/
def Insertion.Near (i : Insertion) : Prop := i.expire - i.current ≤ 2 ^ 32 - 1

/-- The ticks at which the function ran for an insertion. -/
def runsOf (i : Insertion) (log : List WheelEvent) : List Int :=
  log.filterMap fun
    | .ran j tick _ => if j = i then some tick else none
    | _ => none

theorem runsOf_append (i : Insertion) (front back : List WheelEvent) :
    runsOf i (front ++ back) = runsOf i front ++ runsOf i back :=
  List.filterMap_append

theorem runsOf_erased (i : Insertion) (gone : List Insertion) :
    runsOf i (gone.map .erased) = [] := by
  induction gone with
  | nil => rfl
  | cons j rest ih => exact ih

/-- The log accounts for every insertion: those of `waiting` have not run, and every
other one was erased or has run, once and at its due tick. -/
structure Recorded (log : List WheelEvent) (insertions : Nat) (waiting : List Insertion) : Prop where
  distinct : waiting.Nodup
  known : ∀ i ∈ waiting, .inserted i ∈ log ∧ runsOf i log = []
  numbered : ∀ i, .inserted i ∈ log → i.number < insertions
  origin : ∀ i, runsOf i log ≠ [] → .inserted i ∈ log
  once : ∀ i, runsOf i log = [] ∨ ∃ tick, runsOf i log = [tick] ∧ (i.Near → tick = i.due)
  fate : ∀ i, .inserted i ∈ log → i ∈ waiting ∨ .erased i ∈ log ∨ runsOf i log ≠ []

section Recording
variable {log : List WheelEvent} {insertions : Nat} {waiting : List Insertion}

theorem Recorded.perm (recorded : Recorded log insertions waiting)
    (same : waiting.Perm other) : Recorded log insertions other where
  distinct := same.nodup_iff.mp recorded.distinct
  known := fun i member => recorded.known i (same.mem_iff.mpr member)
  numbered := recorded.numbered
  origin := recorded.origin
  once := recorded.once
  fate := fun i inserted => (recorded.fate i inserted).imp_left same.mem_iff.mp

theorem Recorded.insert (recorded : Recorded log insertions waiting) (i : Insertion)
    (fresh : i.number = insertions) :
    Recorded (log ++ [.inserted i]) (insertions + 1) (i :: waiting) := by
  have unlogged : .inserted i ∉ log := by
    intro old
    have := recorded.numbered i old
    omega
  have runs (j : Insertion) : runsOf j (log ++ [.inserted i]) = runsOf j log := by
    rw [runsOf_append]; exact List.append_nil _
  have inserted (j : Insertion) :
      WheelEvent.inserted j ∈ log ++ [.inserted i] ↔ .inserted j ∈ log ∨ j = i := by simp
  refine ⟨?_, ?_, ?_, ?_, ?_, ?_⟩
  · refine List.nodup_cons.mpr ⟨fun member => ?_, recorded.distinct⟩
    exact unlogged (recorded.known i member).1
  · intro j member
    rw [runs, inserted]
    rcases List.mem_cons.mp member with rfl | member
    · refine ⟨Or.inr rfl, ?_⟩
      by_contra ran
      exact unlogged (recorded.origin j ran)
    · exact ⟨Or.inl (recorded.known j member).1, (recorded.known j member).2⟩
  · intro j logged
    rcases (inserted j).mp logged with logged | rfl
    · exact Nat.lt_succ_of_lt (recorded.numbered j logged)
    · omega
  · intro j ran
    rw [runs] at ran
    exact (inserted j).mpr (Or.inl (recorded.origin j ran))
  · intro j
    rw [runs]
    exact recorded.once j
  · intro j logged
    rw [runs]
    rcases (inserted j).mp logged with logged | rfl
    · rcases recorded.fate j logged with member | erased | ran
      · exact Or.inl (List.mem_cons_of_mem _ member)
      · exact Or.inr (Or.inl (List.mem_append_left _ erased))
      · exact Or.inr (Or.inr ran)
    · exact Or.inl List.mem_cons_self

theorem Recorded.ran (recorded : Recorded log insertions (i :: waiting)) (tick : Int)
    (isDone : Bool) (due : i.Near → tick = i.due) :
    Recorded (log ++ [.ran i tick isDone]) insertions waiting := by
  obtain ⟨absent, distinct⟩ := List.nodup_cons.mp recorded.distinct
  obtain ⟨inserted_i, unrun⟩ := recorded.known i List.mem_cons_self
  have runs_i : runsOf i (log ++ [.ran i tick isDone]) = [tick] := by
    rw [runsOf_append, unrun]; simp [runsOf]
  have runs (j : Insertion) (other : j ≠ i) :
      runsOf j (log ++ [.ran i tick isDone]) = runsOf j log := by
    rw [runsOf_append]; simp [runsOf, other.symm]
  have inserted (j : Insertion) :
      WheelEvent.inserted j ∈ log ++ [.ran i tick isDone] ↔ .inserted j ∈ log := by simp
  refine ⟨distinct, ?_, ?_, ?_, ?_, ?_⟩
  · intro j member
    have other : j ≠ i := fun same => absent (same ▸ member)
    rw [inserted, runs j other]
    exact recorded.known j (List.mem_cons_of_mem i member)
  · exact fun j logged => recorded.numbered j ((inserted j).mp logged)
  · intro j ran
    rw [inserted]
    by_cases other : j = i
    · exact other ▸ inserted_i
    · rw [runs j other] at ran
      exact recorded.origin j ran
  · intro j
    by_cases other : j = i
    · subst other
      exact Or.inr ⟨tick, runs_i, due⟩
    · rw [runs j other]
      exact recorded.once j
  · intro j logged
    by_cases other : j = i
    · subst other
      exact Or.inr (Or.inr (by simp [runs_i]))
    · rw [runs j other]
      rcases recorded.fate j ((inserted j).mp logged) with member | erased | ran
      · rcases List.mem_cons.mp member with same | member
        · exact absurd same other
        · exact Or.inl member
      · exact Or.inr (Or.inl (List.mem_append_left _ erased))
      · exact Or.inr (Or.inr ran)

theorem Recorded.erase (gone : List Insertion)
    (recorded : Recorded log insertions (gone ++ waiting)) :
    Recorded (log ++ gone.map .erased) insertions waiting := by
  have runs (j : Insertion) : runsOf j (log ++ gone.map .erased) = runsOf j log := by
    rw [runsOf_append, runsOf_erased, List.append_nil]
  have inserted (j : Insertion) :
      WheelEvent.inserted j ∈ log ++ gone.map .erased ↔ .inserted j ∈ log := by simp
  refine ⟨(List.nodup_append.mp recorded.distinct).2.1, ?_, ?_, ?_, ?_, ?_⟩
  · intro j member
    rw [inserted, runs]
    exact recorded.known j (List.mem_append_right gone member)
  · exact fun j logged => recorded.numbered j ((inserted j).mp logged)
  · intro j ran
    rw [runs] at ran
    exact (inserted j).mpr (recorded.origin j ran)
  · intro j
    rw [runs]
    exact recorded.once j
  · intro j logged
    rw [runs]
    rcases recorded.fate j ((inserted j).mp logged) with member | erased | ran
    · rcases List.mem_append.mp member with member | member
      · exact Or.inr (Or.inl (List.mem_append_right _ (List.mem_map_of_mem member)))
      · exact Or.inl member
    · exact Or.inr (Or.inl (List.mem_append_left _ erased))
    · exact Or.inr (Or.inr ran)

end Recording

/-- The tick in which a node that lies in the wheel is due. -/
def TimeNode.due (n : TimeNode F) : Int := max n.expire n.insertion.current

/-- Only a task beyond the wheel's range has another expiry than was asked for. -/
def TimeNode.Genuine (n : TimeNode F) : Prop := n.insertion.Near → n.expire = n.insertion.expire

theorem TimeNode.Genuine.due_eq {n : TimeNode F} (genuine : n.Genuine) (near : n.insertion.Near) :
    n.due = n.insertion.due := by
  rw [TimeNode.due, Insertion.due, genuine near]

namespace TimeWheel

/-- The insertions whose nodes are still in the wheel. -/
def waiting (s : TimeWheel F) : List Insertion := s.cells.map fun c => c.node.insertion

theorem added_waiting_perm (s : TimeWheel F) (node : TimeNode F) :
    (s.added node).waiting.Perm (node.insertion :: s.waiting) :=
  (added_cells_perm s node).map _

/-- Every node lies where its due tick finds it; the nodes of a running tick are due in
it. Below level `upto` no list comes up at the current tick any more. -/
structure Laid (upto : Nat) (s : TimeWheel F) : Prop where
  placed : ∀ idx, ∀ c ∈ s.tv idx,
    Placed upto s.current idx c.node.expire c.node.due ∧ c.node.Genuine
  firing : ∀ c ∈ s.temp, c.node.due = s.current - 1 ∧ c.node.Genuine

/-- A node that leaves a list of level `k` in its turn. -/
structure Descends (k : Nat) (t : Int) (node : TimeNode F) : Prop where
  due : node.due = node.expire
  behind : t ≤ node.expire
  ahead : node.expire < t + span k
  genuine : node.Genuine

theorem span_lt (named : k < LEVEL) : span k < 2 ^ 32 - 1 := by
  rcases k with _ | _ | _ | _ | k
  · decide
  · decide
  · decide
  · decide
  · simp only [LEVEL] at named; omega

/-- The list in which the due tick of a node finds it. -/
def Filed (upto : Nat) (t : Int) (idx : Nat) (n : TimeNode F) : Prop :=
  Placed upto t idx n.expire n.due ∧ n.Genuine

theorem Filed.descends {n : TimeNode F} (filed : Filed k t (OFFSET k + INDEX t k) n)
    (aligned : t % span k = 0) : Descends k t n := by
  obtain ⟨due, behind, ahead⟩ := filed.1.of_cascaded aligned
  exact ⟨due, behind, ahead, filed.2⟩

theorem Descends.filed {n : TimeNode F} (named : k < LEVEL) (descends : Descends k t n) :
    Filed upto t (place t n.expire).1
      { n with expire := (place t n.expire).2, list := (place t n.expire).1 } := by
  obtain ⟨due, behind, ahead, genuine⟩ := descends
  have bound := span_lt named
  have unclamped := place_expire t n.expire (by omega)
  have same : max n.expire n.insertion.current = max n.expire t := by
    unfold TimeNode.due at due
    omega
  refine ⟨?_, fun near => unclamped.trans (genuine near)⟩
  have placed := place_placed upto t n.expire
  rw [unclamped] at placed
  simpa only [TimeNode.due, unclamped, same] using placed

theorem filed_discipline : Discipline (Filed (F := F)) where
  next filed moved := ⟨filed.1.next moved, filed.2⟩
  unaligned filed unaligned := ⟨filed.1.of_unaligned unaligned, filed.2⟩
  replaced named filed aligned := (filed.descends aligned).filed named

/-- A node that is inserted afresh. -/
theorem Laid.added {s : TimeWheel F} (laid : Laid upto s) {node : TimeNode F} {number : Nat}
    (fresh : node.insertion = ⟨number, node.id, node.expire, s.current⟩) :
    Laid upto (s.added node) := by
  have lies : Lies Filed upto s := laid.placed
  refine ⟨lies.added ⟨?_, fun near => ?_⟩, laid.firing⟩
  · have placed := place_placed upto s.current node.expire
    simpa only [TimeNode.due, newCell, fresh] using placed
  · simp only [newCell, fresh, Insertion.Near] at near ⊢
    exact place_expire s.current node.expire near

/-- What the chain of cascades achieves before a tick. -/
def Settles (s s' : TimeWheel F) : Prop :=
  Laid LEVEL s' ∧ Kept s s' ∧ s'.waiting.Perm s.waiting

theorem cascades_settles {s s' : TimeWheel F} (done : cascades s = .ok s') (laid : Laid 0 s) :
    Settles s s' := by
  have moving := cascades_moving done
  refine ⟨⟨filed_discipline.cascades done laid.placed, ?_⟩, moving.toKept, ?_⟩
  · rw [moving.temp, moving.current]
    exact laid.firing
  · have cores := moving.cores.map fun n => n.insertion
    rwa [List.map_map, List.map_map] at cores

structure Good (s : TimeWheel F) : Prop where
  laid : Laid 0 s
  recorded : Recorded s.log s.insertions s.waiting

theorem empty_good (current : Int) : Good (empty current : TimeWheel F) := by
  have none_waiting : (empty current : TimeWheel F).waiting = [] := by
    simp [waiting]
  have unlogged (e : WheelEvent) : e ∉ (empty current : TimeWheel F).log := List.not_mem_nil
  refine ⟨⟨fun _ => List.forall_mem_nil _, List.forall_mem_nil _⟩, ?_⟩
  rw [none_waiting]
  exact ⟨.nil, List.forall_mem_nil _, fun i logged => absurd logged (unlogged _),
    fun _ ran => absurd rfl ran, fun _ => Or.inl rfl, fun i logged => absurd logged (unlogged _)⟩

namespace Good
variable {s s' : TimeWheel F}

theorem adds {node : TimeNode F} {id : Nat} (good : Good s) (adds : Adds s node s' id) :
    Good s' := by
  have issuing : Laid 0 s.issuing := ⟨good.laid.placed, good.laid.firing⟩
  have laid := issuing.added adds.insertion
  have recorded := good.recorded.insert node.insertion (congrArg Insertion.number adds.insertion)
  rw [adds.eq]
  exact ⟨⟨laid.placed, laid.firing⟩, recorded.perm (added_waiting_perm s.issuing node).symm⟩

theorem erases {id : Nat} {found : Bool} (good : Good s) (erases : Erases s id s' found) :
    Good s' := by
  cases erases with
  | absent => exact ⟨⟨good.laid.placed, good.laid.firing⟩, good.recorded⟩
  | @unlinks addr designated =>
    refine ⟨⟨?_, ?_⟩, ?_⟩
    · exact fun idx c member => good.laid.placed idx c (List.mem_filter.mp member).1
    · exact fun c member => good.laid.firing c (List.mem_filter.mp member).1
    · have split : (s.cells.filter (fun c => c.addr == addr) ++
          s.cells.filter fun c => c.addr != addr).Perm s.cells :=
        List.filter_append_perm _ _
      have parted := good.recorded.perm
        (split.map fun c : Cell F => c.node.insertion).symm
      rw [List.map_append] at parted
      have erased := parted.erase
      rw [List.map_map, ← filter_cells s fun c => c.addr != addr] at erased
      exact erased

theorem begins {now : Int} {settled : TimeWheel F} (good : Good s)
    (begins : Begins s now settled s') : Good s' := by
  obtain ⟨laid, kept, perm⟩ := cascades_settles begins.cascaded good.laid
  have recorded := good.recorded.perm perm.symm
  rw [← kept.log, ← kept.insertions] at recorded
  have moved := begins.cells_perm.map fun c => c.node.insertion
  rw [begins.eq] at moved ⊢
  refine ⟨⟨?_, ?_⟩, recorded.perm moved.symm⟩
  · intro idx c member
    by_cases here : idx = nearIndex s.current
    · simp only [here, Function.update_self, List.not_mem_nil] at member
    · simp only [Function.update_of_ne here] at member
      obtain ⟨placed, genuine⟩ := laid.placed idx c member
      rw [← kept.current] at here
      exact ⟨placed.advance here, genuine⟩
  · intro c member
    obtain ⟨placed, genuine⟩ := laid.placed _ c member
    rw [← kept.current] at placed
    have due := placed.due_of_near
    exact ⟨by simp only; omega, genuine⟩

theorem fires {call : Option (F × Bool × Nat)} (good : Good s) (fires : Fires s s' call) :
    Good s' := by
  have tick {v : Cell F} {rest : List (Cell F)} (running : s.temp = v :: rest) :
      v.node.insertion.Near → s.current - 1 = v.node.insertion.due := by
    obtain ⟨due, genuine⟩ := good.laid.firing v (running ▸ List.mem_cons_self)
    exact fun near => due.symm.trans (genuine.due_eq near)
  have laid {v : Cell F} {rest : List (Cell F)} (running : s.temp = v :: rest) :
      Laid 0 { s with temp := rest } :=
    ⟨good.laid.placed, fun c member => good.laid.firing c (running ▸ List.mem_cons_of_mem v member)⟩
  have recorded {v : Cell F} {rest : List (Cell F)} (running : s.temp = v :: rest) :
      Recorded s.log s.insertions (v.node.insertion :: waiting { s with temp := rest }) :=
    good.recorded.perm ((running_perm running).map fun c : Cell F => c.node.insertion)
  cases fires with
  | idle => exact good
  | @again v rest running more =>
    have out : Laid 0 { s with temp := rest, insertions := s.insertions + 1 } :=
      ⟨(laid running).placed, (laid running).firing⟩
    have back : Laid 0 (TimeWheel.added _ (s.rearmed v.node)) := out.added rfl
    have inserted := (recorded running).insert (s.rearmed v.node).insertion rfl
    refine ⟨⟨back.placed, back.firing⟩, (inserted.perm ?_).ran _ false (tick running)⟩
    exact (List.Perm.swap _ _ _).trans ((added_waiting_perm _ _).symm.cons _)
  | @last v rest running ended =>
    exact ⟨⟨(laid running).placed, (laid running).firing⟩, (recorded running).ran _ true (tick running)⟩

end Good

theorem step_good (s : TimeWheel F) (op : WheelOp F) (s' : TimeWheel F) (good : Good s)
    (done : s.step op = .ok s') : Good s' := by
  have step := step_cases done
  cases op with
  | addTask =>
    obtain ⟨node, id, adds⟩ := step
    exact good.adds adds
  | eraseTask =>
    obtain ⟨found, erases⟩ := step
    exact good.erases erases
  | beginTick =>
    obtain ⟨settled, begins⟩ := step
    exact good.begins begins
  | fire =>
    obtain ⟨call, _, fires⟩ := step
    exact good.fires fires

theorem addNodes_free (s : TimeWheel F) (nodes : List (Cell F)) (free : s.locked = false) :
    ∃ s', addNodes s nodes = .ok s' ∧ s'.locked = false := by
  induction nodes generalizing s with
  | nil => exact ⟨s, rfl, free⟩
  | cons v rest ih =>
    obtain ⟨s', done, free'⟩ := ih (s.added v.node) free
    refine ⟨s', ?_, free'⟩
    rw [addNodes, addNode_eq, free]
    exact done

theorem cascade_free (s : TimeWheel F) (offset idx : Nat) (free : s.locked = false) :
    ∃ s', cascade s offset idx = .ok (s', idx != 0) ∧ s'.locked = false := by
  obtain ⟨s', done, free'⟩ := addNodes_free
    { s with tv := Function.update s.tv (offset + idx) [] } (s.tv (offset + idx)) free
  exact ⟨s', by rw [cascade, done]; rfl, free'⟩

theorem cascades_free (s : TimeWheel F) (free : s.locked = false) :
    ∃ s', cascades s = .ok s' ∧ s'.locked = false := by
  unfold cascades
  split
  · exact ⟨s, rfl, free⟩
  obtain ⟨s1, done1, free1⟩ := cascade_free s (OFFSET 0) (INDEX s.current 0) free
  obtain ⟨s2, done2, free2⟩ := cascade_free s1 (OFFSET 1) (INDEX s1.current 1) free1
  obtain ⟨s3, done3, free3⟩ := cascade_free s2 (OFFSET 2) (INDEX s2.current 2) free2
  obtain ⟨s4, done4, free4⟩ := cascade_free s3 (OFFSET 3) (INDEX s3.current 3) free3
  rw [done1, ok_bind]
  simp only
  split
  · exact ⟨s1, rfl, free1⟩
  rw [done2, ok_bind]
  simp only
  split
  · exact ⟨s2, rfl, free2⟩
  rw [done3, ok_bind]
  simp only
  split
  · exact ⟨s3, rfl, free3⟩
  · exact ⟨s4, by rw [done4]; rfl, free4⟩

theorem beginTick_free (s : TimeWheel F) (now : Int) (free : s.locked = false)
    (idle : s.temp = []) (due : s.current ≤ now) :
    ∃ s', s.beginTick now = .ok s' ∧ s'.locked = false := by
  obtain ⟨s', done, free'⟩ := cascades_free s free
  have enabled : ¬ (s.temp.isEmpty = false ∨ now < s.current) := by
    rw [idle]
    simpa using due
  unfold beginTick
  rw [if_neg enabled, done, ok_bind]
  simp only [free', Bool.false_eq_true, ↓reduceIte]
  exact ⟨_, rfl, rfl⟩

theorem insertNode_free (s : TimeWheel F) (node : TimeNode F) (free : s.locked = false) :
    ∃ s', insertNode s node = .ok s' ∧ s'.locked = false := by
  have stamped : (s.stamp node).locked = false := free
  refine ⟨(s.stamp node).added { node with insertion := s.stamped node }, ?_, free⟩
  rw [insertNode, addNode_eq, stamped]
  rfl

theorem fire_free (s : TimeWheel F) (free : s.locked = false) :
    ∃ r, s.fire = .ok r ∧ r.1.locked = false := by
  unfold fire
  split
  · exact ⟨_, rfl, free⟩
  rename_i v rest _
  by_cases again : nextCount v.node.circleCount ≠ 0
  · obtain ⟨s', inserted, free'⟩ := insertNode_free { s with temp := rest }
      { v.node with
        circleCount := nextCount v.node.circleCount
        expire := s.now + v.node.interval } free
    rw [if_pos again, inserted]
    exact ⟨_, rfl, free'⟩
  · rw [if_neg again]
    exact ⟨_, rfl, free⟩

theorem run_good {current : Int} {ops : List (WheelOp F)} {s : TimeWheel F}
    (done : run step (empty current) ops = .ok s) : Good s :=
  run_invariant step_good (empty_good current) done

end TimeWheel

end WebsocketProto
