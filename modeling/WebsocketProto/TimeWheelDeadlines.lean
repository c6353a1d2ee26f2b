import WebsocketProto.TimeWheelTasks

/-! How late a task can be due: placing a node again never puts its expiry off, and only a
task that runs again gets a new one. -/
namespace WebsocketProto.TimeWheel
open Outcome

variable {F : Type} {s s' : TimeWheel F} {id : Nat} {bound : Int}

/-- The task `id`, where it is among the nodes, expires by `bound`. -/
def Early (cells : List (Cell F)) (id : Nat) (bound : Int) : Prop :=
  ∀ c ∈ cells, c.node.id = id → c.node.expire ≤ bound

theorem Early.subset {cells fewer : List (Cell F)} (early : Early cells id bound)
    (subset : ∀ c ∈ fewer, c ∈ cells) : Early fewer id bound :=
  fun c member => early c (subset c member)

/-- An expiry that lies too far ahead is brought forward. -/
theorem place_early (current expire : Int) : (place current expire).2 ≤ expire := by
  unfold place
  dsimp only
  split
  · exact Int.le_refl _
  split
  · exact Int.le_refl _
  split
  · exact Int.le_refl _
  split
  · exact Int.le_refl _
  split
  · exact Int.le_refl _
  · dsimp only
    split <;> omega

theorem added_early {node : TimeNode F} (early : Early s.cells id bound)
    (own : node.id = id → node.expire ≤ bound) : Early (s.added node).cells id bound := by
  intro c member named
  rcases List.mem_cons.mp ((added_cells_perm s node).mem_iff.mp member) with rfl | old
  · exact Int.le_trans (place_early s.current node.expire) (own named)
  · exact early c old named

theorem cascades_early (done : cascades s = .ok s') (early : Early s.cells id bound) :
    Early s'.cells id bound := by
  refine cascades_rule (motive := fun limbo t => Early (limbo ++ t.cells) id bound)
    (fun v limbo t early => ?_) (fun t idx inside early => ?_) done early
  · intro c member named
    rcases List.mem_append.mp member with out | held
    · exact early c (List.mem_append_left _ (List.mem_cons_of_mem v out)) named
    · have back : Early (t.added v.node).cells id bound :=
        added_early (early.subset fun c held => List.mem_append_right _ held)
          (early v (List.mem_append_left _ List.mem_cons_self))
      exact back c held named
  · exact early.subset fun c member => (emptied_perm t inside).mem_iff.mpr member

theorem beginTick_early {now : Int} (done : s.beginTick now = .ok s')
    (early : Early s.cells id bound) : Early s'.cells id bound := by
  obtain ⟨settled, begins⟩ := beginTick_begins done
  exact (cascades_early begins.cascaded early).subset fun c member => begins.cells_perm.mem_iff.mp member

theorem eraseTask_early {other : Nat} {found : Bool}
    (done : s.eraseTask other = .ok (s', found)) (early : Early s.cells id bound) :
    Early s'.cells id bound := by
  cases (eraseTask_erases done).2 with
  | absent => exact early
  | @unlinks addr designated =>
    apply early.subset
    intro c member
    unfold TimeWheel.cells at member
    rw [filter_cells s fun c => c.addr != addr] at member
    exact (List.mem_filter.mp member).1

theorem eraseTask_nextId {other : Nat} {found : Bool}
    (done : s.eraseTask other = .ok (s', found)) : s'.nextId = s.nextId := by
  cases (eraseTask_erases done).2 <;> rfl

theorem addTask_nextId {now expire : Int} {fn : F} {circleCount : UInt32} {new : Nat}
    (counted : 0 < s.nextId) (room : s.nextId < 2 ^ 32)
    (done : s.addTask now fn expire circleCount false 0 = .ok (s', new)) :
    new = s.nextId ∧ s'.nextId = s.nextId + 1 := by
  obtain ⟨node, ⟨issued, _, _, eq⟩, _⟩ := addTask_adds done
  obtain rfl := eq
  have current : new = s.nextId := issued.trans (if_neg (Nat.ne_of_gt counted))
  refine ⟨current, ?_⟩
  simp only [added, issuing, ← issued, current]
  omega

theorem addTask_early {now expire : Int} {fn : F} {circleCount : UInt32} {new : Nat}
    (done : s.addTask now fn expire circleCount false 0 = .ok (s', new))
    (early : Early s.cells id bound) (own : new = id → now + expire ≤ bound) :
    Early s'.cells id bound := by
  obtain ⟨node, ⟨_, named, _, eq⟩, _, _, _, asked⟩ := addTask_adds done
  obtain rfl := eq
  have placed : Early (s.issuing.added node).cells id bound :=
    added_early early fun same => by simpa [asked] using own (named.symm.trans same)
  exact placed

/-- Only the task that runs gets a new expiry. -/
theorem fire_early {call : Option (F × Bool × Nat)} (done : s.fire = .ok (s', call))
    (early : Early s.cells id bound) (other : ∀ r ∈ call, r.2.2 ≠ id) :
    Early s'.cells id bound := by
  have fewer {v : Cell F} {rest : List (Cell F)} (running : s.temp = v :: rest) :
      Early (cells { s with temp := rest }) id bound :=
    early.subset fun c member => (running_perm running).mem_iff.mpr (List.mem_cons_of_mem v member)
  cases fire_fires done with
  | idle => exact early
  | @again v rest running =>
    have placed : Early (TimeWheel.added { s with temp := rest, insertions := s.insertions + 1 }
        (s.rearmed v.node)).cells id bound :=
      added_early (fewer running) fun named => absurd named (other _ rfl)
    exact placed
  | last running => exact fewer running

end WebsocketProto.TimeWheel
