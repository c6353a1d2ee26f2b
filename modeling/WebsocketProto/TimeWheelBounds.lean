import WebsocketProto.TimeWheelDeadlines

/-! What holds of every node of a wheel, whichever list it lies in: a cascade places nodes again
and never puts their expiry off, and only a task that runs again is asked for a new one. -/
namespace WebsocketProto.TimeWheel
open Outcome

variable {F : Type} {s s' : TimeWheel F} {P : TimeNode F → Prop}

/-- A property that placing a node again keeps. -/
def Sinking (P : TimeNode F → Prop) : Prop :=
  ∀ (node : TimeNode F) (expire : Int) (list : Nat), expire ≤ node.expire → P node →
    P { node with expire := expire, list := list }

def Every (P : TimeNode F → Prop) (cells : List (Cell F)) : Prop := ∀ c ∈ cells, P c.node

theorem Every.subset {cells fewer : List (Cell F)} (every : Every P cells)
    (subset : ∀ c ∈ fewer, c ∈ cells) : Every P fewer :=
  fun c member => every c (subset c member)

theorem added_every (sinking : Sinking P) {node : TimeNode F} (every : Every P s.cells)
    (own : P node) : Every P (s.added node).cells := by
  intro c member
  rcases List.mem_cons.mp ((added_cells_perm s node).mem_iff.mp member) with rfl | old
  · exact sinking node _ _ (place_early s.current node.expire) own
  · exact every c old

theorem cascades_every (sinking : Sinking P) (done : cascades s = .ok s')
    (every : Every P s.cells) : Every P s'.cells := by
  refine cascades_rule (motive := fun limbo t => Every P (limbo ++ t.cells))
    (fun v limbo t out => ?_) (fun t idx inside held => ?_) done every
  · have rest : Every P t.cells := out.subset fun c held => List.mem_append_right _ held
    have back := added_every sinking rest (out v (List.mem_append_left _ List.mem_cons_self))
    intro c member
    rcases List.mem_append.mp member with still | placed
    · exact out c (List.mem_append_left _ (List.mem_cons_of_mem v still))
    · exact back c placed
  · exact held.subset fun c member => (emptied_perm t inside).mem_iff.mpr member

theorem beginTick_every (sinking : Sinking P) {now : Int} (done : s.beginTick now = .ok s')
    (every : Every P s.cells) : Every P s'.cells := by
  obtain ⟨settled, begins⟩ := beginTick_begins done
  exact (cascades_every sinking begins.cascaded every).subset
    fun c member => begins.cells_perm.mem_iff.mp member

theorem eraseTask_every {id : Nat} {found : Bool} (done : s.eraseTask id = .ok (s', found))
    (every : Every P s.cells) : Every P s'.cells := by
  cases (eraseTask_erases done).2 with
  | absent => exact every
  | @unlinks addr designated =>
    apply every.subset
    intro c member
    unfold TimeWheel.cells at member
    rw [filter_cells s fun c => c.addr != addr] at member
    exact (List.mem_filter.mp member).1

theorem addTask_every (sinking : Sinking P) {now expire : Int} {fn : F} {circleCount : UInt32}
    {id : Nat} (done : s.addTask now fn expire circleCount false 0 = .ok (s', id))
    (every : Every P s.cells) (own : ∀ node : TimeNode F, node.fn = fn → node.interval = expire →
      node.expire = now + expire → node.insertion.current = s.current → P node) :
    Every P s'.cells := by
  obtain ⟨node, ⟨_, _, insertion, eq⟩, function, _, interval, asked⟩ := addTask_adds done
  have placed : Every P (s.issuing.added node).cells := by
    apply added_every sinking every
    apply own node function interval
    · simpa using asked
    · rw [insertion]
  rw [eq]
  exact placed

/-- The task that runs is asked for a new expiry from the reading of the clock on. -/
theorem fire_every (sinking : Sinking P) {call : Option (F × Bool × Nat)}
    (done : s.fire = .ok (s', call)) (every : Every P s.cells)
    (own : ∀ v ∈ s.temp, P v.node → ∀ isDone, call = some (v.node.fn, isDone, v.node.id) →
      P (s.rearmed v.node)) : Every P s'.cells := by
  have fewer {v : Cell F} {rest : List (Cell F)} (running : s.temp = v :: rest) :
      Every P (cells { s with temp := rest }) :=
    every.subset fun c member => (running_perm running).mem_iff.mpr (List.mem_cons_of_mem v member)
  cases fire_fires done with
  | idle => exact every
  | @again v rest running =>
    have due : v ∈ s.temp := running ▸ List.mem_cons_self
    have held := every v (List.mem_append_right _ due)
    have placed : Every P (TimeWheel.added { s with temp := rest, insertions := s.insertions + 1 }
        (s.rearmed v.node)).cells :=
      added_every sinking (fewer running) (own v due held false rfl)
    exact placed
  | last running => exact fewer running

/-- The task that runs comes from a node of the wheel. -/
theorem fire_called {fn : F} {isDone : Bool} {id : Nat}
    (done : s.fire = .ok (s', some (fn, isDone, id))) (every : Every P s.cells) :
    ∃ node, P node ∧ node.fn = fn := by
  have held {v : Cell F} {rest : List (Cell F)} (running : s.temp = v :: rest) : P v.node :=
    every v (List.mem_append_right _ (running ▸ List.mem_cons_self))
  cases fire_fires done with
  | again running => exact ⟨_, held running, rfl⟩
  | last running => exact ⟨_, held running, rfl⟩

end WebsocketProto.TimeWheel
