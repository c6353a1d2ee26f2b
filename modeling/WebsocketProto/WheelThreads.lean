import WebsocketProto.TimeWheel

/-! The timing wheel with its threads: the wheel's own one, which runs `run_time_wheel`, and
any number of others that call `add_task`, `erase_task` and `stop_time_wheel`. A step takes
one thread to its next acquire or release of the lock, to the start of a task's function or
to the join; what stands between is done with it. -/
namespace WebsocketProto
open Outcome

/-- A call of a public function; the first argument of `addTask` is the reading of the clock. -/
inductive WheelCall (F : Type) where
  | addTask (now : Int) (fn : F) (expire : Int) (circleCount : UInt32) (immediate : Bool)
      (delay : Int)
  | eraseTask (id : Nat)
  | stopTimeWheel
  deriving DecidableEq

inductive Point (F : Type) where
  /-- The call is about to begin. -/
  | call (c : WheelCall F)
  /-- In `add_node`, before `lock()`, with the `current_` that the index was computed from. -/
  | place (seen : Int) (node : TimeNode F)
  /-- Before `unlock()`. -/
  | unlock
  /-- In `stop_time_wheel`, before `join()`. -/
  | join
  /-- The `while` loop of `run_time_wheel`, and that of `check`. -/
  | loop
  | tick (now : Int)
  /-- A `cascade`, and its loop over the nodes that it moved out. -/
  | cascade (offset idx : Nat)
  | readd
  /-- In `check`, before `++current_`, and before the `lock()` behind it. -/
  | advance (idx : Nat) (now : Int)
  | take (idx : Nat) (now : Int)
  /-- The loop over the tasks of the tick, and the call of one task's function. -/
  | tasks (now : Int)
  | callback (fn : F) (isDone : Bool) (id : Nat)

/-- The wheel, whose flag `locked` is the lock; the nodes that a `cascade` has moved out; where
each thread goes on, innermost first; and the state of `jthread_`. -/
structure WheelThreads (F : Type) where
  wheel : TimeWheel F
  limbo : List (Cell F)
  control : Nat → List (Point F)
  stopRequested : Bool
  joined : Bool

/-- A step of a thread. The reading of the clock is that of `check`, and the calls are those of
the task's function that the step starts. -/
inductive ThreadLabel (F : Type) where
  | call (t : Nat) (c : WheelCall F)
  | step (t : Nat) (now : Int) (calls : List (WheelCall F))

/-- Why a thread takes no step: it waits for the lock or for another thread, or has nothing to
do. -/
inductive ThreadFault where
  | waits | idle
  deriving DecidableEq, Repr

namespace WheelThreads
variable {F : Type}

def wheelThread : Nat := 0

def start (current : Int) : WheelThreads F where
  wheel := .empty current
  limbo := []
  control := Function.update (fun _ => []) wheelThread [.loop]
  stopRequested := false
  joined := false

def goto (s : WheelThreads F) (t : Nat) (points : List (Point F)) : WheelThreads F :=
  { s with control := Function.update s.control t points }

def enter (s : WheelThreads F) (t : Nat) (wheel : TimeWheel F) (points : List (Point F)) :
    WheelThreads F :=
  { s with wheel := { wheel with locked := true } }.goto t points

/-- The levels that `check` cascades: each one only where the index below is zero. -/
def levels (current : Int) : List (Point F) :=
  if nearIndex current ≠ 0 then []
  else .cascade (OFFSET 0) (INDEX current 0) ::
    if INDEX current 0 ≠ 0 then []
    else .cascade (OFFSET 1) (INDEX current 1) ::
      if INDEX current 1 ≠ 0 then []
      else .cascade (OFFSET 2) (INDEX current 2) ::
        if INDEX current 2 ≠ 0 then [] else [.cascade (OFFSET 3) (INDEX current 3)]

def newNode (wheel : TimeWheel F) (now : Int) (fn : F) (expire : Int) (circleCount : UInt32)
    (immediate : Bool) (delay : Int) : TimeNode F where
  fn := fn
  expire := now + if immediate then delay else expire + delay
  interval := expire
  circleCount := circleCount
  list := 0
  id := wheel.getId
  insertion := ⟨0, 0, 0, 0⟩

/-- The next step of a call. An id that `erase_task` does not find leaves the lock held. -/
def begin (s : WheelThreads F) (t : Nat) (rest : List (Point F)) :
    WheelCall F → Except ThreadFault (WheelThreads F)
  | .addTask now fn expire circleCount immediate delay =>
    let node := newNode s.wheel now fn expire circleCount immediate delay
    let wheel := { s.wheel with nextId := (s.wheel.getId + 1) % 2 ^ 64 }
    .ok ({ s with wheel := wheel }.goto t (.place s.wheel.current node :: rest))
  | .eraseTask id =>
    match s.wheel.eraseTask id with
    | .error _ => .error .waits
    | .ok (wheel, false) => .ok ({ s with wheel := wheel }.goto t rest)
    | .ok (wheel, true) =>
      let limbo := s.limbo.filter fun c => s.wheel.idMap (id % 2 ^ 32) != some c.addr
      .ok ({ s with limbo := limbo }.enter t wheel (.unlock :: rest))
  | .stopTimeWheel =>
    if s.wheel.locked then .ok (s.goto t rest)
    else .ok ({ s with stopRequested := true }.enter t s.wheel (.join :: rest))

def addNode (s : WheelThreads F) (t : Nat) (rest : List (Point F)) (seen : Int)
    (node : TimeNode F) : Except ThreadFault (WheelThreads F) :=
  match TimeWheel.addNode { s.wheel with current := seen } node with
  | .error _ => .error .waits
  | .ok wheel => .ok (s.enter t { wheel with current := s.wheel.current } (.unlock :: rest))

/-- `join()` throws in the thread itself and for a thread that was joined before, and the
exception leaves the lock held; it waits for the end of the thread otherwise. -/
def join (s : WheelThreads F) (t : Nat) (rest : List (Point F)) :
    Except ThreadFault (WheelThreads F) :=
  if s.joined ∨ t = wheelThread then .ok (s.goto t rest)
  else if (s.control wheelThread).isEmpty then
    let wheel := { s.wheel with idMap := fun _ => none, tv := fun _ => [] }
    .ok ({ s with joined := true, wheel := wheel }.goto t (.unlock :: rest))
  else .error .waits

def nextTask (s : WheelThreads F) (t : Nat) (rest : List (Point F)) (now : Int) : WheelThreads F :=
  match s.wheel.temp with
  | [] => s.goto t rest
  | v :: more =>
    let wheel := { s.wheel with temp := more }
    if TimeWheel.nextCount v.node.circleCount ≠ 0 then
      let node := { v.node with
        circleCount := TimeWheel.nextCount v.node.circleCount, expire := now + v.node.interval }
      { s with wheel := wheel }.goto t (.place wheel.current node ::
        .callback v.node.fn false v.node.id :: .tasks now :: rest)
    else
      let idMap := Function.update wheel.idMap v.node.id none
      { s with wheel := { wheel with idMap := idMap } }.goto t
        (.callback v.node.fn true v.node.id :: .tasks now :: rest)

def advance (s : WheelThreads F) (t : Nat) (now : Int) (calls : List (WheelCall F)) :
    Point F → List (Point F) → Except ThreadFault (WheelThreads F)
  | .call c, rest => s.begin t rest c
  | .place seen node, rest => s.addNode t rest seen node
  | .unlock, rest => .ok ({ s with wheel := { s.wheel with locked := false } }.goto t rest)
  | .join, rest => s.join t rest
  | .loop, rest =>
    .ok (s.goto t (if s.stopRequested then rest else .tick now :: .loop :: rest))
  | .tick now, rest =>
    if now < s.wheel.current then .ok (s.goto t rest)
    else .ok (s.goto t (levels s.wheel.current ++
      .advance (nearIndex s.wheel.current) now :: .tick now :: rest))
  | .cascade offset idx, rest =>
    let tv := Function.update s.wheel.tv (offset + idx) []
    .ok ({ s with wheel := { s.wheel with tv := tv }, limbo := s.wheel.tv (offset + idx) }.goto t
      (.readd :: rest))
  | .readd, rest =>
    match s.limbo with
    | [] => .ok (s.goto t rest)
    | v :: more =>
      .ok ({ s with limbo := more }.goto t (.place s.wheel.current v.node :: .readd :: rest))
  | .advance idx now, rest =>
    .ok ({ s with wheel := { s.wheel with current := s.wheel.current + 1 } }.goto t
      (.take idx now :: rest))
  | .take idx now, rest =>
    if s.wheel.locked then .error .waits
    else
      let tv := Function.update s.wheel.tv idx []
      .ok (s.enter t { s.wheel with temp := s.wheel.tv idx, tv := tv }
        (.unlock :: .tasks now :: rest))
  | .tasks now, rest => .ok (s.nextTask t rest now)
  | .callback _ _ _, rest => .ok (s.goto t (calls.map .call ++ rest))

def step (s : WheelThreads F) : ThreadLabel F → Except ThreadFault (WheelThreads F)
  | .call t c =>
    if t ≠ wheelThread ∧ (s.control t).isEmpty then .ok (s.goto t [.call c]) else .error .idle
  | .step t now calls =>
    match s.control t with
    | [] => .error .idle
    | point :: rest => s.advance t now calls point rest

end WheelThreads
end WebsocketProto
