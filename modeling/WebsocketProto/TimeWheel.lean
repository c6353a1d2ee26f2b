import Mathlib.Data.Int.Basic
import Mathlib.Logic.Function.Basic
import WebsocketProto.Outcome

/-! The hierarchical timing wheel `time_wheel`. Task functions are of any type `F`:
firing a task hands its function to the caller, who runs it before the next step.
Times are milliseconds. A lock that is never released lets nobody pass. -/
namespace WebsocketProto

def LEVEL : Nat := 4
def TIME_NEAR_SHIFT : Nat := 8
def TIME_NEAR : Nat := 2 ^ TIME_NEAR_SHIFT
def TIME_LEVEL_SHIFT : Nat := 6
def TIME_LEVEL : Nat := 2 ^ TIME_LEVEL_SHIFT

def OFFSET (n : Nat) : Nat := TIME_NEAR + n * TIME_LEVEL

/-- `(V >> (8 + 6 * N)) & 63`, with the arithmetic shift of a signed count. -/
def INDEX (v : Int) (n : Nat) : Nat :=
  (v / 2 ^ (TIME_NEAR_SHIFT + n * TIME_LEVEL_SHIFT) % TIME_LEVEL).toNat

/-- `V & TIME_NEAR_MASK`. -/
def nearIndex (v : Int) : Nat := (v % TIME_NEAR).toNat

def FULL_CIRCLE : UInt32 := 4294967295

/-- History of one insertion: its number, the task, and the expiry asked for when
`current_` was `current`. -/
structure Insertion where
  number : Nat
  id : Nat
  expire : Int
  current : Int
  deriving DecidableEq, Repr

/-- `time_node`. The field `list` is the index of the list that `list_` points to, and
`insertion` is a history variable. -/
structure TimeNode (F : Type) where
  fn : F
  expire : Int
  interval : Int
  circleCount : UInt32
  list : Nat
  id : Nat
  insertion : Insertion
  deriving Repr

/-- A node of a `std::list`: list iterators designate it by its address. -/
structure Cell (F : Type) where
  addr : Nat
  node : TimeNode F
  deriving Repr

inductive WheelEvent where
  | inserted (i : Insertion)
  | ran (i : Insertion) (tick : Int) (isDone : Bool)
  | erased (i : Insertion)
  deriving DecidableEq, Repr

/-- The static members of `time_wheel`, and `now` and `temp` of a `check` that is in
the loop over the tasks of a tick. `nextAddr`, `insertions` and `log` are history. -/
structure TimeWheel (F : Type) where
  current : Int
  tv : Nat → List (Cell F)
  idMap : Nat → Option Nat
  nextId : Nat
  locked : Bool
  now : Int
  temp : List (Cell F)
  nextAddr : Nat
  insertions : Nat
  log : List WheelEvent

inductive WheelFault where
  | spins | disabled
  deriving DecidableEq, Repr

namespace TimeWheel
variable {F : Type}

def empty (current : Int) : TimeWheel F where
  current := current
  tv := fun _ => []
  idMap := fun _ => none
  nextId := 1
  locked := false
  now := current
  temp := []
  nextAddr := 0
  insertions := 0
  log := []

/-- The number of lists in `tv_`. -/
@[irreducible] def slots : Nat := TIME_NEAR + LEVEL * TIME_LEVEL

theorem slots_eq : slots = 512 := by
  unfold slots; rfl

def lists (tv : Nat → List (Cell F)) : List (Cell F) := (List.range slots).flatMap tv

/-- Every node of the wheel, those of a running tick included. -/
def cells (s : TimeWheel F) : List (Cell F) := lists s.tv ++ s.temp

/-- The list that `add_node` chooses and the expiry it leaves in the node. The first
tests are on the difference as a `size_t`, so a negative one passes none of them. -/
def place (current expire : Int) : Nat × Int :=
  let delta := expire - current
  if 0 ≤ delta ∧ delta < TIME_NEAR then (nearIndex expire, expire)
  else if 0 ≤ delta ∧ delta < 2 ^ (TIME_NEAR_SHIFT + TIME_LEVEL_SHIFT) then
    (OFFSET 0 + INDEX expire 0, expire)
  else if 0 ≤ delta ∧ delta < 2 ^ (TIME_NEAR_SHIFT + 2 * TIME_LEVEL_SHIFT) then
    (OFFSET 1 + INDEX expire 1, expire)
  else if 0 ≤ delta ∧ delta < 2 ^ (TIME_NEAR_SHIFT + 3 * TIME_LEVEL_SHIFT) then
    (OFFSET 2 + INDEX expire 2, expire)
  else if delta < 0 then (nearIndex current, expire)
  else
    let expire := if delta > 2 ^ 32 - 1 then 2 ^ 32 - 1 + current else expire
    (OFFSET 3 + INDEX expire 3, expire)

def addNode (s : TimeWheel F) (node : TimeNode F) : Except WheelFault (TimeWheel F) :=
  let (idx, expire) := place s.current node.expire
  if s.locked then .error .spins
  else .ok { s with
    tv := Function.update s.tv idx
      (s.tv idx ++ [⟨s.nextAddr, { node with expire := expire, list := idx }⟩])
    idMap := Function.update s.idMap node.id (some s.nextAddr)
    nextAddr := s.nextAddr + 1 }

/-- History only: a node that is about to be inserted afresh gets a number. -/
def stamped (s : TimeWheel F) (node : TimeNode F) : Insertion :=
  ⟨s.insertions, node.id, node.expire, s.current⟩

def stamp (s : TimeWheel F) (node : TimeNode F) : TimeWheel F :=
  { s with insertions := s.insertions + 1, log := s.log ++ [.inserted (s.stamped node)] }

def insertNode (s : TimeWheel F) (node : TimeNode F) : Except WheelFault (TimeWheel F) :=
  addNode (s.stamp node) { node with insertion := s.stamped node }

/-- `get_id`: a wrapping 64-bit counter that skips zero. -/
def getId (s : TimeWheel F) : Nat := if s.nextId = 0 then 1 else s.nextId

/-- `add_task` when `get_now()` returns `now`. -/
def addTask (s : TimeWheel F) (now : Int) (fn : F) (expire : Int) (circleCount : UInt32)
    (immediate : Bool) (delay : Int) : Except WheelFault (TimeWheel F × Nat) := do
  let node : TimeNode F := {
    fn := fn
    expire := now + if immediate then delay else expire + delay
    interval := expire
    circleCount := circleCount
    list := 0
    id := s.getId
    insertion := ⟨0, 0, 0, 0⟩ }
  let s ← insertNode { s with nextId := (s.getId + 1) % 2 ^ 64 } node
  return (s, node.id)

/-- `erase_task` takes a 32-bit id. `list_->erase(it)` unlinks the node it designates,
and an id that is not found leaves the lock held. -/
def eraseTask (s : TimeWheel F) (id : Nat) : Except WheelFault (TimeWheel F × Bool) :=
  if s.locked then .error .spins
  else match s.idMap (id % 2 ^ 32) with
  | none => .ok ({ s with locked := true }, false)
  | some addr => .ok ({ s with
      tv := fun idx => (s.tv idx).filter fun c => c.addr != addr
      temp := s.temp.filter fun c => c.addr != addr
      idMap := Function.update s.idMap (id % 2 ^ 32) none
      log := s.log ++ (s.cells.filter fun c => c.addr == addr).map
        fun c => .erased c.node.insertion }, true)

def addNodes (s : TimeWheel F) : List (Cell F) → Except WheelFault (TimeWheel F)
  | [] => .ok s
  | v :: rest => addNode s v.node >>= fun s => addNodes s rest

/-- `cascade`: the list is moved out and its nodes are placed again. -/
def cascade (s : TimeWheel F) (offset idx : Nat) : Except WheelFault (TimeWheel F × Bool) := do
  let temp := s.tv (offset + idx)
  let s ← addNodes { s with tv := Function.update s.tv (offset + idx) [] } temp
  return (s, idx != 0)

/-- The short-circuit chain of `check`: each level is cascaded only when the index
of the level below is zero. -/
def cascades (s : TimeWheel F) : Except WheelFault (TimeWheel F) := do
  if nearIndex s.current ≠ 0 then return s
  let (s, more) ← cascade s (OFFSET 0) (INDEX s.current 0)
  if more then return s
  let (s, more) ← cascade s (OFFSET 1) (INDEX s.current 1)
  if more then return s
  let (s, more) ← cascade s (OFFSET 2) (INDEX s.current 2)
  if more then return s
  let (s, _) ← cascade s (OFFSET 3) (INDEX s.current 3)
  return s

/-- One iteration of the `while` loop of a `check` that read `now`, up to its loop over
the tasks. The iteration before must have run its tasks. -/
def beginTick (s : TimeWheel F) (now : Int) : Except WheelFault (TimeWheel F) := do
  if s.temp.isEmpty = false ∨ now < s.current then .error .disabled
  let idx := nearIndex s.current
  let s ← cascades s
  if s.locked then .error .spins
  return { s with
    current := s.current + 1
    now := now
    temp := s.tv idx
    tv := Function.update s.tv idx [] }

/-- What `circle_count_ == FULL_CIRCLE || --circle_count_` leaves; it fails at zero. -/
def nextCount (circleCount : UInt32) : UInt32 :=
  if circleCount = FULL_CIRCLE then FULL_CIRCLE else circleCount - 1

/-- The next round of the loop over the tasks: the task is placed again or forgotten,
and its function is handed out with the arguments of its call. -/
def fire (s : TimeWheel F) : Except WheelFault (TimeWheel F × Option (F × Bool × Nat)) :=
  match s.temp with
  | [] => .ok (s, none)
  | v :: rest =>
    let s := { s with temp := rest }
    if nextCount v.node.circleCount ≠ 0 then do
      let s ← insertNode s { v.node with
        circleCount := nextCount v.node.circleCount
        expire := s.now + v.node.interval }
      return ({ s with log := s.log ++ [.ran v.node.insertion (s.current - 1) false] },
        some (v.node.fn, false, v.node.id))
    else
      .ok ({ s with
        idMap := Function.update s.idMap v.node.id none
        log := s.log ++ [.ran v.node.insertion (s.current - 1) true] },
        some (v.node.fn, true, v.node.id))

end TimeWheel

/-- The atomic steps on a wheel. A tick is `beginTick` and one `fire` for each task of
its list; what the task functions do to the wheel stands between two `fire` steps. -/
inductive WheelOp (F : Type) where
  | addTask (now : Int) (fn : F) (expire : Int) (circleCount : UInt32) (immediate : Bool)
      (delay : Int)
  | eraseTask (id : Nat)
  | beginTick (now : Int)
  | fire

def TimeWheel.step (s : TimeWheel F) : WheelOp F → Except WheelFault (TimeWheel F)
  | .addTask now fn expire circleCount immediate delay =>
    Prod.fst <$> s.addTask now fn expire circleCount immediate delay
  | .eraseTask id => Prod.fst <$> s.eraseTask id
  | .beginTick now => s.beginTick now
  | .fire => Prod.fst <$> s.fire

end WebsocketProto
