import Mathlib.Data.List.Basic
import Mathlib.Logic.Function.Basic

/-! Descriptors, an edge-triggered `epoll` instance and the connections that wait at one
listening socket. Writability is reported once for each registration that asks for it, and
the listening socket once for all connections that arrived since its last report. -/
namespace WebsocketProto.Epoll

/-- What is registered for a descriptor: whether writability is asked for, and whether the
report of it is still due. -/
structure Interest where
  output : Bool
  due : Bool
  deriving DecidableEq, Repr

/-- One entry that `epoll_wait` fills in. -/
structure Ready where
  fd : Nat
  hup : Bool
  input : Bool
  output : Bool
  deriving DecidableEq, Repr

/-- Connections are numbered as they arrive; `unreported` counts those behind the last
report of the listening socket. -/
structure Kernel where
  isOpen : Nat → Bool
  interest : Nat → Option Interest
  backlog : List Nat
  arrived : Nat
  unreported : Nat

namespace Kernel
variable {k : Kernel} {fd other : Nat} {output : Bool}

def arrive (k : Kernel) : Kernel where
  isOpen := k.isOpen
  interest := k.interest
  backlog := k.backlog ++ [k.arrived]
  arrived := k.arrived + 1
  unreported := k.unreported + 1

/-- What `EPOLL_CTL_ADD` and `EPOLL_CTL_MOD` do when they succeed. -/
def register (k : Kernel) (fd : Nat) (output : Bool) : Kernel :=
  { k with interest := Function.update k.interest fd (some ⟨output, output⟩) }

/-- `EPOLL_CTL_ADD` fails for a closed descriptor and for one that is registered. -/
def add (k : Kernel) (fd : Nat) (output : Bool) : Kernel :=
  if k.isOpen fd = true ∧ k.interest fd = none then k.register fd output else k

/-- `EPOLL_CTL_MOD` fails for a descriptor that is not registered. -/
def modify (k : Kernel) (fd : Nat) (output : Bool) : Kernel :=
  if (k.interest fd).isSome then k.register fd output else k

/-- A closed descriptor is not registered any more. -/
def close (k : Kernel) (fd : Nat) : Kernel :=
  { k with
    isOpen := Function.update k.isOpen fd false
    interest := Function.update k.interest fd none }

/-- `accept` takes the first connection that waits, under the lowest free descriptor. -/
def accept (k : Kernel) (fd : Nat) : Option (Nat × Kernel) :=
  match k.backlog with
  | [] => none
  | connection :: backlog =>
    if k.isOpen fd = false ∧ ∀ lower < fd, k.isOpen lower = true then
      some (connection,
        { k with isOpen := Function.update k.isOpen fd true, backlog := backlog })
    else none

/-- What may be told of a descriptor. -/
def Reports (k : Kernel) (listenFd : Nat) (e : Ready) : Prop :=
  (e.fd = listenFd → e.input = true → 0 < k.unreported) ∧
  (e.fd ≠ listenFd → (k.interest e.fd).any (fun i => !e.output || i.output && i.due) = true)

/-- What one `epoll_wait` may return. -/
def Returns (k : Kernel) (listenFd : Nat) (events : List Ready) : Prop :=
  (events.map Ready.fd).Nodup ∧ ∀ e ∈ events, k.Reports listenFd e

instance (listenFd : Nat) (e : Ready) : Decidable (k.Reports listenFd e) :=
  inferInstanceAs (Decidable (_ ∧ _))

instance (listenFd : Nat) (events : List Ready) : Decidable (k.Returns listenFd events) :=
  inferInstanceAs (Decidable (_ ∧ _))

/-- Behind a report, that of the writability of its descriptors is not due any more. -/
def report (k : Kernel) (listenFd : Nat) (events : List Ready) : Kernel :=
  { k with
    interest := fun fd => (k.interest fd).map fun i =>
      { i with due := i.due && !events.any fun e => e.fd == fd && e.output }
    unreported := if events.any fun e => e.fd == listenFd && e.input then 0 else k.unreported }

@[simp] theorem register_self : (k.register fd output).interest fd = some ⟨output, output⟩ :=
  Function.update_self ..

theorem register_other (apart : other ≠ fd) :
    (k.register fd output).interest other = k.interest other :=
  Function.update_of_ne apart ..

@[simp] theorem add_isOpen : (k.add fd output).isOpen = k.isOpen := by
  rw [add]
  split <;> rfl

theorem add_other (apart : other ≠ fd) : (k.add fd output).interest other = k.interest other := by
  rw [add]
  split
  · exact register_other apart
  · rfl

theorem modify_interest (known : (k.interest fd).isSome) :
    (k.modify fd output).interest fd = some ⟨output, output⟩ := by
  rw [modify, if_pos known, register_self]

theorem modify_other (apart : other ≠ fd) :
    (k.modify fd output).interest other = k.interest other := by
  rw [modify]
  split
  · exact register_other apart
  · rfl

/-- `EPOLL_CTL_MOD` registers nothing new. -/
theorem modify_isSome : ((k.modify fd output).interest other).isSome = (k.interest other).isSome := by
  by_cases apart : other = fd
  · subst apart
    rw [modify]
    split
    · rename_i known
      rw [register_self, known]
      rfl
    · rfl
  · rw [modify_other apart]

theorem modify_none (unregistered : k.interest other = none) :
    (k.modify fd output).interest other = none := by
  apply Option.isNone_iff_eq_none.mp
  rw [← Option.not_isSome, modify_isSome, unregistered]
  rfl

@[simp] theorem modify_isOpen : (k.modify fd output).isOpen = k.isOpen := by
  rw [modify]
  split <;> rfl

/-- The connections that wait do not depend on what is registered. -/
theorem modify_waiting : (k.modify fd output).backlog = k.backlog ∧
    (k.modify fd output).arrived = k.arrived ∧ (k.modify fd output).unreported = k.unreported := by
  rw [modify]
  split <;> exact ⟨rfl, rfl, rfl⟩

theorem add_waiting : (k.add fd output).backlog = k.backlog ∧
    (k.add fd output).arrived = k.arrived ∧ (k.add fd output).unreported = k.unreported := by
  rw [add]
  split <;> exact ⟨rfl, rfl, rfl⟩

theorem close_isOpen (apart : other ≠ fd) : (k.close fd).isOpen other = k.isOpen other :=
  Function.update_of_ne apart ..

@[simp] theorem close_self : (k.close fd).interest fd = none := Function.update_self ..

theorem close_other (apart : other ≠ fd) : (k.close fd).interest other = k.interest other :=
  Function.update_of_ne apart ..

theorem report_interest {listenFd : Nat} {events : List Ready} :
    (k.report listenFd events).interest fd = (k.interest fd).map fun i =>
      { i with due := i.due && !events.any fun e => e.fd == fd && e.output } := rfl

theorem accept_ok {connection : Nat} {k' : Kernel}
    (taken : k.accept fd = some (connection, k')) :
    k.isOpen fd = false ∧ ∃ rest, k.backlog = connection :: rest ∧
      k' = { k with isOpen := Function.update k.isOpen fd true, backlog := rest } := by
  rw [accept] at taken
  split at taken
  · contradiction
  · rename_i first rest waiting
    split at taken
    · rename_i lowest
      cases taken
      exact ⟨lowest.1, rest, waiting, rfl⟩
    · contradiction

end Kernel
end WebsocketProto.Epoll
