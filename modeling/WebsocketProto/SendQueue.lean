import Mathlib.Data.List.Basic
import WebsocketProto.Bytes
import WebsocketProto.Outcome

/-! The send queue of a client: `send_buffer` appends, and the `EPOLLOUT` branch of the
event loop pops entry by entry and offers each one to the kernel. -/
namespace WebsocketProto
open Outcome

/-- What a call of `send` returns. -/
inductive SendResult where
  | returns (count : Nat)
  | wouldBlock | fails
  deriving DecidableEq, Repr

structure SendCall where
  offered : Bytes
  result : SendResult
  deriving DecidableEq, Repr

def SendCall.accepted (call : SendCall) : Bytes :=
  match call.result with
  | .returns count => call.offered.take count
  | _ => []

/-- The calls for one entry, and whether the client was closed on the way. -/
structure Sent where
  closed : Bool
  calls : List SendCall
  left : List SendResult
  deriving DecidableEq, Repr

/-- The inner loop over an entry that was popped; the results are those of the calls
of `send` in order. A full send buffer leaves the loop, and the entry with it. -/
def sendEntry (entry : Bytes) : List SendResult → Option Sent
  | [] => none
  | .wouldBlock :: left => some ⟨false, [⟨entry, .wouldBlock⟩], left⟩
  | .fails :: left => some ⟨true, [⟨entry, .fails⟩], left⟩
  | .returns count :: left =>
    if count = 0 then some ⟨true, [⟨entry, .returns count⟩], left⟩
    else if count ≥ entry.length then some ⟨false, [⟨entry, .returns count⟩], left⟩
    else do
      let sent ← sendEntry (entry.drop count) left
      return { sent with calls := ⟨entry, .returns count⟩ :: sent.calls }

structure Drained where
  closed : Bool
  queue : List Bytes
  calls : List SendCall
  left : List SendResult
  deriving DecidableEq, Repr

/-- The loop over `send_buffer_queue_`, up to the point where the client is closed. -/
def drainQueue : List Bytes → List SendResult → Option Drained
  | [], left => some ⟨false, [], [], left⟩
  | entry :: queue, results => do
    let sent ← sendEntry entry results
    if sent.closed then return ⟨true, queue, sent.calls, sent.left⟩
    let drained ← drainQueue queue sent.left
    return { drained with calls := sent.calls ++ drained.calls }

/-- The send side of one client; `accepted` and `passed` are history. -/
structure SendSide where
  queue : List Bytes
  closed : Bool
  accepted : Bytes
  passed : Bytes
  deriving DecidableEq, Repr

def SendSide.start : SendSide := ⟨[], false, [], []⟩

inductive SendOp where
  | sendBuffer (data : Bytes)
  | epollOut (results : List SendResult)
  deriving DecidableEq, Repr

inductive SendFault where
  | closed | unfinished
  deriving DecidableEq, Repr

def SendSide.step (s : SendSide) : SendOp → Except SendFault SendSide
  | .sendBuffer data =>
    if s.closed then .error .closed
    else .ok { s with queue := s.queue ++ [data], passed := s.passed ++ data }
  | .epollOut results =>
    if s.closed then .error .closed
    else match drainQueue s.queue results with
    | none => .error .unfinished
    | some drained => .ok { s with
        queue := drained.queue
        closed := drained.closed
        accepted := s.accepted ++ drained.calls.flatMap SendCall.accepted }

/-- No bytes are offered to a full send buffer. -/
def Unblocked (calls : List SendCall) : Prop :=
  ∀ call ∈ calls, call.result = .wouldBlock → call.offered = []

theorem unblocked_append (front back : List SendCall) :
    Unblocked (front ++ back) ↔ Unblocked front ∧ Unblocked back := by
  simp only [Unblocked, List.forall_mem_append]

theorem unblocked_accepts (offered : Bytes) (count : Nat) (calls : List SendCall) :
    Unblocked (⟨offered, .returns count⟩ :: calls) ↔ Unblocked calls := by
  simp [Unblocked]

/-- What was accepted of an entry is its front, and all of it unless the kernel blocks. -/
theorem sendEntry_accepted {entry : Bytes} {results : List SendResult} {sent : Sent}
    (done : sendEntry entry results = some sent) (live : sent.closed = false) :
    ∃ lost, entry = sent.calls.flatMap SendCall.accepted ++ lost ∧
      (Unblocked sent.calls ↔ lost = []) := by
  induction results generalizing entry sent with
  | nil => contradiction
  | cons result left ih =>
    cases result with
    | wouldBlock =>
      obtain rfl := Option.some.inj done
      exact ⟨entry, rfl, by simp [Unblocked]⟩
    | fails =>
      obtain rfl := Option.some.inj done
      contradiction
    | returns count =>
      rw [sendEntry] at done
      by_cases zero : count = 0
      · rw [if_pos zero] at done
        obtain rfl := Option.some.inj done
        contradiction
      rw [if_neg zero] at done
      by_cases whole : count ≥ entry.length
      · rw [if_pos whole] at done
        obtain rfl := Option.some.inj done
        refine ⟨[], ?_, by simp [Unblocked]⟩
        simp [SendCall.accepted, List.take_of_length_le whole]
      · rw [if_neg whole] at done
        obtain ⟨rest, later, same⟩ := Option.bind_eq_some_iff.mp done
        obtain rfl := Option.some.inj same
        obtain ⟨lost, split, blocked⟩ := ih later live
        refine ⟨lost, ?_, (unblocked_accepts _ _ _).trans blocked⟩
        simp only [List.flatMap_cons, SendCall.accepted, List.append_assoc]
        rw [← split, List.take_append_drop]

/-- An event that leaves the client open empties the queue. -/
theorem drainQueue_accepted {queue : List Bytes} {results : List SendResult} {drained : Drained}
    (done : drainQueue queue results = some drained) (live : drained.closed = false) :
    drained.queue = [] ∧
    (Unblocked drained.calls → drained.calls.flatMap SendCall.accepted = queue.flatten) ∧
    (¬ Unblocked drained.calls →
      (drained.calls.flatMap SendCall.accepted).length < queue.flatten.length) := by
  induction queue generalizing results drained with
  | nil =>
    obtain rfl := Option.some.inj done
    exact ⟨rfl, fun _ => rfl, fun blocked => absurd nofun blocked⟩
  | cons entry queue ih =>
    obtain ⟨sent, first, done⟩ := Option.bind_eq_some_iff.mp done
    cases ends : sent.closed with
    | true =>
      rw [ends] at done
      obtain rfl := Option.some.inj done
      contradiction
    | false =>
      rw [ends] at done
      obtain ⟨rest, later, same⟩ := Option.bind_eq_some_iff.mp done
      obtain rfl := Option.some.inj same
      obtain ⟨lost, rfl, blocked⟩ := sendEntry_accepted first ends
      obtain ⟨emptied, all, short⟩ := ih later live
      refine ⟨emptied, ?_, ?_⟩
      · intro unblocked
        obtain ⟨now, after⟩ := (unblocked_append _ _).mp unblocked
        simp only [List.flatMap_append, List.flatten_cons, blocked.mp now, all after,
          List.append_nil]
      · intro stuck
        simp only [List.flatMap_append, List.flatten_cons, List.length_append]
        by_cases after : Unblocked rest.calls
        · have dropped : lost ≠ [] := fun none_ =>
            stuck ((unblocked_append _ _).mpr ⟨blocked.mpr none_, after⟩)
          have := List.length_pos_iff.mpr dropped
          rw [all after]
          omega
        · have := short after
          omega

/-- Nothing was lost, duplicated or reordered. -/
def SendSide.Balanced (s : SendSide) : Prop := s.accepted ++ s.queue.flatten = s.passed

/-- Some bytes are gone for good. -/
def SendSide.Lost (s : SendSide) : Prop :=
  (s.accepted ++ s.queue.flatten).length < s.passed.length

/-- No call that handles the event offers bytes to a full send buffer. -/
def SendOp.Unblocked (s : SendSide) : SendOp → Prop
  | .sendBuffer _ => True
  | .epollOut results =>
    ∀ drained, drainQueue s.queue results = some drained → WebsocketProto.Unblocked drained.calls

theorem step_cases {s s' : SendSide} {op : SendOp} (done : s.step op = .ok s') :
    s.closed = false ∧
    ((∃ data, op = .sendBuffer data ∧
        s' = { s with queue := s.queue ++ [data], passed := s.passed ++ data }) ∨
      ∃ results drained, op = .epollOut results ∧ drainQueue s.queue results = some drained ∧
        s' = { s with
          queue := drained.queue
          closed := drained.closed
          accepted := s.accepted ++ drained.calls.flatMap SendCall.accepted }) := by
  cases closed : s.closed with
  | true => cases op <;> simp [SendSide.step, closed] at done
  | false =>
    refine ⟨rfl, ?_⟩
    cases op with
    | sendBuffer data =>
      simp only [SendSide.step, closed] at done
      exact Or.inl ⟨data, rfl, (Except.ok.inj done).symm⟩
    | epollOut results =>
      cases result : drainQueue s.queue results with
      | none => simp [SendSide.step, closed, result] at done
      | some drained =>
        simp only [SendSide.step, closed, result] at done
        exact Or.inr ⟨results, drained, rfl, result, (Except.ok.inj done).symm⟩

theorem step_balanced {s s' : SendSide} {op : SendOp} (done : s.step op = .ok s')
    (live : s'.closed = false) (balanced : s.Balanced) :
    (op.Unblocked s → s'.Balanced) ∧ (¬ op.Unblocked s → s'.Lost) := by
  simp only [SendSide.Balanced, SendSide.Lost] at balanced ⊢
  obtain ⟨_, ⟨data, rfl, rfl⟩ | ⟨results, drained, rfl, result, rfl⟩⟩ := step_cases done
  · refine ⟨fun _ => ?_, fun blocked => absurd trivial blocked⟩
    simp only [List.flatten_append, List.flatten_singleton]
    rw [← List.append_assoc, balanced]
  · obtain ⟨emptied, all, short⟩ := drainQueue_accepted result live
    constructor
    · intro unblocked
      simp only [emptied, all (unblocked drained result), List.flatten_nil, List.append_nil,
        balanced]
    · intro blocked
      have stuck : ¬ Unblocked drained.calls := by
        intro unblocked
        refine blocked fun other same => ?_
        obtain rfl := Option.some.inj (result.symm.trans same)
        exact unblocked
      have := short stuck
      simp only [emptied, ← balanced, List.flatten_nil, List.append_nil, List.length_append]
      omega

theorem step_lost {s s' : SendSide} {op : SendOp} (done : s.step op = .ok s')
    (live : s'.closed = false) (lost : s.Lost) : s'.Lost := by
  simp only [SendSide.Lost, List.length_append] at lost ⊢
  obtain ⟨_, ⟨data, rfl, rfl⟩ | ⟨results, drained, rfl, result, rfl⟩⟩ := step_cases done
  · simp only [List.flatten_append, List.flatten_singleton, List.length_append]
    omega
  · obtain ⟨emptied, all, short⟩ := drainQueue_accepted result live
    have bound : (drained.calls.flatMap SendCall.accepted).length ≤ s.queue.flatten.length := by
      by_cases unblocked : Unblocked drained.calls
      · exact Nat.le_of_eq (congrArg List.length (all unblocked))
      · exact Nat.le_of_lt (short unblocked)
    simp only [emptied, List.flatten_nil, List.length_nil, List.length_append]
    omega

/-- A run that leaves the client open never closed it. -/
theorem run_open {s s' : SendSide} {ops : List SendOp} (done : run SendSide.step s ops = .ok s')
    (live : s'.closed = false) : s.closed = false := by
  cases ops with
  | nil => exact Except.ok.inj done ▸ live
  | cons op rest =>
    obtain ⟨_, first, _⟩ := bind_eq_ok.mp done
    exact (step_cases first).1

theorem run_lost {s s' : SendSide} {ops : List SendOp} (done : run SendSide.step s ops = .ok s')
    (live : s'.closed = false) (lost : s.Lost) : s'.Lost := by
  induction ops generalizing s with
  | nil => exact Except.ok.inj done ▸ lost
  | cons op rest ih =>
    obtain ⟨next, first, later⟩ := bind_eq_ok.mp done
    exact ih later (step_lost first (run_open later live) lost)

theorem run_balanced_iff {s s' : SendSide} {ops : List SendOp}
    (done : run SendSide.step s ops = .ok s') (live : s'.closed = false) (balanced : s.Balanced) :
    s'.Balanced ↔ Along SendSide.step (fun s op => op.Unblocked s) s ops := by
  induction ops generalizing s with
  | nil => exact iff_of_true (Except.ok.inj done ▸ balanced) trivial
  | cons op rest ih =>
    obtain ⟨next, first, later⟩ := bind_eq_ok.mp done
    obtain ⟨kept, dropped⟩ := step_balanced first (run_open later live) balanced
    by_cases unblocked : op.Unblocked s
    · rw [ih later (kept unblocked)]
      constructor
      · intro along
        refine ⟨unblocked, fun other taken => ?_⟩
        obtain rfl := Except.ok.inj (first.symm.trans taken)
        exact along
      · exact fun along => along.2 next first
    · refine iff_of_false ?_ fun along => unblocked along.1
      intro whole
      have short := run_lost later live (dropped unblocked)
      rw [SendSide.Lost, whole] at short
      exact Nat.lt_irrefl _ short

/-- In a run that leaves the client open, what the kernel accepted and what is still
queued make up what was passed to `send_buffer`, exactly when no `send` of a non-empty
string met a full send buffer. -/
theorem send_conserves_iff (ops : List SendOp) (s : SendSide)
    (done : run SendSide.step .start ops = .ok s) (live : s.closed = false) :
    s.accepted ++ s.queue.flatten = s.passed ↔
      Along SendSide.step (fun s op => op.Unblocked s) .start ops :=
  run_balanced_iff done live rfl

theorem two_entries_unblocked :
    ∃ s, run SendSide.step .start [.sendBuffer [1, 2], .sendBuffer [3],
        .epollOut [.returns 1, .returns 1, .returns 1], .sendBuffer [4]] = .ok s ∧
      Along SendSide.step (fun s op => op.Unblocked s) .start [.sendBuffer [1, 2],
        .sendBuffer [3], .epollOut [.returns 1, .returns 1, .returns 1], .sendBuffer [4]] :=
  ⟨_, rfl, (send_conserves_iff [.sendBuffer [1, 2], .sendBuffer [3],
    .epollOut [.returns 1, .returns 1, .returns 1], .sendBuffer [4]] _ rfl rfl).mp rfl⟩

/-- The second call meets a full send buffer, and the rest of the popped entry is gone. -/
theorem blocked_entry_lost :
    run SendSide.step .start [.sendBuffer [1, 2, 3], .epollOut [.returns 1, .wouldBlock]] =
      .ok ⟨[], false, [1], [1, 2, 3]⟩ ∧
    ([1] : Bytes) ++ ([] : List Bytes).flatten ≠ [1, 2, 3] := by
  decide

end WebsocketProto
