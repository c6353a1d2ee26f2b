import WebsocketProto.ServerRounds
import WebsocketProto.Simulation

/-! The send queue of one client in whole runs of the server: what the server does for a client
is a run of its send side, whatever it does for the others. -/
namespace WebsocketProto
open Outcome Wheelless

/-- The calls of `send` for a client, and the strings that were queued for it. -/
def sendCalls (c : ClientId) (trace : List Act) : List SendCall :=
  (actsOf c trace).filterMap fun
    | .sendCall _ call => some call
    | _ => none

def outputs (c : ClientId) (trace : List Act) : List Output :=
  (actsOf c trace).filterMap fun
    | .queued _ output => some output
    | _ => none

/-- The bytes that the kernel took from a client, and those of what was queued for it. -/
def acceptedBytes (c : ClientId) (trace : List Act) : Bytes :=
  (sendCalls c trace).flatMap SendCall.accepted

def queuedBytes (c : ClientId) (trace : List Act) : Bytes := (outputs c trace).flatMap Output.bytes

section Traces
variable {c d : ClientId} {trace acts front back : List Act}

theorem sendCalls_append : sendCalls c (front ++ back) = sendCalls c front ++ sendCalls c back := by
  simp [sendCalls, actsOf_append]

theorem outputs_append : outputs c (front ++ back) = outputs c front ++ outputs c back := by
  simp [outputs, actsOf_append]

theorem sendCalls_other (own : ∀ a ∈ acts, a.client = c) (other : d ≠ c) : sendCalls d acts = [] := by
  simp [sendCalls, actsOf_other own other]

theorem outputs_other (own : ∀ a ∈ acts, a.client = c) (other : d ≠ c) : outputs d acts = [] := by
  simp [outputs, actsOf_other own other]

theorem sendCalls_drained (c : ClientId) (calls : List SendCall) :
    sendCalls c (calls.map (Act.sendCall c) ++ [.epollCtl c (.mod false)]) = calls := by
  have own : ∀ a ∈ calls.map (Act.sendCall c) ++ [.epollCtl c (.mod false)], a.client = c := by
    simp [Act.client, or_imp, forall_and]
  rw [sendCalls, actsOf_own own]
  simp [List.filterMap_map]

end Traces

/-- The send side of a client, with its history. -/
structure Sends (c : ClientId) (s : Server) (t : SendSide) : Prop where
  accepted : t.accepted = acceptedBytes c s.trace
  passed : t.passed = queuedBytes c s.trace
  live : ∀ obj, s.object c = some obj → t.queue = obj.sendBufferQueue ∧ t.closed = false
  fresh : actsOf c s.trace = [] → t = .start

/-- The server went on, and the send side of the client with it. The kernel blocked the one
where it blocked the other. -/
def SendsOn (c : ClientId) (s s' : Server) : Prop :=
  ∃ acts, s'.trace = s.trace ++ acts ∧ ∀ t, Sends c s t →
    ∃ ops t', run SendSide.step t ops = .ok t' ∧ Sends c s' t' ∧
      (Along SendSide.step (fun t op => op.Unblocked t) t ops ↔ Unblocked (sendCalls c acts))

namespace SendsOn
variable {s s' s1 : Server} {c d : ClientId} {obj obj' : WebsocketClient}

theorem trans (first : SendsOn c s s1) (second : SendsOn c s1 s') : SendsOn c s s' := by
  obtain ⟨front, added, goes⟩ := first
  obtain ⟨back, added', goes'⟩ := second
  refine ⟨front ++ back, by rw [added', added, List.append_assoc], fun t sends => ?_⟩
  obtain ⟨ops, t1, ran, sends1, unblocked⟩ := goes t sends
  obtain ⟨ops', t', ran', sends', unblocked'⟩ := goes' t1 sends1
  refine ⟨ops ++ ops', t', run_join ran ran', sends', ?_⟩
  rw [sendCalls_append, unblocked_append, ← unblocked, ← unblocked']
  constructor
  · intro along
    obtain ⟨before, after⟩ := along_append along
    exact ⟨before, after t1 ran⟩
  · exact fun ⟨before, after⟩ => along_join before ran after

/-- Nothing that concerns the sends of the client. -/
theorem still {acts : List Act} (added : s'.trace = s.trace ++ acts)
    (quiet : sendCalls c acts = [] ∧ outputs c acts = [])
    (queue : ∀ obj', s'.object c = some obj' →
      ∃ obj, s.object c = some obj ∧ obj'.sendBufferQueue = obj.sendBufferQueue) :
    SendsOn c s s' := by
  refine ⟨acts, added, fun t sends => ⟨[], t, rfl, ?_, by simp [Along, quiet.1, Unblocked]⟩⟩
  refine ⟨?_, ?_, fun obj' live' => ?_, fun none_ => ?_⟩
  · simp [acceptedBytes, added, sendCalls_append, quiet.1, sends.accepted]
  · simp [queuedBytes, added, outputs_append, quiet.2, sends.passed]
  · obtain ⟨obj, live, same⟩ := queue obj' live'
    rw [same]
    exact sends.live obj live
  · apply sends.fresh
    rw [added, actsOf_append] at none_
    exact (List.append_eq_nil_iff.mp none_).1

/-- A client is written, with acts of its own that send nothing. -/
theorem put (live : s.object d = some obj) (same : obj'.sendBufferQueue = obj.sendBufferQueue)
    {acts : List Act} (quiet : sendCalls c acts = [] ∧ outputs c acts = []) :
    SendsOn c s { s with
      object := Function.update s.object d (some obj'), trace := s.trace ++ acts } := by
  refine still rfl quiet fun obj1 live1 => ?_
  by_cases own : c = d
  · subst own
    simp only [Function.update_self, Option.some.injEq] at live1
    exact ⟨obj, live, live1 ▸ same⟩
  · simp only [Function.update_of_ne own] at live1
    exact ⟨obj1, live1, rfl⟩

theorem untouched (trace : s'.trace = s.trace) (object : s'.object = s.object) :
    SendsOn c s s' := by
  have added : s'.trace = s.trace ++ [] := by rw [trace, List.append_nil]
  exact still added ⟨rfl, rfl⟩ fun obj live => ⟨obj, object ▸ live, rfl⟩

theorem log (s : Server) {a : Act} (quiet : sendCalls c [a] = [] ∧ outputs c [a] = []) :
    SendsOn c s (s.log a) :=
  still rfl quiet fun obj live => ⟨obj, live, rfl⟩

/-- `send_buffer`. -/
theorem sent (live : s.object d = some obj) (output : Output) :
    SendsOn c s (s.sent d obj output) := by
  by_cases own : c = d
  · subst own
    refine ⟨[.queued c output, .epollCtl c (.mod true)], rfl, fun t sends => ?_⟩
    obtain ⟨queue, open_⟩ := sends.live obj live
    have calls : sendCalls c [.queued c output, .epollCtl c (.mod true)] = [] := by
      simp [sendCalls, actsOf, Act.client]
    have queued : outputs c [.queued c output, .epollCtl c (.mod true)] = [output] := by
      simp [outputs, actsOf, Act.client]
    refine ⟨[.sendBuffer output.bytes], { t with
      queue := t.queue ++ [output.bytes], passed := t.passed ++ output.bytes }, ?_, ?_, ?_⟩
    · simp [run, SendSide.step, open_]
    · refine ⟨?_, ?_, fun obj' live' => ?_, fun none_ => ?_⟩
      · simp [acceptedBytes, Server.sent, sendCalls_append, calls, sends.accepted]
      · simp [queuedBytes, Server.sent, outputs_append, queued, sends.passed]
      · simp only [Server.sent, Function.update_self, Option.some.injEq] at live'
        subst live'
        simp [queue, open_]
      · simp [Server.sent, actsOf, Act.client] at none_
    · simp [calls, Unblocked, Along, SendOp.Unblocked]
  · have mine : ∀ a ∈ [Act.queued d output, .epollCtl d (.mod true)], a.client = d := by
      simp [Act.client]
    refine still rfl ⟨sendCalls_other mine own, outputs_other mine own⟩ fun obj' live' => ?_
    simp only [Server.sent, Function.update_of_ne own] at live'
    exact ⟨obj', live', rfl⟩

/-- The loop over the queue of a client that stays. -/
theorem offered (live : s.object d = some obj) {results : List SendResult} {drained : Drained}
    (drains : drainQueue obj.sendBufferQueue results = some drained)
    (open_ : drained.closed = false) : SendsOn c s (s.offered d obj drained) := by
  have added : (s.offered d obj drained).trace =
      s.trace ++ (drained.calls.map (Act.sendCall d) ++ [.epollCtl d (.mod false)]) := by
    simp [Server.offered]
  by_cases own : c = d
  · subst own
    have calls := sendCalls_drained c drained.calls
    have queued : outputs c (drained.calls.map (Act.sendCall c) ++ [.epollCtl c (.mod false)]) =
        [] := by
      simp [outputs, actsOf, List.filterMap_append]
    refine ⟨_, added, fun t sends => ?_⟩
    obtain ⟨queue, running⟩ := sends.live obj live
    refine ⟨[.epollOut results], { t with
      queue := drained.queue, closed := drained.closed
      accepted := t.accepted ++ drained.calls.flatMap SendCall.accepted }, ?_, ?_, ?_⟩
    · simp [run, SendSide.step, running, queue, drains]
    · refine ⟨?_, ?_, fun obj' live' => ?_, fun none_ => ?_⟩
      · simp [acceptedBytes, added, sendCalls_append, calls, sends.accepted]
      · simp [queuedBytes, added, outputs_append, queued, sends.passed]
      · simp only [Server.offered, Function.update_self, Option.some.injEq] at live'
        subst live'
        exact ⟨rfl, open_⟩
      · simp [added, actsOf, Act.client] at none_
    · rw [calls]
      simp [Along, SendOp.Unblocked, queue, drains]
  · have mine : ∀ a ∈ drained.calls.map (Act.sendCall d) ++ [.epollCtl d (.mod false)],
        a.client = d := by simp [Act.client, or_imp, forall_and]
    refine still added ⟨sendCalls_other mine own, outputs_other mine own⟩ fun obj' live' => ?_
    simp only [Server.offered, Function.update_of_ne own] at live'
    exact ⟨obj', live', rfl⟩

theorem closing (s : Server) (d : ClientId) (fd : Nat) : SendsOn c s (s.closing d fd) := by
  refine still rfl ?_ fun obj live => ⟨obj, ?_, rfl⟩
  · simp [sendCalls, outputs, List.filterMap_eq_nil_iff, actsOf]
  · by_cases own : c = d
    · simp [own, Server.closing] at live
    · simpa [Server.closing, Function.update_of_ne own] using live

/-- The send side of a new client begins. -/
theorem admitted (rooted : s.Rooted) (fd : Nat) : SendsOn c s (s.admitted fd) := by
  refine ⟨[.accepted s.nextClient fd, .epollCtl s.nextClient .add], rfl, fun t sends => ?_⟩
  have quiet : sendCalls c [.accepted s.nextClient fd, .epollCtl s.nextClient .add] = [] ∧
      outputs c [.accepted s.nextClient fd, .epollCtl s.nextClient .add] = [] := by
    by_cases own : c = s.nextClient
    · simp [own, sendCalls, outputs, actsOf, Act.client]
    · simp [sendCalls, outputs, actsOf, Act.client, Ne.symm own]
  refine ⟨[], t, rfl, ⟨?_, ?_, fun obj live => ?_, fun none_ => ?_⟩, ?_⟩
  · simp [acceptedBytes, Server.admitted, sendCalls_append, quiet.1, sends.accepted]
  · simp [queuedBytes, Server.admitted, outputs_append, quiet.2, sends.passed]
  · by_cases own : c = s.nextClient
    · subst own
      simp only [Server.admitted, Function.update_self, Option.some.injEq] at live
      have begins := sends.fresh (rooted.unborn s.nextClient (Nat.le_refl _)).2
      rw [begins, ← live]
      exact ⟨rfl, rfl⟩
    · simp only [Server.admitted, Function.update_of_ne own] at live
      exact sends.live obj live
  · simp only [Server.admitted, actsOf_append] at none_
    exact sends.fresh (List.append_eq_nil_iff.mp none_).1
  · simp [quiet.1, Along, Unblocked]

end SendsOn

section Instances
variable {c : ClientId}

instance : Wheelless (SendsOn c) where
  trans _ _ _ := SendsOn.trans
  same _ := SendsOn.untouched rfl rfl
  rewheel _ _ := SendsOn.untouched rfl rfl

instance (d : ClientId) : Moves d (SendsOn c) where
  write {s _ obj'} live rewrites := by
    have written : SendsOn c s { s with
        object := Function.update s.object d (some obj'), trace := s.trace ++ [] } :=
      SendsOn.put live rewrites.queue ⟨rfl, rfl⟩
    simpa [Server.put] using written
  queue live output _ := SendsOn.sent live output
  received _ _ := SendsOn.log _ (by simp [sendCalls, outputs, List.filterMap_eq_nil_iff, actsOf])
  close _ := SendsOn.closing _ _ _
  deleted _ := SendsOn.log _ (by simp [sendCalls, outputs, List.filterMap_eq_nil_iff, actsOf])

instance : Callbacks (SendsOn c) where
  queues _ := inferInstance
  send live _ := SendsOn.sent live _
  delivered _ _ := SendsOn.log _ (by simp [sendCalls, outputs, List.filterMap_eq_nil_iff, actsOf])
  connects live _ := by
    refine SendsOn.put live (by rfl) ?_
    simp [sendCalls, outputs, List.filterMap_eq_nil_iff, actsOf]
  sentCallback _ := SendsOn.log _ (by simp [sendCalls, outputs, List.filterMap_eq_nil_iff, actsOf])

end Instances

theorem step_sends {env : Setup} {s s' : Server} {l : Label} {c : ClientId} (rooted : s.Rooted)
    (done : s.step env l = .ok s') : SendsOn c s s' :=
  Callbacks.step (R := SendsOn c) (fun _ => inferInstance)
    (fun fd _ => SendsOn.admitted rooted fd)
    (fun _ _ _ _ live drains open_ => SendsOn.offered live drains open_) s' done

/-- In every run the send side of a client takes the steps that the server takes for it. -/
theorem run_sends {env : Setup} {current : Int} {labels : List Label} {s : Server}
    (done : run (Server.step env) (.start current) labels = .ok s) (c : ClientId) :
    ∃ ops t, run SendSide.step .start ops = .ok t ∧ Sends c s t ∧
      (Along SendSide.step (fun t op => op.Unblocked t) .start ops ↔
        Unblocked (sendCalls c s.trace)) := by
  have kept (s : Server) (l : Label) (next : Server)
      (before : s.Rooted ∧ SendsOn c (.start current) s) (taken : s.step env l = .ok next) :
      next.Rooted ∧ SendsOn c (.start current) next :=
    ⟨Server.step_rooted before.1 taken, before.2.trans (step_sends before.1 taken)⟩
  obtain ⟨_, acts, added, goes⟩ :=
    run_invariant kept ⟨Server.start_rooted current, .untouched rfl rfl⟩ done
  have begins : Sends c (.start current) .start := by
    refine ⟨rfl, rfl, ?_, fun _ => rfl⟩
    rintro obj ⟨⟩
  have all : s.trace = acts := added
  rw [all]
  exact goes .start begins

theorem Sends.conserves_iff {c : ClientId} {s : Server} {t : SendSide} (sends : Sends c s t)
    {ops : List SendOp} (ran : run SendSide.step .start ops = .ok t) {obj : WebsocketClient}
    (live : s.object c = some obj) :
    acceptedBytes c s.trace ++ obj.sendBufferQueue.flatten = queuedBytes c s.trace ↔
      Along SendSide.step (fun t op => op.Unblocked t) .start ops := by
  obtain ⟨queue, open_⟩ := sends.live obj live
  have balanced := run_balanced_iff ran open_ rfl
  rwa [SendSide.Balanced, sends.accepted, sends.passed, queue] at balanced

/-- Rounds are steps of the server. -/
theorem run_rounds {env : Setup} (s : Server) (events : List Event) :
    run (Server.onEvent env) s events = run (Server.step env) s (events.map .event) := by
  induction events generalizing s with
  | nil => rfl
  | cons e rest ih => simp only [run, List.map_cons, Server.step, ih]

/-- For a client that is there, what the kernel took and what is still queued are together what
was queued for it, exactly when no `send` of a non-empty string met a full send buffer. -/
theorem server_send_conserves (env : Setup) (current : Int) (labels : List Label) (s : Server)
    (done : run (Server.step env) (.start current) labels = .ok s) (c : ClientId)
    (obj : WebsocketClient) (live : s.object c = some obj) :
    acceptedBytes c s.trace ++ obj.sendBufferQueue.flatten = queuedBytes c s.trace ↔
      Unblocked (sendCalls c s.trace) := by
  obtain ⟨ops, t, ran, sends, unblocked⟩ := run_sends done c
  exact (sends.conserves_iff ran live).trans unblocked

/-- A PONG is cut off by a full send buffer; the answer to the next PING is queued. -/
theorem pong_cut_off : ∃ s obj, run (Server.step quietSetup) (.start 0) (handshaken ++
      [readable 5 [.returns [0x89, 0x00], .wouldBlock] 0, writable 5 [.returns 1, .wouldBlock],
        readable 5 [.returns [0x89, 0x00], .wouldBlock] 0]) = .ok s ∧ s.object 0 = some obj ∧
    (acceptedBytes 0 s.trace ++ obj.sendBufferQueue.flatten = queuedBytes 0 s.trace ↔
      Unblocked (sendCalls 0 s.trace)) := by
  obtain ⟨s, reached, there⟩ := reaches (x := run (Server.step quietSetup) (.start 0) (handshaken ++
      [readable 5 [.returns [0x89, 0x00], .wouldBlock] 0, writable 5 [.returns 1, .wouldBlock],
        readable 5 [.returns [0x89, 0x00], .wouldBlock] 0]))
    (f := fun s => (s.object 0).isSome) (b := true) (by decide +kernel)
  obtain ⟨obj, live⟩ := Option.isSome_iff_exists.mp there
  exact ⟨s, obj, reached, live, server_send_conserves quietSetup 0 _ s reached 0 obj live⟩

end WebsocketProto
