import WebsocketProto.ServerRuns

/-! The life of a client object over whole runs: it is closed once and not used any more,
and the wheel's tasks are those that its two ids name. Both hold as long as no second
expiry task is added for a client, and the first one also needs a kernel that reports the
end of a stream on its own and lets `send` succeed. -/
namespace WebsocketProto
open Outcome

/-- Fewer ids were given out than `erase_task` can tell apart. -/
def Server.Room (s : Server) : Prop := s.wheel.nextId < 2 ^ 32

instance (s : Server) : Decidable s.Room := inferInstanceAs (Decidable (_ < _))

/-- A step that does not forget an expiry task. -/
def RemembersExpiry (env : Setup) (s : Server) (l : Label) : Prop := s.Room ∧ s.Rearmed env l

instance (env : Setup) (s : Server) (l : Label) : Decidable (RemembersExpiry env s l) :=
  inferInstanceAs (Decidable (_ ∧ _))

/-- One closed descriptor, one disconnect callback, and nothing behind them. -/
def ClosedOnce (c : ClientId) (acts : List Act) : Prop :=
  ∃ life, (∀ a ∈ life, a.ends = false) ∧
    (acts = life ∨ ∃ fd, acts = life ++ closingActs c fd)

theorem ClosedOnce.of_good {env : Setup} {strict : Prop} {s : Server}
    (good : Good env strict none s) (c : ClientId) : ClosedOnce c (actsOf c s.trace) := by
  cases found : s.object c with
  | some obj => exact ⟨_, (good.alive found).running, Or.inl rfl⟩
  | none =>
    rcases (good.dead found).finished with nothing | ⟨life, fd, finished, running⟩
    · exact ⟨[], nofun, Or.inl nothing⟩
    · exact ⟨life, running, Or.inr ⟨fd, finished⟩⟩

/-- A server with heartbeat whose callbacks do nothing; the digest is that of the sample
key in `handshakeRequest`. -/
def quietSetup : Setup where
  proto := ⟨true, fun _ => ascii "s3pPLMBiTxaQ9kYGzzhZRbK+xOo="⟩
  listenFd := 3
  stack := fun _ => [0]
  staleFlag := fun _ => .normalClose
  user := fun _ => []

def handshakeRequest : Bytes :=
  ascii "GET / HTTP/1.1\r\nUpgrade: websocket\r\nConnection: Upgrade\r\n" ++
    ascii "Sec-WebSocket-Key: dGhlIHNhbXBsZSBub25jZQ==\r\n\r\n"

def connection (fd : Nat) : Label :=
  .event ⟨3, false, true, false, some fd, [], [], 0⟩

def readable (fd : Nat) (recvs : List RecvResult) (now : Int) : Label :=
  .event ⟨fd, false, true, false, none, recvs, [], now⟩

def writable (fd : Nat) (sends : List SendResult) : Label :=
  .event ⟨fd, false, false, true, none, [], sends, 0⟩

/-- A client whose handshake is done. -/
def handshaken : List Label :=
  [connection 5, readable 5 [.returns handshakeRequest, .wouldBlock] 0,
    writable 5 [.returns 200]]

theorem closed_clients_unused (env : Setup) (current : Int) (labels : List Label)
    (remembers : Along (Server.step env)
      (fun s l => RemembersExpiry env s l ∧ l.EofAloneSendsSucceed env)
      (.start current) labels) :
    (∀ c, run (Server.step env) (.start current) labels ≠ .error (.usesFreed c)) ∧
    ∀ s, run (Server.step env) (.start current) labels = .ok s →
      ∀ c, ClosedOnce c (actsOf c s.trace) := by
  have kept (s : Server) (l : Label) (good : Good env True none s)
      (cond : RemembersExpiry env s l ∧ l.EofAloneSendsSucceed env) :
      Ensures Fault.freed (s.step env l) (Good env True none) := by
    obtain ⟨⟨room, rearmed⟩, calm⟩ := cond
    exact (Server.step_good good l room fun _ => rearmed).narrow fun _ bad => ⟨bad, trivial, calm⟩
  have runs := run_ensures kept (.start current) labels (start_good current) remembers
  exact ⟨fun c => runs.not_error trivial, fun s reached c => .of_good (runs.of_ok reached) c⟩

/-- A client that shakes hands, receives the answer and is closed by its peer. -/
theorem closed_by_peer :
    (∀ c, run (Server.step quietSetup) (.start 0)
      (handshaken ++ [readable 5 [.returns []] 0]) ≠ .error (.usesFreed c)) ∧
    ∀ s, run (Server.step quietSetup) (.start 0)
      (handshaken ++ [readable 5 [.returns []] 0]) = .ok s →
      ∀ c, ClosedOnce c (actsOf c s.trace) :=
  closed_clients_unused quietSetup 0 (handshaken ++ [readable 5 [.returns []] 0])
    (by decide +kernel)

/-- The first byte of a client and the end of its stream arrive together. -/
theorem end_behind_data_uses_freed :
    run (Server.step quietSetup) (.start 0)
      [connection 5, readable 5 [.returns [0x47], .returns []] 0] = .error (.usesFreed 0) :=
  rfl

/-- A task that has not run for the last time captures the client. -/
def Server.Captures (s : Server) (c : ClientId) (id : Nat) : Prop :=
  ∃ fn, (id, fn) ∈ s.wheel.pending ∧ fn.client = c

/-- The ids of a registered client name exactly the tasks that capture it, and a deleted
client is captured by none. -/
structure Server.NoneDangling (s : Server) : Prop where
  named : ∀ fd c, s.clients fd = some c → ∃ obj, s.object c = some obj ∧
    ∀ id, s.Captures c id ↔ id ≠ 0 ∧ (id = obj.timeWheelId ∨ id = obj.timeWheelHeartbeatId)
  deleted : ∀ c id, s.object c = none → ¬ s.Captures c id

theorem noneDangling_of_good {env : Setup} {s : Server} (good : Good env True none s) :
    s.NoneDangling := by
  refine ⟨?_, ?_⟩
  · intro fd c known
    obtain ⟨obj, live, _⟩ := (good.registered fd c).mp known
    have alive := good.alive live
    refine ⟨obj, live, fun id => ⟨?_, ?_⟩⟩
    · rintro ⟨fn, member, captures⟩
      have positive := Nat.ne_of_gt (good.tidy.bounds member).1
      refine ⟨positive, ?_⟩
      cases fn with
      | expire d =>
        obtain rfl : d = c := captures
        exact Or.inl (alive.only trivial id member)
      | heartbeat d =>
        obtain rfl : d = c := captures
        exact Or.inr ((alive.heartbeat id).mp member).1.symm
    · rintro ⟨positive, rfl | rfl⟩
      · exact ⟨_, alive.expire positive nofun, rfl⟩
      · exact ⟨_, (alive.heartbeat _).mpr ⟨rfl, positive⟩, rfl⟩
  · rintro c id gone ⟨fn, member, captures⟩
    have dead := good.dead gone
    cases fn with
    | expire d =>
      obtain rfl : d = c := captures
      exact dead.only trivial id member
    | heartbeat d =>
      obtain rfl : d = c := captures
      exact dead.heartbeat id member

theorem timers_never_dangle (env : Setup) (current : Int) (labels : List Label)
    (remembers : Along (Server.step env) (RemembersExpiry env) (.start current) labels) (s : Server)
    (reached : run (Server.step env) (.start current) labels = .ok s) : s.NoneDangling := by
  have kept (s : Server) (l : Label) (s' : Server) (good : Good env True none s)
      (cond : RemembersExpiry env s l) (done : s.step env l = .ok s') : Good env True none s' :=
    (Server.step_good good l cond.1 fun _ => cond.2).of_ok done
  exact noneDangling_of_good (along_invariant kept (start_good current) remembers reached)

/-- A short read, after which the client waits for the peer's CLOSE. -/
def shortRead : Label := readable 5 [.returns [0x81], .wouldBlock] 0

def closeRead (now : Int) : Label :=
  readable 5 [.returns [0x88, 0x80, 0x00, 0x00, 0x00, 0x00], .wouldBlock] now

/-- One CLOSE behind a short read arms the expiry task, whose tick then begins. -/
theorem armed_once : ∃ s, run (Server.step quietSetup) (.start 0)
    (handshaken ++ [shortRead, closeRead 0, .beginTick 10000]) = .ok s ∧ s.NoneDangling := by
  obtain ⟨s, reached⟩ : ∃ s, run (Server.step quietSetup) (.start 0)
      (handshaken ++ [shortRead, closeRead 0, .beginTick 10000]) = .ok s :=
    exists_ok (by decide +kernel)
  exact ⟨s, reached, timers_never_dangle quietSetup 0 _ (by decide +kernel) s reached⟩

/-- A second CLOSE arms a second task and overwrites the id of the first, which stays in
the wheel when the client is deleted. -/
theorem second_close_dangles : ∃ s, run (Server.step quietSetup) (.start 0)
    (handshaken ++ [shortRead, closeRead 0, closeRead 0, readable 5 [.returns []] 0]) = .ok s ∧
      s.object 0 = none ∧ s.Captures 0 2 ∧ ¬ s.NoneDangling := by
  obtain ⟨s, reached, facts⟩ := reaches (x := run (Server.step quietSetup) (.start 0)
      (handshaken ++ [shortRead, closeRead 0, closeRead 0, readable 5 [.returns []] 0]))
    (f := fun s => (s.object 0, decide ((2, Task.expire 0) ∈ s.wheel.pending)))
    (b := (none, true)) (by decide +kernel)
  obtain ⟨gone, member⟩ := Prod.mk.inj facts
  have captured : s.Captures 0 2 := ⟨.expire 0, of_decide_eq_true member, rfl⟩
  exact ⟨s, reached, gone, captured, fun holds => holds.deleted 0 2 gone captured⟩

end WebsocketProto
