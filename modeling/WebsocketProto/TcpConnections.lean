import WebsocketProto.TcpInvariant

/-! What becomes of the connections that arrive: the loop calls `accept` once for each
report of the listening socket, however many connections the report stands for. -/
namespace WebsocketProto
open Outcome
open Epoll (Kernel Ready)

namespace TcpServer
variable {listenFd : Nat} {s s' : TcpServer} {c d : ClientId} {obj : TcpClient}

/-- A connection was accepted, entered in `clients_` under its descriptor and added. -/
def Served (s : TcpServer) (connection : Nat) : Prop :=
  ∃ c fd, .accepted connection c fd ∈ s.trace ∧ .entered c fd ∈ s.trace ∧ .added c fd ∈ s.trace

theorem Served.grows {connection : Nat} (served : s.Served connection)
    (grows : ∀ a ∈ s.trace, a ∈ s'.trace) : s'.Served connection := by
  obtain ⟨c, fd, accepted, entered, added⟩ := served
  exact ⟨c, fd, grows _ accepted, grows _ entered, grows _ added⟩

/-- The reports of the listening socket that are still to be handled. -/
def offers (listenFd : Nat) (batch : List Ready) : Nat :=
  (batch.filter fun e => e.offers listenFd).length

/-- Every connection that has not been served yet waits, and for each one that waits a
report is due or under way. -/
structure Accounted (listenFd : Nat) (s : TcpServer) : Prop where
  sound : Sound listenFd s
  awaited : s.kernel.backlog.length ≤ s.kernel.unreported + offers listenFd s.batch
  served : ∀ connection < s.kernel.arrived, connection ∈ s.kernel.backlog ∨ s.Served connection

/-- The report of the listening socket stands for one connection, whose `accept` succeeds and
whose connected callback does not close it. -/
def OneAcceptAReport (listenFd : Nat) (s : TcpServer) : TcpLabel → Prop
  | .arrive => True
  | .wait events => ∀ e ∈ events, e.fd = listenFd → e.input = true →
    e.hup = false ∧ s.kernel.unreported ≤ 1
  | .handle h => match s.batch with
    | [] => True
    | e :: _ => e.offers listenFd = true →
      h.accepts.isSome = true ∧ ∀ asked ∈ h.calls, asked ≠ (s.nextClient, .close)

instance (listenFd : Nat) (s : TcpServer) : (l : TcpLabel) → Decidable (OneAcceptAReport listenFd s l)
  | .arrive => isTrue trivial
  | .wait events => inferInstanceAs (Decidable (∀ e ∈ events, _ → _ → _))
  | .handle h => match found : s.batch with
    | [] => isTrue (by rw [OneAcceptAReport, found]; trivial)
    | e :: _ => decidable_of_iff (e.offers listenFd = true →
        h.accepts.isSome = true ∧ ∀ asked ∈ h.calls, asked ≠ (s.nextClient, .close))
        (by rw [OneAcceptAReport, found])

/-- A client that nobody closes keeps its descriptor. -/
theorem callAll_keeps {calls : List (ClientId × TcpCall)}
    (kept : ∀ asked ∈ calls, asked ≠ (c, .close)) (live : s.object c = some obj)
    (done : callAll calls s = .ok s') :
    ∃ obj', s'.object c = some obj' ∧ obj'.sockfd = obj.sockfd := by
  refine callAll_invariant (P := fun s' => ∃ obj', s'.object c = some obj' ∧
    obj'.sockfd = obj.sockfd) (fun d asked s1 s2 member here called => ?_) ⟨obj, live, rfl⟩ done
  obtain ⟨obj1, live1, same1⟩ := here
  cases asked with
  | send data =>
    obtain ⟨other, found, same⟩ := bind_eq_ok.mp called
    cases same
    by_cases own : c = d
    · subst own
      cases (get_ok found).symm.trans live1
      exact ⟨_, put_self, same1⟩
    · exact ⟨obj1, (put_other own).trans live1, same1⟩
  | close =>
    obtain ⟨other, _, rfl⟩ := closeClient_ok called
    have own : c ≠ d := by
      rintro rfl
      exact kept _ member rfl
    exact ⟨obj1, (dropped_other own).trans live1, same1⟩

/-- Calls register no descriptor that was not registered. -/
theorem callAll_unregistered {calls : List (ClientId × TcpCall)} {fd : Nat}
    (unregistered : s.kernel.interest fd = none) (done : callAll calls s = .ok s') :
    s'.kernel.interest fd = none := by
  refine callAll_invariant (P := fun s' => s'.kernel.interest fd = none)
    (fun d asked s1 s2 _ here called => ?_) unregistered done
  cases asked with
  | send data =>
    obtain ⟨other, _, same⟩ := bind_eq_ok.mp called
    cases same
    exact Kernel.modify_none here
  | close =>
    obtain ⟨other, _, rfl⟩ := closeClient_ok called
    by_cases own : fd = other.sockfd
    · subst own
      exact Kernel.close_self
    · exact (Kernel.close_other own).trans here

theorem Accounted.loses (accounted : Accounted listenFd s) (sound : Sound listenFd s')
    (loses : Loses s s') : Accounted listenFd s' := by
  obtain ⟨backlog, arrived, unreported⟩ := loses.kernel
  refine ⟨sound, ?_, fun connection below => ?_⟩
  · rw [backlog, unreported, loses.batch]
    exact accounted.awaited
  · rw [arrived] at below
    rw [backlog]
    exact (accounted.served connection below).imp_right fun served =>
      served.grows fun a member => loses.trace ▸ member

/-- The one connection that the report stood for. -/
theorem onAccept_serves {fd connection : Nat} {kernel : Kernel} {s1 : TcpServer}
    {calls : List (ClientId × TcpCall)} (sound : Sound listenFd s)
    (taken : s.kernel.accept fd = some (connection, kernel))
    (open_ : ∀ asked ∈ calls, asked ≠ (s.nextClient, .close))
    (called : callAll calls (s.admitted kernel connection fd) = .ok s1) :
    (s1.epollAdd fd s.nextClient).trace = s.trace ++ [.accepted connection s.nextClient fd,
      .entered s.nextClient fd, .added s.nextClient fd] := by
  obtain ⟨obj, live, same⟩ := callAll_keeps open_ admitted_self called
  have opened := (callAll_sound (admitted_sound sound taken) called).opened _ obj live
  rw [same] at opened
  have none_ : (s.admitted kernel connection fd).kernel.interest fd = none := by
    obtain ⟨closed, rest, _, rfl⟩ := Kernel.accept_ok taken
    exact sound.polled fd closed
  have unregistered := callAll_unregistered none_ called
  have trace := (callAll_loses calls s1 called).trace
  rw [epollAdd, if_pos ⟨opened, unregistered⟩]
  simp only [trace, admitted, List.append_assoc, List.cons_append, List.nil_append]

theorem epollAdd_waiting (fd : Nat) (c : ClientId) :
    SameBacklog s.kernel (s.epollAdd fd c).kernel := by
  rw [epollAdd]
  split
  · exact Kernel.add_waiting
  · exact ⟨rfl, rfl, rfl⟩

theorem epollAdd_batch {fd : Nat} : (s.epollAdd fd c).batch = s.batch := by
  rw [epollAdd]
  split <;> rfl

theorem onAccept_accounted {e : Ready} {rest : List Ready} {h : Handling}
    (accounted : Accounted listenFd s) (batch : s.batch = e :: rest)
    (offers_ : e.offers listenFd = true) (oneEach : OneAcceptAReport listenFd s (.handle h))
    (done : onAccept { s with batch := rest } h = .ok s') : Accounted listenFd s' := by
  rw [OneAcceptAReport, batch] at oneEach
  obtain ⟨accepts, open_⟩ := oneEach offers_
  have awaited := accounted.awaited
  rw [batch, offers, List.filter_cons_of_pos offers_, List.length_cons] at awaited
  have sound : Sound listenFd { s with batch := rest } := accounted.sound.with_batch rest
  have sound' := onAccept_sound sound done
  rcases onAccept_cases sound done with ⟨none_, _⟩ | ⟨fd, connection, kernel, s1, _, taken, called, rfl⟩
  · rw [none_] at accepts
    contradiction
  · have trace := onAccept_serves sound taken open_ called
    have lost := callAll_loses h.calls s1 called
    obtain ⟨backlog, arrived, unreported⟩ := lost.kernel
    obtain ⟨backlog', arrived', unreported'⟩ := epollAdd_waiting (s := s1) fd s.nextClient
    obtain ⟨_, left, waiting, rfl⟩ := Kernel.accept_ok taken
    refine ⟨sound', ?_, fun other below => ?_⟩
    · rw [backlog', unreported', backlog, unreported, epollAdd_batch, lost.batch]
      rw [waiting, List.length_cons] at awaited
      exact Nat.le_of_succ_le_succ awaited
    · rw [arrived', arrived] at below
      rw [backlog', backlog]
      rcases accounted.served other below with waits | served
      · rw [waiting] at waits
        rcases List.mem_cons.mp waits with rfl | later
        · exact Or.inr ⟨s.nextClient, fd, by simp [trace], by simp [trace], by simp [trace]⟩
        · exact Or.inl later
      · refine Or.inr (served.grows fun a member => ?_)
        rw [trace]
        exact List.mem_append_left _ member

theorem onEvent_accounted {e : Ready} {rest : List Ready} {h : Handling}
    (accounted : Accounted listenFd s) (batch : s.batch = e :: rest)
    (oneEach : OneAcceptAReport listenFd s (.handle h))
    (done : onEvent listenFd { s with batch := rest } e h = .ok s') : Accounted listenFd s' := by
  by_cases offers_ : e.offers listenFd = true
  · rw [onEvent_offers offers_] at done
    exact onAccept_accounted accounted batch offers_ oneEach done
  · have sound : Sound listenFd { s with batch := rest } := accounted.sound.with_batch rest
    have awaited := accounted.awaited
    rw [batch, offers, List.filter_cons_of_neg offers_] at awaited
    have popped : Accounted listenFd { s with batch := rest } :=
      ⟨sound, awaited, accounted.served⟩
    exact popped.loses (onEvent_sound sound done) (onEvent_loses offers_ s' done)

theorem wait_accounted {events : List Ready} (accounted : Accounted listenFd s)
    (oneEach : OneAcceptAReport listenFd s (.wait events)) (done : s.wait listenFd events = .ok s') :
    Accounted listenFd s' := by
  have sound := step_sound (l := .wait events) accounted.sound done
  rw [wait] at done
  split at done
  · rename_i returns
    cases done
    refine ⟨sound, ?_, accounted.served⟩
    have awaited := accounted.awaited
    rw [returns.1] at awaited
    simp only [Kernel.report]
    split
    · rename_i told
      obtain ⟨e, member, told⟩ := List.any_eq_true.mp told
      simp only [Bool.and_eq_true, beq_iff_eq] at told
      obtain ⟨hup, few⟩ := oneEach e member told.1 told.2
      have counted : e ∈ events.filter fun e => e.offers listenFd := by
        apply List.mem_filter.mpr
        simp [Ready.offers, member, hup, told]
      have some_ := List.length_pos_of_mem counted
      simp only [offers, List.filter_nil, List.length_nil] at awaited ⊢
      omega
    · simp only [offers, List.filter_nil, List.length_nil] at awaited
      exact Nat.le_trans awaited (Nat.le_add_right _ _)
  · contradiction

theorem step_accounted {l : TcpLabel} (accounted : Accounted listenFd s)
    (oneEach : OneAcceptAReport listenFd s l) (done : s.step listenFd l = .ok s') :
    Accounted listenFd s' := by
  cases l with
  | arrive =>
    have sound := step_sound (l := .arrive) accounted.sound done
    cases done
    refine ⟨sound, ?_, fun connection below => ?_⟩
    · have awaited := accounted.awaited
      simp only [Kernel.arrive, List.length_append, List.length_singleton]
      omega
    · rcases Nat.lt_succ_iff_lt_or_eq.mp below with old | rfl
      · exact (accounted.served connection old).imp_left (List.mem_append_left _)
      · exact Or.inl (List.mem_append_right _ List.mem_cons_self)
  | wait events => exact wait_accounted accounted oneEach done
  | handle h =>
    rw [step, handle] at done
    split at done
    · contradiction
    · rename_i e rest batch
      exact onEvent_accounted accounted batch oneEach done

/-- The server is about to block, nothing is left to be reported, and every connection that
has arrived was served. -/
def NoneForgotten (s : TcpServer) : Prop :=
  s.batch = [] → s.kernel.unreported = 0 → ∀ connection < s.kernel.arrived, s.Served connection

theorem Accounted.none_forgotten (accounted : Accounted listenFd s) : s.NoneForgotten := by
  intro idle quiet connection below
  have awaited := accounted.awaited
  rw [idle, quiet] at awaited
  have empty : s.kernel.backlog = [] := List.eq_nil_of_length_eq_zero (Nat.le_zero.mp awaited)
  rcases accounted.served connection below with waits | served
  · rw [empty] at waits
    contradiction
  · exact served

end TcpServer

theorem connections_served (listenFd : Nat) (opened : Nat → Bool) (labels : List TcpLabel)
    (oneEach : Along (TcpServer.step listenFd) (TcpServer.OneAcceptAReport listenFd)
      (.start listenFd opened) labels) (s : TcpServer)
    (reached : run (TcpServer.step listenFd) (.start listenFd opened) labels = .ok s) :
    s.NoneForgotten := by
  have initial : TcpServer.Accounted listenFd (.start listenFd opened) :=
    ⟨TcpServer.start_sound opened, Nat.le_refl _, nofun⟩
  have kept (s : TcpServer) (l : TcpLabel) (s' : TcpServer) (accounted : s.Accounted listenFd)
      (cond : s.OneAcceptAReport listenFd l) (done : s.step listenFd l = .ok s') : s'.Accounted listenFd :=
    TcpServer.step_accounted accounted cond done
  exact (along_invariant kept initial oneEach reached).none_forgotten

/-- Two connections, each behind a report of its own. -/
theorem two_connections_served : ∃ s,
    run (TcpServer.step 3) (.start 3 firstDescriptors) twoClients = .ok s ∧ s.NoneForgotten := by
  obtain ⟨s, reached⟩ : ∃ s,
      run (TcpServer.step 3) (.start 3 firstDescriptors) twoClients = .ok s :=
    exists_ok (by decide +kernel)
  exact ⟨s, reached, connections_served 3 firstDescriptors _ (by decide +kernel) s reached⟩

/-- Two connections that are reported together, of which the second waits for ever. -/
theorem burst_forgotten : ∃ s, run (TcpServer.step 3) (.start 3 firstDescriptors)
    [.arrive, .arrive, .wait [offered], accepting 5 []] = .ok s ∧
    s.kernel.backlog = [1] ∧ ¬ s.NoneForgotten := by
  obtain ⟨s, reached, facts⟩ := reaches (x := run (TcpServer.step 3) (.start 3 firstDescriptors)
      [.arrive, .arrive, .wait [offered], accepting 5 []])
    (f := fun s => (s.batch, s.kernel.unreported, s.kernel.arrived, s.kernel.backlog, s.trace))
    (b := ([], 0, 2, [1], [.accepted 0 0 5, .entered 0 5, .added 0 5])) (by decide +kernel)
  obtain ⟨idle, facts⟩ := Prod.mk.inj facts
  obtain ⟨quiet, facts⟩ := Prod.mk.inj facts
  obtain ⟨arrived, facts⟩ := Prod.mk.inj facts
  obtain ⟨backlog, trace⟩ := Prod.mk.inj facts
  refine ⟨s, reached, backlog, fun served => ?_⟩
  obtain ⟨c, fd, accepted, _⟩ := served idle quiet 1 (by rw [arrived]; decide)
  rw [trace] at accepted
  simp at accepted

end WebsocketProto
