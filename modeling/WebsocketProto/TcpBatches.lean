import WebsocketProto.TcpServer

/-! For whom the events of a batch are handled: the loop looks the client up when it comes
to the event, so what counts is who got into `clients_` since `epoll_wait` returned. -/
namespace WebsocketProto
open Outcome
open Epoll (Kernel Ready)

/-- An event for which the loop calls `accept`. -/
def Epoll.Ready.offers (listenFd : Nat) (e : Ready) : Bool :=
  !e.hup && e.input && e.fd == listenFd

namespace TcpServer

/-- The connections that wait at the listening socket are the same. -/
def SameBacklog (k k' : Kernel) : Prop :=
  k'.backlog = k.backlog ∧ k'.arrived = k.arrived ∧ k'.unreported = k.unreported

/-- `clients_` loses entries at most, and nothing is heard of connections. -/
structure Loses (s s' : TcpServer) : Prop where
  clients : ∀ fd, s'.clients fd = none ∨ s'.clients fd = s.clients fd
  batch : s'.batch = s.batch
  returned : s'.returned = s.returned
  trace : s'.trace = s.trace
  kernel : SameBacklog s.kernel s'.kernel

theorem Loses.refl (s : TcpServer) : Loses s s :=
  ⟨fun _ => Or.inr rfl, rfl, rfl, rfl, rfl, rfl, rfl⟩

theorem Loses.trans {s s1 s2 : TcpServer} (first : Loses s s1) (second : Loses s1 s2) :
    Loses s s2 := by
  refine ⟨fun fd => ?_, second.batch.trans first.batch, second.returned.trans first.returned,
    second.trace.trans first.trace, second.kernel.1.trans first.kernel.1,
    second.kernel.2.1.trans first.kernel.2.1, second.kernel.2.2.trans first.kernel.2.2⟩
  rcases second.clients fd with gone | same
  · exact Or.inl gone
  · rw [same]
    exact first.clients fd

instance : IsTrans TcpServer Loses := ⟨fun _ _ _ => Loses.trans⟩

variable {listenFd : Nat} {s s' : TcpServer} {c : ClientId}

theorem put_loses (obj : TcpClient) : Loses s (s.put c obj) :=
  ⟨fun _ => Or.inr rfl, rfl, rfl, rfl, rfl, rfl, rfl⟩

theorem modify_loses (fd : Nat) (output : Bool) :
    Loses s { s with kernel := s.kernel.modify fd output } :=
  ⟨fun _ => Or.inr rfl, rfl, rfl, rfl, Kernel.modify_waiting⟩

theorem sendBuffer_loses (data : Bytes) : Leads Loses s (s.sendBuffer c data) := by
  intro s' done
  obtain ⟨obj, _, same⟩ := bind_eq_ok.mp done
  cases same
  exact (put_loses _).trans (modify_loses _ _)

theorem closeClient_loses : Leads Loses s (s.closeClient c) := by
  intro s' done
  obtain ⟨obj, _, same⟩ := bind_eq_ok.mp done
  cases same
  refine ⟨fun fd => ?_, rfl, rfl, rfl, rfl, rfl, rfl⟩
  by_cases own : fd = obj.sockfd
  · subst own
    exact Or.inl (Function.update_self ..)
  · exact Or.inr (Function.update_of_ne own ..)

theorem call_loses (asked : TcpCall) : Leads Loses s (s.call c asked) := by
  cases asked with
  | send data => exact sendBuffer_loses data
  | close => exact closeClient_loses

theorem callAll_loses (calls : List (ClientId × TcpCall)) : Leads Loses s (callAll calls s) := by
  intro s' done
  refine callAll_invariant (fun c asked s1 s2 _ lost called => ?_) (Loses.refl s) done
  exact lost.trans (call_loses asked s2 called)

theorem disconnect_loses (h : Handling) : Leads Loses s (s.disconnect h c) :=
  closeClient_loses.bind fun _ => callAll_loses _

theorem closeIf_loses (h : Handling) (closed : Bool) : Leads Loses s (s.closeIf h c closed) := by
  rw [closeIf]
  split
  · exact disconnect_loses h
  · exact Leads.ok (.refl s)

theorem onInput_loses (h : Handling) : Leads Loses s (s.onInput h c) := by
  rw [onInput]
  split
  · exact Leads.error _
  · apply (closeIf_loses h _).bind
    intro s1
    split
    · exact Leads.ok (.refl s1)
    · intro s' done
      obtain ⟨obj, _, done⟩ := bind_eq_ok.mp done
      exact (callAll_loses _).from (put_loses _) s' done

theorem onOutput_loses (h : Handling) : Leads Loses s (s.onOutput h c) := by
  intro s' done
  obtain ⟨obj, _, done⟩ := bind_eq_ok.mp done
  split at done
  · contradiction
  · obtain ⟨s1, closed, done⟩ := bind_eq_ok.mp done
    obtain ⟨obj1, _, done⟩ := bind_eq_ok.mp done
    have drained : Loses s s1 := ((closeIf_loses h _).from (put_loses _)) s1 closed
    exact (callAll_loses _).from (drained.trans (modify_loses _ _)) s' done

theorem onEvent_offers {e : Ready} {h : Handling} (offers : e.offers listenFd = true) :
    onEvent listenFd s e h = s.onAccept h := by
  simp only [Epoll.Ready.offers, Bool.and_eq_true, Bool.not_eq_true', beq_iff_eq] at offers
  rw [onEvent, offers.1.1, offers.1.2, if_neg Bool.false_ne_true, if_pos rfl, if_pos offers.2]

/-- All other events. -/
theorem onEvent_loses {e : Ready} {h : Handling} (other : ¬ e.offers listenFd = true) :
    Leads Loses s (onEvent listenFd s e h) := by
  have still : Leads Loses s (.ok s : Except TcpFault TcpServer) := Leads.ok (.refl s)
  rw [onEvent]
  split
  · split
    · exact disconnect_loses h
    · exact still
  rename_i hup
  split
  · rename_i input
    split
    · rename_i listening
      exact absurd (by simp [Epoll.Ready.offers, hup, input, listening]) other
    · split
      · exact still
      · exact onInput_loses h
  split
  · split
    · exact still
    · exact onOutput_loses h
  · exact still

/-- The only entry that a step adds is that of the connection it accepts. -/
theorem onAccept_clients {h : Handling} (done : s.onAccept h = .ok s') :
    s'.batch = s.batch ∧ s'.returned = s.returned ∧
    ∀ fd, s'.clients fd = none ∨ s'.clients fd = s.clients fd ∨ h.accepts = some fd := by
  rw [onAccept] at done
  split at done
  · cases done
    exact ⟨rfl, rfl, fun fd => Or.inr (Or.inl rfl)⟩
  · rename_i new accepts
    split at done
    · contradiction
    · rename_i connection kernel _
      obtain ⟨s1, called, same⟩ := bind_eq_ok.mp done
      have entered : ((s.allocateClient kernel connection new).emplace new s.nextClient).batch =
          s.batch ∧ ((s.allocateClient kernel connection new).emplace new s.nextClient).returned =
          s.returned ∧ ∀ fd, fd ≠ new →
          ((s.allocateClient kernel connection new).emplace new s.nextClient).clients fd =
          s.clients fd := by
        rw [emplace]
        split
        · exact ⟨rfl, rfl, fun _ _ => rfl⟩
        · exact ⟨rfl, rfl, fun fd apart => Function.update_of_ne apart ..⟩
      have lost := callAll_loses h.calls s1 called
      have added : s'.batch = s1.batch ∧ s'.returned = s1.returned ∧ s'.clients = s1.clients := by
        cases same
        rw [epollAdd]
        split <;> exact ⟨rfl, rfl, rfl⟩
      obtain ⟨batch, returned, clients⟩ := added
      refine ⟨batch.trans (lost.batch.trans entered.1),
        returned.trans (lost.returned.trans entered.2.1), fun fd => ?_⟩
      rw [clients]
      by_cases own : fd = new
      · exact Or.inr (Or.inr (own ▸ accepts))
      · rcases lost.clients fd with gone | same
        · exact Or.inl gone
        · exact Or.inr (Or.inl (same.trans (entered.2.2 fd own)))

/-- Of the events to come, those of clients find nobody or the client that they are for. -/
def Faithful (listenFd : Nat) (s : TcpServer) : Prop :=
  ∀ e ∈ s.batch, e.fd ≠ listenFd → s.clients e.fd = none ∨ s.clients e.fd = s.returned e.fd

theorem Faithful.loses (faithful : Faithful listenFd s) (loses : Loses s s') :
    Faithful listenFd s' := by
  intro e member client
  rw [loses.returned]
  rcases loses.clients e.fd with gone | same
  · exact Or.inl gone
  · rw [same]
    exact faithful e (loses.batch ▸ member) client

/-- No descriptor that `accept` returns is that of an event still to come in the batch. -/
def Apart (listenFd : Nat) (s : TcpServer) : TcpLabel → Prop
  | .handle h => match s.batch with
    | [] => True
    | e :: rest => e.offers listenFd = true → ∀ fd ∈ h.accepts, ∀ later ∈ rest, later.fd ≠ fd
  | _ => True

theorem onEvent_faithful {e : Ready} {h : Handling} (faithful : Faithful listenFd s)
    (apart : e.offers listenFd = true → ∀ fd ∈ h.accepts, ∀ later ∈ s.batch, later.fd ≠ fd)
    (done : onEvent listenFd s e h = .ok s') : Faithful listenFd s' := by
  by_cases offers : e.offers listenFd = true
  · rw [onEvent_offers offers] at done
    obtain ⟨batch, returned, clients⟩ := onAccept_clients done
    intro later member client
    rw [batch] at member
    rw [returned]
    rcases clients later.fd with gone | same | accepts
    · exact Or.inl gone
    · rw [same]
      exact faithful later member client
    · exact absurd rfl (apart offers later.fd accepts later member)
  · exact faithful.loses (onEvent_loses offers s' done)

theorem step_faithful {l : TcpLabel} (faithful : Faithful listenFd s)
    (apart : Apart listenFd s l) (done : s.step listenFd l = .ok s') : Faithful listenFd s' := by
  cases l with
  | arrive =>
    cases done
    exact faithful
  | wait events =>
    rw [step, wait] at done
    split at done
    · cases done
      exact fun _ _ _ => Or.inr rfl
    · contradiction
  | handle h =>
    rw [step, handle] at done
    split at done
    · contradiction
    · rename_i e rest batch
      rw [Apart, batch] at apart
      refine onEvent_faithful (fun later member client => ?_) apart done
      exact faithful later (batch ▸ List.mem_cons_of_mem e member) client

instance (listenFd : Nat) (s : TcpServer) : (l : TcpLabel) → Decidable (Apart listenFd s l)
  | .arrive | .wait _ => isTrue trivial
  | .handle h => match found : s.batch with
    | [] => isTrue (by rw [Apart, found]; trivial)
    | e :: rest => decidable_of_iff
        (e.offers listenFd = true → ∀ fd ∈ h.accepts, ∀ later ∈ rest, later.fd ≠ fd)
        (by rw [Apart, found])

/-- The event that is handled next, if it is one of a client, is dropped or goes to the
client that was registered under its descriptor when `epoll_wait` returned. -/
def Delivers (listenFd : Nat) (s : TcpServer) : Prop :=
  ∀ e rest, s.batch = e :: rest → e.fd ≠ listenFd →
    s.clients e.fd = none ∨ s.clients e.fd = s.returned e.fd

end TcpServer

theorem events_keep_clients (listenFd : Nat) (opened : Nat → Bool) (labels : List TcpLabel)
    (apart : Along (TcpServer.step listenFd) (TcpServer.Apart listenFd)
      (.start listenFd opened) labels) (s : TcpServer)
    (reached : run (TcpServer.step listenFd) (.start listenFd opened) labels = .ok s) :
    s.Delivers listenFd := by
  have initial : TcpServer.Faithful listenFd (.start listenFd opened) := nofun
  have kept (s : TcpServer) (l : TcpLabel) (s' : TcpServer) (faithful : s.Faithful listenFd)
      (cond : s.Apart listenFd l) (done : s.step listenFd l = .ok s') : s'.Faithful listenFd :=
    TcpServer.step_faithful faithful cond done
  have faithful := along_invariant kept initial apart reached
  intro e rest batch client
  exact faithful e (batch ▸ List.mem_cons_self) client

/-- A round whose branch calls `accept`. -/
def accepting (fd : Nat) (calls : List (ClientId × TcpCall)) : TcpLabel :=
  .handle ⟨some fd, [], [], calls⟩

/-- A round that reads one byte, whose callback makes these calls. -/
def reading (calls : List (ClientId × TcpCall)) : TcpLabel :=
  .handle ⟨none, [.returns [0x61], .wouldBlock], [], calls⟩

/-- What is reported for the listening socket 3. -/
def offered : Ready := ⟨3, false, true, false⟩

/-- Descriptors 0 to 4 are open: the standard ones, the listening socket and `epoll`. -/
def firstDescriptors (fd : Nat) : Bool := decide (fd < 5)

def twoClients : List TcpLabel :=
  [.arrive, .wait [offered], accepting 5 [], .arrive, .wait [offered], accepting 6 []]

/-- A third client comes in between the events of the first two. -/
theorem third_client_apart : ∃ s, run (TcpServer.step 3) (.start 3 firstDescriptors)
    (twoClients ++ [.arrive, .wait [⟨5, false, true, false⟩, offered, ⟨6, false, true, false⟩],
      reading [], accepting 7 []]) = .ok s ∧ s.Delivers 3 := by
  obtain ⟨s, reached⟩ : ∃ s, run (TcpServer.step 3) (.start 3 firstDescriptors)
      (twoClients ++ [.arrive, .wait [⟨5, false, true, false⟩, offered, ⟨6, false, true, false⟩],
        reading [], accepting 7 []]) = .ok s := exists_ok (by decide +kernel)
  exact ⟨s, reached, events_keep_clients 3 firstDescriptors _ (by decide +kernel) s reached⟩

/-- The first client's callback closes the second one, whose descriptor the third one gets
before the event of the second is handled. -/
theorem reused_descriptor_misdelivers : ∃ s,
    run (TcpServer.step 3) (.start 3 firstDescriptors)
      (twoClients ++ [.arrive, .wait [⟨5, false, true, false⟩, offered, ⟨6, false, true, false⟩],
        reading [(1, .close)], accepting 6 []]) = .ok s ∧
    s.clients 6 = some 2 ∧ s.returned 6 = some 1 ∧ ¬ s.Delivers 3 := by
  obtain ⟨s, reached, facts⟩ := reaches (x := run (TcpServer.step 3) (.start 3 firstDescriptors)
      (twoClients ++ [.arrive, .wait [⟨5, false, true, false⟩, offered, ⟨6, false, true, false⟩],
        reading [(1, .close)], accepting 6 []]))
    (f := fun s => (s.clients 6, s.returned 6, s.batch))
    (b := (some 2, some 1, [⟨6, false, true, false⟩])) (by decide +kernel)
  obtain ⟨now, facts⟩ := Prod.mk.inj facts
  obtain ⟨before, batch⟩ := Prod.mk.inj facts
  refine ⟨s, reached, now, before, fun delivers => ?_⟩
  rcases delivers _ [] batch (by decide) with gone | same
  · rw [now] at gone
    contradiction
  · rw [now, before] at same
    contradiction

end WebsocketProto
