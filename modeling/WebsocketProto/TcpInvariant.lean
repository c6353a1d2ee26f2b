import WebsocketProto.TcpBatches

/-! What ties `clients_`, the client objects and the descriptors of the process together
between the calls that the event loop makes. -/
namespace WebsocketProto
open Outcome
open Epoll (Kernel Ready)

namespace TcpServer

/-- Registered clients are those that are not deleted, each under an open descriptor of its
own, and only open descriptors are registered with `epoll`. -/
structure Sound (listenFd : Nat) (s : TcpServer) : Prop where
  registered : ∀ fd c, s.clients fd = some c ↔ ∃ obj, s.object c = some obj ∧ obj.sockfd = fd
  unborn : ∀ c, s.nextClient ≤ c → s.object c = none
  opened : ∀ c obj, s.object c = some obj → s.kernel.isOpen obj.sockfd = true
  apart : ∀ c obj, s.object c = some obj → obj.sockfd ≠ listenFd
  listening : s.kernel.isOpen listenFd = true
  polled : ∀ fd, s.kernel.isOpen fd = false → s.kernel.interest fd = none

variable {listenFd : Nat} {s s' : TcpServer} {c d : ClientId} {obj : TcpClient}

theorem start_sound (opened : Nat → Bool) : Sound listenFd (.start listenFd opened) := by
  refine ⟨fun fd c => ⟨nofun, ?_⟩, fun _ _ => rfl, nofun, nofun, ?_, fun _ _ => rfl⟩
  · rintro ⟨obj, live, _⟩
    contradiction
  · simp [start]

theorem get_ok (found : s.get c = .ok obj) : s.object c = some obj := by
  rw [get] at found
  split at found
  · rename_i other live
    rw [live, Except.ok.inj found]
  · contradiction

/-- Ids are given out in order. -/
theorem Sound.known (sound : Sound listenFd s) (live : s.object c = some obj) :
    c < s.nextClient := by
  by_contra beyond
  have gone := sound.unborn c (Nat.le_of_not_lt beyond)
  rw [live] at gone
  contradiction

/-- Two clients do not share a descriptor. -/
theorem Sound.alone (sound : Sound listenFd s) {other : TcpClient} (live : s.object c = some obj)
    (live' : s.object d = some other) (same : other.sockfd = obj.sockfd) : d = c := by
  have first := (sound.registered obj.sockfd c).mpr ⟨obj, live, rfl⟩
  have second := (sound.registered obj.sockfd d).mpr ⟨other, live', same⟩
  exact Option.some.inj (second.symm.trans first)

theorem Sound.live (sound : Sound listenFd s) {fd : Nat} (known : s.clients fd = some c) :
    ∃ obj, s.object c = some obj ∧ obj.sockfd = fd :=
  (sound.registered fd c).mp known

theorem put_self : (s.put c obj).object c = some obj := Function.update_self ..

theorem put_other (apart : d ≠ c) : (s.put c obj).object d = s.object d :=
  Function.update_of_ne apart ..

/-- What every live client has stays so when one of them gets other queues. -/
theorem put_forall {P : ClientId → TcpClient → Prop} {obj' : TcpClient}
    (all : ∀ d other, s.object d = some other → P d other) (own : P c obj')
    (d : ClientId) (other : TcpClient) (live : (s.put c obj').object d = some other) :
    P d other := by
  by_cases same : d = c
  · subst same
    rw [put_self] at live
    exact Option.some.inj live ▸ own
  · rw [put_other same] at live
    exact all d other live

theorem Sound.put (sound : Sound listenFd s) (live : s.object c = some obj) {obj' : TcpClient}
    (same : obj'.sockfd = obj.sockfd) : Sound listenFd (s.put c obj') := by
  refine ⟨fun fd d => ?_, fun d beyond => ?_, ?_, ?_, sound.listening, sound.polled⟩
  · refine (sound.registered fd d).trans ?_
    by_cases own : d = c
    · subst own
      simp only [put_self, live, Option.some.injEq, exists_eq_left', same]
    · simp only [put_other own]
  · have own : d ≠ c := by
      rintro rfl
      exact absurd (sound.known live) (Nat.not_lt.mpr beyond)
    rw [put_other own]
    exact sound.unborn d beyond
  · exact put_forall (P := fun _ other => s.kernel.isOpen other.sockfd = true) sound.opened
      (same ▸ sound.opened c obj live)
  · exact put_forall (P := fun _ other => other.sockfd ≠ listenFd) sound.apart
      (same ▸ sound.apart c obj live)

theorem Sound.modify (sound : Sound listenFd s) (fd : Nat) (output : Bool) :
    Sound listenFd { s with kernel := s.kernel.modify fd output } := by
  refine ⟨sound.registered, sound.unborn, ?_, sound.apart, ?_, fun other closed => ?_⟩
  · simpa only [Kernel.modify_isOpen] using sound.opened
  · simpa only [Kernel.modify_isOpen] using sound.listening
  · rw [Kernel.modify_isOpen] at closed
    exact Kernel.modify_none (sound.polled other closed)

/-- The state behind `close_client`. -/
def dropped (s : TcpServer) (c : ClientId) (fd : Nat) : TcpServer :=
  { s with
    kernel := s.kernel.close fd
    clients := Function.update s.clients fd none
    object := Function.update s.object c none }

theorem closeClient_ok (done : s.closeClient c = .ok s') :
    ∃ obj, s.object c = some obj ∧ s' = s.dropped c obj.sockfd := by
  obtain ⟨obj, found, same⟩ := bind_eq_ok.mp done
  cases same
  exact ⟨obj, get_ok found, rfl⟩

theorem dropped_self {fd : Nat} : (s.dropped c fd).object c = none := Function.update_self ..

theorem dropped_other {fd : Nat} (apart : d ≠ c) : (s.dropped c fd).object d = s.object d :=
  Function.update_of_ne apart ..

theorem dropped_clients {fd other : Nat} (apart : other ≠ fd) :
    (s.dropped c fd).clients other = s.clients other :=
  Function.update_of_ne apart ..

theorem dropped_fd {fd : Nat} : (s.dropped c fd).clients fd = none := Function.update_self ..

theorem dropped_live {fd : Nat} {other : TcpClient}
    (live : (s.dropped c fd).object d = some other) : d ≠ c ∧ s.object d = some other := by
  by_cases own : d = c
  · subst own
    rw [dropped_self] at live
    contradiction
  · rw [dropped_other own] at live
    exact ⟨own, live⟩

/-- A client that is deleted takes its entry and its registration with it. -/
theorem Sound.drop (sound : Sound listenFd s) (live : s.object c = some obj) :
    Sound listenFd (s.dropped c obj.sockfd) := by
  refine ⟨fun fd d => ?_, fun d beyond => ?_, fun d other found => ?_, fun d other found => ?_,
    ?_, fun fd closed => ?_⟩
  · by_cases here : fd = obj.sockfd
    · subst here
      refine ⟨fun known => ?_, ?_⟩
      · rw [dropped_fd] at known
        contradiction
      · rintro ⟨other, found, same⟩
        obtain ⟨apart, found⟩ := dropped_live found
        exact absurd (sound.alone live found same) apart
    · rw [dropped_clients here, sound.registered]
      refine exists_congr fun other => and_congr_left fun same => ?_
      by_cases own : d = c
      · subst own
        rw [dropped_self, live]
        refine ⟨fun eq => ?_, nofun⟩
        cases eq
        exact absurd same.symm here
      · rw [dropped_other own]
  · by_cases own : d = c
    · subst own
      exact dropped_self
    · rw [dropped_other own]
      exact sound.unborn d beyond
  · obtain ⟨apart, found⟩ := dropped_live found
    have away : other.sockfd ≠ obj.sockfd := fun same => apart (sound.alone live found same)
    exact (Kernel.close_isOpen away).trans (sound.opened d other found)
  · exact sound.apart d other (dropped_live found).2
  · exact (Kernel.close_isOpen (sound.apart c obj live).symm).trans sound.listening
  · by_cases here : fd = obj.sockfd
    · subst here
      exact Kernel.close_self
    · rw [dropped, Kernel.close_isOpen here] at closed
      exact (Kernel.close_other here).trans (sound.polled fd closed)

theorem sendBuffer_sound (sound : Sound listenFd s) {data : Bytes}
    (done : s.sendBuffer c data = .ok s') : Sound listenFd s' := by
  obtain ⟨obj, found, same⟩ := bind_eq_ok.mp done
  cases same
  have queued : Sound listenFd (s.put c
      { obj with sendBufferQueue := obj.sendBufferQueue ++ [data] }) :=
    sound.put (get_ok found) rfl
  exact queued.modify obj.sockfd true

theorem closeClient_sound (sound : Sound listenFd s) (done : s.closeClient c = .ok s') :
    Sound listenFd s' := by
  obtain ⟨obj, live, rfl⟩ := closeClient_ok done
  exact sound.drop live

theorem call_sound {asked : TcpCall} (sound : Sound listenFd s)
    (done : s.call c asked = .ok s') : Sound listenFd s' := by
  cases asked with
  | send data => exact sendBuffer_sound sound done
  | close => exact closeClient_sound sound done

/-- What user code asks for keeps the tables together. -/
theorem callAll_sound {calls : List (ClientId × TcpCall)} (sound : Sound listenFd s)
    (done : callAll calls s = .ok s') : Sound listenFd s' :=
  callAll_invariant (fun _ _ _ _ _ sound called => call_sound sound called) sound done

theorem call_gone {asked : TcpCall} (gone : s.object d = none)
    (done : s.call c asked = .ok s') : s'.object d = none := by
  cases asked with
  | send data =>
    obtain ⟨obj, found, same⟩ := bind_eq_ok.mp done
    cases same
    have own : d ≠ c := by
      rintro rfl
      simp [get_ok found] at gone
    exact (put_other own).trans gone
  | close =>
    obtain ⟨obj, _, rfl⟩ := closeClient_ok done
    by_cases own : d = c
    · subst own
      exact dropped_self
    · exact (dropped_other own).trans gone

/-- The disconnect callback does not bring its client back. -/
theorem disconnect_gone {h : Handling} (done : s.disconnect h c = .ok s') :
    s'.object c = none := by
  obtain ⟨s1, closed, called⟩ := bind_eq_ok.mp done
  obtain ⟨obj, _, rfl⟩ := closeClient_ok closed
  exact callAll_invariant (P := fun t => t.object c = none)
    (fun _ _ _ _ _ gone called => call_gone gone called) dropped_self called

/-- Calls of user code do not fail: those that are gone are left alone. -/
theorem callAll_ok (calls : List (ClientId × TcpCall)) (s : TcpServer) :
    ∃ s', callAll calls s = .ok s' := by
  induction calls generalizing s with
  | nil => exact ⟨s, rfl⟩
  | cons first rest ih =>
    obtain ⟨c, asked⟩ := first
    rw [callAll]
    split
    · rename_i there
      obtain ⟨obj, live⟩ := Option.isSome_iff_exists.mp there
      obtain ⟨s1, called⟩ : ∃ s1, s.call c asked = .ok s1 := by
        cases asked <;> simp [call, sendBuffer, closeClient, get, live]
      rw [called, ok_bind]
      exact ih s1
    · exact ih s

theorem disconnect_ok (h : Handling) (live : s.object c = some obj) :
    ∃ s', s.disconnect h c = .ok s' := by
  have closed : s.closeClient c = .ok (s.dropped c obj.sockfd) := by
    simp [closeClient, get, live, dropped]
  rw [disconnect, closed, ok_bind]
  exact callAll_ok h.calls _

theorem disconnect_sound {h : Handling} (sound : Sound listenFd s)
    (done : s.disconnect h c = .ok s') : Sound listenFd s' := by
  obtain ⟨s1, closed, called⟩ := bind_eq_ok.mp done
  exact callAll_sound (closeClient_sound sound closed) called

theorem closeIf_sound {h : Handling} {closed : Bool} (sound : Sound listenFd s)
    (done : s.closeIf h c closed = .ok s') : Sound listenFd s' := by
  rw [closeIf] at done
  split at done
  · exact disconnect_sound sound done
  · exact Except.ok.inj done ▸ sound

theorem onInput_sound {h : Handling} (sound : Sound listenFd s) (done : s.onInput h c = .ok s') :
    Sound listenFd s' := by
  rw [onInput] at done
  split at done
  · contradiction
  · rename_i m closed received
    obtain ⟨s1, closedIf, done⟩ := bind_eq_ok.mp done
    have kept := closeIf_sound sound closedIf
    split at done
    · exact Except.ok.inj done ▸ kept
    · obtain ⟨obj, found, done⟩ := bind_eq_ok.mp done
      have read : Sound listenFd (s1.put c { obj with recvBuffer := m }) :=
        kept.put (get_ok found) rfl
      exact callAll_sound read done

theorem onOutput_sound {h : Handling} (sound : Sound listenFd s)
    (done : s.onOutput h c = .ok s') : Sound listenFd s' := by
  obtain ⟨obj, found, done⟩ := bind_eq_ok.mp done
  split at done
  · contradiction
  · rename_i drained _
    obtain ⟨s1, closed, done⟩ := bind_eq_ok.mp done
    obtain ⟨obj1, _, done⟩ := bind_eq_ok.mp done
    have offered : Sound listenFd (s.put c { obj with sendBufferQueue := drained.queue }) :=
      sound.put (get_ok found) rfl
    exact callAll_sound ((closeIf_sound offered closed).modify obj1.sockfd false) done

/-- The state in which the connected callback of a connection is called. -/
def admitted (s : TcpServer) (kernel : Kernel) (connection fd : Nat) : TcpServer :=
  { s with
    clients := Function.update s.clients fd (some s.nextClient)
    object := Function.update s.object s.nextClient (some ⟨fd, [], []⟩)
    nextClient := s.nextClient + 1
    kernel := kernel
    trace := s.trace ++ [.accepted connection s.nextClient fd, .entered s.nextClient fd] }

theorem Sound.free (sound : Sound listenFd s) {fd : Nat} (closed : s.kernel.isOpen fd = false) :
    s.clients fd = none := by
  cases known : s.clients fd with
  | none => rfl
  | some c =>
    obtain ⟨obj, live, rfl⟩ := sound.live known
    rw [sound.opened c obj live] at closed
    contradiction

/-- `emplace` finds no entry under a descriptor that was free. -/
theorem emplace_admitted (sound : Sound listenFd s) {kernel : Kernel} {connection fd : Nat}
    (closed : s.kernel.isOpen fd = false) :
    (s.allocateClient kernel connection fd).emplace fd s.nextClient =
      s.admitted kernel connection fd := by
  have free : (s.allocateClient kernel connection fd).clients fd = none := sound.free closed
  rw [emplace, free, if_neg (by exact Bool.false_ne_true)]
  simp only [allocateClient, admitted, List.append_assoc, List.cons_append, List.nil_append]

section Admitted
variable {kernel : Kernel} {connection fd : Nat}

theorem admitted_self :
    (s.admitted kernel connection fd).object s.nextClient = some ⟨fd, [], []⟩ :=
  Function.update_self ..

theorem admitted_other (old : d ≠ s.nextClient) :
    (s.admitted kernel connection fd).object d = s.object d :=
  Function.update_of_ne old ..

theorem admitted_live (live : (s.admitted kernel connection fd).object d = some obj) :
    (d = s.nextClient ∧ obj = ⟨fd, [], []⟩) ∨ (d ≠ s.nextClient ∧ s.object d = some obj) := by
  by_cases own : d = s.nextClient
  · subst own
    rw [admitted_self] at live
    exact Or.inl ⟨rfl, (Option.some.inj live).symm⟩
  · rw [admitted_other own] at live
    exact Or.inr ⟨own, live⟩

theorem admitted_fd : (s.admitted kernel connection fd).clients fd = some s.nextClient :=
  Function.update_self ..

theorem admitted_clients {other : Nat} (apart : other ≠ fd) :
    (s.admitted kernel connection fd).clients other = s.clients other :=
  Function.update_of_ne apart ..

end Admitted

theorem admitted_sound (sound : Sound listenFd s) {kernel : Kernel} {connection fd : Nat}
    (taken : s.kernel.accept fd = some (connection, kernel)) :
    Sound listenFd (s.admitted kernel connection fd) := by
  obtain ⟨closed, rest, _, rfl⟩ := Kernel.accept_ok taken
  have fresh : fd ≠ listenFd := by
    rintro rfl
    rw [sound.listening] at closed
    contradiction
  have others {d : ClientId} {obj : TcpClient} (live : s.object d = some obj) : obj.sockfd ≠ fd := by
    rintro rfl
    rw [sound.opened d obj live] at closed
    contradiction
  refine ⟨fun other d => ?_, fun d beyond => ?_, fun d obj live => ?_, fun d obj live => ?_, ?_,
    fun other shut => ?_⟩
  · by_cases here : other = fd
    · subst here
      rw [admitted_fd]
      refine ⟨fun known => ?_, ?_⟩
      · cases known
        exact ⟨_, admitted_self, rfl⟩
      · rintro ⟨obj, live, same⟩
        rcases admitted_live live with ⟨rfl, _⟩ | ⟨_, old⟩
        · rfl
        · exact absurd same (others old)
    · rw [admitted_clients here, sound.registered]
      refine exists_congr fun obj => and_congr_left fun same => ?_
      by_cases own : d = s.nextClient
      · subst own
        rw [admitted_self, sound.unborn _ (Nat.le_refl _)]
        refine ⟨nofun, fun new => ?_⟩
        cases new
        exact absurd same.symm here
      · rw [admitted_other own]
  · have own : d ≠ s.nextClient := Nat.ne_of_gt beyond
    exact (admitted_other own).trans (sound.unborn d (Nat.le_of_succ_le beyond))
  · rcases admitted_live live with ⟨_, rfl⟩ | ⟨_, old⟩
    · exact Function.update_self ..
    · exact (Function.update_of_ne (others old) ..).trans (sound.opened d obj old)
  · rcases admitted_live live with ⟨_, rfl⟩ | ⟨_, old⟩
    · exact fresh
    · exact sound.apart d obj old
  · exact (Function.update_of_ne fresh.symm ..).trans sound.listening
  · have away : other ≠ fd := by
      rintro rfl
      exact Bool.noConfusion ((Function.update_self ..).symm.trans shut)
    exact sound.polled other ((Function.update_of_ne away ..).symm.trans shut)

theorem epollAdd_sound (sound : Sound listenFd s) (fd : Nat) : Sound listenFd (s.epollAdd fd c) := by
  rw [epollAdd]
  split
  · rename_i free
    refine ⟨sound.registered, sound.unborn, ?_, sound.apart, ?_, fun other closed => ?_⟩
    · simpa only [Kernel.add_isOpen] using sound.opened
    · simpa only [Kernel.add_isOpen] using sound.listening
    · rw [Kernel.add_isOpen] at closed
      have away : other ≠ fd := by
        rintro rfl
        rw [free.1] at closed
        contradiction
      exact (Kernel.add_other away).trans (sound.polled other closed)
  · exact sound

/-- What the branch of the listening socket does. -/
theorem onAccept_cases {h : Handling} (sound : Sound listenFd s) (done : s.onAccept h = .ok s') :
    (h.accepts = none ∧ s' = s) ∨
    ∃ fd connection kernel s1, h.accepts = some fd ∧
      s.kernel.accept fd = some (connection, kernel) ∧
      callAll h.calls (s.admitted kernel connection fd) = .ok s1 ∧
      s' = s1.epollAdd fd s.nextClient := by
  rw [onAccept] at done
  split at done
  · rename_i accepts
    cases done
    exact Or.inl ⟨accepts, rfl⟩
  · rename_i fd accepts
    split at done
    · contradiction
    · rename_i connection kernel taken
      obtain ⟨s1, called, same⟩ := bind_eq_ok.mp done
      cases same
      rw [emplace_admitted sound (Kernel.accept_ok taken).1] at called
      exact Or.inr ⟨fd, connection, kernel, s1, accepts, taken, called, rfl⟩

theorem onAccept_sound {h : Handling} (sound : Sound listenFd s) (done : s.onAccept h = .ok s') :
    Sound listenFd s' := by
  rcases onAccept_cases sound done with ⟨_, rfl⟩ | ⟨fd, _, _, s1, _, taken, called, rfl⟩
  · exact sound
  · exact epollAdd_sound (callAll_sound (admitted_sound sound taken) called) fd

theorem onEvent_sound {e : Ready} {h : Handling} (sound : Sound listenFd s)
    (done : onEvent listenFd s e h = .ok s') : Sound listenFd s' := by
  have still (done : (.ok s : Except TcpFault TcpServer) = .ok s') : Sound listenFd s' :=
    Except.ok.inj done ▸ sound
  rw [onEvent] at done
  split at done
  · split at done
    · exact disconnect_sound sound done
    · exact still done
  split at done
  · split at done
    · exact onAccept_sound sound done
    · split at done
      · exact still done
      · exact onInput_sound sound done
  split at done
  · split at done
    · exact still done
    · exact onOutput_sound sound done
  · exact still done

theorem Sound.with_batch (sound : Sound listenFd s) (batch : List Ready) :
    Sound listenFd { s with batch := batch } :=
  ⟨sound.registered, sound.unborn, sound.opened, sound.apart, sound.listening, sound.polled⟩

/-- One step, of `epoll_wait` or of the loop over its events. -/
theorem step_sound {l : TcpLabel} (sound : Sound listenFd s) (done : s.step listenFd l = .ok s') :
    Sound listenFd s' := by
  cases l with
  | arrive =>
    cases done
    exact ⟨sound.registered, sound.unborn, sound.opened, sound.apart, sound.listening, sound.polled⟩
  | wait events =>
    rw [step, wait] at done
    split at done
    · cases done
      refine ⟨sound.registered, sound.unborn, sound.opened, sound.apart, sound.listening, ?_⟩
      exact fun fd closed => Kernel.report_interest.trans (by rw [sound.polled fd closed]; rfl)
    · contradiction
  | handle h =>
    rw [step, handle] at done
    split at done
    · contradiction
    · exact onEvent_sound (sound.with_batch _) done

end TcpServer
end WebsocketProto
