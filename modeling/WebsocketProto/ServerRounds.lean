import WebsocketProto.ServerMoves

/-! Whole rounds of the loop over the events, with the user's callbacks, and which client
stands under which descriptor in every run of rounds. -/
namespace WebsocketProto
open Outcome Wheelless

/-- What is kept by the writes of user code, for any client. -/
class UserSends (R : Server → Server → Prop) : Prop extends Wheelless R where
  queues (c : ClientId) : Queues c R
  send {s : Server} {c : ClientId} {obj : WebsocketClient} (live : s.object c = some obj)
    (payload : StdString) : R s (s.sent c obj (.frame (.send payload)))

attribute [instance] UserSends.queues

/-- What is kept by telling user code, and by what it does then. -/
class Callbacks (R : Server → Server → Prop) : Prop extends UserSends R where
  delivered {s : Server} {c : ClientId} {obj : WebsocketClient} (live : s.object c = some obj)
    (message : Bytes) : R s (s.log (.delivered c message))
  connects {s : Server} {c : ClientId} {obj : WebsocketClient} (live : s.object c = some obj)
    (waits : obj.isConnected = .waitShake) : R s (s.connecting c obj)
  sentCallback {s : Server} {c : ClientId} {obj : WebsocketClient}
    (live : s.object c = some obj) : R s (s.log (.sentCallback c))

theorem UserSends.userActs {R : Server → Server → Prop} {env : Setup} {s : Server} [UserSends R]
    (acts : List (ClientId × UserAct)) : Leads R s (Server.userActs env acts s) := by
  refine Server.userActs_leads (same s) (fun s1 c act => ?_) acts
  cases act with
  | send payload =>
    intro s' done
    obtain ⟨obj, live, rfl⟩ := Server.sendBuffer_cases done
    exact send live payload
  | close => exact Queues.closeWebsocketClient _

theorem UserSends.disconnectKeeps {R : Server → Server → Prop} {env : Setup} {c : ClientId}
    [UserSends R] : DisconnectKeeps env c R := fun _ _ => UserSends.userActs _

/-- No client comes or goes. -/
def Server.SamePeople (s s' : Server) : Prop :=
  s'.nextClient = s.nextClient ∧ s'.clients = s.clients ∧
    ∀ c, (s'.object c).isSome = (s.object c).isSome

namespace Server
variable {s s' : Server} {c : ClientId} {obj : WebsocketClient}

theorem put_samePeople (live : s.object c = some obj) (obj' : WebsocketClient) (trace : List Act) :
    SamePeople s { s with
      object := Function.update s.object c (some obj'), trace := trace } := by
  refine ⟨rfl, rfl, fun d => ?_⟩
  by_cases own : d = c
  · subst own
    simp [live]
  · simp [Function.update_of_ne own]

instance : UserSends SamePeople where
  trans _ _ _ first second := ⟨second.1.trans first.1, second.2.1.trans first.2.1,
    fun c => (second.2.2 c).trans (first.2.2 c)⟩
  same _ := ⟨rfl, rfl, fun _ => rfl⟩
  rewheel _ _ := ⟨rfl, rfl, fun _ => rfl⟩
  queues _ := ⟨fun live _ => put_samePeople live _ _, fun live _ _ => put_samePeople live _ _⟩
  send live _ := put_samePeople live _ _

/-- User code deletes nobody. -/
theorem userActs_live {env : Setup} {acts : List (ClientId × UserAct)}
    (done : userActs env acts s = .ok s') (live : s.object c = some obj) :
    ∃ obj', s'.object c = some obj' := by
  have same := (UserSends.userActs (R := SamePeople) acts s' done).2.2 c
  rw [live] at same
  exact Option.isSome_iff_exists.mp same

theorem connect_live {env : Setup} (done : s.connect env c = .ok s') :
    ∃ obj', s'.object c = some obj' := by
  obtain ⟨obj, found, done⟩ := bind_eq_ok.mp done
  split at done
  · exact userActs_live done (Function.update_self ..)
  · cases done
    exact ⟨obj, get_eq_ok found⟩

end Server

namespace Callbacks
open UserSends
variable {R : Server → Server → Prop} {env : Setup} {s : Server} {c : ClientId} [Callbacks R]

theorem recvCallback : Leads R s (s.recvCallback env c) := by
  intro s' done
  obtain ⟨obj, known, done⟩ := bind_eq_ok.mp done
  split at done
  · obtain ⟨s1, called, done⟩ := bind_eq_ok.mp done
    obtain ⟨obj1, found, same⟩ := bind_eq_ok.mp done
    cases same
    have told : R s s1 :=
      next (delivered (Server.get_eq_ok known) obj.decodeBuffer) (userActs _ s1 called)
    exact next told (Queues.write (Server.get_eq_ok found) (.of_state rfl rfl rfl))
  · exact Except.ok.inj done ▸ same s

theorem connect : Leads R s (s.connect env c) := by
  intro s' done
  obtain ⟨obj, found, done⟩ := bind_eq_ok.mp done
  split at done
  · rename_i waits
    exact next (connects (Server.get_eq_ok found) waits) (userActs _ s' done)
  · exact Except.ok.inj done ▸ same s

theorem sentWrapper : Leads R s (s.sentCallback env c) := by
  intro s' done
  obtain ⟨s1, connected, done⟩ := bind_eq_ok.mp done
  obtain ⟨obj1, live1⟩ := Server.connect_live connected
  have begun : R s s1 := connect s1 connected
  exact next (next begun (sentCallback live1)) (userActs _ s' done)

/-- A round, for a relation that also knows of new clients and of drained queues. The client
of the event is the only one that it reads from and closes. -/
theorem onEvent {e : Event} (moves : ∀ c, s.clients e.fd = some c → Moves c R)
    (admits : ∀ fd, fd ≠ env.listenFd → s.clients fd = none → R s (s.admitted fd))
    (offers : ∀ c obj drained, s.object c = some obj →
      drainQueue obj.sendBufferQueue e.sends = some drained → drained.closed = false →
      R s (s.offered c obj drained)) : Leads R s (s.onEvent env e) := by
  intro s' done
  cases Server.onEvent_cases done with
  | missed | refused | silent => exact same s
  | hangUp c _ hup known done =>
    have := moves c known
    exact Ends.closeClient (R := R) (c := c) disconnectKeeps s' done
  | accepts fd hup input listening offered foreign free => exact admits fd foreign free
  | reads c _ hup input foreign known done =>
    have := moves c known
    exact Moves.onInput (R := R) disconnectKeeps (fun _ => recvCallback (c := c)) s' done
  | writes c _ hup input output known done =>
    obtain ⟨obj, drained, live, drains, open_, called⟩ := Server.onOutput_cases done
    exact next (offers c obj drained live drains open_) (sentWrapper s' called)

/-- A task's function, for whichever client it captures. -/
theorem runTask (ends : ∀ c, Ends c R) (task : Task) : Leads R s (s.runTask env task) := by
  cases task with
  | expire c =>
    have := ends c
    exact Leads.bind (R := R) (Queues.closeWebsocketClient (c := c) _)
      fun s1 => Ends.closeClient (c := c) disconnectKeeps
  | heartbeat c => exact Queues.sendBuffer (c := c) rfl

/-- A step of the server: a round, a part of a tick, or calls of user code. -/
theorem step {l : Label} (moves : ∀ c, Moves c R)
    (admits : ∀ fd, s.clients fd = none → R s (s.admitted fd))
    (offers : ∀ c obj results drained, s.object c = some obj →
      drainQueue obj.sendBufferQueue results = some drained → drained.closed = false →
      R s (s.offered c obj drained)) : Leads R s (s.step env l) := by
  cases l with
  | event e =>
    exact onEvent (fun c _ => moves c) (fun fd _ => admits fd) fun c obj => offers c obj e.sends
  | user acts => exact userActs acts
  | beginTick now =>
    intro s' done
    obtain ⟨wheel, rfl⟩ := Server.beginTick_cases done
    exact rewheel s wheel
  | fire =>
    intro s' done
    obtain ⟨wheel, rfl | ⟨task, ran⟩⟩ := Server.fire_cases done
    · exact rewheel s wheel
    · exact next (rewheel s wheel) (runTask (fun c => (moves c).toEnds) task s' ran)

end Callbacks

/-- `clients_` holds exactly the clients that are not deleted, under their descriptors, and
nothing is known of clients to come. -/
structure Server.Rooted (s : Server) : Prop where
  registered : ∀ fd c, s.clients fd = some c ↔ ∃ obj, s.object c = some obj ∧ obj.sockfd = fd
  unborn : ∀ c, s.nextClient ≤ c → s.object c = none ∧ actsOf c s.trace = []

namespace Server
variable {env : Setup} {s s' : Server} {c d : ClientId} {obj : WebsocketClient}

theorem start_rooted (current : Int) : (start current).Rooted := by
  refine ⟨fun fd c => ⟨nofun, ?_⟩, fun _ _ => ⟨rfl, rfl⟩⟩
  rintro ⟨_, ⟨⟩, _⟩

namespace Rooted

theorem known (rooted : s.Rooted) (live : s.object c = some obj) : c < s.nextClient := by
  by_contra beyond
  have gone := (rooted.unborn c (Nat.le_of_not_lt beyond)).1
  rw [live] at gone
  contradiction

/-- Two clients never share a descriptor. -/
theorem apart (rooted : s.Rooted) {other : WebsocketClient} (live : s.object c = some obj)
    (found : s.object d = some other) (same : other.sockfd = obj.sockfd) : d = c := by
  have first := (rooted.registered obj.sockfd c).mpr ⟨obj, live, rfl⟩
  have second := (rooted.registered obj.sockfd d).mpr ⟨other, found, same⟩
  exact Option.some.inj (second.symm.trans first)

theorem live (rooted : s.Rooted) {fd : Nat} (known : s.clients fd = some c) :
    ∃ obj, s.object c = some obj ∧ obj.sockfd = fd :=
  (rooted.registered fd c).mp known

/-- A client that keeps its descriptor is written, and its acts are logged. -/
theorem change (rooted : s.Rooted) (live : s.object c = some obj) {obj' : WebsocketClient}
    (sockfd : obj'.sockfd = obj.sockfd) {acts : List Act} (mine : ∀ a ∈ acts, a.client = c)
    (wheel : TimeWheel Task) : Rooted { s with
      object := Function.update s.object c (some obj'), trace := s.trace ++ acts
      wheel := wheel } := by
  refine ⟨fun fd d => (rooted.registered fd d).trans ?_, fun d beyond => ?_⟩
  · by_cases own : d = c
    · subst own
      simp [live, sockfd]
    · simp [Function.update_of_ne own]
  · have other : d ≠ c := Nat.ne_of_gt (Nat.lt_of_lt_of_le (rooted.known live) beyond)
    obtain ⟨unborn, silent⟩ := rooted.unborn d beyond
    simp [Function.update_of_ne other, unborn, actsOf_append, silent, actsOf_other mine other]

theorem closing (rooted : s.Rooted) (live : s.object c = some obj) :
    (s.closing c obj.sockfd).Rooted := by
  refine ⟨fun fd d => ?_, fun d beyond => ?_⟩
  · simp only [Server.closing]
    by_cases own : d = c
    · subst own
      simp only [Function.update_self, reduceCtorEq, false_and, exists_false, iff_false]
      intro known
      by_cases here : fd = obj.sockfd
      · simp [here] at known
      · rw [Function.update_of_ne here, rooted.registered] at known
        obtain ⟨other, found, fd'⟩ := known
        cases live.symm.trans found
        exact here fd'.symm
    · rw [Function.update_of_ne own]
      by_cases here : fd = obj.sockfd
      · subst here
        simp only [Function.update_self, reduceCtorEq, false_iff]
        rintro ⟨other, found, same⟩
        exact own (rooted.apart live found same)
      · rw [Function.update_of_ne here]
        exact rooted.registered fd d
  · have other : d ≠ c := Nat.ne_of_gt (Nat.lt_of_lt_of_le (rooted.known live) beyond)
    obtain ⟨unborn, silent⟩ := rooted.unborn d beyond
    have mine : actsOf d [.closeFd c obj.sockfd, .epollCtl c .del, .disconnected c] = [] :=
      actsOf_other (by simp [Act.client]) other
    simp [Server.closing, Function.update_of_ne other, unborn, actsOf_append, silent,
      mine]

/-- An act of a client that was there. -/
theorem logs (rooted : s.Rooted) {a b : Act} (member : b ∈ s.trace) (same : a.client = b.client) :
    (s.log a).Rooted := by
  refine ⟨rooted.registered, fun d beyond => ⟨(rooted.unborn d beyond).1, ?_⟩⟩
  have silent := (rooted.unborn d beyond).2
  have other : d ≠ b.client := by
    rintro rfl
    have mine : b ∈ actsOf b.client s.trace := List.mem_filter.mpr ⟨member, by simp⟩
    rw [silent] at mine
    contradiction
  rw [Server.log, actsOf_append, silent, actsOf_other (List.forall_mem_singleton.mpr same) other]
  rfl

theorem admitted (rooted : s.Rooted) {fd : Nat} (free : s.clients fd = none) :
    (s.admitted fd).Rooted := by
  have unborn := rooted.unborn s.nextClient (Nat.le_refl _)
  refine ⟨fun fd' d => ?_, fun d beyond => ?_⟩
  · simp only [Server.admitted]
    by_cases own : d = s.nextClient
    · subst own
      by_cases here : fd' = fd
      · simp [here, WebsocketClient.new]
      · have stranger : s.clients fd' ≠ some s.nextClient := by
          rw [Ne, rooted.registered, unborn.1]
          simp
        simpa [Function.update_of_ne here, WebsocketClient.new, stranger] using Ne.symm here
    · rw [Function.update_of_ne own]
      by_cases here : fd' = fd
      · subst here
        have unused := (not_congr (rooted.registered fd' d)).mp (by simp [free])
        simpa [Ne.symm own] using unused
      · rw [Function.update_of_ne here]
        exact rooted.registered fd' d
  · have other : d ≠ s.nextClient := Nat.ne_of_gt beyond
    obtain ⟨unborn', silent⟩ := rooted.unborn d (Nat.le_of_succ_le beyond)
    have mine : ∀ a ∈ [Act.accepted s.nextClient fd, .epollCtl s.nextClient .add],
        a.client = s.nextClient := by simp [Act.client]
    simp [Server.admitted, Function.update_of_ne other, unborn', actsOf_append, silent,
      actsOf_other mine other]

theorem put (rooted : s.Rooted) (live : s.object c = some obj) {obj' : WebsocketClient}
    (sockfd : obj'.sockfd = obj.sockfd) : (s.put c obj').Rooted := by
  have changed := rooted.change live sockfd (List.forall_mem_nil _) s.wheel
  simpa [Server.put] using changed

/-- An act of a client that is there. -/
theorem log (rooted : s.Rooted) (live : s.object c = some obj) {a : Act} (own : a.client = c) :
    (s.log a).Rooted := by
  have changed := rooted.change live rfl (List.forall_mem_singleton.mpr own) s.wheel
  rwa [← live, Function.update_eq_self] at changed

theorem sent (rooted : s.Rooted) (live : s.object c = some obj) (output : Output) :
    (s.sent c obj output).Rooted :=
  rooted.change live (by rfl) (by simp [Act.client]) s.wheel

theorem offered (rooted : s.Rooted) (live : s.object c = some obj) (drained : Drained) :
    (s.offered c obj drained).Rooted := by
  have mine : ∀ a ∈ drained.calls.map (Act.sendCall c) ++ [.epollCtl c (.mod false)],
      a.client = c := by simp [Act.client, or_imp, forall_and]
  have sockfd : { obj with sendBufferQueue := drained.queue }.sockfd = obj.sockfd := rfl
  have changed := rooted.change live sockfd mine s.wheel
  simpa [Server.offered] using changed

end Rooted

/-- An invariant as a relation. -/
def Keeps (P : Server → Prop) (s s' : Server) : Prop := P s → P s'

instance : Wheelless (Keeps Rooted) where
  trans _ _ _ first second rooted := second (first rooted)
  same _ := id
  rewheel _ _ rooted := ⟨rooted.registered, rooted.unborn⟩

instance (c : ClientId) : Moves c (Keeps Rooted) where
  write live rewrites rooted := rooted.put live rewrites.sockfd
  queue live _ _ rooted := rooted.sent live _
  received live _ rooted := rooted.log live rfl
  close live rooted := rooted.closing live
  deleted told rooted := rooted.logs told rfl

instance : Callbacks (Keeps Rooted) where
  queues _ := inferInstance
  send live _ rooted := rooted.sent live _
  delivered live _ rooted := rooted.log live rfl
  connects live _ rooted := (rooted.put live (by rfl)).log (Function.update_self ..) rfl
  sentCallback live rooted := rooted.log live rfl

theorem onEvent_rooted {e : Event} (rooted : s.Rooted) (done : s.onEvent env e = .ok s') :
    s'.Rooted :=
  Callbacks.onEvent (R := Keeps Rooted) (fun _ _ => inferInstance) (fun _ _ free rooted => rooted.admitted free)
    (fun _ _ drained live _ _ rooted => rooted.offered live drained) s' done rooted

theorem step_rooted {l : Label} (rooted : s.Rooted) (done : s.step env l = .ok s') : s'.Rooted :=
  Callbacks.step (R := Keeps Rooted) (fun _ => inferInstance)
    (fun _ free rooted => rooted.admitted free)
    (fun _ _ _ drained live _ _ rooted => rooted.offered live drained) s' done rooted

/-- The event loop of a server without heartbeat, in which nothing else runs. -/
theorem rounds_rooted {current : Int} {events : List Event}
    (done : run (Server.onEvent env) (.start current) events = .ok s) : s.Rooted :=
  run_invariant (fun _ _ _ rooted taken => onEvent_rooted rooted taken) (start_rooted current) done

end Server
end WebsocketProto
