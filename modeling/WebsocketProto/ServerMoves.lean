import WebsocketProto.ServerHandshake

/-! What an event does to the server, told without the timing wheel: the writes of which
every operation consists, for whom they are made, and the cases of one round of the loop. -/
namespace WebsocketProto
open Outcome

/-- A string that user code queues. -/
def Output.ofUser : Output → Bool
  | .frame (.send _) => true
  | _ => false

/-- A change of fields that the event loop does not look at. Behind a read the client may
have begun to wait for the end of its handshake. -/
structure WebsocketClient.Rewrites (obj obj' : WebsocketClient) : Prop where
  sockfd : obj'.sockfd = obj.sockfd
  queue : obj'.sendBufferQueue = obj.sendBufferQueue
  connected : obj'.isConnected = .connected ↔ obj.isConnected = .connected

theorem WebsocketClient.Rewrites.of_state {obj obj' : WebsocketClient}
    (sockfd : obj'.sockfd = obj.sockfd) (queue : obj'.sendBufferQueue = obj.sendBufferQueue)
    (state : obj'.isConnected = obj.isConnected) : obj.Rewrites obj' :=
  ⟨sockfd, queue, by rw [state]⟩

/-- What acts tell about their clients, for one of these. -/
theorem filterMap_actsOf {α : Type} (f : Act → Option (ClientId × α))
    (own : ∀ a d x, f a = some (d, x) → a.client = d) (c : ClientId) (trace : List Act) :
    ((trace.filterMap f).filter fun told => told.1 = c).map Prod.snd =
      (actsOf c trace).filterMap fun a => (f a).map Prod.snd := by
  induction trace with
  | nil => rfl
  | cons a rest ih =>
    rw [actsOf] at ih ⊢
    cases told : f a with
    | none => by_cases mine : a.client = c <;> simpa [told, mine] using ih
    | some pair =>
      obtain ⟨d, x⟩ := pair
      obtain rfl := own a d x told
      by_cases mine : a.client = c <;> simpa [told, mine] using ih

namespace Server
variable {env : Setup} {s s' : Server} {c : ClientId} {obj : WebsocketClient}

/-- The state behind `close_client`, from the one behind the disconnect callback. -/
def deleted (s : Server) (c : ClientId) (wheel : TimeWheel Task) : Server where
  clients := s.clients
  object := s.object
  nextClient := s.nextClient
  wheel := wheel
  trace := s.trace ++ [.deleted c]

/-- The state behind `accept`. -/
def admitted (s : Server) (fd : Nat) : Server where
  clients := Function.update s.clients fd (some s.nextClient)
  object := Function.update s.object s.nextClient (some (.new fd))
  nextClient := s.nextClient + 1
  wheel := s.wheel
  trace := s.trace ++ [.accepted s.nextClient fd, .epollCtl s.nextClient .add]

/-- The state behind the loop over the send queue of a client that stays. -/
def offered (s : Server) (c : ClientId) (obj : WebsocketClient) (drained : Drained) : Server where
  clients := s.clients
  object := Function.update s.object c (some { obj with sendBufferQueue := drained.queue })
  nextClient := s.nextClient
  wheel := s.wheel
  trace := s.trace ++ drained.calls.map (Act.sendCall c) ++ [.epollCtl c (.mod false)]

/-- The state in which the connected callback is called. -/
def connecting (s : Server) (c : ClientId) (obj : WebsocketClient) : Server :=
  (s.put c { obj with isConnected := .connected }).log (.connectedCallback c)

end Server

/-- A relation that does not see the wheel. -/
class Wheelless (R : Server → Server → Prop) : Prop extends IsTrans Server R where
  same (s : Server) : R s s
  rewheel (s : Server) (wheel : TimeWheel Task) : R s { s with wheel := wheel }

/-- What single writes for the client `c` keep: other fields, and a queued string that is
not the user's. -/
class Queues (c : ClientId) (R : Server → Server → Prop) : Prop where
  write {s : Server} {obj obj' : WebsocketClient} (live : s.object c = some obj)
    (rewrites : obj.Rewrites obj') : R s (s.put c obj')
  queue {s : Server} {obj : WebsocketClient} (live : s.object c = some obj) {output : Output}
    (own : output.ofUser = false) : R s (s.sent c obj output)

/-- The end of the client, before and behind the disconnect callback. -/
class Ends (c : ClientId) (R : Server → Server → Prop) : Prop extends Queues c R where
  close {s : Server} {obj : WebsocketClient} (live : s.object c = some obj) :
    R s (s.closing c obj.sockfd)
  deleted {s : Server} (told : .disconnected c ∈ s.trace) : R s (s.log (.deleted c))

/-- What is kept by the disconnect callback of the client. -/
def DisconnectKeeps (env : Setup) (c : ClientId) (R : Server → Server → Prop) : Prop :=
  ∀ s : Server, s.trace.getLast? = some (.disconnected c) → Leads R s (s.callback env)

/-- A read from the client. -/
class Moves (c : ClientId) (R : Server → Server → Prop) : Prop extends Ends c R where
  received {s : Server} {obj : WebsocketClient} (live : s.object c = some obj) (data : Bytes) :
    R s (s.log (.received c data))

namespace Server
variable {env : Setup} {s s' : Server} {c : ClientId} {obj : WebsocketClient} {now : Int}

theorem sendBuffer_cases {output : Output} (done : s.sendBuffer c output = .ok s') :
    ∃ obj, s.object c = some obj ∧ s' = s.sent c obj output := by
  obtain ⟨obj, found, _⟩ := bind_eq_ok.mp done
  have live := get_eq_ok found
  rw [sendBuffer_eq live] at done
  exact ⟨obj, live, (Except.ok.inj done).symm⟩

theorem eraseTask_cases {id : Nat} (done : s.eraseTask id = .ok s') :
    ∃ wheel, s' = { s with wheel := wheel } := by
  rw [eraseTask] at done
  split at done
  · exact ⟨_, (Except.ok.inj done).symm⟩
  · contradiction

theorem eraseIfSet_cases {id : Nat} (done : s.eraseIfSet id = .ok s') :
    ∃ wheel, s' = { s with wheel := wheel } := by
  rw [eraseIfSet] at done
  split at done
  · exact eraseTask_cases done
  · exact ⟨s.wheel, (Except.ok.inj done).symm⟩

theorem addTask_cases {fn : Task} {expire : Int} {circleCount : UInt32} {id : Nat}
    (done : s.addTask now fn expire circleCount = .ok (s', id)) :
    ∃ wheel, s' = { s with wheel := wheel } := by
  rw [addTask] at done
  split at done
  · obtain ⟨rfl, _⟩ := Prod.mk.inj (Except.ok.inj done)
    exact ⟨_, rfl⟩
  · contradiction

theorem closeClient_cases (done : s.closeClient env c = .ok s') :
    ∃ obj s1 wheel, s.object c = some obj ∧
      (s.closing c obj.sockfd).callback env = .ok s1 ∧ s' = s1.deleted c wheel := by
  obtain ⟨obj, found, _⟩ := bind_eq_ok.mp done
  have live := get_eq_ok found
  rw [closeClient_eq live] at done
  obtain ⟨s1, told, done⟩ := bind_eq_ok.mp done
  obtain ⟨s2, first, done⟩ := bind_eq_ok.mp done
  obtain ⟨s3, second, same⟩ := bind_eq_ok.mp done
  obtain ⟨_, rfl⟩ := eraseIfSet_cases first
  obtain ⟨wheel, rfl⟩ := eraseIfSet_cases second
  exact ⟨obj, s1, wheel, live, told, (Except.ok.inj same).symm⟩

theorem closing_told {fd : Nat} {s1 : Server} (told : (s.closing c fd).callback env = .ok s1) :
    Apart c (s.closing c fd) s1 :=
  userActs_apart (Function.update_self ..) _ s1 told

theorem closeClient_gone (done : s.closeClient env c = .ok s') : s'.object c = none := by
  obtain ⟨obj, s1, wheel, _, told, rfl⟩ := closeClient_cases done
  exact (closing_told told).object.trans (Function.update_self ..)

theorem accept_cases {fd : Nat} (done : s.accept env fd = .ok s') :
    fd ≠ env.listenFd ∧ s.clients fd = none ∧ s' = s.admitted fd := by
  rw [accept] at done
  split at done
  · contradiction
  · rename_i free
    obtain ⟨foreign, unknown⟩ := not_or.mp free
    exact ⟨foreign, by simpa using unknown, (Except.ok.inj done).symm⟩

/-- A client that a failed `send` closed is used behind the loop over its queue. -/
theorem onOutput_cases {e : Event} (done : s.onOutput env e c = .ok s') :
    ∃ obj drained, s.object c = some obj ∧ drainQueue obj.sendBufferQueue e.sends = some drained ∧
      drained.closed = false ∧ (s.offered c obj drained).sentCallback env c = .ok s' := by
  obtain ⟨obj, found, done⟩ := bind_eq_ok.mp done
  split at done
  · contradiction
  · rename_i drained offered
    obtain ⟨s1, closedIf, done⟩ := bind_eq_ok.mp done
    obtain ⟨obj1, found1, done⟩ := bind_eq_ok.mp done
    rw [closeIf] at closedIf
    split at closedIf
    · have gone := get_eq_ok found1
      rw [closeClient_gone closedIf] at gone
      contradiction
    · rename_i open_
      cases closedIf
      exact ⟨obj, drained, get_eq_ok found, offered, Bool.eq_false_iff.mpr open_, done⟩

/-- Bytes that arrive together with the end of the stream are decoded for a deleted client. -/
theorem onInput_cases {e : Event} (done : s.onInput env e c = .ok s') :
    ∃ m closed, recvAll e.recvs [] = some (m, closed) ∧
      ((m = [] ∧ closed = true ∧ s.closeClient env c = .ok s') ∨
        (m = [] ∧ closed = false ∧ s' = s) ∨
        (m ≠ [] ∧ closed = false ∧ ∃ ret s1, s.decodeProtoData env e.now c m = .ok (ret, s1) ∧
          ((ret = true ∧ s1.recvCallback env c = .ok s') ∨ (ret = false ∧ s' = s1)))) := by
  rw [onInput] at done
  split at done
  · contradiction
  · rename_i m closed received
    refine ⟨m, closed, received, ?_⟩
    obtain ⟨s1, closedIf, later⟩ := bind_eq_ok.mp done
    cases closed with
    | true =>
      rw [closeIf, if_pos rfl] at closedIf
      split at later
      · rename_i empty
        cases later
        exact Or.inl ⟨empty, rfl, closedIf⟩
      · obtain ⟨result, decoded, _⟩ := bind_eq_ok.mp later
        obtain ⟨obj1, found1, _⟩ := bind_eq_ok.mp decoded
        have gone := get_eq_ok found1
        rw [closeClient_gone closedIf] at gone
        contradiction
    | false =>
      rw [closeIf, if_neg Bool.false_ne_true] at closedIf
      cases closedIf
      split at later
      · rename_i empty
        cases later
        exact Or.inr (Or.inl ⟨empty, rfl, rfl⟩)
      · rename_i full
        obtain ⟨⟨ret, s2⟩, decoded, rest⟩ := bind_eq_ok.mp later
        refine Or.inr (Or.inr ⟨full, rfl, ret, s2, decoded, ?_⟩)
        cases ret with
        | true => exact Or.inl ⟨rfl, rest⟩
        | false =>
          cases rest
          exact Or.inr ⟨rfl, rfl⟩

theorem beginTick_cases (done : s.beginTick env now = .ok s') :
    ∃ wheel, s' = { s with wheel := wheel } := by
  rw [beginTick] at done
  split at done
  · contradiction
  split at done
  · exact ⟨_, (Except.ok.inj done).symm⟩
  · contradiction

theorem fire_cases (done : s.fire env = .ok s') : ∃ wheel, s' = { s with wheel := wheel } ∨
    ∃ task, { s with wheel := wheel }.runTask env task = .ok s' := by
  rw [fire] at done
  split at done
  · contradiction
  split at done
  · contradiction
  · exact ⟨_, Or.inl (Except.ok.inj done).symm⟩
  · rename_i wheel task id last fired
    exact ⟨wheel, Or.inr ⟨task, done⟩⟩

/-- The cases of one round of the loop. -/
inductive Round (env : Setup) (s : Server) (e : Event) : Server → Prop where
  | missed (foreign : e.hup = true ∨ e.input = false ∨ e.fd ≠ env.listenFd)
    (nobody : s.clients e.fd = none) : Round env s e s
  | refused (hup : e.hup = false) (input : e.input = true) (listening : e.fd = env.listenFd)
    (refused : e.accepts = none) : Round env s e s
  | silent (hup : e.hup = false) (input : e.input = false) (output : e.output = false) :
    Round env s e s
  | hangUp (c : ClientId) (s' : Server) (hup : e.hup = true) (known : s.clients e.fd = some c)
    (done : s.closeClient env c = .ok s') : Round env s e s'
  | accepts (fd : Nat) (hup : e.hup = false) (input : e.input = true)
    (listening : e.fd = env.listenFd) (offered : e.accepts = some fd) (foreign : fd ≠ env.listenFd)
    (free : s.clients fd = none) : Round env s e (s.admitted fd)
  | reads (c : ClientId) (s' : Server) (hup : e.hup = false) (input : e.input = true)
    (foreign : e.fd ≠ env.listenFd) (known : s.clients e.fd = some c)
    (done : s.onInput env e c = .ok s') : Round env s e s'
  | writes (c : ClientId) (s' : Server) (hup : e.hup = false) (input : e.input = false)
    (output : e.output = true) (known : s.clients e.fd = some c)
    (done : s.onOutput env e c = .ok s') : Round env s e s'

theorem onEvent_cases {e : Event} (done : s.onEvent env e = .ok s') : Round env s e s' := by
  rw [onEvent] at done
  split at done
  · rename_i hup
    split at done
    · rename_i c known
      exact .hangUp c s' hup known done
    · rename_i nobody
      cases done
      exact .missed (Or.inl hup) nobody
  rename_i calm
  have hup := Bool.eq_false_iff.mpr calm
  split at done
  · rename_i input
    split at done
    · rename_i listening
      split at done
      · rename_i refused
        cases done
        exact .refused hup input listening refused
      · rename_i fd offered
        obtain ⟨foreign, free, rfl⟩ := accept_cases done
        exact .accepts fd hup input listening offered foreign free
    · rename_i foreign
      split at done
      · rename_i nobody
        cases done
        exact .missed (Or.inr (Or.inr foreign)) nobody
      · rename_i c known
        exact .reads c s' hup input foreign known done
  rename_i quiet
  have input := Bool.eq_false_iff.mpr quiet
  split at done
  · rename_i output
    split at done
    · rename_i nobody
      cases done
      exact .missed (Or.inr (Or.inl input)) nobody
    · rename_i c known
      exact .writes c s' hup input output known done
  · rename_i still
    cases done
    exact .silent hup input (Bool.eq_false_iff.mpr still)

end Server

theorem Wheelless.next {R : Server → Server → Prop} [Wheelless R] {s s1 s2 : Server}
    (first : R s s1) (second : R s1 s2) : R s s2 :=
  IsTrans.trans s s1 s2 first second

namespace Queues
open Wheelless
variable {R : Server → Server → Prop} {env : Setup} {s : Server} {c : ClientId} {now : Int}
  [Queues c R]

theorem sendBuffer {output : Output} (own : output.ofUser = false) :
    Leads R s (s.sendBuffer c output) := by
  intro s' done
  obtain ⟨obj, live, rfl⟩ := Server.sendBuffer_cases done
  exact queue live own

variable [Wheelless R]

/-- The client gets other ids of its tasks, behind a change of the wheel. -/
theorem retime {s1 : Server} {obj : WebsocketClient} {wheel : TimeWheel Task}
    (same : s1 = { s with wheel := wheel }) (live : s1.object c = some obj) (expire heartbeat : Nat) :
    R s (s1.put c { obj with timeWheelId := expire, timeWheelHeartbeatId := heartbeat }) := by
  subst same
  exact next (rewheel s wheel) (write live (.of_state rfl rfl rfl))

theorem closeWebsocketClient (flag : CloseFlag) :
    Leads R s (s.closeWebsocketClient env c flag) := by
  refine Leads.bind (R := R) (sendBuffer (c := c) rfl) fun s1 s' done => ?_
  obtain ⟨obj, found, done⟩ := bind_eq_ok.mp done
  split at done
  · obtain ⟨s2, erased, same⟩ := bind_eq_ok.mp done
    obtain ⟨wheel, rfl⟩ := Server.eraseTask_cases erased
    cases same
    have live : { s1 with wheel := wheel }.object c = some obj := Server.get_eq_ok found
    exact retime rfl live obj.timeWheelId 0
  · exact Except.ok.inj done ▸ same s1

theorem addToTimeWheelExpire : Leads R s (s.addToTimeWheelExpire now c) := by
  intro s' done
  obtain ⟨s1, id, obj, added, live, rfl⟩ := Server.addToTimeWheelExpire_adds done
  obtain ⟨wheel, same⟩ := Server.addTask_cases added
  exact retime same live id obj.timeWheelHeartbeatId

theorem addToTimeWheelHeartbeat : Leads R s (s.addToTimeWheelHeartbeat now c) := by
  intro s' done
  obtain ⟨s1, id, obj, added, live, rfl⟩ := Server.addToTimeWheelHeartbeat_adds done
  obtain ⟨wheel, same⟩ := Server.addTask_cases added
  exact retime same live obj.timeWheelId id

theorem removeFromTimeWheel : Leads R s (s.removeFromTimeWheel c) := by
  intro s' done
  obtain ⟨obj, found, done⟩ := bind_eq_ok.mp done
  obtain ⟨s1, erased, same⟩ := bind_eq_ok.mp done
  obtain ⟨wheel, rfl⟩ := Server.eraseTask_cases erased
  cases same
  have live : { s with wheel := wheel }.object c = some obj := Server.get_eq_ok found
  exact retime rfl live 0 obj.timeWheelHeartbeatId

/-- A call that queues nothing of the user's and does not close the client. -/
theorem perform {call : Call} (own : ∀ output, call = .sendWithoutFrame output →
    output.ofUser = false) (open_ : call ≠ .closeClient) :
    Leads R s (s.perform env now c call) := by
  cases call with
  | sendWithoutFrame output => exact sendBuffer (own output rfl)
  | closeWebsocketClient flag => exact closeWebsocketClient flag
  | addToTimeWheelExpire flag => exact addToTimeWheelExpire
  | addToTimeWheelHeartbeat => exact addToTimeWheelHeartbeat
  | removeFromTimeWheel => exact removeFromTimeWheel
  | closeClient => contradiction

end Queues

theorem Wheelless.performAll {R : Server → Server → Prop} [Wheelless R] {env : Setup} {s : Server}
    {c : ClientId} {now : Int} {calls : List Call}
    (each : ∀ call ∈ calls, ∀ s : Server, Leads R s (s.perform env now c call)) :
    Leads R s (Server.performAll env now c calls s) := by
  induction calls generalizing s with
  | nil => exact Leads.ok (same s)
  | cons call rest ih =>
    exact Leads.bind (R := R) (each call List.mem_cons_self s)
      fun s1 => ih fun later member => each later (List.mem_cons_of_mem _ member)

namespace Ends
open Wheelless Queues
variable {R : Server → Server → Prop} {env : Setup} {s : Server} {c : ClientId} {now : Int}
  [Wheelless R] [Ends c R]

theorem closeClient (tells : DisconnectKeeps env c R) : Leads R s (s.closeClient env c) := by
  intro s' done
  obtain ⟨obj, s1, wheel, live, told, rfl⟩ := Server.closeClient_cases done
  have called : R s s1 := by
    refine next (close live) (tells _ ?_ s1 told)
    simp [Server.closing]
  have known : .disconnected c ∈ s1.trace := by
    have mine : .disconnected c ∈ actsOf c s1.trace := by
      rw [(Server.closing_told told).acts]
      simp [Server.closing, actsOf, Act.client]
    exact (List.mem_filter.mp mine).1
  have last : R { s1 with wheel := wheel } (s1.deleted c wheel) :=
    deleted (s := { s1 with wheel := wheel }) known
  exact next called (next (rewheel s1 wheel) last)

theorem performAll {calls : List Call} (tells : DisconnectKeeps env c R)
    (own : ∀ output, .sendWithoutFrame output ∈ calls → output.ofUser = false) :
    Leads R s (Server.performAll env now c calls s) := by
  refine Wheelless.performAll fun call member s => ?_
  by_cases closes : call = .closeClient
  · subst closes
    exact closeClient tells
  · exact perform (fun output same => own output (same ▸ member)) closes

end Ends

namespace Protocol
variable {proto : Protocol} {c c' : WebsocketClient} {data : Bytes} {ret : Bool}
  {calls : List Call}

/-- No read answers with a string of the user's. -/
theorem Answer.own (answer : proto.Answer c c' data ret calls) (output : Output)
    (member : .sendWithoutFrame output ∈ calls) : output.ofUser = false := by
  cases answer with
  | quiet ret => cases member
  | refused flag => simp at member
  | shaken response fresh waits =>
    rcases List.mem_cons.mp member with same | other
    · cases same
      rfl
    · split at other <;> simp at other
  | ponged =>
    cases List.mem_singleton.mp member
    rfl
  | disarmed => simp at member
  | passive begun closing open_ =>
    unfold decodeClose at member
    split at member
    · split at member <;> simp at member
    · simp at member
  | expiring begun closing closed => simp at member

theorem decodeHandshake_state (fresh : c.isConnected = .none)
    (done : proto.decodeHandshake c data = .ok (c', calls)) : c'.isConnected ≠ .connected := by
  cases decodeHandshake_cases done with
  | stays httpHeader calls refuses => simp [fresh]
  | accepts httpHeader wbKey more upgrade connection key frames => simp

theorem decodeProtoData_rewrites (done : proto.decodeProtoData c data = .ok (ret, c', calls)) :
    c.Rewrites c' := by
  obtain ⟨kept, _⟩ := decodeProtoData_answer done
  refine ⟨kept.sockfd, kept.queue, ?_⟩
  by_cases fresh : c.isConnected = .none
  · unfold decodeProtoData at done
    rw [if_pos fresh] at done
    obtain ⟨⟨after, asked⟩, decoded, same⟩ := bind_eq_ok.mp done
    cases same
    have waits := decodeHandshake_state fresh decoded
    simp [fresh, waits]
  · have settled := decodeProtoData_settled fresh done
    rw [settled.isConnected]

end Protocol

/-- What the server does about a read before user code hears of it. -/
theorem Moves.decodeProtoData {R : Server → Server → Prop} {env : Setup} {s s' : Server}
    {c : ClientId} {now : Int} [Wheelless R] [Moves c R] {data : Bytes} {ret : Bool}
    (tells : DisconnectKeeps env c R) (done : s.decodeProtoData env now c data = .ok (ret, s')) :
    R s s' := by
  obtain ⟨obj, found, done⟩ := bind_eq_ok.mp done
  split at done
  · contradiction
  · rename_i ret' obj' calls decoded
    obtain ⟨s1, performed, same⟩ := bind_eq_ok.mp done
    cases same
    obtain ⟨_, answer⟩ := Protocol.decodeProtoData_answer decoded
    have live : s.object c = some obj := Server.get_eq_ok found
    have still : (s.log (.received c data)).object c = some obj := live
    have read : R s ((s.log (.received c data)).put c obj') :=
      Wheelless.next (received live data)
        (Queues.write still (Protocol.decodeProtoData_rewrites decoded))
    exact Wheelless.next read (Ends.performAll (c := c) tells answer.own s' performed)

namespace Moves
open Wheelless
variable {R : Server → Server → Prop} {env : Setup} {s s' : Server} {c : ClientId}
  [Wheelless R] [Moves c R]

/-- A round of the loop for a client that is read from; the user's callbacks are apart. -/
theorem onInput {e : Event} (tells : DisconnectKeeps env c R)
    (told : ∀ s, Leads R s (s.recvCallback env c)) : Leads R s (s.onInput env e c) := by
  intro s' done
  obtain ⟨m, closed, _, ⟨_, _, gone⟩ | ⟨_, _, rfl⟩ | ⟨_, _, ret, s1, decoded, after⟩⟩ :=
    Server.onInput_cases done
  · exact Ends.closeClient (R := R) tells s' gone
  · exact same s'
  · have read : R s s1 := decodeProtoData tells decoded
    rcases after with ⟨_, called⟩ | ⟨_, rfl⟩
    · exact next read (told s1 s' called)
    · exact read

end Moves
end WebsocketProto
