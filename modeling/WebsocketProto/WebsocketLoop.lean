import WebsocketProto.ServerRounds
import WebsocketProto.Simulation
import WebsocketProto.TcpInvariant

/-! `Tcp_server::start` with the virtual functions of `Websocket_server`, over its kernel:
each round of the loop is one of `Tcp_server`, whose calls are those that the websocket
layer and the user's callbacks make. The wheel's thread, which only a server with heartbeat starts,
has no step here. -/
namespace WebsocketProto
open Outcome Wheelless
open Epoll (Kernel Ready)

/-- A system call among the acts, for the descriptors of the clients. `EPOLL_CTL_DEL` fails
behind `close`. -/
def Epoll.Kernel.sees (sockfd : ClientId → Nat) (k : Kernel) : Act → Option Kernel
  | .accepted _ fd => (k.accept fd).map Prod.snd
  | .epollCtl c .add => some (k.add (sockfd c) false)
  | .epollCtl c (.mod output) => some (k.modify (sockfd c) output)
  | .closeFd _ fd => some (k.close fd)
  | _ => some k

/-- The results of the system calls of one round, and its clock reading. -/
structure Results where
  accepts : Option Nat
  recvs : List RecvResult
  sends : List SendResult
  now : Int
  deriving DecidableEq, Repr

inductive LoopLabel where
  | arrive
  | wait (events : List Ready)
  | handle (r : Results)
  deriving DecidableEq

inductive LoopFault where
  | server (fault : Fault)
  | impossible
  deriving DecidableEq

/-- An entry of the batch, with what its handling meets. -/
def Epoll.Ready.event (e : Ready) (r : Results) : Event :=
  ⟨e.fd, e.hup, e.input, e.output, r.accepts, r.recvs, r.sends, r.now⟩

/-- The server with its kernel, the events of the batch that are still to come, and what
`clients_` was when `epoll_wait` returned. -/
structure WebsocketLoop where
  server : Server
  kernel : Kernel
  batch : List Ready
  returned : Nat → Option ClientId

namespace WebsocketLoop

def start (listenFd : Nat) (opened : Nat → Bool) (current : Int) : WebsocketLoop where
  server := .start current
  kernel := ⟨fun fd => fd == listenFd || opened fd, fun _ => none, [], 0, 0⟩
  batch := []
  returned := fun _ => none

/-- `sockfd_` of a client object of the state before a round, or of a new one. -/
def sockfd (before after : Server) (c : ClientId) : Nat :=
  ((before.object c).or (after.object c)).elim 0 WebsocketClient.sockfd

def handle (env : Setup) (l : WebsocketLoop) (r : Results) : Except LoopFault WebsocketLoop :=
  match l.batch with
  | [] => .error .impossible
  | e :: rest => match l.server.onEvent env (e.event r) with
    | .error fault => .error (.server fault)
    | .ok server =>
      match (server.trace.drop l.server.trace.length).foldlM (Kernel.sees (sockfd l.server server))
        l.kernel with
      | none => .error .impossible
      | some kernel => .ok ⟨server, kernel, rest, l.returned⟩

def wait (env : Setup) (l : WebsocketLoop) (events : List Ready) : Except LoopFault WebsocketLoop :=
  if l.batch = [] ∧ l.kernel.Returns env.listenFd events then
    .ok ⟨l.server, l.kernel.report env.listenFd events, events, l.server.clients⟩
  else .error .impossible

def step (env : Setup) (l : WebsocketLoop) : LoopLabel → Except LoopFault WebsocketLoop
  | .arrive => .ok { l with kernel := l.kernel.arrive }
  | .wait events => l.wait env events
  | .handle r => l.handle env r

end WebsocketLoop

/-- The calls of `tcp_client` that the acts stand for. -/
def Act.tcpCall : Act → Option (ClientId × TcpCall)
  | .queued c output => some (c, .send output.bytes)
  | .closeFd c _ => some (c, .close)
  | _ => none

def WebsocketClient.link (obj : WebsocketClient) : Nat × List Bytes :=
  (obj.sockfd, obj.sendBufferQueue)

def TcpClient.link (obj : TcpClient) : Nat × List Bytes := (obj.sockfd, obj.sendBufferQueue)

/-- The same clients, with the same descriptors and send queues. -/
structure Mirrors (s : Server) (t : TcpServer) : Prop where
  clients : t.clients = s.clients
  nextClient : t.nextClient = s.nextClient
  objects : ∀ c, (t.object c).map TcpClient.link = (s.object c).map WebsocketClient.link

namespace Mirrors
variable {s : Server} {t : TcpServer} {c : ClientId} {obj : WebsocketClient}

theorem live (mirrors : Mirrors s t) (found : s.object c = some obj) :
    ∃ other, t.object c = some other ∧ other.sockfd = obj.sockfd ∧
      other.sendBufferQueue = obj.sendBufferQueue := by
  have same := mirrors.objects c
  rw [found] at same
  obtain ⟨other, there, link⟩ := Option.map_eq_some_iff.mp same
  obtain ⟨sockfd, queue⟩ := Prod.mk.inj link
  exact ⟨other, there, sockfd, queue⟩

theorem update (mirrors : Mirrors s t) (c : ClientId) {obj : WebsocketClient} {other : TcpClient}
    (link : other.link = obj.link) (d : ClientId) :
    (Function.update t.object c (some other) d).map TcpClient.link =
      (Function.update s.object c (some obj) d).map WebsocketClient.link := by
  by_cases own : d = c
  · subst own
    simp [link]
  · simpa [Function.update_of_ne own] using mirrors.objects d

end Mirrors

/-- The operation is, below the websocket layer, the calls that its acts stand for. -/
def CallsBelow (sockfd : ClientId → Nat) (s s' : Server) : Prop :=
  (∀ c obj, s.object c = some obj → sockfd c = obj.sockfd) →
    (∀ c obj, s'.object c = some obj → sockfd c = obj.sockfd) ∧
    ∃ acts, s'.trace = s.trace ++ acts ∧ ∀ t, Mirrors s t → ∃ t',
      TcpServer.callAll (acts.filterMap Act.tcpCall) t = .ok t' ∧ Mirrors s' t' ∧
      acts.foldlM (Kernel.sees sockfd) t.kernel = some t'.kernel ∧
      t'.batch = t.batch ∧ t'.returned = t.returned

namespace TcpServer

theorem callAll_append (front back : List (ClientId × TcpCall)) (t : TcpServer) :
    callAll (front ++ back) t = callAll front t >>= callAll back := by
  induction front generalizing t with
  | nil => rfl
  | cons first rest ih =>
    obtain ⟨c, asked⟩ := first
    simp only [List.cons_append, callAll]
    split
    · cases called : t.call c asked with
      | error fault => rfl
      | ok next => exact ih next
    · exact ih t

/-- A single call to a client that is there. -/
theorem callAll_one {t t' : TcpServer} {c : ClientId} {asked : TcpCall} {obj : TcpClient}
    (live : t.object c = some obj) (called : t.call c asked = .ok t') :
    callAll [(c, asked)] t = .ok t' := by
  simp [callAll, live, called]

theorem get_some {t : TcpServer} {c : ClientId} {obj : TcpClient} (live : t.object c = some obj) :
    t.get c = .ok obj := by
  rw [get, live]

end TcpServer

section Writes
variable {sockfd : ClientId → Nat} {s s' : Server} {c : ClientId} {obj : WebsocketClient}

theorem CallsBelow.trans {s1 s2 : Server} (first : CallsBelow sockfd s s1)
    (second : CallsBelow sockfd s1 s2) : CallsBelow sockfd s s2 := by
  intro agrees
  obtain ⟨agrees1, before, added1, calls1⟩ := first agrees
  obtain ⟨agrees2, after, added2, calls2⟩ := second agrees1
  refine ⟨agrees2, before ++ after, by rw [added2, added1, List.append_assoc], fun t mirrors => ?_⟩
  obtain ⟨t1, called1, mirrors1, seen1, batch1, returned1⟩ := calls1 t mirrors
  obtain ⟨t2, called2, mirrors2, seen2, batch2, returned2⟩ := calls2 t1 mirrors1
  refine ⟨t2, ?_, mirrors2, ?_, batch2.trans batch1, returned2.trans returned1⟩
  · rw [List.filterMap_append, TcpServer.callAll_append, called1, ok_bind, called2]
  · rw [List.foldlM_append, seen1]
    exact seen2

/-- Writes that `Tcp_server` knows nothing of. -/
theorem follows_silently {acts : List Act} (clients : s'.clients = s.clients)
    (nextClient : s'.nextClient = s.nextClient)
    (links : ∀ d, (s'.object d).map WebsocketClient.link = (s.object d).map WebsocketClient.link)
    (added : s'.trace = s.trace ++ acts) (silent : ∀ a ∈ acts, a.tcpCall = none)
    (unseen : ∀ a ∈ acts, ∀ k, Kernel.sees sockfd k a = some k) : CallsBelow sockfd s s' := by
  intro agrees
  refine ⟨fun d other found => ?_, acts, added, fun t mirrors => ⟨t, ?_, ?_, ?_, rfl, rfl⟩⟩
  · have same := links d
    rw [found] at same
    obtain ⟨old, live, link⟩ := Option.map_eq_some_iff.mp same.symm
    rw [agrees d old live]
    exact congrArg Prod.fst link
  · rw [List.filterMap_eq_nil_iff.mpr silent]
    rfl
  · exact ⟨mirrors.clients.trans clients.symm, mirrors.nextClient.trans nextClient.symm,
      fun d => (mirrors.objects d).trans (links d).symm⟩
  · clear added silent mirrors
    induction acts with
    | nil => rfl
    | cons a rest ih =>
      rw [List.foldlM_cons, unseen a List.mem_cons_self]
      exact ih fun b member => unseen b (List.mem_cons_of_mem a member)

theorem put_follows (live : s.object c = some obj) {obj' : WebsocketClient}
    (link : obj'.link = obj.link) : CallsBelow sockfd s (s.put c obj') := by
  refine follows_silently rfl rfl (fun d => ?_) (List.append_nil _).symm
    (List.forall_mem_nil _) (List.forall_mem_nil _)
  by_cases own : d = c
  · subst own
    simp [Server.put, live, link]
  · simp [Server.put, Function.update_of_ne own]

theorem log_follows {a : Act} (silent : a.tcpCall = none)
    (unseen : ∀ k, Kernel.sees sockfd k a = some k) : CallsBelow sockfd s (s.log a) :=
  follows_silently rfl rfl (fun _ => rfl) rfl (List.forall_mem_singleton.mpr silent)
    (List.forall_mem_singleton.mpr unseen)

theorem sent_follows (live : s.object c = some obj) (output : Output) :
    CallsBelow sockfd s (s.sent c obj output) := by
  intro agrees
  refine ⟨fun d other found => ?_, [.queued c output, .epollCtl c (.mod true)], rfl,
    fun t mirrors => ?_⟩
  · by_cases own : d = c
    · subst own
      cases (Function.update_self ..).symm.trans found
      exact agrees d obj live
    · exact agrees d other ((Function.update_of_ne own ..).symm.trans found)
  · obtain ⟨other, there, fd, queue⟩ := mirrors.live live
    have called : t.call c (.send output.bytes) = .ok { t.put c { other with
          sendBufferQueue := other.sendBufferQueue ++ [output.bytes] } with
        kernel := t.kernel.modify other.sockfd true } := by
      rw [TcpServer.call, TcpServer.sendBuffer, TcpServer.get_some there]
      rfl
    refine ⟨_, TcpServer.callAll_one there called, ⟨mirrors.clients, mirrors.nextClient, ?_⟩, ?_,
      rfl, rfl⟩
    · exact mirrors.update c (by simp [TcpClient.link, WebsocketClient.link, fd, queue])
    · simp [Kernel.sees, agrees c obj live, fd]

/-- `close_client` in both layers. -/
theorem Mirrors.closing {t : TcpServer} (mirrors : Mirrors s t) (live : s.object c = some obj) :
    t.closeClient c = .ok (t.dropped c obj.sockfd) ∧
      Mirrors (s.closing c obj.sockfd) (t.dropped c obj.sockfd) := by
  obtain ⟨other, there, fd, _⟩ := mirrors.live live
  refine ⟨?_, ?_, mirrors.nextClient, fun d => ?_⟩
  · rw [TcpServer.closeClient, TcpServer.get_some there, ← fd]
    rfl
  · simp [Server.closing, TcpServer.dropped, mirrors.clients]
  · by_cases own : d = c
    · subst own
      simp [Server.closing, TcpServer.dropped]
    · simpa [Server.closing, TcpServer.dropped, Function.update_of_ne own] using mirrors.objects d

theorem closing_follows (live : s.object c = some obj) :
    CallsBelow sockfd s (s.closing c obj.sockfd) := by
  intro agrees
  refine ⟨fun d other found => ?_, [.closeFd c obj.sockfd, .epollCtl c .del, .disconnected c], rfl,
    fun t mirrors => ?_⟩
  · by_cases own : d = c
    · subst own
      simp [Server.closing] at found
    · exact agrees d other ((Function.update_of_ne own ..).symm.trans found)
  · obtain ⟨called, mirrors'⟩ := mirrors.closing live
    obtain ⟨other, there, _⟩ := mirrors.live live
    exact ⟨_, TcpServer.callAll_one there called, mirrors', rfl, rfl, rfl⟩

end Writes

instance (sockfd : ClientId → Nat) : Wheelless (CallsBelow sockfd) where
  trans _ _ _ := CallsBelow.trans
  same _ := follows_silently rfl rfl (fun _ => rfl) (List.append_nil _).symm
    (List.forall_mem_nil _) (List.forall_mem_nil _)
  rewheel _ _ := follows_silently rfl rfl (fun _ => rfl) (List.append_nil _).symm
    (List.forall_mem_nil _) (List.forall_mem_nil _)

instance (sockfd : ClientId → Nat) (c : ClientId) : Moves c (CallsBelow sockfd) where
  write live rewrites := put_follows live (Prod.ext rewrites.sockfd rewrites.queue)
  queue live _ _ := sent_follows live _
  received _ _ := log_follows rfl fun _ => rfl
  close live := closing_follows live
  deleted _ := log_follows rfl fun _ => rfl

instance (sockfd : ClientId → Nat) : Callbacks (CallsBelow sockfd) where
  queues _ := inferInstance
  send live _ := sent_follows live _
  delivered _ _ := log_follows rfl fun _ => rfl
  connects live _ := (put_follows live (by rfl)).trans (log_follows rfl fun _ => rfl)
  sentCallback _ := log_follows rfl fun _ => rfl

end WebsocketProto
