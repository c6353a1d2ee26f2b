import Mathlib.Data.Finset.Sort
import WebsocketProto.Broadcast
import WebsocketProto.ServerRounds

/-! The program: a server without heartbeat whose callbacks greet all clients when one connects
and send every message back to where it came from. -/
namespace WebsocketProto
open Outcome Wheelless
open Broadcast (Action)

def helloWorld : StdString := ⟨ascii "hello world", by decide⟩

def StdString.of (bytes : Bytes) : Option StdString :=
  if bound : bytes.length < 2 ^ 63 then some ⟨bytes, bound⟩ else none

/-- What the connected callback and the disconnect callback do with `wb_clients`. -/
def wbClientsNext (clients : Finset ClientId) : Act → Finset ClientId
  | .connectedCallback c => insert c clients
  | .disconnected c => clients.erase c
  | _ => clients

/-- `wb_clients` behind a history. -/
def wbClients (trace : List Act) : Finset ClientId := trace.foldl wbClientsNext ∅

/-- An order in which the `unordered_set` is walked. -/
structure Iteration where
  order : List Act → List ClientId
  nodup : ∀ trace, (order trace).Nodup
  complete : ∀ trace c, c ∈ order trace ↔ c ∈ wbClients trace

namespace Main

/-- What the callbacks send, behind the act that the history ends with. -/
def replies (walk : Iteration) (trace : List Act) : List (ClientId × StdString) :=
  match trace.getLast? with
  | some (.connectedCallback _) => (walk.order trace).map fun v => (v, helloWorld)
  | some (.delivered c message) => (StdString.of message).toList.map fun payload => (c, payload)
  | _ => []

/-- `wb_server` with the callbacks of `main`. -/
def setup (env : Setup) (walk : Iteration) : Setup where
  proto := { env.proto with heartbeat := false }
  listenFd := env.listenFd
  stack := env.stack
  staleFlag := env.staleFlag
  user := fun trace => (replies walk trace).map fun told => (told.1, .send told.2)

end Main

/-- What an act is to the room of all clients. -/
def Act.action : Act → Option (Action ClientId StdString)
  | .connectedCallback c => some (.join c)
  | .delivered c message => (StdString.of message).map (.say c)
  | .disconnected c => some (.leave c)
  | _ => none

/-- A string that user code queues, and for whom. -/
def Act.told : Act → Option (ClientId × StdString)
  | .queued c (.frame (.send payload)) => some (c, payload)
  | _ => none

def roomActions (trace : List Act) : List (Action ClientId StdString) := trace.filterMap Act.action

namespace Server

/-- What user code sent to a client. -/
def payloads (s : Server) (c : ClientId) : List StdString :=
  ((s.trace.filterMap Act.told).filter fun told => told.1 = c).map Prod.snd

def Connected (s : Server) (c : ClientId) : Prop :=
  ∃ obj, s.object c = some obj ∧ obj.isConnected = .connected

/-- The server tells the given strings, and nothing else of it can be seen by the room. -/
structure Tells (told : List (ClientId × StdString)) (s s' : Server) : Prop where
  acts : ∃ acts, s'.trace = s.trace ++ acts ∧ (∀ a ∈ acts, a.action = none) ∧
    acts.filterMap Act.told = told
  connected : ∀ c, s'.Connected c ↔ s.Connected c

/-- The room of all clients whose handshake is done. -/
structure Hosts (s : Server) (room : Broadcast.Room ClientId StdString) : Prop where
  ran : run (Broadcast.Room.step helloWorld) .empty (roomActions s.trace) = .ok room
  members : ∀ c, c ∈ room.members ↔ s.Connected c
  clients : wbClients s.trace = room.members
  sent : ∀ c, room.sent c = s.payloads c

variable {s s' s1 : Server} {c d : ClientId} {obj obj' : WebsocketClient}
  {told : List (ClientId × StdString)} {room : Broadcast.Room ClientId StdString}

theorem Tells.trans {more : List (ClientId × StdString)} (first : Tells told s s1)
    (second : Tells more s1 s') : Tells (told ++ more) s s' := by
  obtain ⟨front, added, silent, tells⟩ := first.acts
  obtain ⟨back, added', silent', tells'⟩ := second.acts
  refine ⟨⟨front ++ back, by simp [added, added'], ?_, by simp [tells, tells']⟩, fun c => ?_⟩
  · simpa only [List.forall_mem_append] using And.intro silent silent'
  · exact (second.connected c).trans (first.connected c)

theorem put_connected (live : s.object c = some obj)
    (same : obj'.isConnected = .connected ↔ obj.isConnected = .connected) (trace : List Act)
    (d : ClientId) : Connected { s with
      object := Function.update s.object c (some obj'), trace := trace } d ↔ s.Connected d := by
  by_cases own : d = c
  · subst own
    simp [Connected, live, same]
  · simp [Connected, Function.update_of_ne own]

/-- An act of a client that stays as far as the room can see. -/
theorem tells_put (live : s.object c = some obj)
    (same : obj'.isConnected = .connected ↔ obj.isConnected = .connected) {acts : List Act}
    (silent : ∀ a ∈ acts, a.action = none) (tells : acts.filterMap Act.told = told) :
    Tells told s { s with
      object := Function.update s.object c (some obj'), trace := s.trace ++ acts } :=
  ⟨⟨acts, rfl, silent, tells⟩, put_connected live same _⟩

theorem tells_same (s : Server) : Tells [] s s :=
  ⟨⟨[], by simp, List.forall_mem_nil _, rfl⟩, fun _ => Iff.rfl⟩

theorem tells_log (s : Server) {a : Act} (silent : a.action = none) (quiet : a.told = none) :
    Tells [] s (s.log a) :=
  ⟨⟨[a], rfl, List.forall_mem_singleton.mpr silent, by simp [quiet]⟩, fun _ => Iff.rfl⟩

theorem tells_sent (live : s.object c = some obj) {output : Output}
    (own : output.ofUser = false) : Tells [] s (s.sent c obj output) := by
  have silent : ∀ a ∈ [Act.queued c output, .epollCtl c (.mod true)], a.action = none := by
    simp [Act.action]
  refine tells_put live (by exact Iff.rfl) silent ?_
  cases output with
  | handshake response => rfl
  | frame op =>
    cases op with
    | send payload => contradiction
    | _ => rfl

theorem tells_send (live : s.object c = some obj) (payload : StdString) :
    Tells [(c, payload)] s (s.sent c obj (.frame (.send payload))) := by
  have silent : ∀ a ∈ [Act.queued c (.frame (.send payload)), .epollCtl c (.mod true)],
      a.action = none := by
    simp [Act.action]
  exact tells_put live (by exact Iff.rfl) silent rfl

/-- Strings for clients that are there; none of the calls is left out. -/
theorem userActs_tells (env : Setup) (live : ∀ t ∈ told, (s.object t.1).isSome)
    (done : userActs env (told.map fun t => (t.1, .send t.2)) s = .ok s') : Tells told s s' := by
  induction told generalizing s with
  | nil =>
    cases done
    exact tells_same _
  | cons t rest ih =>
    have here := live t List.mem_cons_self
    obtain ⟨obj, found⟩ := Option.isSome_iff_exists.mp here
    rw [List.map_cons, userActs, if_pos here, userAct, sendBuffer_eq found, ok_bind] at done
    refine (tells_send found t.2).trans (ih (fun u member => ?_) done)
    by_cases own : u.1 = t.1
    · simp [sent, own]
    · simpa [sent, Function.update_of_ne own] using live u (List.mem_cons_of_mem t member)

theorem wbClients_silent {trace acts : List Act} (silent : ∀ a ∈ acts, a.action = none) :
    wbClients (trace ++ acts) = wbClients trace := by
  rw [wbClients, List.foldl_append]
  induction acts with
  | nil => rfl
  | cons a rest ih =>
    have still (clients : Finset ClientId) : wbClientsNext clients a = clients := by
      have quiet := silent a List.mem_cons_self
      cases a with
      | connectedCallback c | disconnected c => simp [Act.action] at quiet
      | _ => rfl
    rw [List.foldl_cons, still]
    exact ih fun b member => silent b (List.mem_cons_of_mem a member)

theorem roomActions_silent {trace acts : List Act} (silent : ∀ a ∈ acts, a.action = none) :
    roomActions (trace ++ acts) = roomActions trace := by
  have none_ : acts.filterMap Act.action = [] := List.filterMap_eq_nil_iff.mpr silent
  rw [roomActions, List.filterMap_append, none_, List.append_nil]
  rfl

theorem Tells.payloads (tells : Tells told s s') (c : ClientId) :
    s'.payloads c = s.payloads c ++ (told.filter fun t => t.1 = c).map Prod.snd := by
  obtain ⟨acts, added, _, rfl⟩ := tells.acts
  simp [Server.payloads, added]

namespace Hosts

theorem tells (hosts : s.Hosts room) (tells : Tells [] s s') : s'.Hosts room := by
  obtain ⟨acts, added, silent, _⟩ := tells.acts
  refine ⟨?_, fun c => ?_, ?_, fun c => ?_⟩
  · rw [added, roomActions_silent silent]
    exact hosts.ran
  · exact (hosts.members c).trans (tells.connected c).symm
  · rw [added, wbClients_silent silent]
    exact hosts.clients
  · simp [tells.payloads, hosts.sent]

/-- An act that the room takes, and the strings that user code answers with. -/
theorem act (hosts : s.Hosts room) {a : Act} {action : Action ClientId StdString}
    {room' : Broadcast.Room ClientId StdString} (seen : a.action = some action)
    (quiet : a.told = none) (taken : room.step helloWorld action = .ok room')
    (clients : wbClientsNext room.members a = room'.members) (added : s1.trace = s.trace ++ [a])
    (connected : ∀ c, c ∈ room'.members ↔ s1.Connected c) (tells : Tells told s1 s')
    (sent : ∀ c, room'.sent c = room.sent c ++ (told.filter fun t => t.1 = c).map Prod.snd) :
    s'.Hosts room' := by
  obtain ⟨acts, added', silent, _⟩ := tells.acts
  refine ⟨?_, fun c => ?_, ?_, fun c => ?_⟩
  · have last : roomActions (s.trace ++ [a]) = roomActions s.trace ++ [action] := by
      simp [roomActions, seen]
    rw [added', roomActions_silent silent, added, last]
    exact run_snoc.mpr ⟨room, hosts.ran, taken⟩
  · exact (connected c).trans (tells.connected c).symm
  · rw [added', wbClients_silent silent, added, wbClients, List.foldl_append]
    exact (congrArg (wbClientsNext · a) hosts.clients).trans clients
  · have still : s1.payloads c = s.payloads c := by simp [Server.payloads, added, quiet]
    rw [sent, hosts.sent, tells.payloads, still]

end Hosts

/-- There is a room that the server hosts. -/
def Hosting (s : Server) : Prop := ∃ room, s.Hosts room

theorem Hosting.tells (hosting : s.Hosting) (tells : Tells [] s s') : s'.Hosting := by
  obtain ⟨room, hosts⟩ := hosting
  exact ⟨room, hosts.tells tells⟩

theorem start_hosting (current : Int) : (start current).Hosting := by
  refine ⟨.empty, rfl, fun c => ?_, rfl, fun _ => rfl⟩
  simp [Broadcast.Room.empty, Connected, start]

theorem tells_write (live : s.object c = some obj) (rewrites : obj.Rewrites obj') :
    Tells [] s (s.put c obj') :=
  ⟨⟨[], by simp [put], List.forall_mem_nil _, rfl⟩, put_connected live rewrites.connected s.trace⟩

theorem closing_hosting (hosting : s.Hosting) (c : ClientId) (fd : Nat) :
    (s.closing c fd).Hosting := by
  obtain ⟨room, hosts⟩ := hosting
  let front : Server := { s with trace := s.trace ++ [.closeFd c fd, .epollCtl c .del] }
  have begun : front.Hosts room := by
    refine hosts.tells ⟨⟨_, rfl, ?_, rfl⟩, fun _ => Iff.rfl⟩
    simp [Act.action]
  have added : (s.closing c fd).trace = front.trace ++ [.disconnected c] := by
    simp [front, closing]
  have connected (d : ClientId) : d ∈ room.members.erase c ↔ (s.closing c fd).Connected d := by
    by_cases own : d = c
    · simp [own, Connected, closing]
    · simpa [own, Connected, closing, Function.update_of_ne own] using hosts.members d
  refine ⟨_, begun.act (a := .disconnected c) rfl rfl rfl rfl added connected (tells_same _)
    fun d => ?_⟩
  simp

theorem admitted_hosting (hosting : s.Hosting) (rooted : s.Rooted) (fd : Nat) :
    (s.admitted fd).Hosting := by
  refine hosting.tells ⟨⟨_, rfl, by simp [Act.action], rfl⟩, fun d => ?_⟩
  by_cases own : d = s.nextClient
  · have unborn := (rooted.unborn s.nextClient (Nat.le_refl _)).1
    simp [own, Connected, admitted, unborn, WebsocketClient.new]
  · simp [Connected, admitted, Function.update_of_ne own]

theorem offered_hosting (hosting : s.Hosting) (live : s.object c = some obj) (drained : Drained) :
    (s.offered c obj drained).Hosting := by
  have connected : ∀ d, (s.offered c obj drained).Connected d ↔ s.Connected d :=
    put_connected live (by exact Iff.rfl) _
  refine hosting.tells ⟨⟨drained.calls.map (Act.sendCall c) ++ [.epollCtl c (.mod false)], ?_, ?_,
    ?_⟩, connected⟩
  · simp [offered]
  · simp [Act.action, or_imp, forall_and]
  · simp [Act.told]

instance : Wheelless (Keeps Hosting) where
  trans _ _ _ first second hosting := second (first hosting)
  same _ := id
  rewheel s _ hosting := hosting.tells ⟨⟨[], by simp, List.forall_mem_nil _, rfl⟩, fun _ => Iff.rfl⟩

instance (c : ClientId) : Moves c (Keeps Hosting) where
  write live rewrites hosting := hosting.tells (tells_write live rewrites)
  queue live _ own hosting := hosting.tells (tells_sent live own)
  received _ _ hosting := hosting.tells (tells_log _ rfl rfl)
  close _ hosting := closing_hosting hosting c _
  deleted _ hosting := hosting.tells (tells_log _ rfl rfl)

section Callbacks
variable {env : Setup} {walk : Iteration}

theorem callback_eq (env : Setup) (walk : Iteration) (s : Server) :
    s.callback (Main.setup env walk) = userActs (Main.setup env walk)
      ((Main.replies walk s.trace).map fun t => (t.1, .send t.2)) s := rfl

theorem replies_silent {a : Act} (silent : a.action = none) (trace : List Act) :
    Main.replies walk (trace ++ [a]) = [] := by
  rw [Main.replies, List.getLast?_concat]
  cases a with
  | connectedCallback c => simp [Act.action] at silent
  | delivered c message => simpa [Act.action] using silent
  | _ => rfl

/-- The disconnect callback only takes the client out of `wb_clients`. -/
theorem disconnect_silent {R : Server → Server → Prop} [Wheelless R] (c : ClientId) :
    DisconnectKeeps (Main.setup env walk) c R := by
  intro s told
  rw [callback_eq, Main.replies, told]
  exact Leads.ok (same s)

theorem delivered_replies (c : ClientId) (message : Bytes) :
    Main.replies walk (s.log (.delivered c message)).trace =
      (StdString.of message).toList.map fun payload => (c, payload) := by
  simp [Main.replies, log]

/-- A message that was delivered goes back. -/
theorem recvCallback_hosting (hosting : s.Hosting)
    (done : s.recvCallback (Main.setup env walk) c = .ok s') : s'.Hosting := by
  obtain ⟨obj, known, done⟩ := bind_eq_ok.mp done
  have live := get_eq_ok known
  split at done
  · rename_i state
    obtain ⟨s1, called, done⟩ := bind_eq_ok.mp done
    obtain ⟨obj1, known1, same⟩ := bind_eq_ok.mp done
    cases same
    suffices echoed : s1.Hosting from
      echoed.tells (tells_write (get_eq_ok known1) (.of_state rfl rfl rfl))
    rw [callback_eq, delivered_replies] at called
    have told : Tells ((StdString.of obj.decodeBuffer).toList.map fun payload => (c, payload))
        (s.log (.delivered c obj.decodeBuffer)) s1 :=
      userActs_tells (Main.setup env walk) (by simp [log, live]) called
    cases fits : StdString.of obj.decodeBuffer with
    | none =>
      rw [fits] at told
      exact (hosting.tells (tells_log s (by simp [Act.action, fits]) rfl)).tells told
    | some payload =>
      rw [fits] at told
      obtain ⟨room, hosts⟩ := hosting
      have inside : c ∈ room.members := (hosts.members c).mpr ⟨obj, live, state⟩
      have said : (Act.delivered c obj.decodeBuffer).action = some (.say c payload) := by
        simp [Act.action, fits]
      have connected : ∀ d, d ∈ room.members ↔
          (s.log (.delivered c obj.decodeBuffer)).Connected d := hosts.members
      refine ⟨_, hosts.act said rfl (Broadcast.step_say inside payload) rfl rfl connected told
        fun d => ?_⟩
      by_cases own : d = c
      · simp [own]
      · simp [own, Ne.symm own]
  · cases done
    exact hosting

theorem greeting_filter {clients : List ClientId} (nodup : clients.Nodup) (d : ClientId) :
    ((clients.map fun v => (v, helloWorld)).filter fun t => t.1 = d).map Prod.snd =
      if d ∈ clients then [helloWorld] else [] := by
  have ones : clients.filter (fun v => v = d) = if d ∈ clients then [d] else [] := by
    rw [List.filter_eq, nodup.count]
    split <;> rfl
  rw [List.filter_map, List.map_map]
  simp only [Function.comp_def, ones]
  split <;> rfl

/-- Whom the connected callback greets. -/
theorem greeted_clients (hosts : s.Hosts room) (c d : ClientId) (obj : WebsocketClient) :
    d ∈ walk.order (s.connecting c obj).trace ↔ d ∈ insert c room.members := by
  have all : wbClients (s.connecting c obj).trace = insert c room.members := by
    simp [connecting, put, log, wbClients, wbClientsNext, ← hosts.clients]
  rw [walk.complete, all]

theorem connecting_replies (c : ClientId) (obj : WebsocketClient) :
    Main.replies walk (s.connecting c obj).trace =
      (walk.order (s.connecting c obj).trace).map fun v => (v, helloWorld) := by
  simp [Main.replies, connecting, log]

/-- A client that comes in is greeted together with all others. -/
theorem connect_hosting (hosting : s.Hosting)
    (done : s.connect (Main.setup env walk) c = .ok s') : s'.Hosting := by
  obtain ⟨obj, known, done⟩ := bind_eq_ok.mp done
  have live := get_eq_ok known
  split at done
  · rename_i waits
    obtain ⟨room, hosts⟩ := hosting
    have stranger : c ∉ room.members := by
      rw [hosts.members]
      rintro ⟨other, found, connected⟩
      cases live.symm.trans found
      simp [waits] at connected
    have connected (d : ClientId) : d ∈ insert c room.members ↔ (s.connecting c obj).Connected d := by
      by_cases own : d = c
      · simp [own, Connected, connecting, put, log]
      · simpa [own, Connected, connecting, put, log, Function.update_of_ne own] using
          hosts.members d
    have listed (d : ClientId) :
        d ∈ walk.order (s.connecting c obj).trace ↔ d ∈ insert c room.members :=
      greeted_clients hosts c d obj
    have called : (s.connecting c obj).callback (Main.setup env walk) = .ok s' := done
    rw [callback_eq, connecting_replies] at called
    have told : Tells ((walk.order (s.connecting c obj).trace).map fun v => (v, helloWorld))
        (s.connecting c obj) s' := by
      refine userActs_tells (Main.setup env walk) (fun t member => ?_) called
      obtain ⟨v, inside, rfl⟩ := List.mem_map.mp member
      obtain ⟨obj', found, _⟩ := (connected v).mp ((listed v).mp inside)
      simp [found]
    refine ⟨_, hosts.act (a := .connectedCallback c) rfl rfl (Broadcast.step_join stranger) rfl rfl
      connected told fun d => ?_⟩
    rw [greeting_filter (walk.nodup _)]
    by_cases inside : d ∈ insert c room.members
    · simp only [(listed d).mpr inside, inside, ↓reduceIte]
    · have absent : d ∉ walk.order (s.connecting c obj).trace := (listed d).not.mpr inside
      simp only [absent, inside, ↓reduceIte, List.append_nil]
  · cases done
    exact hosting

theorem sentCallback_hosting (hosting : s.Hosting)
    (done : s.sentCallback (Main.setup env walk) c = .ok s') : s'.Hosting := by
  obtain ⟨s1, connected, done⟩ := bind_eq_ok.mp done
  have silent : Main.replies walk (s1.log (.sentCallback c)).trace = [] := replies_silent rfl _
  rw [callback_eq, silent] at done
  have told : Tells [] (s1.log (.sentCallback c)) s' :=
    userActs_tells (Main.setup env walk) (List.forall_mem_nil _) done
  exact ((connect_hosting hosting connected).tells (tells_log s1 rfl rfl)).tells told

theorem onEvent_hosting {e : Event} (hosting : s.Hosting) (rooted : s.Rooted)
    (done : s.onEvent (Main.setup env walk) e = .ok s') : s'.Hosting := by
  cases onEvent_cases done with
  | missed | refused | silent => exact hosting
  | hangUp c _ hup known done =>
    exact Ends.closeClient (R := Keeps Hosting) (disconnect_silent c) s' done hosting
  | accepts fd => exact admitted_hosting hosting rooted fd
  | reads c _ hup input foreign known done =>
    exact Moves.onInput (R := Keeps Hosting) (disconnect_silent c)
      (fun _ _ called hosting => recvCallback_hosting hosting called) s' done hosting
  | writes c _ hup input output known done =>
    obtain ⟨obj, drained, live, _, _, called⟩ := onOutput_cases done
    exact sentCallback_hosting (offered_hosting hosting live drained) called

theorem rounds_hosting {current : Int} {events : List Event}
    (done : run (Server.onEvent (Main.setup env walk)) (.start current) events = .ok s) :
    s.Hosting := by
  have kept (s : Server) (e : Event) (next : Server) (before : s.Rooted ∧ s.Hosting)
      (taken : s.onEvent (Main.setup env walk) e = .ok next) : next.Rooted ∧ next.Hosting :=
    ⟨onEvent_rooted before.1 taken, onEvent_hosting before.2 before.1 taken⟩
  exact (run_invariant kept ⟨start_rooted current, start_hosting current⟩ done).2

end Callbacks
end Server

/-- The clients in the order in which they came. -/
def oldestNext (clients : List ClientId) : Act → List ClientId
  | .connectedCallback c => if c ∈ clients then clients else clients ++ [c]
  | .disconnected c => clients.erase c
  | _ => clients

def oldest (trace : List Act) : List ClientId := trace.foldl oldestNext []

theorem oldest_clients (trace : List Act) (clients : List ClientId) (nodup : clients.Nodup) :
    (trace.foldl oldestNext clients).Nodup ∧
      (trace.foldl oldestNext clients).toFinset = trace.foldl wbClientsNext clients.toFinset := by
  induction trace generalizing clients with
  | nil => exact ⟨nodup, rfl⟩
  | cons a rest ih =>
    suffices next : (oldestNext clients a).Nodup ∧
        (oldestNext clients a).toFinset = wbClientsNext clients.toFinset a by
      rw [List.foldl_cons, List.foldl_cons, ← next.2]
      exact ih _ next.1
    cases a with
    | connectedCallback c =>
      by_cases inside : c ∈ clients
      · simp [oldestNext, wbClientsNext, inside, nodup]
      · have fresh : (clients ++ [c]).Nodup := by
          simpa [List.nodup_append, nodup] using fun d member => ne_of_mem_of_not_mem member inside
        have both : (clients ++ [c]).toFinset = insert c clients.toFinset := by
          ext d
          simp
        simpa [oldestNext, wbClientsNext, inside] using And.intro fresh both
    | disconnected c =>
      refine ⟨nodup.erase c, ?_⟩
      ext d
      simp [oldestNext, wbClientsNext, nodup.mem_erase_iff]
    | _ => exact ⟨nodup, rfl⟩

def Iteration.oldest : Iteration where
  order := WebsocketProto.oldest
  nodup trace := (oldest_clients trace [] List.nodup_nil).1
  complete trace c := by
    rw [← List.mem_toFinset]
    exact iff_of_eq (congrArg (c ∈ ·) (oldest_clients trace [] List.nodup_nil).2)

/-- A client that shakes hands and reads the answer. -/
def comes (fd : Nat) : List Event :=
  [⟨3, false, true, false, some fd, [], [], 0⟩,
    ⟨fd, false, true, false, none, [.returns handshakeRequest, .wouldBlock], [], 0⟩,
    ⟨fd, false, false, true, none, [], [.returns 200], 0⟩]

def speaks (fd : Nat) (text : Bytes) : Event :=
  ⟨fd, false, true, false, none, [.returns (Rfc6455.Frame.encode ⟨true, .text, none, text⟩),
    .wouldBlock], [], 0⟩

def goes (fd : Nat) : Event := ⟨fd, true, false, false, none, [], [], 0⟩

/-- `wb_clients` holds exactly the clients whose handshake is done and which are not deleted. -/
theorem wb_clients_connected (env : Setup) (walk : Iteration) (current : Int)
    (events : List Event) (s : Server)
    (done : run (Server.onEvent (Main.setup env walk)) (.start current) events = .ok s)
    (c : ClientId) : c ∈ wbClients s.trace ↔ s.Connected c := by
  obtain ⟨room, hosts⟩ := Server.rounds_hosting done
  rw [hosts.clients, hosts.members]

/-- Of two clients that come, the first one goes. -/
theorem second_client_stays : ∃ s, run (Server.onEvent (Main.setup quietSetup .oldest)) (.start 0)
    (comes 5 ++ comes 6 ++ [goes 5]) = .ok s ∧ wbClients s.trace = {1} ∧
    (1 ∈ wbClients s.trace ↔ s.Connected 1) := by
  obtain ⟨s, reached, clients⟩ := reaches (x := run (Server.onEvent
    (Main.setup quietSetup .oldest)) (.start 0) (comes 5 ++ comes 6 ++ [goes 5]))
    (f := fun s => wbClients s.trace) (b := {1}) (by decide +kernel)
  exact ⟨s, reached, clients, wb_clients_connected quietSetup .oldest 0 _ s reached 1⟩

/-- The acts of a run are those of a room, which sent everyone what user code sent them. -/
theorem chat_refines_room (env : Setup) (walk : Iteration) (current : Int)
    (events : List Event) (s : Server)
    (done : run (Server.onEvent (Main.setup env walk)) (.start current) events = .ok s) :
    ∃ room, run (Broadcast.Room.step helloWorld) .empty (roomActions s.trace) = .ok room ∧
      (∀ c, c ∈ room.members ↔ s.Connected c) ∧ ∀ c, room.sent c = s.payloads c := by
  obtain ⟨room, hosts⟩ := Server.rounds_hosting done
  exact ⟨room, hosts.ran, hosts.members, hosts.sent⟩

theorem two_clients_hosted : ∃ s, run (Server.onEvent (Main.setup quietSetup .oldest)) (.start 0)
    (comes 5 ++ comes 6 ++ [speaks 5 (ascii "hi")]) = .ok s ∧ s.payloads 0 =
      [helloWorld, helloWorld, ⟨ascii "hi", by decide⟩] ∧
    ∃ room, run (Broadcast.Room.step helloWorld) .empty (roomActions s.trace) = .ok room ∧
      (∀ c, c ∈ room.members ↔ s.Connected c) ∧ ∀ c, room.sent c = s.payloads c := by
  obtain ⟨s, reached, sent⟩ := reaches (x := run (Server.onEvent
    (Main.setup quietSetup .oldest)) (.start 0) (comes 5 ++ comes 6 ++ [speaks 5 (ascii "hi")]))
    (f := fun s => s.payloads 0) (b := [helloWorld, helloWorld, ⟨ascii "hi", by decide⟩])
    (by decide +kernel)
  exact ⟨s, reached, sent, chat_refines_room quietSetup .oldest 0 _ s reached⟩

/-- Nothing that one client says can be told from what another one is sent: two runs that are
the same in the acts of a client, and in how often others came in between, send it the same. -/
theorem chat_keeps_apart (env env' : Setup) (walk walk' : Iteration) (current current' : Int)
    (events events' : List Event) (s s' : Server)
    (done : run (Server.onEvent (Main.setup env walk)) (.start current) events = .ok s)
    (done' : run (Server.onEvent (Main.setup env' walk')) (.start current') events' = .ok s')
    (c : ClientId)
    (same : Broadcast.view c (roomActions s.trace) = Broadcast.view c (roomActions s'.trace)) :
    s.payloads c = s'.payloads c := by
  obtain ⟨room, hosts⟩ := Server.rounds_hosting done
  obtain ⟨room', hosts'⟩ := Server.rounds_hosting done'
  rw [← hosts.sent, ← hosts'.sent, Broadcast.room_heard hosts.ran, Broadcast.room_heard hosts'.ran,
    same]

/-- The first client hears the same whatever the second one says. -/
theorem first_client_hears : ∃ s s', run (Server.onEvent (Main.setup quietSetup .oldest)) (.start 0)
      (comes 5 ++ comes 6 ++ [speaks 6 (ascii "a")]) = .ok s ∧
    run (Server.onEvent (Main.setup quietSetup .oldest)) (.start 0)
      (comes 5 ++ comes 6 ++ [speaks 6 (ascii "b")]) = .ok s' ∧ s.payloads 0 = s'.payloads 0 := by
  let greetings : List (Broadcast.Sight StdString) := [.enters, .greeted]
  obtain ⟨s, reached, seen⟩ := reaches (x := run (Server.onEvent
    (Main.setup quietSetup .oldest)) (.start 0) (comes 5 ++ comes 6 ++ [speaks 6 (ascii "a")]))
    (f := fun s => Broadcast.view 0 (roomActions s.trace)) (b := greetings) (by decide +kernel)
  obtain ⟨s', reached', seen'⟩ := reaches (x := run (Server.onEvent
    (Main.setup quietSetup .oldest)) (.start 0) (comes 5 ++ comes 6 ++ [speaks 6 (ascii "b")]))
    (f := fun s => Broadcast.view 0 (roomActions s.trace)) (b := greetings) (by decide +kernel)
  exact ⟨s, s', reached, reached', chat_keeps_apart quietSetup quietSetup .oldest .oldest 0 0 _ _
    s s' reached reached' 0 (seen.trans seen'.symm)⟩

end WebsocketProto
