import WebsocketProto.Handlers
import WebsocketProto.SendQueue
import WebsocketProto.TimeWheel

/-! The server: the event loop of `Tcp_server::start` over the handlers of
`Websocket_server`, and the tasks that the timing wheel runs. A step is one event of a
batch, a part of a wheel tick, or calls from user code; the results of the system calls
and the clock readings are part of the step. -/
namespace WebsocketProto

/-- A client object; objects are never reused, descriptors are. -/
abbrev ClientId := Nat

/-- The functions of the server's wheel tasks, with the client that each captures. -/
inductive Task where
  | expire (c : ClientId)
  | heartbeat (c : ClientId)
  deriving DecidableEq, Repr

def Task.client : Task → ClientId
  | .expire c | .heartbeat c => c

/-- What user code does with a client. -/
inductive UserAct where
  | send (payload : StdString)
  | close
  deriving DecidableEq

inductive EpollOp where
  | add | del
  | mod (output : Bool)
  deriving DecidableEq, Repr

/-- What happens to a client, in the order of the program. -/
inductive Act where
  | accepted (c : ClientId) (fd : Nat)
  | epollCtl (c : ClientId) (op : EpollOp)
  | received (c : ClientId) (data : Bytes)
  | delivered (c : ClientId) (message : Bytes)
  | queued (c : ClientId) (output : Output)
  | sendCall (c : ClientId) (call : SendCall)
  | connectedCallback (c : ClientId)
  | sentCallback (c : ClientId)
  | closeFd (c : ClientId) (fd : Nat)
  | disconnected (c : ClientId)
  | deleted (c : ClientId)
  deriving DecidableEq

/-- `clients_`, the client objects that are not deleted, the wheel, and the history. -/
structure Server where
  clients : Nat → Option ClientId
  object : ClientId → Option WebsocketClient
  nextClient : ClientId
  wheel : TimeWheel Task
  trace : List Act

/-- Why a step has no result: undefined behaviour (`memory`, `usesFreed`), a lock that
nobody releases (`wheel`), or results that the kernel does not give there. -/
inductive Fault where
  | memory (fault : MemoryFault)
  | usesFreed (c : ClientId)
  | wheel (fault : WheelFault)
  | unfinished | descriptorInUse
  deriving DecidableEq, Repr

/-- What surrounds the server. `stack` is the memory behind the local header of
`close_websocket_client` and `staleFlag` what the expiry task reads through its dangling
reference, both after a number of acts; `user` is what the user's callbacks do. -/
structure Setup where
  proto : Protocol
  listenFd : Nat
  stack : Nat → Bytes
  staleFlag : Nat → CloseFlag
  user : List Act → List (ClientId × UserAct)

inductive RecvResult where
  | returns (data : Bytes)
  | wouldBlock | fails
  deriving DecidableEq, Repr

/-- One entry of the array that `epoll_wait` fills, with the results of the calls that
its handling makes. -/
structure Event where
  fd : Nat
  hup : Bool
  input : Bool
  output : Bool
  accepts : Option Nat
  recvs : List RecvResult
  sends : List SendResult
  now : Int
  deriving DecidableEq, Repr

def defaultExpireTime : Int := 10000
def defaultHeartbeatTime : Int := 3000

namespace Server

def start (current : Int) : Server where
  clients := fun _ => none
  object := fun _ => none
  nextClient := 0
  wheel := .empty current
  trace := []

def log (s : Server) (act : Act) : Server := { s with trace := s.trace ++ [act] }

/-- The object behind a client pointer. -/
def get (s : Server) (c : ClientId) : Except Fault WebsocketClient :=
  match s.object c with
  | some obj => .ok obj
  | none => .error (.usesFreed c)

def put (s : Server) (c : ClientId) (obj : WebsocketClient) : Server :=
  { s with object := Function.update s.object c (some obj) }

/-- `Tcp_server::send_buffer`. -/
def sendBuffer (s : Server) (c : ClientId) (output : Output) : Except Fault Server := do
  let obj ← s.get c
  let s := s.put c { obj with sendBufferQueue := obj.sendBufferQueue ++ [output.bytes] }
  return (s.log (.queued c output)).log (.epollCtl c (.mod true))

def eraseTask (s : Server) (id : Nat) : Except Fault Server :=
  match s.wheel.eraseTask id with
  | .ok (wheel, _) => .ok { s with wheel := wheel }
  | .error fault => .error (.wheel fault)

def addTask (s : Server) (now : Int) (fn : Task) (expire : Int) (circleCount : UInt32) :
    Except Fault (Server × Nat) :=
  match s.wheel.addTask now fn expire circleCount false 0 with
  | .ok (wheel, id) => .ok ({ s with wheel := wheel }, id)
  | .error fault => .error (.wheel fault)

def addToTimeWheelExpire (s : Server) (now : Int) (c : ClientId) : Except Fault Server := do
  let (s, id) ← s.addTask now (.expire c) defaultExpireTime 1
  let obj ← s.get c
  return s.put c { obj with timeWheelId := id }

def addToTimeWheelHeartbeat (s : Server) (now : Int) (c : ClientId) : Except Fault Server := do
  let (s, id) ← s.addTask now (.heartbeat c) defaultHeartbeatTime FULL_CIRCLE
  let obj ← s.get c
  return s.put c { obj with timeWheelHeartbeatId := id }

def removeFromTimeWheel (s : Server) (c : ClientId) : Except Fault Server := do
  let obj ← s.get c
  let s ← s.eraseTask obj.timeWheelId
  return s.put c { obj with timeWheelId := 0 }

def closeWebsocketClient (env : Setup) (s : Server) (c : ClientId) (flag : CloseFlag) :
    Except Fault Server := do
  let s ← s.sendBuffer c (.frame (.closeWebsocketClient (env.stack s.trace.length) flag))
  let obj ← s.get c
  if env.proto.heartbeat = true ∧ obj.timeWheelHeartbeatId ≠ 0 then
    let s ← s.eraseTask obj.timeWheelHeartbeatId
    return s.put c { obj with timeWheelHeartbeatId := 0 }
  else return s

def userAct (env : Setup) (s : Server) (c : ClientId) : UserAct → Except Fault Server
  | .send payload => s.sendBuffer c (.frame (.send payload))
  | .close => s.closeWebsocketClient env c .serverError

/-- Calls of user code. It learns from the disconnect callback which clients are gone and
does not use them. -/
def userActs (env : Setup) : List (ClientId × UserAct) → Server → Except Fault Server
  | [], s => .ok s
  | (c, act) :: rest, s =>
    if (s.object c).isSome then s.userAct env c act >>= userActs env rest
    else userActs env rest s

def callback (env : Setup) (s : Server) : Except Fault Server := userActs env (env.user s.trace) s

def eraseIfSet (s : Server) (id : Nat) : Except Fault Server :=
  if id ≠ 0 then s.eraseTask id else .ok s

/-- `delete client`, with `~websocket_client`. -/
def delete (s : Server) (c : ClientId) (obj : WebsocketClient) : Except Fault Server := do
  let s ← s.eraseIfSet obj.timeWheelId
  let s ← s.eraseIfSet obj.timeWheelHeartbeatId
  return s.log (.deleted c)

/-- `close_client`. The disconnect callback does not use the client that it is told of, so that the
object counts as gone while it runs. -/
def closeClient (env : Setup) (s : Server) (c : ClientId) : Except Fault Server := do
  let obj ← s.get c
  let s := (s.log (.closeFd c obj.sockfd)).log (.epollCtl c .del)
  let s := { s with
    clients := Function.update s.clients obj.sockfd none
    object := Function.update s.object c none }
  let s ← (s.log (.disconnected c)).callback env
  s.delete c obj

def perform (env : Setup) (now : Int) (c : ClientId) (s : Server) : Call → Except Fault Server
  | .sendWithoutFrame output => s.sendBuffer c output
  | .closeWebsocketClient flag => s.closeWebsocketClient env c flag
  | .addToTimeWheelExpire _ => s.addToTimeWheelExpire now c
  | .addToTimeWheelHeartbeat => s.addToTimeWheelHeartbeat now c
  | .removeFromTimeWheel => s.removeFromTimeWheel c
  | .closeClient => s.closeClient env c

def performAll (env : Setup) (now : Int) (c : ClientId) : List Call → Server → Except Fault Server
  | [], s => .ok s
  | call :: rest, s => s.perform env now c call >>= performAll env now c rest

def decodeProtoData (env : Setup) (s : Server) (now : Int) (c : ClientId) (data : Bytes) :
    Except Fault (Bool × Server) := do
  let obj ← s.get c
  match env.proto.decodeProtoData obj data with
  | .error fault => .error (.memory fault)
  | .ok (ret, obj, calls) =>
    let s ← performAll env now c calls ((s.log (.received c data)).put c obj)
    return (ret, s)

/-- The wrapper that `register_recv_callback` installs. -/
def recvCallback (env : Setup) (s : Server) (c : ClientId) : Except Fault Server := do
  let obj ← s.get c
  if obj.isConnected = .connected then
    let s ← (s.log (.delivered c obj.decodeBuffer)).callback env
    let obj ← s.get c
    return s.put c { obj with decodeBuffer := [] }
  else return s

/-- The first half of the wrapper that `register_sent_callback` installs. -/
def connect (env : Setup) (s : Server) (c : ClientId) : Except Fault Server := do
  let obj ← s.get c
  if obj.isConnected = .waitShake then
    ((s.put c { obj with isConnected := .connected }).log (.connectedCallback c)).callback env
  else return s

def sentCallback (env : Setup) (s : Server) (c : ClientId) : Except Fault Server := do
  let s ← s.connect env c
  (s.log (.sentCallback c)).callback env

def accept (s : Server) (env : Setup) (fd : Nat) : Except Fault Server :=
  if fd = env.listenFd ∨ (s.clients fd).isSome then .error .descriptorInUse
  else .ok { s with
    clients := Function.update s.clients fd (some s.nextClient)
    object := Function.update s.object s.nextClient (some (.new fd))
    nextClient := s.nextClient + 1
    trace := s.trace ++ [.accepted s.nextClient fd, .epollCtl s.nextClient .add] }

/-- The bytes that the loop over `recv` collects, and whether it closed the client. An
error other than `EAGAIN` is printed and the loop goes on. -/
def recvAll : List RecvResult → Bytes → Option (Bytes × Bool)
  | [], _ => none
  | .wouldBlock :: _, m => some (m, false)
  | .fails :: rest, m => recvAll rest m
  | .returns data :: rest, m =>
    if data = [] then some (m, true) else recvAll rest (m ++ data)

def closeIf (env : Setup) (s : Server) (c : ClientId) (closed : Bool) : Except Fault Server :=
  if closed then s.closeClient env c else .ok s

def onInput (env : Setup) (s : Server) (e : Event) (c : ClientId) : Except Fault Server :=
  match recvAll e.recvs [] with
  | none => .error .unfinished
  | some (m, closed) => do
    let s ← s.closeIf env c closed
    if m = [] then return s
    let (ret, s) ← s.decodeProtoData env e.now c m
    if ret then s.recvCallback env c else return s

/-- Behind a failed `send` the loop over the queue and the rest of the branch still use
the client that was closed. -/
def onOutput (env : Setup) (s : Server) (e : Event) (c : ClientId) : Except Fault Server := do
  let obj ← s.get c
  match drainQueue obj.sendBufferQueue e.sends with
  | none => .error .unfinished
  | some drained =>
    let s := s.put c { obj with sendBufferQueue := drained.queue }
    let s := { s with trace := s.trace ++ drained.calls.map (Act.sendCall c) }
    let s ← s.closeIf env c drained.closed
    let _ ← s.get c
    (s.log (.epollCtl c (.mod false))).sentCallback env c

/-- One round of the loop over the events. -/
def onEvent (env : Setup) (s : Server) (e : Event) : Except Fault Server :=
  if e.hup then
    match s.clients e.fd with
    | some c => s.closeClient env c
    | none => .ok s
  else if e.input then
    if e.fd = env.listenFd then
      match e.accepts with
      | none => .ok s
      | some fd => s.accept env fd
    else match s.clients e.fd with
      | none => .ok s
      | some c => s.onInput env e c
  else if e.output then
    match s.clients e.fd with
    | none => .ok s
    | some c => s.onOutput env e c
  else .ok s

/-- The wheel's thread only runs when the server was built with heartbeat. -/
def beginTick (env : Setup) (s : Server) (now : Int) : Except Fault Server :=
  if env.proto.heartbeat = false then .error (.wheel .disabled)
  else match s.wheel.beginTick now with
    | .ok wheel => .ok { s with wheel := wheel }
    | .error fault => .error (.wheel fault)

/-- A task's function: the two lambdas of the server. -/
def runTask (env : Setup) (s : Server) : Task → Except Fault Server
  | .expire c => do
    let s ← s.closeWebsocketClient env c (env.staleFlag s.trace.length)
    s.closeClient env c
  | .heartbeat c => s.sendBuffer c (.frame .heartbeatPing)

def fire (env : Setup) (s : Server) : Except Fault Server :=
  if env.proto.heartbeat = false then .error (.wheel .disabled)
  else match s.wheel.fire with
    | .error fault => .error (.wheel fault)
    | .ok (wheel, none) => .ok { s with wheel := wheel }
    | .ok (wheel, some (fn, _, _)) => runTask env { s with wheel := wheel } fn

end Server

inductive Label where
  | event (e : Event)
  | beginTick (now : Int)
  | fire
  | user (acts : List (ClientId × UserAct))

def Server.step (env : Setup) (s : Server) : Label → Except Fault Server
  | .event e => s.onEvent env e
  | .beginTick now => s.beginTick env now
  | .fire => s.fire env
  | .user acts => userActs env acts s

end WebsocketProto
