import WebsocketProto.Epoll
import WebsocketProto.Server

/-! The base class `Tcp_server` with its batches and its `epoll` instance. A step is the
arrival of a connection, one `epoll_wait`, or one round of the loop over the events. What
`decode_proto_data` and the callbacks call is part of the round, whichever class and user
code they come from. -/
namespace WebsocketProto
open Outcome
open Epoll (Kernel Ready)

/-- `tcp_client`, as far as the event loop uses it. -/
structure TcpClient where
  sockfd : Nat
  sendBufferQueue : List Bytes
  recvBuffer : Bytes
  deriving DecidableEq, Repr

inductive TcpCall where
  | send (data : Bytes)
  | close
  deriving DecidableEq

/-- What becomes of a connection, in the order of the program. -/
inductive TcpAct where
  | accepted (connection : Nat) (c : ClientId) (fd : Nat)
  | entered (c : ClientId) (fd : Nat)
  | added (c : ClientId) (fd : Nat)
  deriving DecidableEq, Repr

/-- `clients_`, the client objects that are not deleted, the kernel, the events of the
batch that are still to come, and two history variables: what `clients_` was when
`epoll_wait` returned, and what became of the connections. -/
structure TcpServer where
  clients : Nat → Option ClientId
  object : ClientId → Option TcpClient
  nextClient : ClientId
  kernel : Kernel
  batch : List Ready
  returned : Nat → Option ClientId
  trace : List TcpAct

/-- Why a step has no result: a deleted object is used, or the step or its results do not
occur there. -/
inductive TcpFault where
  | usesFreed (c : ClientId)
  | impossible
  deriving DecidableEq, Repr

/-- The results of the system calls of one round, and the calls that `decode_proto_data` and the
callbacks make, in their order. -/
structure Handling where
  accepts : Option Nat
  recvs : List RecvResult
  sends : List SendResult
  calls : List (ClientId × TcpCall)
  deriving DecidableEq

inductive TcpLabel where
  | arrive
  | wait (events : List Ready)
  | handle (h : Handling)
  deriving DecidableEq

namespace TcpServer

def start (listenFd : Nat) (opened : Nat → Bool) : TcpServer where
  clients := fun _ => none
  object := fun _ => none
  nextClient := 0
  kernel := ⟨fun fd => fd == listenFd || opened fd, fun _ => none, [], 0, 0⟩
  batch := []
  returned := fun _ => none
  trace := []

def log (s : TcpServer) (act : TcpAct) : TcpServer := { s with trace := s.trace ++ [act] }

def get (s : TcpServer) (c : ClientId) : Except TcpFault TcpClient :=
  match s.object c with
  | some obj => .ok obj
  | none => .error (.usesFreed c)

def put (s : TcpServer) (c : ClientId) (obj : TcpClient) : TcpServer :=
  { s with object := Function.update s.object c (some obj) }

def sendBuffer (s : TcpServer) (c : ClientId) (data : Bytes) : Except TcpFault TcpServer := do
  let obj ← s.get c
  let s := s.put c { obj with sendBufferQueue := obj.sendBufferQueue ++ [data] }
  return { s with kernel := s.kernel.modify obj.sockfd true }

/-- `close_client`. `EPOLL_CTL_DEL` fails behind `close`. What the disconnect callback calls is part
of the round, and the client that is gone is not used there. -/
def closeClient (s : TcpServer) (c : ClientId) : Except TcpFault TcpServer := do
  let obj ← s.get c
  return { s with
    kernel := s.kernel.close obj.sockfd
    clients := Function.update s.clients obj.sockfd none
    object := Function.update s.object c none }

def call (s : TcpServer) (c : ClientId) : TcpCall → Except TcpFault TcpServer
  | .send data => s.sendBuffer c data
  | .close => s.closeClient c

/-- Calls of a callback, which does not use the clients that it knows to be gone. -/
def callAll : List (ClientId × TcpCall) → TcpServer → Except TcpFault TcpServer
  | [], s => .ok s
  | (c, asked) :: rest, s =>
    if (s.object c).isSome then s.call c asked >>= callAll rest else callAll rest s

/-- `clients_.emplace`, which keeps an entry that is there. -/
def emplace (s : TcpServer) (fd : Nat) (c : ClientId) : TcpServer :=
  if (s.clients fd).isSome then s
  else { s with
    clients := Function.update s.clients fd (some c)
    trace := s.trace ++ [.entered c fd] }

def epollAdd (s : TcpServer) (fd : Nat) (c : ClientId) : TcpServer :=
  if s.kernel.isOpen fd = true ∧ s.kernel.interest fd = none then
    { s with kernel := s.kernel.add fd false, trace := s.trace ++ [.added c fd] }
  else s

def allocateClient (s : TcpServer) (kernel : Kernel) (connection fd : Nat) : TcpServer :=
  { s with
    object := Function.update s.object s.nextClient (some ⟨fd, [], []⟩)
    nextClient := s.nextClient + 1
    kernel := kernel
    trace := s.trace ++ [.accepted connection s.nextClient fd] }

/-- The branch of the listening socket: one call of `accept` for each report. -/
def onAccept (s : TcpServer) (h : Handling) : Except TcpFault TcpServer :=
  match h.accepts with
  | none => .ok s
  | some fd =>
    match s.kernel.accept fd with
    | none => .error .impossible
    | some (connection, kernel) => do
      let c := s.nextClient
      let s ← callAll h.calls ((s.allocateClient kernel connection fd).emplace fd c)
      return s.epollAdd fd c

/-- `close_client` of the loop itself, with the calls of the disconnect callback. -/
def disconnect (s : TcpServer) (h : Handling) (c : ClientId) : Except TcpFault TcpServer :=
  s.closeClient c >>= callAll h.calls

def closeIf (s : TcpServer) (h : Handling) (c : ClientId) (closed : Bool) :
    Except TcpFault TcpServer :=
  if closed then s.disconnect h c else .ok s

def onInput (s : TcpServer) (h : Handling) (c : ClientId) : Except TcpFault TcpServer :=
  match Server.recvAll h.recvs [] with
  | none => .error .impossible
  | some (m, closed) => do
    let s ← s.closeIf h c closed
    if m = [] then return s
    let obj ← s.get c
    callAll h.calls (s.put c { obj with recvBuffer := m })

/-- Behind a failed `send` the branch goes on with the client that was closed. -/
def onOutput (s : TcpServer) (h : Handling) (c : ClientId) : Except TcpFault TcpServer := do
  let obj ← s.get c
  match drainQueue obj.sendBufferQueue h.sends with
  | none => .error .impossible
  | some drained =>
    let s ← (s.put c { obj with sendBufferQueue := drained.queue }).closeIf h c drained.closed
    let obj ← s.get c
    callAll h.calls { s with kernel := s.kernel.modify obj.sockfd false }

def onEvent (listenFd : Nat) (s : TcpServer) (e : Ready) (h : Handling) :
    Except TcpFault TcpServer :=
  if e.hup then
    match s.clients e.fd with
    | some c => s.disconnect h c
    | none => .ok s
  else if e.input then
    if e.fd = listenFd then s.onAccept h
    else match s.clients e.fd with
      | none => .ok s
      | some c => s.onInput h c
  else if e.output then
    match s.clients e.fd with
    | none => .ok s
    | some c => s.onOutput h c
  else .ok s

def handle (listenFd : Nat) (s : TcpServer) (h : Handling) : Except TcpFault TcpServer :=
  match s.batch with
  | [] => .error .impossible
  | e :: rest => onEvent listenFd { s with batch := rest } e h

/-- `epoll_wait` is only called when the batch before it is done. -/
def wait (listenFd : Nat) (s : TcpServer) (events : List Ready) : Except TcpFault TcpServer :=
  if s.batch = [] ∧ s.kernel.Returns listenFd events then
    .ok { s with
      kernel := s.kernel.report listenFd events
      batch := events
      returned := s.clients }
  else .error .impossible

def step (listenFd : Nat) (s : TcpServer) : TcpLabel → Except TcpFault TcpServer
  | .arrive => .ok { s with kernel := s.kernel.arrive }
  | .wait events => s.wait listenFd events
  | .handle h => s.handle listenFd h

theorem callAll_invariant {P : TcpServer → Prop} {calls : List (ClientId × TcpCall)}
    {s s' : TcpServer}
    (preserved : ∀ c asked s s', (c, asked) ∈ calls → P s → s.call c asked = .ok s' → P s')
    (initial : P s) (done : callAll calls s = .ok s') : P s' := by
  induction calls generalizing s with
  | nil => exact Except.ok.inj done ▸ initial
  | cons first rest ih =>
    obtain ⟨c, asked⟩ := first
    have later := fun c asked s s' member => preserved c asked s s' (List.mem_cons_of_mem _ member)
    rw [callAll] at done
    split at done
    · obtain ⟨s1, called, after⟩ := bind_eq_ok.mp done
      exact ih later (preserved c asked s s1 List.mem_cons_self initial called) after
    · exact ih later initial done

end TcpServer
end WebsocketProto
