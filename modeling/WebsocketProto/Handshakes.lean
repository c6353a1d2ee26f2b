import WebsocketProto.HttpRequests
import WebsocketProto.HttpSafety
import WebsocketProto.ServerCalls

/-! What decides whether a request opens the connection: the entries of the header map, with those
that earlier requests have left there before its own. -/
namespace WebsocketProto
open Outcome

def entries (header : List (Bytes × Bytes)) (name : Bytes) : Option Bytes := header.lookup name

/-- The key of an acceptable handshake, by the entries of a header map. -/
def handshakeKey (find : Bytes → Option Bytes) : Option Bytes :=
  if find (ascii "Upgrade") = some (ascii "websocket") ∧
      find (ascii "Connection") = some (ascii "Upgrade") then
    find (ascii "Sec-WebSocket-Key")
  else none

/-- The 101 responses among the calls of a handler. -/
def responses (calls : List Call) : List Bytes :=
  calls.filterMap fun
    | .sendWithoutFrame (.handshake response) => some response
    | _ => none

/-- What a handshake request comes to. -/
structure Judged where
  state : ConnectionState
  responses : List Bytes
  path : Bytes
  deriving DecidableEq

namespace Protocol

def judged (proto : Protocol) (c : WebsocketClient) (data : Bytes) : Except MemoryFault Judged := do
  let (_, c, calls) ← proto.decodeProtoData c data
  return ⟨c.isConnected, WebsocketProto.responses calls, c.getPath⟩

def response (proto : Protocol) (key : Bytes) : Bytes :=
  generateWebsocketShakeHandsRes (proto.websocketAcceptKey key)

theorem response_inj (proto : Protocol) (key other : Bytes) :
    proto.response key = proto.response other ↔
      proto.websocketAcceptKey key = proto.websocketAcceptKey other := by
  simp [response, generateWebsocketShakeHandsRes]

theorem websocketShakeHands_eq (proto : Protocol) (c : WebsocketClient) :
    proto.websocketShakeHands c = match handshakeKey (entries c.httpHeader) with
      | some key => (true, { c with isConnected := .waitShake },
          [.sendWithoutFrame (.handshake (proto.response key))])
      | none => (false, c, [.closeWebsocketClient .protocolError]) := by
  unfold websocketShakeHands handshakeKey entries
  dsimp only
  split
  · cases c.httpHeader.lookup (ascii "Sec-WebSocket-Key") <;> rfl
  · rfl

theorem judged_decoded (proto : Protocol) {c : WebsocketClient} (waiting : c.isConnected = .none)
    {data : Bytes} {result : Bool} {header : List (Bytes × Bytes)}
    (done : decodeHttpHeader c.httpHeader data = .ok (result, header)) :
    proto.judged c data = .ok (match (if result then handshakeKey (entries header) else none) with
      | some key => ⟨.waitShake, [proto.response key], (header.lookup (ascii "path")).getD []⟩
      | none => ⟨.none, [], (header.lookup (ascii "path")).getD []⟩) := by
  unfold judged decodeProtoData decodeHandshake
  rw [if_pos waiting, done]
  cases result with
  | false => simp [waiting, responses, WebsocketClient.getPath]
  | true =>
    simp only [ok_bind, pure_ok, websocketShakeHands_eq, Bool.true_eq_false, if_false, if_true]
    cases handshakeKey (entries header) with
    | none => simp [waiting, responses, WebsocketClient.getPath]
    | some key => cases proto.heartbeat <;> simp [responses, WebsocketClient.getPath]

end Protocol

/-- Entries that were there before count before those of a request. -/
def behind (left own : Bytes → Option Bytes) (name : Bytes) : Option Bytes := (left name).or (own name)

theorem lookup_requestEntries (header : List (Bytes × Bytes)) (i : Nat) (word line name : Bytes) :
    (requestEntries header i word line).lookup name =
      (header.lookup name).or ((requestEntries [] i word line).lookup name) := by
  induction line generalizing header i word with
  | nil => simp [requestEntries]
  | cons c line ih =>
    simp only [requestEntries]
    split
    · rw [ih, ih (if i = 0 then emplace [] (ascii "method") word
          else if i = 1 then emplace [] (ascii "path") word else []), ← Option.or_assoc]
      congr 1
      split
      · simp [lookup_emplace]
      · split <;> simp [lookup_emplace]
    · exact ih header i (word ++ [c])

theorem decodeHttpHeader_behind {data : Bytes} {result : Bool} {own : List (Bytes × Bytes)}
    (fresh : decodeHttpHeader [] data = .ok (result, own)) (header : List (Bytes × Bytes)) :
    ∃ after, decodeHttpHeader header data = .ok (result, after) ∧
      entries after = behind (entries header) (entries own) := by
  rcases readable_or_past data with ⟨line, lines, ends, request⟩ | past
  · have stands := stands_charAt [] data []
    simp only [List.nil_append, List.append_nil, List.length_nil] at stands
    have decoded (header : List (Bytes × Bytes)) : decodeHttpHeader header data =
        .ok (ends, emplaceAll (requestEntries header 0 [] line) lines) := by
      have done := decodeHttpHeader_request request stands [] header
      rwa [List.append_nil, ← decodeHttpHeader_eq] at done
    have same := fresh.symm.trans (decoded [])
    simp only [Except.ok.injEq, Prod.mk.injEq] at same
    obtain ⟨rfl, rfl⟩ := same
    refine ⟨_, decoded header, funext fun name => ?_⟩
    simp only [entries, behind, lookup_emplaceAll, lookup_requestEntries header 0 [] line name,
      Option.or_assoc]
  · rw [past] at fresh
    contradiction

def ownHeader (data : Bytes) : List (Bytes × Bytes) :=
  match decodeHttpHeader [] data with
  | .ok (_, header) => header
  | .error _ => []

/-- The entries that earlier requests have left: the first one of a name stays. -/
def leftBehind (reads : List Bytes) (name : Bytes) : Option Bytes :=
  reads.findSome? fun data => entries (ownHeader data) name

theorem decoded_behind {header after : List (Bytes × Bytes)} {data : Bytes} {result : Bool}
    (done : decodeHttpHeader header data = .ok (result, after)) :
    (∃ own, decodeHttpHeader [] data = .ok (result, own)) ∧
      entries after = behind (entries header) (entries (ownHeader data)) := by
  rcases readable_or_past data with readable | past
  · obtain ⟨⟨same, own⟩, fresh⟩ := readable.decodes []
    obtain ⟨after', again, both⟩ := decodeHttpHeader_behind fresh header
    have eq := done.symm.trans again
    simp only [Except.ok.injEq, Prod.mk.injEq] at eq
    obtain ⟨rfl, rfl⟩ := eq
    exact ⟨⟨own, fresh⟩, by simpa [ownHeader, fresh] using both⟩
  · rw [past] at done
    contradiction

theorem leftBehind_cons (data : Bytes) (reads : List Bytes) :
    leftBehind (data :: reads) = behind (entries (ownHeader data)) (leftBehind reads) := by
  funext name
  simp only [leftBehind, behind, List.findSome?_cons]
  cases entries (ownHeader data) name <;> rfl

namespace Protocol
variable {proto : Protocol} {c c' : WebsocketClient} {data : Bytes}

/-- What a read leaves of a client. The calls do not write the header map. -/
def hear (proto : Protocol) (c : WebsocketClient) (data : Bytes) :
    Except MemoryFault WebsocketClient := do
  let (_, c, _) ← proto.decodeProtoData c data
  return c

theorem hear_waiting (heard : proto.hear c data = .ok c') (waiting : c'.isConnected = .none) :
    c.isConnected = .none ∧
      entries c'.httpHeader = behind (entries c.httpHeader) (entries (ownHeader data)) := by
  obtain ⟨⟨ret, after, calls⟩, decoded, done⟩ := bind_eq_ok.mp heard
  obtain rfl := Except.ok.inj done
  have before := (decodeProtoData_answer decoded).1.connected waiting
  unfold decodeProtoData at decoded
  rw [if_pos before] at decoded
  obtain ⟨⟨after, asked⟩, shaking, done⟩ := bind_eq_ok.mp decoded
  obtain ⟨rfl, rfl, rfl⟩ := Except.ok.inj done
  obtain ⟨⟨result, header⟩, parsed, done⟩ := bind_eq_ok.mp shaking
  obtain ⟨⟨own, fresh⟩, entries_⟩ := decoded_behind parsed
  have kept : after.httpHeader = header := by
    cases result with
    | false => simpa using congrArg (·.httpHeader) (Prod.mk.inj (Except.ok.inj done)).1.symm
    | true =>
      simp only [Bool.true_eq_false, if_false, websocketShakeHands_eq] at done
      split at done <;> simpa using congrArg (·.httpHeader) (Prod.mk.inj (Except.ok.inj done)).1.symm
  exact ⟨before, kept ▸ entries_⟩

/-- The header map of a client that still waits holds the entries of all its reads. -/
theorem run_hear {reads : List Bytes} (heard : run proto.hear c reads = .ok c')
    (waiting : c'.isConnected = .none) : c.isConnected = .none ∧
      entries c'.httpHeader = behind (entries c.httpHeader) (leftBehind reads) := by
  induction reads generalizing c with
  | nil =>
    obtain rfl := Except.ok.inj heard
    exact ⟨waiting, funext fun name => by simp [behind, leftBehind]⟩
  | cons data reads ih =>
    obtain ⟨middle, first, later⟩ := bind_eq_ok.mp heard
    obtain ⟨waits, all⟩ := ih later
    obtain ⟨before, now⟩ := hear_waiting first waits
    refine ⟨before, ?_⟩
    simp only [all, now, leftBehind_cons]
    exact funext fun name => by simp [behind, Option.or_assoc]

end Protocol
/-- The entries that earlier requests left agree with a handshake, or they do not complete a
request that is none. -/
def Unspoiled (proto : Protocol) (left own : Bytes → Option Bytes) : Prop :=
  match handshakeKey own with
  | some key =>
    (∀ value, left (ascii "Upgrade") = some value → value = ascii "websocket") ∧
    (∀ value, left (ascii "Connection") = some value → value = ascii "Upgrade") ∧
    ∀ other, left (ascii "Sec-WebSocket-Key") = some other →
      proto.websocketAcceptKey other = proto.websocketAcceptKey key
  | none => handshakeKey (behind left own) = none

theorem or_self_iff {α : Type} (left : Option α) (value : α) :
    left.or (some value) = some value ↔ ∀ other, left = some other → other = value := by
  cases left <;> simp

theorem answers_iff (proto : Protocol) (left own : Bytes → Option Bytes) :
    (handshakeKey (behind left own)).map proto.websocketAcceptKey =
      (handshakeKey own).map proto.websocketAcceptKey ↔ Unspoiled proto left own := by
  unfold Unspoiled
  cases key : handshakeKey own with
  | none => simp
  | some key =>
    unfold handshakeKey at key
    split at key
    · rename_i accepted
      simp only [handshakeKey, behind, accepted.1, accepted.2, key, or_self_iff]
      by_cases agrees : (∀ other, left (ascii "Upgrade") = some other → other = ascii "websocket") ∧
          ∀ other, left (ascii "Connection") = some other → other = ascii "Upgrade"
      · rw [if_pos agrees]
        cases left (ascii "Sec-WebSocket-Key") with
        | none => simpa using agrees
        | some other =>
          simp only [Option.some_or, Option.map_some, Option.some.injEq, forall_eq']
          exact ⟨fun same => ⟨agrees.1, agrees.2, same⟩, fun all => all.2.2⟩
      · rw [if_neg agrees]
        exact iff_of_false (by simp) fun all => agrees ⟨all.1, all.2.1⟩
    · contradiction

/-- For every history of reads on one connection and every request that the parser reads to its
end (`result` says whether up to a blank line). -/
theorem handshake_own_request_iff (proto : Protocol) (sockfd fresh : Nat) {reads : List Bytes}
    {c : WebsocketClient} (heard : run proto.hear (.new sockfd) reads = .ok c)
    (waiting : c.isConnected = .none) {r : Bytes} {result : Bool} {own : List (Bytes × Bytes)}
    (request : decodeHttpHeader [] r = .ok (result, own)) :
    proto.judged c r = proto.judged (.new fresh) r ↔
      (∀ path, leftBehind reads (ascii "path") = some path →
        path = (own.lookup (ascii "path")).getD []) ∧
      (result = true → Unspoiled proto (leftBehind reads) (entries own)) := by
  have waits : (WebsocketClient.new fresh).isConnected = .none := rfl
  have left : entries c.httpHeader = leftBehind reads := by
    rw [(Protocol.run_hear heard waiting).2]
    exact funext fun name => by simp [WebsocketClient.new, entries, behind]
  obtain ⟨after, decoded, both⟩ := decodeHttpHeader_behind request c.httpHeader
  have path : after.lookup (ascii "path") =
      (leftBehind reads (ascii "path")).or (own.lookup (ascii "path")) := by
    rw [← left]
    exact congrFun both (ascii "path")
  rw [proto.judged_decoded waiting decoded, proto.judged_decoded waits request, both, left, path,
    ← answers_iff, Except.ok.injEq]
  have same : (((leftBehind reads (ascii "path")).or (own.lookup (ascii "path"))).getD [] =
      (own.lookup (ascii "path")).getD []) ↔ ∀ path, leftBehind reads (ascii "path") = some path →
        path = (own.lookup (ascii "path")).getD [] := by
    cases leftBehind reads (ascii "path") <;> simp
  rw [← same]
  cases result with
  | false => simp
  | true =>
    cases handshakeKey (behind (leftBehind reads) (entries own)) <;>
      cases handshakeKey (entries own) <;> simp [proto.response_inj, and_comm]

def chatRequest : Bytes := ascii
  "GET /a HTTP/1.1\r\nUpgrade: websocket\r\nConnection: Upgrade\r\nSec-WebSocket-Key: k\r\n\r\n"

def refusedOnce (request : Bytes) : WebsocketClient :=
  { WebsocketClient.new 7 with recvBuffer := request, httpHeader := ownHeader request }

/-- A first request for the same path, with a header that no handshake looks at. -/
theorem host_request_harmless :
    Protocol.judged ⟨true, id⟩ (refusedOnce (ascii "GET /a HTTP/1.1\r\nHost: b\r\n\r\n")) chatRequest =
      Protocol.judged ⟨true, id⟩ (.new 8) chatRequest := by
  have heard : run (Protocol.hear ⟨true, id⟩) (.new 7)
      [ascii "GET /a HTTP/1.1\r\nHost: b\r\n\r\n"] =
        .ok (refusedOnce (ascii "GET /a HTTP/1.1\r\nHost: b\r\n\r\n")) := by decide +kernel
  have request : decodeHttpHeader [] chatRequest = .ok (true, ownHeader chatRequest) := by
    decide +kernel
  refine (handshake_own_request_iff ⟨true, id⟩ 7 8 heard rfl request).mpr ?_
  have path : leftBehind [ascii "GET /a HTTP/1.1\r\nHost: b\r\n\r\n"] (ascii "path") =
      some (ascii "/a") := by decide +kernel
  have own : (ownHeader chatRequest).lookup (ascii "path") = some (ascii "/a") := by decide +kernel
  refine ⟨by simp [path, own], fun _ => ?_⟩
  have key : handshakeKey (entries (ownHeader chatRequest)) = some (ascii "k") := by decide +kernel
  have absent : ∀ name ∈ [ascii "Upgrade", ascii "Connection", ascii "Sec-WebSocket-Key"],
      leftBehind [ascii "GET /a HTTP/1.1\r\nHost: b\r\n\r\n"] name = none := by decide +kernel
  simp only [List.forall_mem_cons] at absent
  simp [Unspoiled, key, absent]

/-- A `Connection: close` that was sent before stands in the way of the handshake. -/
theorem close_request_disturbs : ¬ ∀ (proto : Protocol) (reads : List Bytes) (c : WebsocketClient)
    (r : Bytes) (own : List (Bytes × Bytes)), run proto.hear (.new 7) reads = .ok c →
      c.isConnected = .none → decodeHttpHeader [] r = .ok (true, own) →
      proto.judged c r = proto.judged (.new 7) r := by
  intro same
  have heard : run (Protocol.hear ⟨true, id⟩) (.new 7)
      [ascii "GET / HTTP/1.1\r\nConnection: close\r\n\r\n"] =
        .ok (refusedOnce (ascii "GET / HTTP/1.1\r\nConnection: close\r\n\r\n")) := by decide +kernel
  have request : decodeHttpHeader [] chatRequest = .ok (true, ownHeader chatRequest) := by
    decide +kernel
  have refused : Protocol.judged ⟨true, id⟩
      (refusedOnce (ascii "GET / HTTP/1.1\r\nConnection: close\r\n\r\n")) chatRequest =
        .ok ⟨.none, [], ascii "/"⟩ := by decide +kernel
  have accepted : Protocol.judged ⟨true, id⟩ (.new 7) chatRequest =
      .ok ⟨.waitShake, [Protocol.response ⟨true, id⟩ (ascii "k")], ascii "/a"⟩ := by decide +kernel
  have eq := same ⟨true, id⟩ _ _ _ _ heard rfl request
  rw [refused, accepted] at eq
  simp at eq

end WebsocketProto
