import WebsocketProto.Receiver

/-! How the reads of a connected client relate to the messages that its peer sends: the callback
sees them, however the stream of frames is cut into reads that the server can take. -/
namespace WebsocketProto
open Rfc6455 (Key Frame Opcode encodeAll lengthBytes messages remainder opened Legal)
open Outcome

def he : Frame := ⟨false, .text, some ⟨1, 2, 3, 4⟩, ascii "He"⟩
def llo : Frame := ⟨true, .continuation, some ⟨5, 6, 7, 8⟩, ascii "llo"⟩
def emptyPing : Frame := ⟨true, .ping, some ⟨9, 9, 9, 9⟩, []⟩

/-- What a connected client on its own makes of some reads. -/
def sampleRun (reads : List Bytes) : Option (List Received) :=
  ((Protocol.mk true id).receiveAll .still connectedClient reads).toOption.map Prod.snd

/-- A read that the server takes as its peer means it: control frames only, or fragments up to
the end of a message (up to an empty fragment where the read ends), with control frames behind. -/
inductive Served : List Frame → Prop where
  | control {f more} (kinds : ∀ g ∈ f :: more, g.opcode = .ping ∨ g.opcode = .pong) :
    Served (f :: more)
  | data {f more behind} (fragments : ∀ g ∈ f :: more, g.opcode.isControl = false ∧ Plain g)
    (chain : Chain (encodeAll behind) f more) (control : ∀ g ∈ behind, g.opcode.isControl = true) :
    Served (f :: (more ++ behind))

theorem hello_served : Served [he, llo, emptyPing] := by
  have data : ∀ g ∈ [he, llo], g.opcode.isControl = false ∧ Plain g := by
    simp only [List.mem_cons, List.not_mem_nil, or_false, forall_eq_or_imp, forall_eq]
    exact ⟨⟨rfl, .of_small (by decide)⟩, rfl, .of_small (by decide)⟩
  have hello : Served (he :: ([llo] ++ [emptyPing])) :=
    .data data (.next rfl (.last (Or.inl rfl))) (by decide)
  exact hello

/-- What the fragments of a chain make of an open message. -/
theorem chain_messages {rest : Bytes} {f : Frame} {more : List Frame} (chain : Chain rest f more)
    (data : ∀ g ∈ f :: more, g.opcode.isControl = false) (part : Bytes) :
    let whole := part ++ (f :: more).flatMap Frame.payload
    let final := ((f :: more).getLast (List.cons_ne_nil f more)).fin
    messages part (f :: more) = (if final then [whole] else []) ∧
    remainder part (f :: more) = (if final then [] else whole) := by
  induction chain generalizing part with
  | @last f ends =>
    have kind := data f List.mem_cons_self
    cases fin : f.fin <;> simp [messages, remainder, kind, fin]
  | @next f g more unfinished chain ih =>
    have kind := data f List.mem_cons_self
    have later := ih (fun h member => data h (List.mem_cons_of_mem f member)) (part ++ f.payload)
    simp only [messages, remainder, kind, unfinished, Bool.false_eq_true, ↓reduceIte] at later ⊢
    simpa using later

/-- The open message of the peer is in `decode_buffer_`. -/
structure Receives (c : WebsocketClient) (open_ : Bool) : Prop where
  connected : c.isConnected = .connected
  settled : open_ = false → c.decodeBuffer = []

theorem receive_control_read (proto : Protocol) {c : WebsocketClient} {f : Frame}
    {more : List Frame} (shaken : c.isConnected ≠ .none)
    (kinds : ∀ g ∈ f :: more, g.opcode = .ping ∨ g.opcode = .pong) :
    ∃ c' received, proto.receive c (encodeAll (f :: more)) = .ok (c', received) ∧
      received.message.toList = messages c.decodeBuffer (f :: more) ∧
      c'.decodeBuffer = remainder c.decodeBuffer (f :: more) := by
  have control (g : Frame) (member : g ∈ f :: more) : g.opcode.isControl = true := by
    rcases kinds g member with ping | pong
    · rw [ping]
      rfl
    · rw [pong]
      rfl
  refine ⟨_, _, receive_control proto c f (encodeAll more) shaken (kinds f List.mem_cons_self),
    ?_, ?_⟩
  · exact (Rfc6455.messages_control _ _ control).symm
  · exact (Rfc6455.remainder_control _ _ control).symm

/-- The text of an unfragmented message is accepted. -/
theorem chain_accepted {rest part : Bytes} {f : Frame} {more : List Frame}
    (chain : Chain rest f more) (text : f.opcode = .text → f.fin = true → Utf8Text f.payload)
    (fresh : f.opcode = .text → part = []) :
    verdict f (part ++ (f :: more).flatMap Frame.payload) = .success := by
  apply if_neg
  rintro ⟨kind, fin, refused⟩
  cases chain with
  | last _ =>
    rw [fresh kind, List.flatMap_singleton, List.nil_append,
      validate_text (text kind fin)] at refused
    contradiction
  | next unfinished _ =>
    rw [fin] at unfinished
    contradiction

/-- A read that begins with a chain: its payloads are delivered when its last frame is final. -/
theorem receive_chain (proto : Protocol) {c : WebsocketClient} {f : Frame} {more : List Frame}
    {rest : Bytes} (connected : c.isConnected = .connected) (chain : Chain rest f more)
    (data : f.opcode.isControl = false) (plain : ∀ g ∈ f :: more, Plain g)
    (accepted : verdict f (c.decodeBuffer ++ (f :: more).flatMap Frame.payload) = .success) :
    let whole := c.decodeBuffer ++ (f :: more).flatMap Frame.payload
    let final := ((f :: more).getLast (List.cons_ne_nil f more)).fin
    ∃ c', proto.receive c (encodeAll (f :: more) ++ rest) =
        .ok (c', ⟨if final then some whole else none, []⟩) ∧
      c'.decodeBuffer = if final then [] else whole := by
  obtain ⟨c', done, _, buffer, state, header⟩ := decode_chain c chain plain
  have shaken : c.isConnected ≠ .none := by
    rw [connected]
    decide
  have decoded := decodeProtoData_data proto c f (encodeAll more ++ rest) shaken data
  rw [done, accepted, ok_bind] at decoded
  dsimp only at decoded
  rw [if_neg fun other => other rfl, header accepted] at decoded
  rw [receive_wrapper, Rfc6455.encodeAll_cons, List.append_assoc, decoded]
  cases fin : ((f :: more).getLast (List.cons_ne_nil f more)).fin with
  | true =>
    have final : (WebsocketHeader.ofFrame
        ((f :: more).getLast (List.cons_ne_nil f more))).opcode.fin = true := fin
    rw [final]
    refine ⟨{ c' with decodeBuffer := [] }, ?_, rfl⟩
    rw [← buffer]
    exact congrArg Except.ok (recvWrapper_delivers c' (state.trans connected) [])
  | false =>
    have unfinished : (WebsocketHeader.ofFrame
        ((f :: more).getLast (List.cons_ne_nil f more))).opcode.fin = false := fin
    rw [unfinished]
    exact ⟨c', congrArg Except.ok (recvWrapper_waits c' []), buffer⟩

theorem receive_data_read (proto : Protocol) {c : WebsocketClient} {f : Frame}
    {more behind : List Frame} (connected : c.isConnected = .connected)
    (fragments : ∀ g ∈ f :: more, g.opcode.isControl = false ∧ Plain g)
    (chain : Chain (encodeAll behind) f more) (control : ∀ g ∈ behind, g.opcode.isControl = true)
    (accepted : verdict f (c.decodeBuffer ++ (f :: more).flatMap Frame.payload) = .success) :
    ∃ c' received, proto.receive c (encodeAll (f :: (more ++ behind))) = .ok (c', received) ∧
      received.message.toList = messages c.decodeBuffer (f :: (more ++ behind)) ∧
      c'.decodeBuffer = remainder c.decodeBuffer (f :: (more ++ behind)) := by
  have data (g : Frame) (member : g ∈ f :: more) := (fragments g member).1
  obtain ⟨seen, kept⟩ := chain_messages chain data c.decodeBuffer
  obtain ⟨c', done, buffer⟩ := receive_chain proto connected chain (data f List.mem_cons_self)
    (fun g member => (fragments g member).2) accepted
  rw [← List.cons_append, Rfc6455.encodeAll_append, Rfc6455.messages_append,
    Rfc6455.remainder_append, seen, kept, Rfc6455.messages_control _ _ control,
    Rfc6455.remainder_control _ _ control, done]
  refine ⟨c', _, rfl, ?_, buffer⟩
  cases ((f :: more).getLast (List.cons_ne_nil f more)).fin <;> rfl

theorem receive_served (proto : Protocol) {c : WebsocketClient} {open_ : Bool} {read : List Frame}
    (receives : Receives c open_) (served : Served read) (legal : Legal open_ read)
    (text : ∀ f ∈ read, f.opcode = .text → f.fin = true → Utf8Text f.payload) :
    ∃ c' received, proto.receive c (encodeAll read) = .ok (c', received) ∧
      received.message.toList = messages c.decodeBuffer read ∧
      c'.decodeBuffer = remainder c.decodeBuffer read ∧ Receives c' (opened open_ read) := by
  obtain ⟨connected, settled⟩ := receives
  have shaken : c.isConnected ≠ .none := by
    rw [connected]
    decide
  have served_ : ∃ c' received, proto.receive c (encodeAll read) = .ok (c', received) ∧
      received.message.toList = messages c.decodeBuffer read ∧
      c'.decodeBuffer = remainder c.decodeBuffer read := by
    cases served with
    | control kinds => exact receive_control_read proto shaken kinds
    | @data f more behind fragments chain control =>
      have data := (fragments f List.mem_cons_self).1
      apply receive_data_read proto connected fragments chain control
      apply chain_accepted chain (text f List.mem_cons_self)
      intro kind
      apply settled
      rw [Legal, if_neg (by rw [data]; decide), kind] at legal
      cases open_ with
      | false => rfl
      | true => cases legal.1.mpr rfl
  obtain ⟨c', received, done, seen, kept⟩ := served_
  refine ⟨c', received, done, seen, kept, ?_, fun closed => ?_⟩
  · rw [(receive_settled shaken done).isConnected, connected]
  · rw [kept]
    exact Rfc6455.remainder_closed _ open_ read settled closed

/-- The reads that carry a stream of frames the way the server can take it. -/
structure Admitted (reads : List (List Frame)) : Prop where
  served : ∀ read ∈ reads, Served read
  legal : Legal false reads.flatten
  text : ∀ f ∈ reads.flatten, f.opcode = .text → f.fin = true → Utf8Text f.payload

theorem receiveAll_served (proto : Protocol) (around : Surroundings) (reads : List (List Frame))
    (served : ∀ read ∈ reads, Served read) (c : WebsocketClient) (open_ : Bool)
    (receives : Receives c open_) (legal : Legal open_ reads.flatten)
    (text : ∀ f ∈ reads.flatten, f.opcode = .text → f.fin = true → Utf8Text f.payload) :
    ∃ c' received, proto.receiveAll around c (reads.map encodeAll) = .ok (c', received) ∧
      delivered received = messages c.decodeBuffer reads.flatten := by
  induction reads generalizing c open_ with
  | nil => exact ⟨c, [], rfl, rfl⟩
  | cons read rest ih =>
    rw [List.flatten_cons] at legal text
    rw [Rfc6455.legal_append] at legal
    obtain ⟨c₁, first, done, seen, kept, receives₁⟩ := receive_served proto receives
      (served read List.mem_cons_self) legal.1
      fun f member => text f (List.mem_append_left _ member)
    have next : Receives (around.between (rest.map encodeAll).length c₁) (opened open_ read) := by
      refine ⟨?_, ?_⟩
      · rw [around.isConnected]
        exact receives₁.connected
      · rw [around.decodeBuffer]
        exact receives₁.settled
    obtain ⟨c', later, finished, rest_⟩ := ih
      (fun other member => served other (List.mem_cons_of_mem read member)) _ _ next legal.2
      fun f member => text f (List.mem_append_right _ member)
    refine ⟨c', first :: later, ?_, ?_⟩
    · rw [List.map_cons, Protocol.receiveAll, done, ok_bind]
      dsimp only
      rw [finished]
      rfl
    · rw [around.decodeBuffer, kept] at rest_
      rw [List.flatten_cons, Rfc6455.messages_append, ← rest_, ← seen, delivered,
        List.filterMap_cons]
      cases first.message <;> rfl

/-- The callback sees the messages of the stream, however it is cut into admitted reads. -/
theorem messages_received (proto : Protocol) (around : Surroundings) (c : WebsocketClient)
    (connected : c.isConnected = .connected) (empty : c.decodeBuffer = [])
    (reads : List (List Frame)) (admitted : Admitted reads) :
    ∃ c' received, proto.receiveAll around c (reads.map encodeAll) = .ok (c', received) ∧
      delivered received = messages [] reads.flatten := by
  have received := receiveAll_served proto around reads admitted.served c false
    ⟨connected, fun _ => empty⟩ admitted.legal admitted.text
  rwa [empty] at received

theorem hello_admitted : Admitted [[he, llo, emptyPing], [emptyPing, emptyPing]] := by
  have pings : Served [emptyPing, emptyPing] := .control (by decide)
  refine ⟨?_, ?_, ?_⟩
  · simp only [List.mem_cons, List.not_mem_nil, or_false, forall_eq_or_imp, forall_eq]
    exact ⟨hello_served, pings⟩
  · simp [Legal, he, llo, emptyPing, Opcode.isControl]
  · simp [he, llo, emptyPing]

theorem two_reads_received : ∃ c' received,
    (Protocol.mk true id).receiveAll .still connectedClient
      ([[he, llo, emptyPing], [emptyPing, emptyPing]].map encodeAll) = .ok (c', received) ∧
    delivered received = [ascii "Hello"] :=
  messages_received ⟨true, id⟩ .still connectedClient rfl rfl _ hello_admitted

/-- Two text messages in one read: the second is lost. -/
theorem second_message_lost :
    sampleRun [encodeAll [⟨true, .text, some ⟨1, 2, 3, 4⟩, ascii "a"⟩],
      encodeAll [⟨true, .text, some ⟨1, 2, 3, 4⟩, ascii "b"⟩]] =
      some [⟨some (ascii "a"), []⟩, ⟨some (ascii "b"), []⟩] ∧
    sampleRun [encodeAll [⟨true, .text, some ⟨1, 2, 3, 4⟩, ascii "a"⟩,
      ⟨true, .text, some ⟨1, 2, 3, 4⟩, ascii "b"⟩]] = some [⟨some (ascii "a"), []⟩] := by
  decide +kernel

end WebsocketProto
