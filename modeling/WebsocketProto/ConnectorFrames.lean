import WebsocketProto.ChatEcho
import WebsocketProto.Connectors

/-! A connector as a client of the program. Its socket cuts every message into frames of at most
ten bytes, the server puts them together again, and what comes back is shown. -/
namespace WebsocketProto.Rfc6455

/-- The frames of one message, from the opcode of the first one on, when `size` bytes go into each
at most. -/
inductive Pieces (size : Nat) : Opcode → Bytes → List Frame → Prop where
  | last {opcode key payload} (fits : payload.length ≤ size) :
    Pieces size opcode payload [⟨true, opcode, key, payload⟩]
  | next {opcode key payload rest frames} (fits : payload.length ≤ size)
    (more : Pieces size .continuation rest frames) :
    Pieces size opcode (payload ++ rest) (⟨false, opcode, key, payload⟩ :: frames)

/-- A control frame that a peer may send at any place. -/
structure Frame.Control (f : Frame) : Prop where
  opcode : f.opcode.isControl = true
  fin : f.fin = true
  short : f.payload.length ≤ 125

variable {size : Nat} {opcode : Opcode} {message : Bytes} {frames : List Frame}

theorem Pieces.data (pieces : Pieces size opcode message frames) (kind : opcode.isControl = false) :
    ∀ f ∈ frames, f.opcode.isControl = false ∧ f.payload.length ≤ size := by
  induction pieces with
  | last fits =>
    simpa using ⟨kind, fits⟩
  | next fits more ih =>
    rw [List.forall_mem_cons]
    exact ⟨⟨kind, fits⟩, ih rfl⟩

theorem Pieces.whole (pieces : Pieces size opcode message frames) (kind : opcode.isControl = false)
    (part : Bytes) : messages part frames = [part ++ message] ∧ remainder part frames = [] := by
  induction pieces generalizing part with
  | last fits => simp [messages, remainder, kind]
  | @next opcode key payload rest frames fits more ih =>
    obtain ⟨heard, left⟩ := ih rfl (part ++ payload)
    simp [messages, remainder, kind, heard, left]

theorem Pieces.legal (pieces : Pieces size opcode message frames) (kind : opcode.isControl = false)
    (open_ : Bool) (fitting : opcode = .continuation ↔ open_ = true) :
    Legal open_ frames ∧ opened open_ frames = false := by
  induction pieces generalizing open_ with
  | last fits => simp [Legal, opened, kind, fitting]
  | next fits more ih =>
    obtain ⟨legal, closed⟩ := ih rfl true (by simp)
    simp [Legal, opened, kind, fitting, legal, closed]

theorem Pieces.continued (pieces : Pieces size opcode message frames)
    (open_ : opcode = .continuation) : ∀ f ∈ frames, f.opcode = .continuation := by
  induction pieces with
  | last fits => simpa using open_
  | next fits more ih =>
    rw [List.forall_mem_cons]
    exact ⟨open_, ih rfl⟩

/-- A final text frame is a whole message. -/
theorem Pieces.text (pieces : Pieces size opcode message frames) {f : Frame} (member : f ∈ frames)
    (kind : f.opcode = .text) (fin : f.fin = true) : f.payload = message := by
  cases pieces with
  | last fits => rw [List.mem_singleton.mp member]
  | next fits more =>
    rcases List.mem_cons.mp member with rfl | later
    · contradiction
    · rw [more.continued rfl f later] at kind
      contradiction

theorem control_legal (open_ : Bool) (control : ∀ f ∈ frames, f.Control) :
    Legal open_ frames ∧ opened open_ frames = open_ := by
  induction frames with
  | nil => exact ⟨trivial, rfl⟩
  | cons f rest ih =>
    obtain ⟨first, others⟩ := List.forall_mem_cons.mp control
    obtain ⟨legal, same⟩ := ih others
    simp [Legal, opened, first.opcode, first.fin, first.short, legal, same]

end WebsocketProto.Rfc6455

namespace WebsocketProto
open Outcome Rfc6455

/-- The pieces of a message are a chain for the decoder. -/
theorem pieces_chain {size : Nat} {opcode : Opcode} {message : Bytes} {frames : List Frame}
    (pieces : Pieces size opcode message frames) (rest : Bytes) :
    ∃ f more, frames = f :: more ∧ Chain rest f more := by
  induction pieces with
  | last fits => exact ⟨_, [], rfl, .last (Or.inl rfl)⟩
  | next fits more ih =>
    obtain ⟨g, others, rfl, chain⟩ := ih
    exact ⟨_, g :: others, rfl, .next rfl chain⟩

/-- The reads in which the messages of a connector arrive: each in one read, in frames of the size
that `initWebSocket` sets, and the Pong frames of its socket alone or behind a message. -/
inductive Carried : List Bytes → List (List Frame) → Prop where
  | nil : Carried [] []
  | control {messages reads f more} (kinds : ∀ g ∈ f :: more, g.opcode = .ping ∨ g.opcode = .pong)
    (control : ∀ g ∈ f :: more, g.Control) (rest : Carried messages reads) :
    Carried messages ((f :: more) :: reads)
  | message {message messages frames behind reads} (pieces : Pieces 10 .text message frames)
    (control : ∀ g ∈ behind, g.Control) (rest : Carried messages reads) :
    Carried (message :: messages) ((frames ++ behind) :: reads)

theorem Carried.served {lines : List Bytes} {reads : List (List Frame)}
    (carried : Carried lines reads) : ∀ read ∈ reads, Served read := by
  induction carried with
  | nil => exact List.forall_mem_nil _
  | control kinds control rest ih => exact List.forall_mem_cons.mpr ⟨.control kinds, ih⟩
  | @message message messages frames behind reads pieces control rest ih =>
    refine List.forall_mem_cons.mpr ⟨?_, ih⟩
    have data := pieces.data rfl
    obtain ⟨f, more, rfl, chain⟩ := pieces_chain pieces (encodeAll behind)
    refine .data (fun g member => ?_) chain fun g member => (control g member).opcode
    obtain ⟨kind, small⟩ := data g member
    exact ⟨kind, .of_small (Nat.le_trans small (by decide))⟩

theorem Carried.whole {lines : List Bytes} {reads : List (List Frame)}
    (carried : Carried lines reads) :
    Legal false reads.flatten ∧ messages [] reads.flatten = lines := by
  induction carried with
  | nil => exact ⟨trivial, rfl⟩
  | @control messages reads f more kinds control rest ih =>
    obtain ⟨legal, closed⟩ := control_legal false control
    rw [List.flatten_cons, legal_append, closed, messages_append,
      messages_control _ _ fun g member => (control g member).opcode,
      remainder_control _ _ fun g member => (control g member).opcode]
    exact ⟨⟨legal, ih.1⟩, ih.2⟩
  | @message message messages frames behind reads pieces control rest ih =>
    obtain ⟨legal, closed⟩ := pieces.legal rfl false (by simp)
    obtain ⟨legal', closed'⟩ := control_legal false control
    obtain ⟨heard, left⟩ := pieces.whole rfl []
    rw [List.flatten_cons, List.append_assoc, legal_append, closed, legal_append, closed',
      messages_append, heard, left, messages_append,
      messages_control _ _ fun g member => (control g member).opcode,
      remainder_control _ _ fun g member => (control g member).opcode, ih.2]
    exact ⟨⟨legal, legal', ih.1⟩, rfl⟩

theorem Carried.text {lines : List Bytes} {reads : List (List Frame)} (carried : Carried lines reads)
    (valid : ∀ line ∈ lines, Utf8Text line) :
    ∀ f ∈ reads.flatten, f.opcode = .text → f.fin = true → Utf8Text f.payload := by
  intro f member kind fin
  obtain ⟨read, inside, there⟩ := List.mem_flatten.mp member
  induction carried with
  | nil => contradiction
  | control kinds control rest ih =>
    rcases List.mem_cons.mp inside with rfl | later
    · have other := (control f there).opcode
      rw [kind] at other
      contradiction
    · exact ih valid (List.mem_flatten.mpr ⟨read, later, there⟩) later
  | message pieces control rest ih =>
    obtain ⟨first, others⟩ := List.forall_mem_cons.mp valid
    rcases List.mem_cons.mp inside with rfl | later
    · rcases List.mem_append.mp there with piece | last
      · rw [pieces.text piece kind fin]
        exact first
      · have other := (control f last).opcode
        rw [kind] at other
        contradiction
    · exact ih others (List.mem_flatten.mpr ⟨read, later, there⟩) later

theorem Carried.admitted {lines : List Bytes} {reads : List (List Frame)}
    (carried : Carried lines reads) (valid : ∀ line ∈ lines, Utf8Text line) : Admitted reads :=
  ⟨carried.served, carried.whole.1, carried.text valid⟩

end WebsocketProto

namespace WebsocketProto.Connectors
open Outcome Rfc6455
open Broadcast (Sight Ear)

/-- Beside greetings, one hears one's own words. -/
theorem listen_spoken {Text : Type} [DecidableEq Text] (greeting : Text) (sights : List (Sight Text)) :
    (Broadcast.listen greeting sights).heard.filter (· ≠ greeting) =
      (sights.filterMap Sight.spoken).filter (· ≠ greeting) := by
  induction sights using List.reverseRecOn with
  | nil => rfl
  | append_singleton front sight ih =>
    rw [Broadcast.listen, List.foldl_concat, ← Broadcast.listen, List.filterMap_append,
      List.filter_append, ← ih]
    cases sight with
    | enters => simp [Ear.hear, Sight.spoken]
    | greeted =>
      cases inside : (Broadcast.listen greeting front).inside <;>
        simp [Ear.hear, Sight.spoken, inside]
    | speaks m => simp [Ear.hear, Sight.spoken]
    | goes => simp [Ear.hear, Sight.spoken]

def HEARTBEAT : StdString := ⟨ascii "HEARTBEAT", by decide⟩

def protocol : ConnectorType → StdString
  | .TCP => ⟨ascii "tcp", by decide⟩
  | .WEBSOCKET => ⟨ascii "websocket", by decide⟩

/-- The strings of `Connector.h`, `Connector.cpp` and `main.cpp`, as UTF-8. -/
def utf8Words (trimmed : StdString → StdString) (sendError : StdString → StdString → StdString) :
    Words StdString where
  HEARTBEAT := HEARTBEAT
  greeting := helloWorld
  empty := ⟨[], by decide⟩
  trimmed := trimmed
  protocol := protocol
  sendError := sendError

theorem of_bytes (lines : List StdString) :
    (lines.map StdString.bytes).filterMap StdString.of = lines := by
  rw [List.filterMap_map]
  refine (List.filterMap_congr fun line _ => ?_).trans List.filterMap_some
  exact dif_pos line.bound

/-- What the program sends to a client, beside greetings, is what it heard from it. -/
theorem payloads_heard {env : Setup} {walk : Iteration} {current : Int} {events : List Event}
    {s : Server}
    (done : run (Server.onEvent (Main.setup env walk)) (.start current) events = .ok s)
    (c : ClientId) : (s.payloads c).filter (· ≠ helloWorld) =
      ((heardFrom c s.trace).filterMap StdString.of).filter (· ≠ helloWorld) := by
  obtain ⟨room, hosts⟩ := Server.rounds_hosting done
  rw [← hosts.sent, Broadcast.room_heard hosts.ran, listen_spoken, spoken_heard]

/-- A connection of the program with a connector at the other end. The first lines that the connector
wrote have been read by the program, each whole in a read. Of the bytes that the kernel took from
the program the first have come in at the connector, and the texts of the frames that are complete
among them behind the response, the first ones at least, were handed up. -/
structure Wired (env : Setup) (words : Words StdString) (turns : List (Turn StdString))
    (c : ClientId) (acts : List Act) (heard : Nat) (s' : Server) (obj' : WebsocketClient) :
    Prop where
  carried : ∃ reads, readsOf c acts = reads.map encodeAll ∧
    Carried (((Connector.turns words turns).written.take heard).map StdString.bytes) reads
  arrived : ∃ received wbKey, received <+: acceptedBytes c s'.trace ∧
    obj'.httpHeader.lookup (ascii "Sec-WebSocket-Key") = some wbKey ∧
    (turns.filterMap Turn.msg).map StdString.bytes <+: texts (leading (received.drop
      (Protocol.generateWebsocketShakeHandsRes (env.proto.websocketAcceptKey wbKey)).length))

theorem map_bytes_prefix {lines all : List StdString}
    (begins : lines.map StdString.bytes <+: all.map StdString.bytes) :
    lines = all.take lines.length := by
  have injective : Function.Injective StdString.bytes := by
    intro x y same
    cases x
    cases y
    cases same
    rfl
  refine List.map_injective_iff.mpr injective ?_
  rw [List.map_take, ← List.length_map (f := StdString.bytes)]
  exact List.prefix_iff_eq_take.mp begins

/-- The messages that came in are the first ones of those that were sent. -/
theorem Wired.read {env : Setup} {walk : Iteration} {current : Int} {events : List Event}
    {words : Words StdString} {turns : List (Turn StdString)} {c : ClientId} {acts : List Act}
    {heard : Nat} {s' : Server} {obj' : WebsocketClient}
    (wired : Wired env words turns c acts heard s' obj')
    (done : run (Server.onEvent (Main.setup env walk)) (.start current) events = .ok s')
    (live : s'.object c = some obj') (begun : obj'.isConnected ≠ .none)
    (open_ : ∀ output ∈ outputs c s'.trace, output.closes = false)
    (unblocked : Unblocked (sendCalls c s'.trace)) :
    turns.filterMap Turn.msg = (s'.payloads c).take (turns.filterMap Turn.msg).length := by
  obtain ⟨received, wbKey, begins, known, arrived⟩ := wired.arrived
  obtain ⟨wbKey', stream, parsed, known', bytes, parses, read⟩ :=
    Server.client_reads done live begun open_ unblocked
  obtain rfl := Option.some.inj (known.symm.trans known')
  have within : received <+: Protocol.generateWebsocketShakeHandsRes
      (env.proto.websocketAcceptKey wbKey) ++ stream :=
    bytes ▸ begins.trans (List.prefix_append _ _)
  have front := within.drop
    (Protocol.generateWebsocketShakeHandsRes (env.proto.websocketAcceptKey wbKey)).length
  rw [List.drop_left] at front
  have frames := leading_prefix front
  rw [leading_parseFrames parses] at frames
  refine map_bytes_prefix (arrived.trans ?_)
  rw [← read]
  exact (frames.filter _).map _

/-- What was typed at a client of the program is shown there, in its order and as often, except for
what is still under way there or back, and beside greetings; a typed `HEARTBEAT` goes round. -/
theorem connector_served (env : Setup) (walk : Iteration) (current : Int)
    (events later : List Event) (s s' : Server)
    (done : run (Server.onEvent (Main.setup env walk)) (.start current) events = .ok s)
    (done' : run (Server.onEvent (Main.setup env walk)) s later = .ok s') (c : ClientId)
    (obj obj' : WebsocketClient) (live : s.object c = some obj)
    (connected : obj.isConnected = .connected) (empty : obj.decodeBuffer = [])
    (live' : s'.object c = some obj') (silent : heardFrom c s.trace = []) (acts : List Act)
    (added : s'.trace = s.trace ++ acts)
    (open_ : ∀ output ∈ outputs c s'.trace, output.closes = false)
    (unblocked : Unblocked (sendCalls c s'.trace))
    (trimmed : StdString → StdString) (sendError : StdString → StdString → StdString)
    (trims : ∀ text, Utf8Text text.bytes → Utf8Text (trimmed text).bytes)
    (turns : List (Turn StdString))
    (typed : ∀ text, Turn.edits text ∈ turns → Utf8Text text.bytes) (heard : Nat)
    (wired : Wired env (utf8Words trimmed sendError) turns c acts heard s' obj') :
    let words := utf8Words trimmed sendError
    let link : Link StdString := ⟨s'.payloads c, Connector.turns words turns, heard,
      (turns.filterMap Turn.msg).length⟩
    words.HEARTBEAT ∉ link.connector.plainTextEdit ∧
    link.connector.typed.count words.HEARTBEAT = link.down.count words.HEARTBEAT +
      link.up.count words.HEARTBEAT + link.connector.unreturned ∧
    link.connector.typed.filter (fun m => m ≠ words.HEARTBEAT ∧ m ≠ words.greeting) =
      (link.connector.plainTextEdit ++ link.down ++ link.up).filter
        (fun m => m ≠ words.HEARTBEAT ∧ m ≠ words.greeting) := by
  intro words link
  obtain ⟨reads, cut, carried⟩ := wired.carried
  have beat : Utf8Text HEARTBEAT.bytes := ⟨"HEARTBEAT".toList, by decide⟩
  have apart : HEARTBEAT ≠ helloWorld := by decide
  have written := (turns_written words (p := fun m : StdString => Utf8Text m.bytes) beat
    ⟨[], rfl⟩ trims typed).2
  have lines : ∀ line ∈ (link.connector.written.take heard).map StdString.bytes, Utf8Text line := by
    simp only [List.mem_map, forall_exists_index, and_imp, forall_apply_eq_imp_iff₂]
    exact fun m member => written m (List.mem_of_mem_take member)
  have whole : run (Server.onEvent (Main.setup env walk)) (.start current) (events ++ later) =
      .ok s' := run_join done done'
  have steps := done'
  rw [run_rounds] at steps
  have hears := Server.run_hears (Server.rounds_rooted done) live connected live' steps
  have messages := hears.messages empty live' added cut (carried.admitted lines)
  rw [carried.whole.2] at messages
  have echoed := payloads_heard whole c
  rw [added, heardFrom_append, silent, messages, List.nil_append, of_bytes] at echoed
  obtain ⟨connected', _⟩ :=
    Server.stays_echoed done done' live connected empty live' added cut (carried.admitted lines)
  have read := wired.read whole live' (by simp [connected']) open_ unblocked
  have answers : Answers words link.connector (link.sent.take link.read) := by
    rw [← read]
    exact turns_answer turns
  have kept : Kept words link := ⟨answers, echoed⟩
  refine ⟨by simp [answers.shown], kept.typed_count apart, ?_⟩
  rw [List.filter_append, List.filter_append]
  exact kept.typed_eq (by simp)

def longLine : StdString := ⟨ascii "a longer line", by decide⟩

/-- The line in two frames of the size that the socket sets. -/
def longFrames : List Frame :=
  [⟨false, .text, some ⟨1, 2, 3, 4⟩, ascii "a longer l"⟩,
    ⟨true, .continuation, some ⟨5, 6, 7, 8⟩, ascii "ine"⟩]

def longWords : Words StdString := utf8Words id fun _ err => err

def longTurns : List (Turn StdString) :=
  [.shows helloWorld 9, .edits longLine, .clicks 13 ⟨[], by decide⟩, .shows longLine 9]

/-- The line comes in, and the greeting and the line go out. -/
def longEvents : List Event :=
  [⟨5, false, true, false, none, [.returns (encodeAll longFrames), .wouldBlock], [], 0⟩,
    ⟨5, false, false, true, none, [], [.returns 200, .returns 200], 0⟩]

theorem long_line_carried : Carried
    (((Connector.turns longWords longTurns).written.take 1).map StdString.bytes) [longFrames] := by
  have last : Pieces 10 .continuation (ascii "ine")
      [⟨true, .continuation, some ⟨5, 6, 7, 8⟩, ascii "ine"⟩] := .last (by decide)
  have pieces : Pieces 10 .text longLine.bytes longFrames :=
    .next (by decide : (ascii "a longer l").length ≤ 10) last
  exact .message pieces (List.forall_mem_nil _) .nil

/-- A line of thirteen bytes arrives in two frames, comes back in one and is shown. -/
theorem long_line_shown : ∃ s s',
    run (Server.onEvent (Main.setup quietSetup .oldest)) (.start 0) (comes 5) = .ok s ∧
    run (Server.onEvent (Main.setup quietSetup .oldest)) s longEvents = .ok s' ∧
    (Connector.turns longWords longTurns).plainTextEdit = [helloWorld, longLine] ∧
    HEARTBEAT ∉ (Connector.turns longWords longTurns).plainTextEdit := by
  obtain ⟨s, reached, facts⟩ := reaches
    (x := run (Server.onEvent (Main.setup quietSetup .oldest)) (.start 0) (comes 5))
    (f := fun s => ((s.object 0).map fun obj => (obj.isConnected, obj.decodeBuffer),
      readsOf 0 s.trace, heardFrom 0 s.trace)) (b := (some (.connected, []), [handshakeRequest], []))
    (by decide +kernel)
  let key := ascii "dGhlIHNhbXBsZSBub25jZQ=="
  let response := Protocol.generateWebsocketShakeHandsRes (quietSetup.proto.websocketAcceptKey key)
  obtain ⟨s', reached', facts'⟩ := reaches
    (x := run (Server.onEvent (Main.setup quietSetup .oldest)) (.start 0) (comes 5 ++ longEvents))
    (f := fun s => ((s.object 0).map fun obj => obj.httpHeader.lookup (ascii "Sec-WebSocket-Key"),
      readsOf 0 s.trace, (outputs 0 s.trace).any Output.closes ||
        (sendCalls 0 s.trace).any fun call => call.result = .wouldBlock,
      texts (leading ((acceptedBytes 0 s.trace).drop response.length))))
    (b := (some (some key), [handshakeRequest, encodeAll longFrames], false,
      [helloWorld.bytes, longLine.bytes])) (by decide +kernel)
  rw [run_append, reached, ok_bind] at reached'
  obtain ⟨there, facts⟩ := Prod.mk.inj facts
  obtain ⟨read, silent⟩ := Prod.mk.inj facts
  obtain ⟨there', facts'⟩ := Prod.mk.inj facts'
  obtain ⟨read', facts'⟩ := Prod.mk.inj facts'
  obtain ⟨smooth, came⟩ := Prod.mk.inj facts'
  obtain ⟨open_, calls⟩ := Bool.or_eq_false_iff.mp smooth
  obtain ⟨obj, live, state⟩ := Option.map_eq_some_iff.mp there
  obtain ⟨connected, empty⟩ := Prod.mk.inj state
  obtain ⟨obj', live', known⟩ := Option.map_eq_some_iff.mp there'
  have steps := reached'
  rw [run_rounds] at steps
  obtain ⟨acts, added⟩ := Server.run_grows _ s' steps
  have cut : readsOf 0 acts = [longFrames].map encodeAll := by
    rw [← added, readsOf_append, read] at read'
    exact List.append_cancel_left read'
  have unblocked : Unblocked (sendCalls 0 s'.trace) := fun call member blocked =>
    absurd blocked (by simpa using List.any_eq_false.mp calls call member)
  have wired : Wired quietSetup longWords longTurns 0 acts 1 s' obj' :=
    ⟨⟨[longFrames], cut, long_line_carried⟩,
      ⟨_, key, List.prefix_rfl, known, came ▸ List.prefix_rfl⟩⟩
  have valid : ∀ text, Turn.edits text ∈ longTurns → Utf8Text text.bytes := by
    intro text member
    obtain rfl : text = longLine := by simpa [longTurns] using member
    exact ⟨"a longer line".toList, by decide⟩
  exact ⟨s, s', reached, reached', rfl,
    (connector_served quietSetup .oldest 0 (comes 5) longEvents s s' reached reached' 0 obj obj' live
      connected empty live' silent acts added.symm (by simpa using open_) unblocked id
      (fun _ err => err) (fun _ valid => valid) longTurns valid 1 wired).1⟩

end WebsocketProto.Connectors
