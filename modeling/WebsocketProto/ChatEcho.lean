import WebsocketProto.ChatStream
import WebsocketProto.ServerReceiving

/-! The way of a message through the program and back: from the frames in which a client sends
it, over the reads and the callbacks, to the strings that are queued for the client. -/
namespace WebsocketProto
open Outcome
open Broadcast (Sight view)
open Rfc6455 (Frame encodeAll messages)

/-- What a client says in the room is what the user heard from it. -/
theorem spoken_heard (c : ClientId) (acts : List Act) :
    (view c (roomActions acts)).filterMap Sight.spoken =
      (heardFrom c acts).filterMap StdString.of := by
  induction acts with
  | nil => rfl
  | cons a rest ih =>
    have single : (view c (roomActions [a])).filterMap Sight.spoken =
        (heardFrom c [a]).filterMap StdString.of := by
      by_cases own : a.client = c
      · rw [heardFrom, actsOf_own (List.forall_mem_singleton.mpr own)]
        cases a with
        | delivered d m =>
          cases own
          cases fits : StdString.of m <;>
            simp [roomActions, view, Act.action, fits, Broadcast.Action.seenBy, Sight.spoken,
              Act.client]
        | connectedCallback d | disconnected d =>
          cases own
          simp [roomActions, view, Act.action, Broadcast.Action.seenBy, Sight.spoken, Act.client]
        | _ => rfl
      · have unheard : heardFrom c [a] = [] := by
          rw [heardFrom, actsOf_other (List.forall_mem_singleton.mpr rfl) (Ne.symm own)]
          rfl
        rw [unheard]
        cases a with
        | delivered d m =>
          have other : d ≠ c := own
          cases fits : StdString.of m <;>
            simp [roomActions, view, Act.action, fits, Broadcast.Action.seenBy, other]
        | connectedCallback d | disconnected d =>
          have other : d ≠ c := own
          simp [roomActions, view, Act.action, Broadcast.Action.seenBy, Sight.spoken, other]
        | _ => rfl
    have front : view c (roomActions (a :: rest)) =
        view c (roomActions [a]) ++ view c (roomActions rest) := by
      rw [← List.singleton_append, roomActions, List.filterMap_append, view, List.filterMap_append]
      rfl
    have heard : heardFrom c (a :: rest) = heardFrom c [a] ++ heardFrom c rest := by
      rw [← heardFrom_append]
      rfl
    rw [front, heard, List.filterMap_append, List.filterMap_append, single, ih]

/-- A connected client does not connect a second time. -/
theorem never_enters {env : Setup} {s s' : Server} {c : ClientId} {obj : WebsocketClient}
    {acts : List Act} (ordered : Ordered env s) (ordered' : Ordered env s')
    (live : s.object c = some obj) (connected : obj.isConnected = .connected)
    (added : s'.trace = s.trace ++ acts) : .enters ∉ view c (roomActions acts) := by
  have known := ordered'.known c
  have state := (ordered.live c obj live).1
  rw [added, actsOf_append, shake_append, state, connected] at known
  intro member
  obtain ⟨action, acted, seen⟩ := List.mem_filterMap.mp member
  obtain ⟨a, inside, done⟩ := List.mem_filterMap.mp acted
  have joins : action = .join c := by
    cases action with
    | join d =>
      by_cases own : d = c
      · rw [own]
      · simp [Broadcast.Action.seenBy, own] at seen
    | say d m | leave d => simp [Broadcast.Action.seenBy] at seen
  have connects : a = .connectedCallback c := by
    subst joins
    cases a with
    | connectedCallback d => simpa [Act.action] using done
    | delivered d m => simp [Act.action] at done
    | disconnected d => simp [Act.action] at done
    | _ => contradiction
  have once := connected_once (c := c) known
  refine absurd (List.count_pos_iff.mpr ?_) (Nat.not_lt.mpr (Nat.le_of_eq once))
  exact List.mem_filter.mpr ⟨connects ▸ inside, by simp [Act.client]⟩

/-- What a client that stays connected is sent: a greeting for each one who comes, and what it
says, in the order in which the two happen. -/
theorem Server.Hosts.stays {s s' : Server} {room room' : Broadcast.Room ClientId StdString}
    {c : ClientId} {acts : List Act} (hosts : s.Hosts room) (hosts' : s'.Hosts room')
    (added : s'.trace = s.trace ++ acts) (inside : s.Connected c) (inside' : s'.Connected c)
    (never : .enters ∉ view c (roomActions acts)) :
    .goes ∉ view c (roomActions acts) ∧ s'.payloads c =
      s.payloads c ++ (view c (roomActions acts)).map (Sight.word helloWorld) := by
  have ran : run (Broadcast.Room.step helloWorld) room (roomActions acts) = .ok room' := by
    have whole := hosts'.ran
    rw [added, roomActions, List.filterMap_append] at whole
    have front := hosts.ran
    rw [roomActions] at front
    rwa [run_append, front, ok_bind] at whole
  have ear := Broadcast.run_ear ran c
  have start : (room.ear c).inside = true := by simpa [Broadcast.Room.ear, hosts.members] using inside
  have last : (room'.ear c).inside = true := by
    simpa [Broadcast.Room.ear, hosts'.members] using inside'
  rw [ear] at last
  obtain ⟨absent, heard⟩ := Broadcast.stays_hears never start last
  refine ⟨absent, ?_⟩
  rw [← ear] at heard
  rw [← hosts.sent, ← hosts'.sent]
  exact heard

/-- What a client is sent while it stays connected, by the frames that it sends. -/
theorem Server.stays_echoed {env : Setup} {walk : Iteration} {current : Int}
    {events later : List Event} {s s' : Server}
    (done : run (Server.onEvent (Main.setup env walk)) (.start current) events = .ok s)
    (done' : run (Server.onEvent (Main.setup env walk)) s later = .ok s') {c : ClientId}
    {obj obj' : WebsocketClient} (live : s.object c = some obj)
    (connected : obj.isConnected = .connected) (empty : obj.decodeBuffer = [])
    (live' : s'.object c = some obj') {acts : List Act} (added : s'.trace = s.trace ++ acts)
    {reads : List (List Frame)} (cut : readsOf c acts = reads.map encodeAll)
    (admitted : Admitted reads) :
    obj'.isConnected = .connected ∧ ∃ sights : List (Sight StdString),
      (∀ sight ∈ sights, sight = .greeted ∨ ∃ m, sight = .speaks m) ∧
      sights.filterMap Sight.spoken = (Rfc6455.messages [] reads.flatten).filterMap StdString.of ∧
      s'.payloads c = s.payloads c ++ sights.map (Sight.word helloWorld) := by
  have whole : run (Server.onEvent (Main.setup env walk)) (.start current) (events ++ later) =
      .ok s' := run_join done done'
  obtain ⟨ordered, ⟨room, hosts⟩, _⟩ := Server.rounds_framed done c
  obtain ⟨ordered', ⟨room', hosts'⟩, _⟩ := Server.rounds_framed whole c
  have steps := done'
  rw [run_rounds] at steps
  have hears := Server.run_hears (Server.rounds_rooted done) live connected live' steps
  have heard : heardFrom c acts = Rfc6455.messages [] reads.flatten :=
    hears.messages empty live' added cut admitted
  obtain ⟨_, _, stays⟩ := hears
  have connected' := (stays obj' live').1
  have never := never_enters ordered ordered' live connected added
  obtain ⟨absent, payloads⟩ :=
    hosts.stays hosts' added ⟨obj, live, connected⟩ ⟨obj', live', connected'⟩ never
  refine ⟨connected', view c (roomActions acts), fun sight member => ?_, ?_, payloads⟩
  · cases sight with
    | enters => exact absurd member never
    | goes => exact absurd member absent
    | greeted => exact Or.inl rfl
    | speaks m => exact Or.inr ⟨m, rfl⟩
  · rw [spoken_heard, heard]

/-- From any state of a run of the program in which a client is connected, to any later one in
which it is still there: its own messages come back to it, each once and in order, with a greeting
in between for each other client that connects, and nothing else is sent to it. -/
theorem chat_echoes (env : Setup) (walk : Iteration) (current : Int) (events later : List Event)
    (s s' : Server)
    (done : run (Server.onEvent (Main.setup env walk)) (.start current) events = .ok s)
    (done' : run (Server.onEvent (Main.setup env walk)) s later = .ok s') (c : ClientId)
    (obj obj' : WebsocketClient) (live : s.object c = some obj)
    (connected : obj.isConnected = .connected) (empty : obj.decodeBuffer = [])
    (live' : s'.object c = some obj') (acts : List Act) (added : s'.trace = s.trace ++ acts)
    (reads : List (List Frame)) (cut : readsOf c acts = reads.map encodeAll)
    (admitted : Admitted reads) :
    ∃ sights : List (Sight StdString),
      (∀ sight ∈ sights, sight = .greeted ∨ ∃ m, sight = .speaks m) ∧
      sights.filterMap Sight.spoken = (messages [] reads.flatten).filterMap StdString.of ∧
      s'.payloads c = s.payloads c ++ sights.map (Sight.word helloWorld) :=
  (Server.stays_echoed done done' live connected empty live' added cut admitted).2

/-- From frame to frame: when no Close was queued and no send blocked, the texts in the bytes for a
client are those of before, then its own messages, with greetings in between. -/
theorem chat_returns (env : Setup) (walk : Iteration) (current : Int) (events later : List Event)
    (s s' : Server)
    (done : run (Server.onEvent (Main.setup env walk)) (.start current) events = .ok s)
    (done' : run (Server.onEvent (Main.setup env walk)) s later = .ok s') (c : ClientId)
    (obj obj' : WebsocketClient) (live : s.object c = some obj)
    (connected : obj.isConnected = .connected) (empty : obj.decodeBuffer = [])
    (live' : s'.object c = some obj') (acts : List Act) (added : s'.trace = s.trace ++ acts)
    (reads : List (List Frame)) (cut : readsOf c acts = reads.map encodeAll)
    (admitted : Admitted reads) (open_ : ∀ output ∈ outputs c s'.trace, output.closes = false)
    (unblocked : Unblocked (sendCalls c s'.trace)) :
    ∃ wbKey stream parsed, ∃ sights : List (Sight StdString),
      obj'.httpHeader.lookup (ascii "Sec-WebSocket-Key") = some wbKey ∧
      acceptedBytes c s'.trace ++ obj'.sendBufferQueue.flatten =
        Protocol.generateWebsocketShakeHandsRes (env.proto.websocketAcceptKey wbKey) ++ stream ∧
      Rfc6455.parseFrames stream = some parsed ∧
      (∀ sight ∈ sights, sight = .greeted ∨ ∃ m, sight = .speaks m) ∧
      sights.filterMap Sight.spoken = (messages [] reads.flatten).filterMap StdString.of ∧
      texts parsed = (s.payloads c ++ sights.map (Sight.word helloWorld)).map StdString.bytes := by
  obtain ⟨connected', sights, kinds, spoken, payloads⟩ :=
    Server.stays_echoed done done' live connected empty live' added cut admitted
  obtain ⟨wbKey, stream, parsed, key, bytes, parses, read⟩ :=
    Server.client_reads (run_join done done') live' (by simp [connected']) open_ unblocked
  exact ⟨wbKey, stream, parsed, sights, key, bytes, parses, kinds, spoken, by rw [read, payloads]⟩

/-- A message in two fragments, another client, and a short message. -/
def chatter : List (List Frame) := [[he, llo, emptyPing], [⟨true, .text, none, ascii "a"⟩]]

def chatterEvents : List Event :=
  ⟨5, false, true, false, none, [.returns (encodeAll [he, llo, emptyPing]), .wouldBlock], [], 0⟩ ::
    comes 6 ++ [speaks 5 (ascii "a")]

theorem chatter_admitted : Admitted chatter := by
  have small : ∀ g ∈ [⟨true, .text, none, ascii "a"⟩], g.opcode.isControl = false ∧ Plain g := by
    simp only [List.mem_singleton, forall_eq]
    exact ⟨rfl, .of_small (by decide)⟩
  have short : Served (⟨true, .text, none, ascii "a"⟩ :: ([] ++ [])) :=
    .data small (.last (Or.inl rfl)) (List.forall_mem_nil _)
  refine ⟨?_, ?_, ?_⟩
  · simp only [chatter, List.mem_cons, List.not_mem_nil, or_false, forall_eq_or_imp, forall_eq]
    exact ⟨hello_served, short⟩
  · simp [chatter, Rfc6455.Legal, he, llo, emptyPing, Rfc6455.Opcode.isControl]
  · have text : Utf8Text (ascii "a") := ⟨['a'], by decide⟩
    simp [chatter, he, llo, emptyPing, text]

/-- The run of `chatterEvents` behind the handshake of the client. -/
structure Chatters (s s' : Server) (obj obj' : WebsocketClient) (acts : List Act) : Prop where
  first : run (Server.onEvent (Main.setup quietSetup .oldest)) (.start 0) (comes 5) = .ok s
  later : run (Server.onEvent (Main.setup quietSetup .oldest)) s chatterEvents = .ok s'
  live : s.object 0 = some obj
  connected : obj.isConnected = .connected
  empty : obj.decodeBuffer = []
  live' : s'.object 0 = some obj'
  added : s'.trace = s.trace ++ acts
  cut : readsOf 0 acts = chatter.map encodeAll
  open_ : ∀ output ∈ outputs 0 s'.trace, output.closes = false
  unblocked : Unblocked (sendCalls 0 s'.trace)

theorem chatter_runs : ∃ s s' obj obj' acts, Chatters s s' obj obj' acts := by
  obtain ⟨s, reached, facts⟩ := reaches
    (x := run (Server.onEvent (Main.setup quietSetup .oldest)) (.start 0) (comes 5))
    (f := fun s => ((s.object 0).map fun obj => (obj.isConnected, obj.decodeBuffer),
      readsOf 0 s.trace)) (b := (some (.connected, []), [handshakeRequest])) (by decide +kernel)
  obtain ⟨s', reached', facts'⟩ := reaches
    (x := run (Server.onEvent (Main.setup quietSetup .oldest)) (.start 0) (comes 5 ++ chatterEvents))
    (f := fun s => ((s.object 0).isSome, readsOf 0 s.trace,
      (outputs 0 s.trace).any Output.closes, (sendCalls 0 s.trace).map SendCall.result))
    (b := (true, handshakeRequest :: chatter.map encodeAll, false, [.returns 200]))
    (by decide +kernel)
  rw [run_append, reached, ok_bind] at reached'
  obtain ⟨there, read⟩ := Prod.mk.inj facts
  obtain ⟨there', facts'⟩ := Prod.mk.inj facts'
  obtain ⟨read', facts'⟩ := Prod.mk.inj facts'
  obtain ⟨open_, calls⟩ := Prod.mk.inj facts'
  obtain ⟨obj, live, state⟩ := Option.map_eq_some_iff.mp there
  obtain ⟨connected, empty⟩ := Prod.mk.inj state
  obtain ⟨obj', live'⟩ := Option.isSome_iff_exists.mp there'
  have steps := reached'
  rw [run_rounds] at steps
  obtain ⟨acts, added⟩ := Server.run_grows _ s' steps
  have cut : readsOf 0 acts = chatter.map encodeAll := by
    rw [← added, readsOf_append, read] at read'
    exact List.append_cancel_left read'
  refine ⟨s, s', obj, obj', acts, reached, reached', live, connected, empty, live', added.symm, cut,
    by simpa using open_, fun call member blocked => ?_⟩
  have result : call.result ∈ (sendCalls 0 s'.trace).map SendCall.result :=
    List.mem_map_of_mem member
  rw [calls, blocked] at result
  simp at result

theorem chatter_echoed : ∃ s s', ∃ sights : List (Sight StdString),
    run (Server.onEvent (Main.setup quietSetup .oldest)) (.start 0) (comes 5) = .ok s ∧
    run (Server.onEvent (Main.setup quietSetup .oldest)) s chatterEvents = .ok s' ∧
    (∀ sight ∈ sights, sight = .greeted ∨ ∃ m, sight = .speaks m) ∧
    sights.filterMap Sight.spoken = (messages [] chatter.flatten).filterMap StdString.of ∧
    s'.payloads 0 = s.payloads 0 ++ sights.map (Sight.word helloWorld) := by
  obtain ⟨s, s', obj, obj', acts, chats⟩ := chatter_runs
  obtain ⟨sights, echoed⟩ := chat_echoes quietSetup .oldest 0 (comes 5) chatterEvents s s'
    chats.first chats.later 0 obj obj' chats.live chats.connected chats.empty chats.live' acts
    chats.added chatter chats.cut chatter_admitted
  exact ⟨s, s', sights, chats.first, chats.later, echoed⟩

theorem chatter_returned : ∃ s s' obj', ∃ wbKey stream parsed, ∃ sights : List (Sight StdString),
    run (Server.onEvent (Main.setup quietSetup .oldest)) (.start 0) (comes 5) = .ok s ∧
    run (Server.onEvent (Main.setup quietSetup .oldest)) s chatterEvents = .ok s' ∧
    s'.object 0 = some obj' ∧
    obj'.httpHeader.lookup (ascii "Sec-WebSocket-Key") = some wbKey ∧
    acceptedBytes 0 s'.trace ++ obj'.sendBufferQueue.flatten =
      Protocol.generateWebsocketShakeHandsRes (quietSetup.proto.websocketAcceptKey wbKey) ++ stream ∧
    Rfc6455.parseFrames stream = some parsed ∧
    (∀ sight ∈ sights, sight = .greeted ∨ ∃ m, sight = .speaks m) ∧
    sights.filterMap Sight.spoken = (messages [] chatter.flatten).filterMap StdString.of ∧
    texts parsed = (s.payloads 0 ++ sights.map (Sight.word helloWorld)).map StdString.bytes := by
  obtain ⟨s, s', obj, obj', acts, chats⟩ := chatter_runs
  obtain ⟨wbKey, stream, parsed, sights, returned⟩ := chat_returns quietSetup .oldest 0 (comes 5)
    chatterEvents s s' chats.first chats.later 0 obj obj' chats.live chats.connected chats.empty
    chats.live' acts chats.added chatter chats.cut chatter_admitted chats.open_ chats.unblocked
  exact ⟨s, s', obj', wbKey, stream, parsed, sights, chats.first, chats.later, chats.live', returned⟩

end WebsocketProto
