import WebsocketProto.ServerLife
import WebsocketProto.ServerQuiet

/-! The states of a connection over whole runs: when a client leaves the handshake, and when
the user's callbacks run for it. -/
namespace WebsocketProto
open Outcome

/-- One act of a client; `none` is an act that comes too early or a second time. -/
def shakeNext : Option ConnectionState → Act → Option ConnectionState
  | some .none, .queued _ (.handshake _) => some .waitShake
  | some .waitShake, .connectedCallback _ => some .connected
  | some .connected, .delivered _ _ => some .connected
  | _, .queued _ (.handshake _) | _, .connectedCallback _ | _, .delivered _ _ => none
  | state, _ => state

/-- The state that the history of a client tells. -/
def shake (acts : List Act) : Option ConnectionState := acts.foldl shakeNext (some .none)

theorem shake_append (front back : List Act) :
    shake (front ++ back) = back.foldl shakeNext (shake front) :=
  List.foldl_append

theorem shakeNext_neutral {a : Act} (neutral : a.neutral = true) (state : Option ConnectionState) :
    shakeNext state a = state := by
  cases a with
  | queued c output =>
    cases output with
    | handshake response => contradiction
    | frame op => rcases state with _ | _ | _ | _ <;> rfl
  | connectedCallback c | delivered c m => contradiction
  | _ => rcases state with _ | _ | _ | _ <;> rfl

theorem foldl_neutral {acts : List Act} (neutral : ∀ a ∈ acts, a.neutral = true)
    (state : Option ConnectionState) : acts.foldl shakeNext state = state := by
  induction acts with
  | nil => rfl
  | cons a rest ih =>
    rw [List.foldl_cons, shakeNext_neutral (neutral a List.mem_cons_self)]
    exact ih fun b member => neutral b (List.mem_cons_of_mem a member)

theorem shake_neutral (c : ClientId) {trace acts : List Act}
    (neutral : ∀ a ∈ acts, a.neutral = true) :
    shake (actsOf c (trace ++ acts)) = shake (actsOf c trace) := by
  rw [actsOf_append, shake_append]
  apply foldl_neutral
  exact fun a member => neutral a (List.mem_filter.mp member).1

theorem shake_own {c : ClientId} {a : Act} (own : a.client = c) (trace : List Act) :
    shake (actsOf c (trace ++ [a])) = shakeNext (shake (actsOf c trace)) a := by
  have mine : actsOf c [a] = [a] := actsOf_own (by simpa using own)
  rw [actsOf_append, shake_append, mine]
  rfl

theorem shake_other {c d : ClientId} {a : Act} (own : a.client = c) (other : d ≠ c)
    (trace : List Act) : shake (actsOf d (trace ++ [a])) = shake (actsOf d trace) := by
  have none_ : actsOf d [a] = [] := actsOf_other (by simpa using own) other
  rw [actsOf_append, none_, List.append_nil]

/-- The request headers that `websocket_shake_hands` asks for, and its answer. -/
def Accepted (proto : Protocol) (header : List (Bytes × Bytes)) (c : ClientId)
    (trace : List Act) : Prop :=
  header.lookup (ascii "Upgrade") = some (ascii "websocket") ∧
  header.lookup (ascii "Connection") = some (ascii "Upgrade") ∧
  ∃ wbKey, header.lookup (ascii "Sec-WebSocket-Key") = some wbKey ∧
    .queued c (.handshake
      (Protocol.generateWebsocketShakeHandsRes (proto.websocketAcceptKey wbKey))) ∈ trace

theorem Accepted.grows {proto : Protocol} {header : List (Bytes × Bytes)} {c : ClientId}
    {trace : List Act} (accepted : Accepted proto header c trace) (more : List Act) :
    Accepted proto header c (trace ++ more) := by
  obtain ⟨upgrade, connection, wbKey, key, queued⟩ := accepted
  exact ⟨upgrade, connection, wbKey, key, List.mem_append_left more queued⟩

/-- The states of all clients are what their histories tell. -/
structure Ordered (env : Setup) (s : Server) : Prop where
  young : ∀ c obj, s.object c = some obj → c < s.nextClient
  fresh : ∀ c, s.nextClient ≤ c → shake (actsOf c s.trace) = some .none
  known : ∀ c, shake (actsOf c s.trace) ≠ none
  live : ∀ c obj, s.object c = some obj → shake (actsOf c s.trace) = some obj.isConnected ∧
    (obj.isConnected ≠ .none → Accepted env.proto obj.httpHeader c s.trace)

theorem start_ordered (env : Setup) (current : Int) : Ordered env (.start current) := by
  refine ⟨?_, fun _ _ => rfl, fun c => Option.some_ne_none _, ?_⟩
  · rintro c obj ⟨⟩
  · rintro c obj ⟨⟩

namespace Ordered
variable {env : Setup} {s s' : Server} {c : ClientId} {obj obj' : WebsocketClient}

theorem quiet (ordered : Ordered env s) (quiet : Quiet s s') : Ordered env s' := by
  obtain ⟨acts, added, neutral⟩ := quiet.acts
  have same (c : ClientId) : shake (actsOf c s'.trace) = shake (actsOf c s.trace) := by
    rw [added]
    exact shake_neutral c neutral
  refine ⟨fun c obj' live => ?_, fun c new => ?_, fun c => ?_, fun c obj' live => ?_⟩
  · obtain ⟨obj, before, _⟩ := quiet.objects c obj' live
    exact quiet.nextClient ▸ ordered.young c obj before
  · rw [same]
    exact ordered.fresh c (quiet.nextClient ▸ new)
  · rw [same]
    exact ordered.known c
  · obtain ⟨obj, before, kept⟩ := quiet.objects c obj' live
    obtain ⟨state, accepted⟩ := ordered.live c obj before
    rw [same, state, kept.isConnected, kept.httpHeader, added]
    exact ⟨rfl, fun begun => (accepted begun).grows acts⟩

theorem quietly (ordered : Ordered env s) {x : Except Fault Server} (quiet : Quietly s x) :
    Ensures (fun _ => False) x (Ordered env) := by
  cases done : x with
  | error fault => exact id
  | ok s' => exact ordered.quiet (quiet s' done)

/-- A client is written back in its state, with its headers unless it is fresh. -/
theorem put (ordered : Ordered env s) (live : s.object c = some obj)
    (state : obj'.isConnected = obj.isConnected)
    (header : obj.isConnected ≠ .none → obj'.httpHeader = obj.httpHeader) :
    Ordered env (s.put c obj') := by
  refine ⟨fun d obj1 live1 => ?_, ordered.fresh, ordered.known, fun d obj1 live1 => ?_⟩
  · by_cases own : d = c
    · subst own
      exact ordered.young d obj live
    · rw [Server.put_other own] at live1
      exact ordered.young d obj1 live1
  by_cases own : d = c
  · subst own
    rw [Server.put_self] at live1
    obtain rfl := Option.some.inj live1
    obtain ⟨stage, accepted⟩ := ordered.live d obj live
    rw [state]
    refine ⟨stage, fun begun => ?_⟩
    rw [header begun]
    exact accepted begun
  · rw [Server.put_other own] at live1
    exact ordered.live d obj1 live1

/-- An act that moves one client on, together with its object. -/
theorem move {a : Act} {state : ConnectionState} (ordered : Ordered env s)
    (live : s.object c = some obj) (own : a.client = c)
    (moved : shakeNext (some obj.isConnected) a = some state) (next : obj'.isConnected = state)
    (accepted : Accepted env.proto obj'.httpHeader c (s.trace ++ [a])) :
    Ordered env ((s.put c obj').log a) := by
  have stage : shake (actsOf c (s.trace ++ [a])) = some state := by
    rw [shake_own own, (ordered.live c obj live).1, moved]
  have others (d : ClientId) (other : d ≠ c) :
      shake (actsOf d (s.trace ++ [a])) = shake (actsOf d s.trace) := shake_other own other s.trace
  have young := ordered.young c obj live
  refine ⟨fun d obj1 live1 => ?_, fun d new => ?_, fun d => ?_, fun d obj1 live1 => ?_⟩
  · by_cases same : d = c
    · subst same
      exact young
    · have before : s.object d = some obj1 := (Server.put_other same).symm.trans live1
      exact ordered.young d obj1 before
  · have newer : s.nextClient ≤ d := new
    have other : d ≠ c := Nat.ne_of_gt (Nat.lt_of_lt_of_le young newer)
    exact (others d other).trans (ordered.fresh d newer)
  · by_cases same : d = c
    · subst same
      exact stage ▸ nofun
    · exact (others d same).symm ▸ ordered.known d
  · by_cases same : d = c
    · subst same
      obtain rfl := Option.some.inj (Server.put_self.symm.trans live1)
      exact ⟨stage.trans (congrArg some next.symm), fun _ => accepted⟩
    · have before : s.object d = some obj1 := (Server.put_other same).symm.trans live1
      obtain ⟨stage1, accepted1⟩ := ordered.live d obj1 before
      exact ⟨(others d same).trans stage1, fun begun => (accepted1 begun).grows [a]⟩

theorem log_neutral (ordered : Ordered env s) {a : Act} (neutral : a.neutral = true) :
    Ordered env (s.log a) :=
  ordered.quiet (Server.log_quiet neutral)

theorem birth (ordered : Ordered env s) (fd : Nat) {clients : Nat → Option ClientId} :
    Ordered env { s with
      clients := clients
      object := Function.update s.object s.nextClient (some (.new fd))
      nextClient := s.nextClient + 1
      trace := s.trace ++ [.accepted s.nextClient fd, .epollCtl s.nextClient .add] } := by
  have same (c : ClientId) : shake (actsOf c
      (s.trace ++ [.accepted s.nextClient fd, .epollCtl s.nextClient .add])) =
      shake (actsOf c s.trace) := by
    apply shake_neutral
    intro a member
    rcases List.mem_pair.mp member with rfl | rfl <;> rfl
  refine ⟨fun c obj live => ?_, fun c new => ?_, fun c => ?_, fun c obj live => ?_⟩
  · dsimp only at live ⊢
    by_cases born : c = s.nextClient
    · exact born ▸ Nat.lt_succ_self _
    · rw [Function.update_of_ne born] at live
      exact Nat.lt_succ_of_lt (ordered.young c obj live)
  · exact (same c).trans (ordered.fresh c (Nat.le_of_succ_le new))
  · exact (same c).symm ▸ ordered.known c
  · dsimp only at live ⊢
    rw [same]
    by_cases born : c = s.nextClient
    · subst born
      rw [Function.update_self] at live
      obtain rfl := Option.some.inj live
      exact ⟨ordered.fresh _ (Nat.le_refl _), fun begun => absurd rfl begun⟩
    · rw [Function.update_of_ne born] at live
      obtain ⟨stage, accepted⟩ := ordered.live c obj live
      exact ⟨stage, fun begun => (accepted begun).grows _⟩

end Ordered

theorem websocketShakeHands_accepts (proto : Protocol) (c : WebsocketClient) :
    (∃ wbKey, c.httpHeader.lookup (ascii "Upgrade") = some (ascii "websocket") ∧
      c.httpHeader.lookup (ascii "Connection") = some (ascii "Upgrade") ∧
      c.httpHeader.lookup (ascii "Sec-WebSocket-Key") = some wbKey ∧
      proto.websocketShakeHands c = (true, { c with isConnected := .waitShake },
        [.sendWithoutFrame (.handshake
          (Protocol.generateWebsocketShakeHandsRes (proto.websocketAcceptKey wbKey)))])) ∨
    proto.websocketShakeHands c = (false, c, [.closeWebsocketClient .protocolError]) := by
  unfold Protocol.websocketShakeHands
  split
  · rename_i headers
    cases key : c.httpHeader.lookup (ascii "Sec-WebSocket-Key") with
    | some wbKey => exact Or.inl ⟨wbKey, headers.1, headers.2, rfl, rfl⟩
    | none => exact Or.inr rfl
  · exact Or.inr rfl

/-- What a read does to a client in the handshake. -/
inductive ShakesHands (proto : Protocol) (c : WebsocketClient) (data : Bytes) :
    WebsocketClient × List Call → Prop where
  | stays (httpHeader : List (Bytes × Bytes)) (calls : List Call)
    (refuses : calls = [] ∨ calls = [.closeWebsocketClient .protocolError]) :
    ShakesHands proto c data ({ c with recvBuffer := data, httpHeader := httpHeader }, calls)
  | accepts (httpHeader : List (Bytes × Bytes)) (wbKey : Bytes) (more : List Call)
    (upgrade : httpHeader.lookup (ascii "Upgrade") = some (ascii "websocket"))
    (connection : httpHeader.lookup (ascii "Connection") = some (ascii "Upgrade"))
    (key : httpHeader.lookup (ascii "Sec-WebSocket-Key") = some wbKey)
    (frames : ∀ response, .sendWithoutFrame (.handshake response) ∉ more) :
    ShakesHands proto c data
      ({ c with recvBuffer := data, httpHeader := httpHeader, isConnected := .waitShake },
        .sendWithoutFrame (.handshake
          (Protocol.generateWebsocketShakeHandsRes (proto.websocketAcceptKey wbKey))) :: more)

theorem decodeHandshake_cases {proto : Protocol} {c : WebsocketClient} {data : Bytes}
    {r : WebsocketClient × List Call} (done : proto.decodeHandshake c data = .ok r) :
    ShakesHands proto c data r := by
  obtain ⟨⟨decoded, httpHeader⟩, _, done⟩ := bind_eq_ok.mp done
  cases decoded with
  | false =>
    cases done
    exact .stays httpHeader [] (Or.inl rfl)
  | true =>
    simp only [Bool.true_eq_false, ↓reduceIte] at done
    rcases websocketShakeHands_accepts proto
        { c with recvBuffer := data, httpHeader := httpHeader } with
      ⟨wbKey, upgrade, connection, key, shaken⟩ | refused
    · rw [shaken] at done
      cases on : proto.heartbeat with
      | true =>
        rw [on] at done
        cases done
        exact .accepts httpHeader wbKey [.addToTimeWheelHeartbeat] upgrade connection key (by simp)
      | false =>
        rw [on] at done
        cases done
        exact .accepts httpHeader wbKey [] upgrade connection key nofun
    · rw [refused] at done
      cases done
      exact .stays httpHeader [.closeWebsocketClient .protocolError] (Or.inr rfl)

/-- Behind the handshake no read queues a second response. -/
theorem answer_frames {proto : Protocol} {c c' : WebsocketClient} {data : Bytes} {ret : Bool}
    {calls : List Call} (shaken : c.isConnected ≠ .none)
    (answer : proto.Answer c c' data ret calls) (response : Bytes) :
    .sendWithoutFrame (.handshake response) ∉ calls := by
  cases answer with
  | shaken response fresh waits => exact absurd fresh shaken
  | quiet ret => nofun
  | passive begun closing open_ =>
    unfold Protocol.decodeClose
    split
    · split <;> simp
    · simp
  | refused | ponged | disarmed | expiring => simp

namespace Server
variable {env : Setup} {s : Server} {c : ClientId} {now : Int}

theorem performAll_ordered (ordered : Ordered env s) (calls : List Call)
    (frames : ∀ response, .sendWithoutFrame (.handshake response) ∉ calls) :
    Ensures (fun _ => False) (performAll env now c calls s) (Ordered env) :=
  ordered.quietly (performAll_quiet calls frames)

/-- The response is queued and the client waits for it to be sent. -/
theorem accepted_ordered {obj obj' : WebsocketClient} {response : Bytes}
    (ordered : Ordered env s) (live : s.object c = some obj) (fresh : obj.isConnected = .none)
    (waits : obj'.isConnected = .waitShake)
    (accepted : Accepted env.proto obj'.httpHeader c
      (s.trace ++ [.queued c (.handshake response)])) :
    Ordered env ((s.put c obj').sent c obj' (.handshake response)) := by
  have both : (s.put c obj').sent c obj' (.handshake response) =
      ((s.put c { obj' with sendBufferQueue := obj'.sendBufferQueue ++ [response] }).log
        (.queued c (.handshake response))).log (.epollCtl c (.mod true)) := by
    simp [sent, put, log, Output.bytes]
  rw [both]
  apply Ordered.log_neutral _ rfl
  exact ordered.move live rfl (by rw [fresh]; rfl) (by exact waits) (by exact accepted)

theorem decodeProtoData_ordered (ordered : Ordered env s) (data : Bytes) :
    Ensures (fun _ => False) (s.decodeProtoData env now c data) fun r => Ordered env r.2 := by
  rw [decodeProtoData]
  cases found : s.get c with
  | error fault => exact id
  | ok obj =>
    rw [ok_bind]
    cases decoded : env.proto.decodeProtoData obj data with
    | error fault => exact id
    | ok r =>
      obtain ⟨ret, obj', calls⟩ := r
      have live : (s.log (.received c data)).object c = some obj := get_eq_ok found
      have received : Ordered env (s.log (.received c data)) := ordered.log_neutral rfl
      suffices called : Ensures (fun _ => False)
          (performAll env now c calls ((s.log (.received c data)).put c obj')) (Ordered env) by
        exact called.bind fun s1 kept => kept
      by_cases fresh : obj.isConnected = .none
      · unfold Protocol.decodeProtoData at decoded
        rw [if_pos fresh] at decoded
        obtain ⟨⟨after, asked⟩, handshake, same⟩ := bind_eq_ok.mp decoded
        cases same
        cases decodeHandshake_cases handshake with
        | stays httpHeader _ refuses =>
          refine performAll_ordered (received.put live (by rfl) ?_) _ fun response => ?_
          · exact fun begun => absurd fresh begun
          · rcases refuses with rfl | rfl <;> simp
        | accepts httpHeader wbKey more upgrade connection key frames =>
          rw [performAll, perform, sendBuffer_eq put_self, ok_bind]
          refine performAll_ordered (accepted_ordered received live fresh rfl ?_) more frames
          exact ⟨upgrade, connection, wbKey, key, List.mem_append_right _ List.mem_cons_self⟩
      · have settled := decodeProtoData_settled fresh decoded
        obtain ⟨_, answer⟩ := Protocol.decodeProtoData_answer decoded
        exact performAll_ordered (received.put live settled.isConnected fun _ => settled.httpHeader)
          calls (answer_frames fresh answer)

theorem callback_ordered (ordered : Ordered env s) :
    Ensures (fun _ => False) (s.callback env) (Ordered env) :=
  ordered.quietly (Frames.userActs _)

theorem recvCallback_ordered (ordered : Ordered env s) :
    Ensures (fun _ => False) (s.recvCallback env c) (Ordered env) := by
  rw [recvCallback]
  cases found : s.get c with
  | error fault => exact id
  | ok obj =>
    rw [ok_bind]
    split
    · rename_i connected
      have live := get_eq_ok found
      obtain ⟨_, accepted⟩ := ordered.live c obj live
      have begun : obj.isConnected ≠ .none := by
        rw [connected]
        decide
      have same : s.put c obj = s := by
        rw [put, ← live, Function.update_eq_self]
      have delivered : Ordered env ((s.put c obj).log (.delivered c obj.decodeBuffer)) :=
        ordered.move live rfl (by rw [connected]; rfl) connected ((accepted begun).grows _)
      rw [same] at delivered
      apply (callback_ordered delivered).bind
      intro s1 kept
      cases again : s1.get c with
      | error fault => exact id
      | ok obj1 => exact kept.put (get_eq_ok again) rfl fun _ => rfl
    · exact ordered

theorem connect_ordered (ordered : Ordered env s) :
    Ensures (fun _ => False) (s.connect env c) (Ordered env) := by
  rw [connect]
  cases found : s.get c with
  | error fault => exact id
  | ok obj =>
    rw [ok_bind]
    split
    · rename_i waits
      have live := get_eq_ok found
      obtain ⟨_, accepted⟩ := ordered.live c obj live
      have begun : obj.isConnected ≠ .none := by
        rw [waits]
        decide
      apply callback_ordered
      exact ordered.move live rfl (by rw [waits]; rfl) (by rfl) ((accepted begun).grows _)
    · exact ordered

theorem sentCallback_ordered (ordered : Ordered env s) :
    Ensures (fun _ => False) (s.sentCallback env c) (Ordered env) :=
  (connect_ordered ordered).bind fun _ kept => callback_ordered (kept.log_neutral rfl)

theorem onInput_ordered (ordered : Ordered env s) (e : Event) :
    Ensures (fun _ => False) (s.onInput env e c) (Ordered env) := by
  rw [onInput]
  split
  · exact id
  · rename_i m closed _
    apply (ordered.quietly (Frames.closeIf closed)).bind
    intro s1 kept
    split
    · exact kept
    · apply (decodeProtoData_ordered kept m).bind
      rintro ⟨ret, s2⟩ decoded
      dsimp only
      split
      · exact recvCallback_ordered decoded
      · exact decoded

theorem drained_quiet {obj : WebsocketClient} (live : s.object c = some obj) (queue : List Bytes)
    (calls : List SendCall) : Quiet s { s.put c { obj with sendBufferQueue := queue } with
      trace := (s.put c { obj with sendBufferQueue := queue }).trace ++
        calls.map (Act.sendCall c) } := by
  have written : Quiet s (s.put c { obj with sendBufferQueue := queue }) :=
    put_quiet live ⟨rfl, rfl, rfl⟩
  obtain ⟨nextClient, objects, _⟩ := written
  refine ⟨nextClient, objects, calls.map (Act.sendCall c), rfl, fun a member => ?_⟩
  obtain ⟨call, _, rfl⟩ := List.mem_map.mp member
  rfl

theorem onOutput_ordered (ordered : Ordered env s) (e : Event) :
    Ensures (fun _ => False) (s.onOutput env e c) (Ordered env) := by
  rw [onOutput]
  cases found : s.get c with
  | error fault => exact id
  | ok obj =>
    rw [ok_bind]
    split
    · exact id
    · rename_i drained _
      have sent := ordered.quiet (drained_quiet (get_eq_ok found) drained.queue drained.calls)
      apply (sent.quietly (Frames.closeIf drained.closed)).bind
      intro s1 kept
      cases s1.get c with
      | error fault => exact id
      | ok obj1 => exact sentCallback_ordered (kept.log_neutral rfl)

theorem accept_ordered (ordered : Ordered env s) (fd : Nat) :
    Ensures (fun _ => False) (s.accept env fd) (Ordered env) := by
  rw [accept]
  split
  · exact id
  · exact ordered.birth fd

theorem onEvent_ordered (ordered : Ordered env s) (e : Event) :
    Ensures (fun _ => False) (s.onEvent env e) (Ordered env) :=
  onEvent_rule (P := fun x => Ensures (fun _ => False) x (Ordered env)) e ordered
    (fun _ _ => ordered.quietly Frames.closeClient) (accept_ordered ordered)
    (fun _ _ _ => onInput_ordered ordered e) fun _ _ _ => onOutput_ordered ordered e

theorem step_ordered (l : Label) (ordered : Ordered env s) :
    Ensures (fun _ => False) (s.step env l) (Ordered env) := by
  cases l with
  | event e => exact onEvent_ordered ordered e
  | beginTick now =>
    rw [step, beginTick]
    split
    · exact id
    · split
      · exact ordered.quiet (wheel_quiet _)
      · exact id
  | fire =>
    rw [step, fire]
    split
    · exact id
    · split
      · exact id
      · exact ordered.quiet (wheel_quiet _)
      · exact (ordered.quiet (wheel_quiet _)).quietly (Frames.runTask _)
  | user acts => exact ordered.quietly (Frames.userActs acts)

theorem run_ordered (current : Int) (labels : List Label)
    (done : run (Server.step env) (.start current) labels = .ok s) : Ordered env s := by
  have preserved (s : Server) (l : Label) (next : Server) (ordered : Ordered env s)
      (taken : s.step env l = .ok next) : Ordered env next :=
    (step_ordered l ordered).of_ok taken
  exact run_invariant preserved (start_ordered env current) done

end Server

def ConnectionState.rank : ConnectionState → Nat
  | .none => 0
  | .waitShake => 1
  | .connected => 2

theorem foldl_broken (acts : List Act) : acts.foldl shakeNext none = none := by
  induction acts with
  | nil => rfl
  | cons a rest ih =>
    have still : shakeNext none a = none := by
      cases a with
      | queued c output => cases output <;> rfl
      | _ => rfl
    rw [List.foldl_cons, still]
    exact ih

/-- An act stands where the history before it can take it. -/
theorem shake_at {front back : List Act} {a : Act} (known : shake (front ++ a :: back) ≠ none) :
    shakeNext (shake front) a ≠ none := by
  intro broken
  apply known
  rw [shake_append, List.foldl_cons, broken]
  exact foldl_broken back

theorem shakeNext_rank {a : Act} {state next : ConnectionState}
    (moved : shakeNext (some state) a = some next) : state.rank ≤ next.rank := by
  by_cases neutral : a.neutral = true
  · rw [shakeNext_neutral neutral] at moved
    cases moved
    exact Nat.le_refl _
  · cases a with
    | queued c output =>
      cases output with
      | handshake response =>
        cases state with
        | none => exact Nat.zero_le _
        | waitShake | connected => contradiction
      | frame op => exact absurd rfl neutral
    | connectedCallback c =>
      cases state with
      | waitShake =>
        cases moved
        decide
      | none | connected => contradiction
    | delivered c m =>
      cases state with
      | connected =>
        cases moved
        decide
      | none | waitShake => contradiction
    | _ => exact absurd rfl neutral

theorem foldl_rank {acts : List Act} {state last : ConnectionState}
    (moved : acts.foldl shakeNext (some state) = some last) : state.rank ≤ last.rank := by
  induction acts generalizing state with
  | nil =>
    cases moved
    exact Nat.le_refl _
  | cons a rest ih =>
    rw [List.foldl_cons] at moved
    cases first : shakeNext (some state) a with
    | none =>
      rw [first, foldl_broken] at moved
      contradiction
    | some next =>
      rw [first] at moved
      exact Nat.le_trans (shakeNext_rank first) (ih moved)

/-- Behind a connected state no callback comes any more. -/
theorem connected_once {c : ClientId} {acts : List Act}
    (known : acts.foldl shakeNext (some .connected) ≠ none) :
    acts.count (.connectedCallback c) = 0 := by
  apply List.count_eq_zero.mpr
  intro member
  obtain ⟨front, back, rfl⟩ := List.append_of_mem member
  rw [List.foldl_append, List.foldl_cons] at known
  cases before : front.foldl shakeNext (some .connected) with
  | none =>
    rw [before] at known
    exact known (foldl_broken back)
  | some state =>
    have far := foldl_rank before
    rw [before] at known
    cases state with
    | waitShake | none => contradiction
    | connected => exact known (foldl_broken back)

theorem callback_once {c : ClientId} {acts : List Act} (known : shake acts ≠ none) :
    acts.count (.connectedCallback c) ≤ 1 := by
  by_contra more
  have member : .connectedCallback c ∈ acts := List.count_pos_iff.mp (by omega)
  obtain ⟨front, back, rfl, fresh⟩ := List.eq_append_cons_of_mem member
  have waits := shake_at known
  cases before : shake front with
  | none =>
    rw [before] at waits
    exact waits rfl
  | some state =>
    rw [before] at waits
    cases state with
    | waitShake =>
      rw [shake_append, before] at known
      have rest := connected_once (c := c) known
      rw [List.count_append, List.count_cons_self, List.count_eq_zero.mpr fresh, rest] at more
      omega
    | none | connected => exact waits rfl

/-- The history of a client, and its state. -/
structure Handshakes (env : Setup) (s : Server) (c : ClientId) : Prop where
  state : ∀ obj, s.object c = some obj → shake (actsOf c s.trace) = some obj.isConnected
  accepted : ∀ obj, s.object c = some obj → obj.isConnected ≠ .none →
    Accepted env.proto obj.httpHeader c s.trace
  once : (actsOf c s.trace).count (.connectedCallback c) ≤ 1
  leaves : ∀ front response back, actsOf c s.trace = front ++ .queued c (.handshake response) :: back →
    shake front = some .none
  connects : ∀ front back, actsOf c s.trace = front ++ .connectedCallback c :: back →
    shake front = some .waitShake
  delivers : ∀ front m back, actsOf c s.trace = front ++ .delivered c m :: back →
    shake front = some .connected

theorem Ordered.handshakes {env : Setup} {s : Server} (ordered : Ordered env s) (c : ClientId) :
    Handshakes env s c := by
  have known := ordered.known c
  refine ⟨fun obj live => (ordered.live c obj live).1, fun obj live => (ordered.live c obj live).2,
    callback_once known, fun front response back split => ?_, fun front back split => ?_,
    fun front m back split => ?_⟩
  all_goals
    rw [split] at known
    have here := shake_at known
    cases before : shake front with
    | none =>
      rw [before] at here
      exact absurd rfl here
    | some state =>
      rw [before] at here
      cases state <;> first | rfl | exact absurd rfl here

theorem connection_states (env : Setup) (current : Int) (labels : List Label) (s : Server)
    (done : run (Server.step env) (.start current) labels = .ok s) (c : ClientId) :
    Handshakes env s c ∧
    ∀ front back s0 obj0 obj, labels = front ++ back →
      run (Server.step env) (.start current) front = .ok s0 → s0.object c = some obj0 →
      s.object c = some obj → obj0.isConnected.rank ≤ obj.isConnected.rank := by
  have ordered := Server.run_ordered current labels done
  refine ⟨ordered.handshakes c, ?_⟩
  rintro front back s0 obj0 obj rfl before live0 live
  rw [run_append, before] at done
  obtain ⟨acts, added⟩ := Server.run_grows back s done
  have earlier := ((Server.run_ordered current front before).live c obj0 live0).1
  have later := (ordered.live c obj live).1
  rw [← added, actsOf_append, shake_append, earlier] at later
  exact foldl_rank later

/-- A client that shakes hands and receives a message. -/
theorem hello_connected : ∃ s, run (Server.step quietSetup) (.start 0) (handshaken ++
      [readable 5 [.returns (Rfc6455.Frame.encode ⟨true, .binary, none, ascii "a"⟩), .wouldBlock] 0])
      = .ok s ∧ Handshakes quietSetup s 0 ∧ .delivered 0 (ascii "a") ∈ s.trace := by
  obtain ⟨s, reached, member⟩ := reaches (x := run (Server.step quietSetup) (.start 0) (handshaken ++
      [readable 5 [.returns (Rfc6455.Frame.encode ⟨true, .binary, none, ascii "a"⟩), .wouldBlock] 0]))
    (f := fun s => decide (.delivered 0 (ascii "a") ∈ s.trace)) (b := true) (by decide +kernel)
  exact ⟨s, reached, (connection_states quietSetup 0 _ s reached 0).1, of_decide_eq_true member⟩

def Act.message : Act → Option (ClientId × Bytes)
  | .delivered c m => some (c, m)
  | _ => none

/-- The messages that the user has seen, with their clients. -/
def Server.messages (s : Server) : List (ClientId × Bytes) := s.trace.filterMap Act.message

theorem Quiet.messages {s s' : Server} (quiet : Quiet s s') : s'.messages = s.messages := by
  obtain ⟨acts, added, neutral⟩ := quiet.acts
  have none_ : acts.filterMap Act.message = [] := by
    apply List.filterMap_eq_nil_iff.mpr
    intro a member
    have silent := neutral a member
    cases a <;> first | rfl | contradiction
  rw [Server.messages, added, List.filterMap_append, none_, List.append_nil]
  rfl

namespace Server
variable {env : Setup} {s s' : Server} {c : ClientId} {obj : WebsocketClient}

/-- The wrapper delivers what the receiver says, and clears the open message. -/
theorem recvCallback_receives (live : s.object c = some obj) (connected : obj.isConnected = .connected)
    (done : s.recvCallback env c = .ok s') : s'.messages = s.messages ++ [(c, obj.decodeBuffer)] ∧
      ∀ obj', s'.object c = some obj' → obj'.decodeBuffer = [] ∧ obj'.isConnected = .connected := by
  rw [recvCallback, get_live live, ok_bind, if_pos connected] at done
  obtain ⟨s1, called, done⟩ := bind_eq_ok.mp done
  obtain ⟨obj1, found, same⟩ := bind_eq_ok.mp done
  cases same
  have quiet : Quiet (s.log (.delivered c obj.decodeBuffer)) s1 := Frames.userActs _ s1 called
  obtain ⟨obj0, live0, kept⟩ := quiet.objects c obj1 (get_eq_ok found)
  obtain rfl : obj = obj0 := Option.some.inj (live.symm.trans live0)
  refine ⟨?_, fun obj' live' => ?_⟩
  · have noted : (s.log (.delivered c obj.decodeBuffer)).messages =
        s.messages ++ [(c, obj.decodeBuffer)] := List.filterMap_append
    exact quiet.messages.trans noted
  · obtain rfl := Option.some.inj (put_self.symm.trans live')
    exact ⟨rfl, kept.isConnected.trans connected⟩

theorem onInput_receives {e : Event} {m : Bytes} (live : s.object c = some obj)
    (shaken : obj.isConnected ≠ .none) (input : recvAll e.recvs [] = some (m, false))
    (some_ : m ≠ []) (done : s.onInput env e c = .ok s') :
    ∃ r, env.proto.receive obj m = .ok r ∧
      s'.messages = s.messages ++ (r.2.message.map (Prod.mk c)).toList ∧
      ∀ obj', s'.object c = some obj' → obj'.receiving = r.1.receiving := by
  simp only [onInput, input, closeIf, Bool.false_eq_true, ↓reduceIte, ok_bind, some_] at done
  obtain ⟨⟨ret, s2⟩, decoded, done⟩ := bind_eq_ok.mp done
  rw [decodeProtoData, get_live live, ok_bind] at decoded
  cases read : env.proto.decodeProtoData obj m with
  | error fault =>
    rw [read] at decoded
    contradiction
  | ok result =>
    obtain ⟨ret', obj1, calls⟩ := result
    rw [read] at decoded
    obtain ⟨s3, performed, same⟩ := bind_eq_ok.mp decoded
    cases same
    obtain ⟨_, answer⟩ := Protocol.decodeProtoData_answer read
    have quiet := performAll_quiet calls (answer_frames shaken answer) s2 performed
    have before : ((s.log (.received c m)).put c obj1).messages = s.messages :=
      (log_quiet rfl).messages
    have seen := quiet.messages.trans before
    have kept (obj' : WebsocketClient) (live' : s2.object c = some obj') : obj1.Same obj' := by
      obtain ⟨obj0, live0, same⟩ := quiet.objects c obj' live'
      obtain rfl := Option.some.inj (put_self.symm.trans live0)
      exact same
    rw [receive_wrapper, read]
    refine ⟨_, rfl, ?_⟩
    cases ret with
    | false =>
      cases done
      rw [recvWrapper_waits, seen]
      refine ⟨(List.append_nil _).symm, fun obj' live' => ?_⟩
      exact Prod.ext (kept obj' live').decodeBuffer (kept obj' live').isConnected
    | true =>
      obtain ⟨obj2, found, _⟩ := bind_eq_ok.mp done
      have live2 := get_eq_ok found
      obtain ⟨state, _, buffer⟩ := kept obj2 live2
      by_cases connected : obj1.isConnected = .connected
      · obtain ⟨delivered, after⟩ := recvCallback_receives live2 (state.trans connected) done
        rw [recvWrapper_delivers obj1 connected, delivered, seen, buffer]
        refine ⟨rfl, fun obj' live' => ?_⟩
        exact Prod.ext (after obj' live').1 ((after obj' live').2.trans connected.symm)
      · have waits : recvWrapper (true, obj1, calls) = (obj1, ⟨none, calls⟩) :=
          if_neg fun both => connected both.2
        have still : ¬ obj2.isConnected = .connected := fun other => connected (state ▸ other)
        simp only [recvCallback, get_live live2, ok_bind, if_neg still] at done
        cases done
        rw [waits, seen]
        refine ⟨(List.append_nil _).symm, fun obj' live' => ?_⟩
        exact Prod.ext (kept obj' live').decodeBuffer (kept obj' live').isConnected

end Server
end WebsocketProto
