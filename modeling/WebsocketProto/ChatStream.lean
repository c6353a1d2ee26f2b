import WebsocketProto.ChatServer
import WebsocketProto.SentMessages
import WebsocketProto.ServerSending

/-! The bytes that a client of the program is sent, from the room down to the calls of `send`:
the answer to its request, and then frames whose texts are what the room sent. -/
namespace WebsocketProto
open Outcome Wheelless

theorem foldl_begun {acts : List Act} {state : ConnectionState} (begun : state ≠ .none)
    (known : acts.foldl shakeNext (some state) ≠ none) :
    (∀ c response, .queued c (.handshake response) ∉ acts) ∧
      ∃ last, acts.foldl shakeNext (some state) = some last ∧ last ≠ .none := by
  have positive (other : ConnectionState) (far : state.rank ≤ other.rank) : other ≠ .none := by
    rintro rfl
    cases state with
    | none => exact begun rfl
    | _ => simp [ConnectionState.rank] at far
  refine ⟨fun c response member => ?_, ?_⟩
  · obtain ⟨front, back, rfl⟩ := List.append_of_mem member
    rw [List.foldl_append, List.foldl_cons] at known
    cases before : front.foldl shakeNext (some state) with
    | none => simp [before, shakeNext, foldl_broken] at known
    | some middle =>
      have begun' := positive middle (foldl_rank before)
      cases middle with
      | none => exact begun' rfl
      | _ => simp [before, shakeNext, foldl_broken] at known
  · obtain ⟨last, reached⟩ := Option.ne_none_iff_exists'.mp known
    exact ⟨last, reached, positive last (foldl_rank reached)⟩

/-- A client leaves its first state when a response is queued, and not before. -/
theorem foldl_fresh {acts : List Act} (known : acts.foldl shakeNext (some .none) ≠ none) :
    acts.foldl shakeNext (some .none) = some .none ↔
      ∀ c response, .queued c (.handshake response) ∉ acts := by
  induction acts with
  | nil => simp
  | cons a rest ih =>
    rw [List.foldl_cons] at known ⊢
    by_cases neutral : a.neutral = true
    · rw [shakeNext_neutral neutral] at known ⊢
      rw [ih known]
      have other (c : ClientId) (response : Bytes) : .queued c (.handshake response) ≠ a := by
        rintro rfl
        simp [Act.neutral] at neutral
      simp [other]
    · cases a with
      | queued c output =>
        cases output with
        | handshake response =>
          obtain ⟨_, last, reached, begun⟩ := foldl_begun (by decide) known
          refine iff_of_false ?_ fun absent => absent c response List.mem_cons_self
          exact fun stays => begun (Option.some.inj (reached.symm.trans stays))
        | frame op => exact absurd rfl neutral
      | connectedCallback c | delivered c m => exact absurd (foldl_broken rest) known
      | _ => exact absurd rfl neutral

def Output.refuses : Output → Bool
  | .frame (.closeWebsocketClient _ _) => true
  | _ => false

/-- Refusals, the response, and frames behind it. -/
def Shaken (queued : List Output) : Prop :=
  ∃ (refusals : List Output) (response : Bytes) (ops : List ServerOp), (∀ output ∈ refusals, output.refuses = true) ∧
      queued = refusals ++ .handshake response :: ops.map Output.frame

/-- What was queued for a client, by how far its handshake is. -/
def Framed (c : ClientId) (trace : List Act) : Prop :=
  (shake (actsOf c trace) = some .none ∧ ∀ output ∈ outputs c trace, output.refuses = true) ∨
  (shake (actsOf c trace) ≠ some .none ∧ Shaken (outputs c trace))

/-- What a round queues for a client that has not got its response. -/
inductive FirstOutputs : List Output → Prop where
  | nothing : FirstOutputs []
  | refusal (stack : Bytes) (flag : CloseFlag) :
    FirstOutputs [.frame (.closeWebsocketClient stack flag)]
  | response (response : Bytes) : FirstOutputs [.handshake response]

section Histories
variable {c : ClientId} {trace acts : List Act}

theorem mem_outputs {output : Output} :
    output ∈ outputs c trace ↔ .queued c output ∈ actsOf c trace := by
  simp only [outputs, List.mem_filterMap]
  constructor
  · rintro ⟨a, member, found⟩
    have own : a.client = c := by simpa [actsOf] using (List.mem_filter.mp member).2
    cases a with
    | queued d other =>
      cases found
      cases own
      exact member
    | _ => contradiction
  · exact fun member => ⟨_, member, rfl⟩

theorem mem_actsOf_queued {d : ClientId} {output : Output}
    (member : .queued d output ∈ actsOf c trace) : d = c := by
  simpa [actsOf, Act.client] using (List.mem_filter.mp member).2

theorem no_response_iff : (∀ d response, .queued d (.handshake response) ∉ actsOf c trace) ↔
    ∀ response, .handshake response ∉ outputs c trace := by
  simp only [mem_outputs]
  refine ⟨fun absent response => absent c response, fun absent d response member => ?_⟩
  exact absent response (mem_actsOf_queued member ▸ member)

theorem frames_of_outputs {queued : List Output}
    (frames : ∀ response, .handshake response ∉ queued) :
    ∃ ops : List ServerOp, queued = ops.map Output.frame := by
  induction queued with
  | nil => exact ⟨[], rfl⟩
  | cons output rest ih =>
    obtain ⟨ops, same⟩ := ih fun response member => frames response (List.mem_cons_of_mem _ member)
    cases output with
    | handshake response => exact absurd List.mem_cons_self (frames response)
    | frame op => exact ⟨op :: ops, by rw [same, List.map_cons]⟩

/-- The history goes on, in order. -/
theorem Framed.grows (framed : Framed c trace) (known : shake (actsOf c (trace ++ acts)) ≠ none)
    (first : shake (actsOf c trace) = some .none → FirstOutputs (outputs c acts)) :
    Framed c (trace ++ acts) := by
  rw [actsOf_append, shake_append] at known
  rcases framed with ⟨fresh, refused⟩ | ⟨begun, refusals, response, ops, refused, all⟩
  · rw [fresh] at known
    have stays := (foldl_fresh known).trans no_response_iff
    rw [Framed, Ne, actsOf_append, shake_append, fresh, outputs_append, stays]
    have firsts := first fresh
    generalize outputs c acts = queued at firsts
    cases firsts with
    | nothing => exact Or.inl ⟨by simp, by simpa using refused⟩
    | refusal stack flag =>
      refine Or.inl ⟨by simp, fun output member => ?_⟩
      rcases List.mem_append.mp member with earlier | last
      · exact refused output earlier
      · cases List.mem_singleton.mp last
        rfl
    | response response => exact Or.inr ⟨by simp, _, response, [], refused, rfl⟩
  · obtain ⟨state, here⟩ : ∃ state, shake (actsOf c trace) = some state := by
      apply Option.ne_none_iff_exists'.mp
      intro broken
      exact known (broken ▸ foldl_broken _)
    rw [here] at known begun
    have far : state ≠ .none := fun same => begun (same ▸ rfl)
    obtain ⟨absent, last, reached, begun'⟩ := foldl_begun far known
    obtain ⟨more, same⟩ := frames_of_outputs (no_response_iff.mp absent)
    refine Or.inr ⟨?_, refusals, response, ops ++ more, refused, ?_⟩
    · rw [actsOf_append, shake_append, here, reached]
      exact fun same => begun' (Option.some.inj same)
    · simp [outputs_append, all, same]

end Histories

/-- Without heartbeat a response comes alone. -/
theorem Protocol.Answer.response_alone {proto : Protocol} {c c' : WebsocketClient} {data : Bytes}
    {ret : Bool} {calls more : List Call} {response : Bytes}
    (answer : proto.Answer c c' data ret calls)
    (asked : calls = .sendWithoutFrame (.handshake response) :: more)
    (off : proto.heartbeat = false) : more = [] := by
  cases answer with
  | shaken other fresh waits => simpa [off] using (List.cons.inj asked).2.symm
  | passive shaken closing open_ =>
    rw [decodeClose, if_pos open_] at asked
    split at asked <;> simp at asked
  | _ => simp at asked

/-- The server went on and queued nothing for the client. -/
def Unsent (c : ClientId) (s s' : Server) : Prop :=
  ∃ acts, s'.trace = s.trace ++ acts ∧ outputs c acts = []

namespace Server
variable {env : Setup} {walk : Iteration} {s s' s1 : Server} {c d : ClientId}
  {obj : WebsocketClient}

theorem unsent_closing (s : Server) (d : ClientId) (fd : Nat) : Unsent c s (s.closing d fd) :=
  ⟨_, rfl, by simp [outputs, List.filterMap_eq_nil_iff, actsOf]⟩

theorem unsent_log (s : Server) {a : Act} (quiet : ∀ d output, a ≠ .queued d output) :
    Unsent c s (s.log a) := by
  refine ⟨[a], rfl, List.eq_nil_iff_forall_not_mem.mpr fun output member => ?_⟩
  rw [mem_outputs, actsOf, List.mem_filter, List.mem_singleton] at member
  exact quiet c output member.1.symm

instance : Wheelless (Unsent c) where
  trans := by
    rintro s s1 s' ⟨front, added, none_⟩ ⟨back, added', none_'⟩
    exact ⟨front ++ back, by simp [added, added'], by simp [outputs_append, none_, none_']⟩
  same s := ⟨[], by simp, rfl⟩
  rewheel s _ := ⟨[], by simp, rfl⟩

theorem unsent_put (s : Server) (d : ClientId) (obj : WebsocketClient) :
    Unsent c s (s.put d obj) := ⟨[], by simp [put], rfl⟩

theorem unsent_sent (other : c ≠ d) (obj : WebsocketClient) (output : Output) :
    Unsent c s (s.sent d obj output) :=
  ⟨_, rfl, outputs_other (by simp [Act.client]) other⟩

theorem unsent_moves (other : c ≠ d) : Moves d (Unsent c) where
  write _ _ := unsent_put _ _ _
  queue _ _ _ := unsent_sent other _ _
  received _ _ := unsent_log _ (by simp)
  close _ := unsent_closing _ _ _
  deleted _ := unsent_log _ (by simp)

theorem unsent_offered (s : Server) (d : ClientId) (obj : WebsocketClient) (drained : Drained) :
    Unsent c s (s.offered d obj drained) := by
  refine ⟨drained.calls.map (Act.sendCall d) ++ [.epollCtl d (.mod false)], ?_, ?_⟩
  · simp [offered]
  · simp [outputs, List.filterMap_eq_nil_iff, actsOf]

theorem unsent_userActs {told : List (ClientId × StdString)} (others : ∀ t ∈ told, c ≠ t.1)
    (done : userActs env (told.map fun t => (t.1, .send t.2)) s = .ok s') : Unsent c s s' := by
  induction told generalizing s with
  | nil =>
    cases done
    exact same _
  | cons t rest ih =>
    have later := fun u member => others u (List.mem_cons_of_mem t member)
    rw [List.map_cons, userActs] at done
    split at done
    · obtain ⟨s1, sent, done⟩ := bind_eq_ok.mp done
      obtain ⟨obj, live, rfl⟩ := sendBuffer_cases sent
      exact next (unsent_sent (others t List.mem_cons_self) obj _) (ih later done)
    · exact ih later done

/-- Nobody is told that a client is gone. -/
theorem closeClient_unsent (done : s.closeClient (Main.setup env walk) d = .ok s') :
    Unsent c s s' := by
  obtain ⟨obj, s1, wheel, _, told, rfl⟩ := closeClient_cases done
  have called : Unsent c (s.closing d obj.sockfd) s1 :=
    disconnect_silent d _ (by simp [closing]) s1 told
  have last : Unsent c s1 (s1.deleted d wheel) :=
    ⟨[.deleted d], rfl, by simp [outputs, List.filterMap_eq_nil_iff, actsOf]⟩
  exact next (unsent_closing s d obj.sockfd) (next called last)

/-- An echo is for the client that spoke. -/
theorem recvCallback_unsent (other : c ≠ d) : Leads (Unsent c) s (s.recvCallback (Main.setup env walk) d) := by
  intro s' done
  obtain ⟨obj, known, done⟩ := bind_eq_ok.mp done
  split at done
  · obtain ⟨s1, called, done⟩ := bind_eq_ok.mp done
    obtain ⟨obj1, known1, same⟩ := bind_eq_ok.mp done
    cases same
    rw [callback_eq, delivered_replies] at called
    have told : Unsent c (s.log (.delivered d obj.decodeBuffer)) s1 :=
      unsent_userActs (by simp [other]) called
    exact next (unsent_log s (by simp)) (next told (unsent_put _ _ _))
  · cases done
    exact same _

/-- Nobody is greeted whose handshake is not done. -/
theorem sentCallback_unsent (hosting : s.Hosting)
    (fresh : ∀ obj, s.object c = some obj → obj.isConnected = .none)
    (done : s.sentCallback (Main.setup env walk) d = .ok s') : Unsent c s s' := by
  obtain ⟨s1, connected, done⟩ := bind_eq_ok.mp done
  have begins : Unsent c s s1 := by
    obtain ⟨obj, known, connected⟩ := bind_eq_ok.mp connected
    have live := get_eq_ok known
    split at connected
    · rename_i waits
      obtain ⟨room, hosts⟩ := hosting
      have other : c ≠ d := by
        rintro rfl
        simp [fresh obj live] at waits
      have outside : c ∉ insert d room.members := by
        rw [Finset.mem_insert, hosts.members]
        rintro (rfl | ⟨obj', found, inside⟩)
        · exact other rfl
        · simp [fresh obj' found] at inside
      have called : (s.connecting d obj).callback (Main.setup env walk) = .ok s1 := connected
      rw [callback_eq, connecting_replies] at called
      have told : Unsent c (s.connecting d obj) s1 := by
        refine unsent_userActs (fun t member => ?_) called
        obtain ⟨v, greeted, rfl⟩ := List.mem_map.mp member
        rintro rfl
        exact outside ((greeted_clients hosts d c obj).mp greeted)
      exact next (next (unsent_put s d _) (unsent_log _ (by simp))) told
    · cases connected
      exact same _
  have silent : Main.replies walk (s1.log (.sentCallback d)).trace = [] := replies_silent rfl _
  rw [callback_eq, silent] at done
  have ends : Unsent c (s1.log (.sentCallback d)) s' :=
    unsent_userActs (List.forall_mem_nil _) done
  exact next begins (next (unsent_log s1 (by simp)) ends)

/-- The server went on, and the client got its first strings. -/
def Begins (c : ClientId) (s s' : Server) : Prop :=
  ∃ acts, s'.trace = s.trace ++ acts ∧ FirstOutputs (outputs c acts)

theorem Begins.of_unsent (unsent : Unsent c s s') : Begins c s s' := by
  obtain ⟨acts, added, none_⟩ := unsent
  exact ⟨acts, added, none_ ▸ .nothing⟩

theorem Begins.around (before : Unsent c s s1) {s2 : Server} (begins : Begins c s1 s2)
    (after : Unsent c s2 s') : Begins c s s' := by
  obtain ⟨front, added, none_⟩ := before
  obtain ⟨acts, added1, first⟩ := begins
  obtain ⟨back, added2, none_'⟩ := after
  refine ⟨front ++ acts ++ back, by simp [added, added1, added2], ?_⟩
  rwa [outputs_append, outputs_append, none_, none_', List.append_nil]

theorem begins_sent (obj : WebsocketClient) {output : Output} (first : FirstOutputs [output]) :
    Begins c s (s.sent c obj output) := by
  refine ⟨[.queued c output, .epollCtl c (.mod true)], rfl, ?_⟩
  simpa [outputs, actsOf, Act.client] using first

theorem closeWebsocketClient_begins {flag : CloseFlag}
    (done : s.closeWebsocketClient env c flag = .ok s') : Begins c s s' := by
  obtain ⟨s1, queued, done⟩ := bind_eq_ok.mp done
  obtain ⟨obj, live, rfl⟩ := sendBuffer_cases queued
  have refusal : Begins c s (s.sent c obj
      (.frame (.closeWebsocketClient (env.stack s.trace.length) flag))) :=
    begins_sent obj (.refusal _ flag)
  refine .around (same s) refusal ?_
  obtain ⟨obj1, _, done⟩ := bind_eq_ok.mp done
  split at done
  · obtain ⟨s2, erased, last⟩ := bind_eq_ok.mp done
    obtain ⟨wheel, rfl⟩ := eraseTask_cases erased
    cases last
    exact next (rewheel _ wheel) (unsent_put _ _ _)
  · cases done
    exact same _

/-- A request is refused or answered, and no callback is called. -/
theorem decodeProtoData_begins {now : Int} {data : Bytes} {ret : Bool}
    (off : env.proto.heartbeat = false) (live : s.object c = some obj)
    (fresh : obj.isConnected = .none) (done : s.decodeProtoData env now c data = .ok (ret, s')) :
    ret = false ∧ Begins c s s' := by
  rw [decodeProtoData, get_live live, ok_bind] at done
  split at done
  · contradiction
  · rename_i ret' obj' calls decoded
    obtain ⟨s1, performed, same⟩ := bind_eq_ok.mp done
    cases same
    unfold Protocol.decodeProtoData at decoded
    rw [if_pos fresh] at decoded
    obtain ⟨⟨after, asked⟩, handshake, same⟩ := bind_eq_ok.mp decoded
    cases same
    refine ⟨rfl, ?_⟩
    have received : Unsent c s ((s.log (.received c data)).put c obj') :=
      next (unsent_log s (by simp)) (unsent_put _ _ _)
    have answer := (Protocol.decodeHandshake_answer fresh handshake).2
    cases decodeHandshake_cases handshake with
    | stays httpHeader _ refuses =>
      rcases refuses with rfl | rfl
      · cases performed
        exact .of_unsent received
      · obtain ⟨s2, closes, last⟩ := bind_eq_ok.mp performed
        cases last
        exact .around received (closeWebsocketClient_begins closes) (same _)
    | accepts httpHeader wbKey more upgrade connection key frames =>
      obtain rfl := answer.response_alone rfl off
      rw [performAll, perform, sendBuffer_eq put_self, ok_bind] at performed
      cases performed
      exact .around received (begins_sent _ (.response _)) (same _)

theorem onEvent_begins {e : Event} (hosting : s.Hosting)
    (fresh : ∀ obj, s.object c = some obj → obj.isConnected = .none)
    (done : s.onEvent (Main.setup env walk) e = .ok s') : Begins c s s' := by
  cases onEvent_cases done with
  | missed | refused | silent => exact .of_unsent (same s)
  | hangUp d _ hup known done => exact .of_unsent (closeClient_unsent done)
  | accepts fd =>
    refine .of_unsent ⟨_, rfl, ?_⟩
    simp [outputs, List.filterMap_eq_nil_iff, actsOf]
  | reads d _ hup input foreign known done =>
    by_cases own : c = d
    · subst own
      obtain ⟨m, closed, _, ⟨_, _, gone⟩ | ⟨_, _, rfl⟩ | ⟨_, _, ret, s1, decoded, after⟩⟩ :=
        onInput_cases done
      · exact .of_unsent (closeClient_unsent gone)
      · exact .of_unsent (same s')
      · obtain ⟨obj, found, _⟩ := bind_eq_ok.mp decoded
        have live := get_eq_ok found
        obtain ⟨rfl, begins⟩ := decodeProtoData_begins rfl live (fresh obj live) decoded
        rcases after with ⟨told, _⟩ | ⟨_, rfl⟩
        · contradiction
        · exact begins
    · have := unsent_moves own
      exact .of_unsent (Moves.onInput (R := Unsent c) (disconnect_silent d)
        (fun _ => recvCallback_unsent own) s' done)
  | writes d _ hup input output known done =>
    obtain ⟨obj, drained, live, _, _, called⟩ := onOutput_cases done
    have offers := unsent_offered (c := c) s d obj drained
    refine .of_unsent (next offers (sentCallback_unsent (offered_hosting hosting live drained) ?_ called))
    intro obj' live'
    by_cases own : c = d
    · subst own
      simp only [offered, Function.update_self, Option.some.injEq] at live'
      exact live' ▸ fresh obj live
    · simp only [offered, Function.update_of_ne own] at live'
      exact fresh obj' live'

theorem start_framed (current : Int) (c : ClientId) : Framed c (start current).trace :=
  Or.inl ⟨rfl, List.forall_mem_nil _⟩

theorem onEvent_framed {e : Event} (ordered : Ordered (Main.setup env walk) s) (hosting : s.Hosting)
    (framed : Framed c s.trace) (done : s.onEvent (Main.setup env walk) e = .ok s') :
    Framed c s'.trace := by
  have ordered' := (onEvent_ordered ordered e).of_ok done
  by_cases begun : shake (actsOf c s.trace) = some .none
  · have fresh (obj : WebsocketClient) (live : s.object c = some obj) : obj.isConnected = .none :=
      Option.some.inj ((ordered.live c obj live).1.symm.trans begun)
    obtain ⟨acts, added, first⟩ := onEvent_begins hosting fresh done
    have known := ordered'.known c
    rw [added] at known ⊢
    exact framed.grows known fun _ => first
  · obtain ⟨acts, added⟩ := onEvent_grows e s' done
    have known := ordered'.known c
    rw [← added] at known ⊢
    exact framed.grows known fun fresh => absurd fresh begun

theorem rounds_framed {current : Int} {events : List Event}
    (done : run (Server.onEvent (Main.setup env walk)) (.start current) events = .ok s)
    (c : ClientId) : Ordered (Main.setup env walk) s ∧ s.Hosting ∧ Framed c s.trace := by
  have kept (s : Server) (e : Event) (next : Server)
      (before : s.Rooted ∧ Ordered (Main.setup env walk) s ∧ s.Hosting ∧ Framed c s.trace)
      (taken : s.onEvent (Main.setup env walk) e = .ok next) :
      next.Rooted ∧ Ordered (Main.setup env walk) next ∧ next.Hosting ∧ Framed c next.trace := by
    obtain ⟨rooted, ordered, hosting, framed⟩ := before
    exact ⟨onEvent_rooted rooted taken, (onEvent_ordered ordered e).of_ok taken,
      onEvent_hosting hosting rooted taken, onEvent_framed ordered hosting framed taken⟩
  exact (run_invariant kept ⟨start_rooted current, start_ordered _ current, start_hosting current,
    start_framed current c⟩ done).2

end Server

def Output.closes : Output → Bool
  | .frame op => op.closeFlag.isSome
  | _ => false

def Output.payload : Output → Option StdString
  | .frame (.send payload) => some payload
  | _ => none

/-- The frame that a string is, unless it is a Close. -/
def ServerOp.toFrame : ServerOp → Rfc6455.Frame
  | .send payload => textFrame payload.bytes
  | .heartbeatPing => ⟨true, .ping, none, []⟩
  | .pongReply => ⟨true, .pong, none, []⟩
  | .close _ | .closeWebsocketClient _ _ => ⟨true, .close, none, []⟩

/-- The texts among the frames that a parser finds. -/
def texts (parsed : List Rfc6455.Parsed) : List Bytes :=
  (parsed.filter fun p => p.frame.opcode = .text).map fun p => p.frame.payload

theorem ServerOp.toFrame_encode {op : ServerOp} (open_ : op.closeFlag = none) :
    op.toFrame.encode = op.frame := by
  cases op with
  | send payload => exact sendFrame_encode payload.bytes
  | heartbeatPing | pongReply => rfl
  | close | closeWebsocketClient => contradiction

theorem frames_encode {ops : List ServerOp} (open_ : ∀ op ∈ ops, op.closeFlag = none) :
    ops.flatMap ServerOp.frame = Rfc6455.encodeAll (ops.map ServerOp.toFrame) := by
  induction ops with
  | nil => rfl
  | cons op rest ih =>
    have later := ih fun other member => open_ other (List.mem_cons_of_mem op member)
    simp [later, ServerOp.toFrame_encode (open_ op List.mem_cons_self)]

/-- Frames without a Close are read by a parser. -/
theorem frames_parse {ops : List ServerOp} (open_ : ∀ op ∈ ops, op.closeFlag = none) :
    ∃ parsed, Rfc6455.parseFrames (ops.flatMap ServerOp.frame) = some parsed ∧
      texts parsed = (ops.filterMap fun op => (Output.frame op).payload).map StdString.bytes := by
  refine ⟨(ops.map ServerOp.toFrame).map Rfc6455.Frame.parsed, ?_, ?_⟩
  · rw [frames_encode open_]
    apply Rfc6455.parseFrames_encodeAll
    · intro frame member
      obtain ⟨op, _, rfl⟩ := List.mem_map.mp member
      cases op with
      | send payload => exact Nat.lt_trans payload.bound (by decide)
      | _ => simp [ServerOp.toFrame]
    · intro frame member
      obtain ⟨op, _, rfl⟩ := List.mem_map.mp member
      cases op <;> simp [ServerOp.toFrame, textFrame, Rfc6455.Frame.ControlLegal,
        Rfc6455.Opcode.isControl]
  · induction ops with
    | nil => rfl
    | cons op rest ih =>
      have later := ih fun other member => open_ other (List.mem_cons_of_mem op member)
      cases op <;> simpa [texts, ServerOp.toFrame, textFrame, Rfc6455.Frame.parsed,
        Output.payload] using later

theorem payloads_outputs (s : Server) (c : ClientId) :
    s.payloads c = (outputs c s.trace).filterMap Output.payload := by
  have own (a : Act) (d : ClientId) (payload : StdString) (told : a.told = some (d, payload)) :
      a.client = d := by
    cases a with
    | queued e output =>
      rcases output with response | (payload' | _ | _ | _ | _) <;> cases told
      rfl
    | _ => contradiction
  rw [Server.payloads, filterMap_actsOf Act.told own, outputs, List.filterMap_filterMap]
  refine congrFun (congrArg List.filterMap (funext fun a => ?_)) (actsOf c s.trace)
  cases a with
  | queued d output => rcases output with response | (payload | _ | _ | _ | _) <;> rfl
  | _ => rfl

/-- The strings for a client that got its response and no Close. -/
theorem Shaken.unclosed {queued : List Output} (shaken : Shaken queued)
    (open_ : ∀ output ∈ queued, output.closes = false) :
    ∃ (response : Bytes) (ops : List ServerOp), queued = .handshake response :: ops.map .frame ∧
      ∀ op ∈ ops, op.closeFlag = none := by
  obtain ⟨refusals, response, ops, refused, rfl⟩ := shaken
  have none_ : refusals = [] := by
    refine List.eq_nil_iff_forall_not_mem.mpr fun output member => ?_
    have refuses := refused output member
    have stays := open_ output (List.mem_append_left _ member)
    rcases output with response | (payload | stack | _ | _ | ⟨stack, flag⟩)
    · simp [Output.refuses] at refuses
    · simp [Output.refuses] at refuses
    · simp [Output.refuses] at refuses
    · simp [Output.refuses] at refuses
    · simp [Output.refuses] at refuses
    · simp [Output.closes, ServerOp.closeFlag] at stays
  subst none_
  refine ⟨response, ops, rfl, fun op member => ?_⟩
  have stays := open_ (.frame op) (by simp [member])
  simpa [Output.closes] using stays

/-- The bytes for a client that was let in and not sent a Close, against the payloads. -/
theorem Server.client_reads {env : Setup} {walk : Iteration} {current : Int} {events : List Event}
    {s : Server} (done : run (Server.onEvent (Main.setup env walk)) (.start current) events = .ok s)
    {c : ClientId} {obj : WebsocketClient} (live : s.object c = some obj)
    (begun : obj.isConnected ≠ .none) (open_ : ∀ output ∈ outputs c s.trace, output.closes = false)
    (unblocked : Unblocked (sendCalls c s.trace)) :
    ∃ wbKey stream parsed,
      obj.httpHeader.lookup (ascii "Sec-WebSocket-Key") = some wbKey ∧
      acceptedBytes c s.trace ++ obj.sendBufferQueue.flatten =
        Protocol.generateWebsocketShakeHandsRes (env.proto.websocketAcceptKey wbKey) ++ stream ∧
      Rfc6455.parseFrames stream = some parsed ∧
      texts parsed = (s.payloads c).map StdString.bytes := by
  obtain ⟨ordered, _, framed⟩ := Server.rounds_framed done c
  obtain ⟨state, accepted⟩ := ordered.live c obj live
  obtain ⟨upgrade, connection, wbKey, key, queued⟩ := accepted begun
  have shaken : Shaken (outputs c s.trace) := by
    rcases framed with ⟨fresh, _⟩ | ⟨_, shaken⟩
    · exact absurd (Option.some.inj (state.symm.trans fresh)) begun
    · exact shaken
  obtain ⟨response, ops, all, unclosed⟩ := shaken.unclosed open_
  have answer : Protocol.generateWebsocketShakeHandsRes (env.proto.websocketAcceptKey wbKey) =
      response := by
    have member : Output.handshake (Protocol.generateWebsocketShakeHandsRes
        (env.proto.websocketAcceptKey wbKey)) ∈ outputs c s.trace := by
      refine mem_outputs.mpr (List.mem_filter.mpr ⟨queued, ?_⟩)
      simp [Act.client]
    rw [all] at member
    simpa using member
  obtain ⟨parsed, parses, read⟩ := frames_parse unclosed
  refine ⟨wbKey, ops.flatMap ServerOp.frame, parsed, key, ?_, parses, ?_⟩
  · rw [run_rounds] at done
    obtain ⟨ops', t, ran, sends, along⟩ := run_sends done c
    rw [(sends.conserves_iff ran live).mpr (along.mpr unblocked), queuedBytes, all, answer]
    simp [List.flatMap_map, Output.bytes]
  · rw [read, payloads_outputs, all, List.filterMap_cons, List.filterMap_map]
    rfl

/-- The bytes for a client of the program that was let in and not sent a Close, those that the
kernel took and those that still wait, are the answer to its request and then frames that a
parser reads, and their texts are what the room sent it. -/
theorem chat_client_reads (env : Setup) (walk : Iteration) (current : Int) (events : List Event)
    (s : Server)
    (done : run (Server.onEvent (Main.setup env walk)) (.start current) events = .ok s)
    (c : ClientId) (obj : WebsocketClient) (live : s.object c = some obj)
    (begun : obj.isConnected ≠ .none) (open_ : ∀ output ∈ outputs c s.trace, output.closes = false)
    (unblocked : Unblocked (sendCalls c s.trace)) :
    ∃ room wbKey stream parsed,
      run (Broadcast.Room.step helloWorld) .empty (roomActions s.trace) = .ok room ∧
      obj.httpHeader.lookup (ascii "Sec-WebSocket-Key") = some wbKey ∧
      acceptedBytes c s.trace ++ obj.sendBufferQueue.flatten =
        Protocol.generateWebsocketShakeHandsRes (env.proto.websocketAcceptKey wbKey) ++ stream ∧
      Rfc6455.parseFrames stream = some parsed ∧
      texts parsed = (room.sent c).map StdString.bytes := by
  obtain ⟨_, ⟨room, hosts⟩, _⟩ := Server.rounds_framed done c
  obtain ⟨wbKey, stream, parsed, key, bytes, parses, read⟩ :=
    Server.client_reads done live begun open_ unblocked
  exact ⟨room, wbKey, stream, parsed, hosts.ran, key, bytes, parses, by rw [read, hosts.sent]⟩

/-- A client that heard two greetings and its own words; all but the response still waits. -/
theorem first_client_reads : ∃ s obj, run (Server.onEvent (Main.setup quietSetup .oldest)) (.start 0)
      (comes 5 ++ comes 6 ++ [speaks 5 (ascii "hi")]) = .ok s ∧ s.object 0 = some obj ∧
    ∃ room wbKey stream parsed,
      run (Broadcast.Room.step helloWorld) .empty (roomActions s.trace) = .ok room ∧
      obj.httpHeader.lookup (ascii "Sec-WebSocket-Key") = some wbKey ∧
      acceptedBytes 0 s.trace ++ obj.sendBufferQueue.flatten =
        Protocol.generateWebsocketShakeHandsRes (quietSetup.proto.websocketAcceptKey wbKey) ++
          stream ∧
      Rfc6455.parseFrames stream = some parsed ∧
      texts parsed = (room.sent 0).map StdString.bytes := by
  obtain ⟨s, reached, facts⟩ := reaches (x := run (Server.onEvent
    (Main.setup quietSetup .oldest)) (.start 0) (comes 5 ++ comes 6 ++ [speaks 5 (ascii "hi")]))
    (f := fun s => ((s.object 0).map fun obj => obj.isConnected,
      (outputs 0 s.trace).any Output.closes, (sendCalls 0 s.trace).map SendCall.result))
    (b := (some .connected, false, [.returns 200])) (by decide +kernel)
  obtain ⟨there, more⟩ := Prod.mk.inj facts
  obtain ⟨open_, calls⟩ := Prod.mk.inj more
  obtain ⟨obj, live, connected⟩ := Option.map_eq_some_iff.mp there
  refine ⟨s, obj, reached, live, chat_client_reads quietSetup .oldest 0 _ s reached 0 obj live
    (by simp [connected]) (by simpa using open_) fun call member blocked => ?_⟩
  have result : call.result ∈ (sendCalls 0 s.trace).map SendCall.result :=
    List.mem_map_of_mem member
  rw [calls, blocked] at result
  simp at result

end WebsocketProto
