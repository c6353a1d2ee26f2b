import WebsocketProto.Segmentation
import WebsocketProto.ServerRounds

/-! What the server reads from a connected client and tells the user, in whole runs: the
messages are those of one receiver, whatever happens to other clients in between. -/
namespace WebsocketProto
open Outcome Wheelless
open Rfc6455 (Frame Legal encodeAll messages opened remainder)

/-- A connected client with an open message, and nothing else. -/
def WebsocketClient.listening (buffer : Bytes) : WebsocketClient :=
  { WebsocketClient.new 0 with isConnected := .connected, decodeBuffer := buffer }

/-- What reads make of an open message, and the messages that they complete. -/
def Protocol.hearAll (proto : Protocol) (buffer : Bytes) :
    List Bytes → Except MemoryFault (Bytes × List Bytes)
  | [] => .ok (buffer, [])
  | data :: rest => do
    let (c, received) ← proto.receive (.listening buffer) data
    let (buffer, later) ← proto.hearAll c.decodeBuffer rest
    return (buffer, received.message.toList ++ later)

namespace Protocol
variable {proto : Protocol} {buffer buffer' : Bytes} {front back reads : List Bytes}

theorem hearAll_append {middle : Bytes} {first second : List Bytes}
    (before : proto.hearAll buffer front = .ok (middle, first))
    (after : proto.hearAll middle back = .ok (buffer', second)) :
    proto.hearAll buffer (front ++ back) = .ok (buffer', first ++ second) := by
  induction front generalizing buffer first with
  | nil =>
    cases before
    exact after
  | cons data rest ih =>
    obtain ⟨⟨c, received⟩, read, before⟩ := bind_eq_ok.mp before
    obtain ⟨⟨middle', later⟩, heard, same⟩ := bind_eq_ok.mp before
    cases same
    rw [List.cons_append, hearAll, read, ok_bind]
    simp [ih heard]

/-- A client hears what a receiver with the same open message hears. -/
theorem receive_hears {c : WebsocketClient} {data : Bytes} {r : WebsocketClient × Received}
    (connected : c.isConnected = .connected) (done : proto.receive c data = .ok r) :
    proto.hearAll c.decodeBuffer [data] = .ok (r.1.decodeBuffer, r.2.message.toList) := by
  have same : c.receiving = (WebsocketClient.listening c.decodeBuffer).receiving := by
    simp [WebsocketClient.receiving, WebsocketClient.listening, connected]
  have shaken : c.isConnected ≠ .none := by simp [connected]
  have agrees := receive_same proto same shaken data
  rw [done] at agrees
  obtain ⟨r', done', views⟩ := map_eq_ok agrees.symm
  obtain ⟨receiving, message⟩ := Prod.mk.inj views
  have buffer : r'.1.decodeBuffer = r.1.decodeBuffer := congrArg Prod.fst receiving
  simp [hearAll, done', buffer, message]

/-- A receiver takes the frames of a peer as they are meant, however they are cut into reads that
the server can take. -/
theorem hearAll_served {reads : List (List Frame)} (served : ∀ read ∈ reads, Served read)
    {open_ : Bool} (settled : open_ = false → buffer = []) (legal : Legal open_ reads.flatten)
    (text : ∀ f ∈ reads.flatten, f.opcode = .text → f.fin = true → Utf8Text f.payload) :
    proto.hearAll buffer (reads.map encodeAll) =
      .ok (remainder buffer reads.flatten, messages buffer reads.flatten) := by
  induction reads generalizing buffer open_ with
  | nil => rfl
  | cons read rest ih =>
    rw [List.flatten_cons] at legal text ⊢
    rw [Rfc6455.legal_append] at legal
    obtain ⟨c, received, done, seen, kept, receives⟩ := receive_served proto
      (c := .listening buffer) ⟨rfl, settled⟩ (served read List.mem_cons_self) legal.1
      fun f member => text f (List.mem_append_left _ member)
    have later := ih (fun other member => served other (List.mem_cons_of_mem read member))
      receives.settled legal.2 fun f member => text f (List.mem_append_right _ member)
    rw [List.map_cons, hearAll, done, ok_bind]
    dsimp only
    rw [later, ok_bind, seen, kept, Rfc6455.messages_append, Rfc6455.remainder_append]
    rfl

end Protocol

/-- The reads of a client, and the messages that the user heard from it. -/
def readsOf (c : ClientId) (trace : List Act) : List Bytes :=
  (actsOf c trace).filterMap fun
    | .received _ data => some data
    | _ => none

def heardFrom (c : ClientId) (trace : List Act) : List Bytes :=
  (actsOf c trace).filterMap fun
    | .delivered _ message => some message
    | _ => none

/-- The server went on and read nothing from the client. -/
def Unread (c : ClientId) (s s' : Server) : Prop :=
  ∃ acts, s'.trace = s.trace ++ acts ∧ readsOf c acts = []

/-- It heard nothing from the client either, and the client is the same if it is still there. -/
def Elsewhere (c : ClientId) (s s' : Server) : Prop :=
  ∃ acts, s'.trace = s.trace ++ acts ∧ readsOf c acts = [] ∧ heardFrom c acts = [] ∧
    ∀ obj', s'.object c = some obj' → ∃ obj, s.object c = some obj ∧ obj.Same obj'

section Acts
variable {c d : ClientId} {front back acts : List Act}

theorem readsOf_append : readsOf c (front ++ back) = readsOf c front ++ readsOf c back := by
  simp [readsOf, actsOf_append]

theorem heardFrom_append : heardFrom c (front ++ back) = heardFrom c front ++ heardFrom c back := by
  simp [heardFrom, actsOf_append]

theorem readsOf_nil (silent : ∀ a ∈ acts, ∀ data, a ≠ .received c data) : readsOf c acts = [] := by
  refine List.filterMap_eq_nil_iff.mpr fun a member => ?_
  obtain ⟨inside, own⟩ := List.mem_filter.mp member
  have other := silent a inside
  cases a with
  | received d data =>
    obtain rfl : d = c := by simpa [Act.client] using own
    exact absurd rfl (other data)
  | _ => rfl

theorem heardFrom_nil (silent : ∀ a ∈ acts, ∀ m, a ≠ .delivered c m) : heardFrom c acts = [] := by
  refine List.filterMap_eq_nil_iff.mpr fun a member => ?_
  obtain ⟨inside, own⟩ := List.mem_filter.mp member
  have other := silent a inside
  cases a with
  | delivered d m =>
    obtain rfl : d = c := by simpa [Act.client] using own
    exact absurd rfl (other m)
  | _ => rfl

end Acts

namespace Server
variable {env : Setup} {s s' s1 : Server} {c d : ClientId} {obj obj' : WebsocketClient}

instance : Wheelless (Unread c) where
  trans := by
    rintro s s1 s' ⟨front, added, none_⟩ ⟨back, added', none_'⟩
    exact ⟨front ++ back, by simp [added, added'], by simp [readsOf_append, none_, none_']⟩
  same _ := ⟨[], by simp, rfl⟩
  rewheel _ _ := ⟨[], by simp, rfl⟩

instance (d : ClientId) : Ends d (Unread c) where
  write _ _ := ⟨[], by simp [put], rfl⟩
  queue _ _ _ := ⟨_, rfl, readsOf_nil (by simp)⟩
  close _ := ⟨_, rfl, readsOf_nil (by simp)⟩
  deleted _ := ⟨_, rfl, readsOf_nil (by simp)⟩

instance : Callbacks (Unread c) where
  queues _ := inferInstance
  send _ _ := ⟨_, rfl, readsOf_nil (by simp)⟩
  delivered _ _ := ⟨_, rfl, readsOf_nil (by simp)⟩
  connects _ _ := ⟨_, rfl, readsOf_nil (by simp)⟩
  sentCallback _ := ⟨_, rfl, readsOf_nil (by simp)⟩

instance : Wheelless (Elsewhere c) where
  trans := by
    rintro s s1 s' ⟨front, added, unread, unheard, kept⟩ ⟨back, added', unread', unheard', kept'⟩
    refine ⟨front ++ back, by simp [added, added'], by simp [readsOf_append, unread, unread'],
      by simp [heardFrom_append, unheard, unheard'], fun obj' live' => ?_⟩
    obtain ⟨obj1, live1, same1⟩ := kept' obj' live'
    obtain ⟨obj, live, same⟩ := kept obj1 live1
    exact ⟨obj, live, same.trans same1⟩
  same _ := ⟨[], by simp, rfl, rfl, fun obj live => ⟨obj, live, .refl obj⟩⟩
  rewheel _ _ := ⟨[], by simp, rfl, rfl, fun obj live => ⟨obj, live, .refl obj⟩⟩

/-- What is quiet for everyone. -/
theorem elsewhere_of_quiet (unread : Unread c s s') (quiet : Quiet s s') : Elsewhere c s s' := by
  obtain ⟨acts, added, none_⟩ := unread
  obtain ⟨acts', added', neutral⟩ := quiet.acts
  obtain rfl : acts = acts' := List.append_cancel_left (added.symm.trans added')
  refine ⟨acts, added, none_, heardFrom_nil fun a member m => ?_, fun obj' => quiet.objects c obj'⟩
  rintro rfl
  exact absurd (neutral _ member) (by simp [Act.neutral])

/-- Another client is written. -/
theorem elsewhere_put (other : c ≠ d) (obj : WebsocketClient) {acts : List Act}
    (silent : ∀ a ∈ acts, (∀ data, a ≠ .received c data) ∧ ∀ m, a ≠ .delivered c m) :
    Elsewhere c s { s with
      object := Function.update s.object d (some obj), trace := s.trace ++ acts } := by
  refine ⟨acts, rfl, readsOf_nil fun a member => (silent a member).1,
    heardFrom_nil fun a member => (silent a member).2, fun obj' live' => ⟨obj', ?_, .refl obj'⟩⟩
  simpa [Function.update_of_ne other] using live'

theorem elsewhere_log (s : Server) {a : Act}
    (silent : (∀ data, a ≠ .received c data) ∧ ∀ m, a ≠ .delivered c m) :
    Elsewhere c s (s.log a) := by
  refine ⟨[a], rfl, readsOf_nil ?_, heardFrom_nil ?_, fun obj live => ⟨obj, live, .refl obj⟩⟩
  · exact List.forall_mem_singleton.mpr silent.1
  · exact List.forall_mem_singleton.mpr silent.2

theorem elsewhere_closing (s : Server) (d : ClientId) (fd : Nat) :
    Elsewhere c s (s.closing d fd) := by
  refine ⟨_, rfl, readsOf_nil (by simp), heardFrom_nil (by simp), fun obj live => ⟨obj, ?_, .refl obj⟩⟩
  by_cases own : c = d
  · simp [own, closing] at live
  · simpa [closing, Function.update_of_ne own] using live

theorem elsewhere_moves (other : c ≠ d) : Moves d (Elsewhere c) where
  write {s _ obj'} _ _ := by
    have written := elsewhere_put (s := s) other obj' (List.forall_mem_nil _)
    simpa [put] using written
  queue _ _ _ := elsewhere_put other _ (by simp)
  received _ _ := elsewhere_log _ (by simp [Ne.symm other])
  close _ := elsewhere_closing _ _ _
  deleted _ := elsewhere_log _ (by simp)

theorem userActs_elsewhere (acts : List (ClientId × UserAct)) :
    Leads (Elsewhere c) s (userActs env acts s) := by
  intro s' done
  exact elsewhere_of_quiet (UserSends.userActs (R := Unread c) acts s' done)
    (Frames.userActs acts s' done)

theorem closeClient_elsewhere : Leads (Elsewhere c) s (s.closeClient env d) := by
  intro s' done
  exact elsewhere_of_quiet (Ends.closeClient (R := Unread c) UserSends.disconnectKeeps s' done)
    (Frames.closeClient s' done)

theorem recvCallback_elsewhere (other : c ≠ d) :
    Leads (Elsewhere c) s (s.recvCallback env d) := by
  intro s' done
  obtain ⟨obj, known, done⟩ := bind_eq_ok.mp done
  split at done
  · obtain ⟨s1, called, done⟩ := bind_eq_ok.mp done
    obtain ⟨obj1, known1, same⟩ := bind_eq_ok.mp done
    cases same
    have := elsewhere_moves other
    have told : Elsewhere c s (s.log (.delivered d obj.decodeBuffer)) :=
      elsewhere_log s (by simp [Ne.symm other])
    have heard : Elsewhere c s s1 := next told (userActs_elsewhere _ s1 called)
    exact next heard (Queues.write (get_eq_ok known1) (.of_state rfl rfl rfl))
  · exact Except.ok.inj done ▸ same s

/-- The sent callback, for another client or for one whose handshake is done. -/
theorem sentCallback_elsewhere
    (settled : ∀ obj, s.object c = some obj → obj.isConnected = .connected) :
    Leads (Elsewhere c) s (s.sentCallback env d) := by
  intro s' done
  obtain ⟨s1, connected, done⟩ := bind_eq_ok.mp done
  have begun : Elsewhere c s s1 := by
    obtain ⟨obj, known, connected⟩ := bind_eq_ok.mp connected
    split at connected
    · rename_i waits
      have other : c ≠ d := by
        rintro rfl
        simp [settled obj (get_eq_ok known)] at waits
      have comes : Elsewhere c s (s.connecting d obj) :=
        elsewhere_put other _ (by simp)
      exact next comes (userActs_elsewhere _ s1 connected)
    · exact Except.ok.inj connected ▸ same s
  have logged : Elsewhere c s1 (s1.log (.sentCallback d)) := elsewhere_log s1 (by simp)
  exact next begun (next logged (userActs_elsewhere _ s' done))

theorem elsewhere_offered (live : s.object d = some obj) (drained : Drained) :
    Elsewhere c s (s.offered d obj drained) := by
  refine ⟨drained.calls.map (Act.sendCall d) ++ [.epollCtl d (.mod false)], by simp [offered],
    readsOf_nil ?_, heardFrom_nil ?_, fun obj' live' => ?_⟩
  · simp [or_imp, forall_and]
  · simp [or_imp, forall_and]
  · by_cases own : c = d
    · subst own
      simp only [offered, Function.update_self, Option.some.injEq] at live'
      exact ⟨obj, live, live' ▸ ⟨rfl, rfl, rfl⟩⟩
    · simp only [offered, Function.update_of_ne own] at live'
      exact ⟨obj', live', .refl obj'⟩

theorem elsewhere_admitted (other : c ≠ s.nextClient) (fd : Nat) :
    Elsewhere c s (s.admitted fd) := by
  refine ⟨_, rfl, readsOf_nil (by simp), heardFrom_nil (by simp), fun obj live => ⟨obj, ?_, .refl obj⟩⟩
  simpa [admitted, Function.update_of_ne other] using live

/-- What the steps behind a state of a connected client read from it and told the user. -/
def Hears (env : Setup) (c : ClientId) (obj : WebsocketClient) (s s' : Server) : Prop :=
  ∃ acts, s'.trace = s.trace ++ acts ∧ ∀ obj', s'.object c = some obj' →
    obj'.isConnected = .connected ∧
    env.proto.hearAll obj.decodeBuffer (readsOf c acts) = .ok (obj'.decodeBuffer, heardFrom c acts)

theorem Hears.of_elsewhere (live : s.object c = some obj) (connected : obj.isConnected = .connected)
    (elsewhere : Elsewhere c s s') : Hears env c obj s s' := by
  obtain ⟨acts, added, unread, unheard, kept⟩ := elsewhere
  refine ⟨acts, added, fun obj' live' => ?_⟩
  obtain ⟨obj0, live0, same⟩ := kept obj' live'
  cases live.symm.trans live0
  rw [unread, unheard, same.decodeBuffer]
  exact ⟨same.isConnected.trans connected, rfl⟩

/-- One read is logged, whatever it leads to. -/
theorem onInput_reads {e : Event} {m : Bytes} (input : recvAll e.recvs [] = some (m, false))
    (some_ : m ≠ []) (done : s.onInput env e c = .ok s') :
    ∃ acts, s'.trace = s.trace ++ acts ∧ readsOf c acts = [m] := by
  simp only [onInput, input, closeIf, Bool.false_eq_true, ↓reduceIte, ok_bind, some_] at done
  obtain ⟨⟨ret, s1⟩, decoded, done⟩ := bind_eq_ok.mp done
  obtain ⟨obj, known, decoded⟩ := bind_eq_ok.mp decoded
  split at decoded
  · contradiction
  · rename_i ret' obj' calls answered
    obtain ⟨s2, performed, same⟩ := bind_eq_ok.mp decoded
    cases same
    obtain ⟨_, answer⟩ := Protocol.decodeProtoData_answer answered
    have asked : Unread c ((s.log (.received c m)).put c obj') s1 :=
      Ends.performAll (R := Unread c) UserSends.disconnectKeeps answer.own s1 performed
    have after : Unread c s1 s' := by
      split at done
      · exact Callbacks.recvCallback (R := Unread c) s' done
      · exact Except.ok.inj done ▸ same s1
    obtain ⟨acts, added, unread⟩ := next asked after
    refine ⟨.received c m :: acts, by simp [added, put, log], ?_⟩
    rw [← List.singleton_append, readsOf_append, unread]
    simp [readsOf, actsOf, Act.client]

theorem onInput_hears {e : Event} (live : s.object c = some obj)
    (connected : obj.isConnected = .connected) (done : s.onInput env e c = .ok s') :
    Hears env c obj s s' := by
  obtain ⟨m, closed, input, ⟨_, _, gone⟩ | ⟨_, _, rfl⟩ | ⟨full, rfl, _⟩⟩ := onInput_cases done
  · exact .of_elsewhere live connected (closeClient_elsewhere s' gone)
  · exact .of_elsewhere live connected (same s')
  · obtain ⟨acts, added, read⟩ := onInput_reads input full done
    obtain ⟨r, received, messages, kept⟩ :=
      onInput_receives live (by simp [connected]) input full done
    have told : acts.filterMap Act.message = (r.2.message.map (Prod.mk c)).toList := by
      rw [Server.messages, Server.messages, added, List.filterMap_append] at messages
      exact List.append_cancel_left messages
    have heard : heardFrom c acts = r.2.message.toList := by
      have own (a : Act) (d : ClientId) (m : Bytes) (seen : a.message = some (d, m)) :
          a.client = d := by
        cases a <;> cases seen
        rfl
      have mine := filterMap_actsOf Act.message own c acts
      have all : heardFrom c acts =
          (actsOf c acts).filterMap fun a => a.message.map Prod.snd := by
        refine congrFun (congrArg List.filterMap (funext fun a => ?_)) (actsOf c acts)
        cases a <;> rfl
      rw [all, ← mine, told]
      cases r.2.message <;> simp
    refine ⟨acts, added, fun obj' live' => ?_⟩
    have view := kept obj' live'
    have state : r.1.isConnected = obj.isConnected :=
      (receive_settled (by simp [connected]) received).isConnected
    have buffer : obj'.decodeBuffer = r.1.decodeBuffer := congrArg Prod.fst view
    rw [read, heard, buffer]
    exact ⟨(congrArg Prod.snd view).trans (state.trans connected),
      Protocol.receive_hears connected received⟩

/-- A step reads from one client at most, and hears what a receiver would hear. -/
theorem step_hears {l : Label} (rooted : s.Rooted) (live : s.object c = some obj)
    (connected : obj.isConnected = .connected) (done : s.step env l = .ok s') :
    Hears env c obj s s' := by
  have settled (other : WebsocketClient) (found : s.object c = some other) :
      other.isConnected = .connected := by
    cases live.symm.trans found
    exact connected
  cases l with
  | event e =>
    cases onEvent_cases done with
    | missed | refused | silent => exact .of_elsewhere live connected (same s)
    | hangUp d _ hup known done =>
      exact .of_elsewhere live connected (closeClient_elsewhere s' done)
    | accepts fd =>
      exact .of_elsewhere live connected (elsewhere_admitted (Nat.ne_of_lt (rooted.known live)) fd)
    | reads d _ hup input foreign known done =>
      by_cases own : c = d
      · subst own
        exact onInput_hears live connected done
      · have := elsewhere_moves own
        exact .of_elsewhere live connected
          (Moves.onInput (R := Elsewhere c) (fun _ _ => userActs_elsewhere _)
            (fun _ => recvCallback_elsewhere own) s' done)
    | writes d _ hup input output known done =>
      obtain ⟨other, drained, found, _, _, called⟩ := onOutput_cases done
      refine .of_elsewhere live connected (next (elsewhere_offered found drained)
        (sentCallback_elsewhere (fun obj' live' => ?_) s' called))
      by_cases own : c = d
      · subst own
        simp only [offered, Function.update_self, Option.some.injEq] at live'
        exact live' ▸ settled other found
      · simp only [offered, Function.update_of_ne own] at live'
        exact settled obj' live'
  | user acts => exact .of_elsewhere live connected (userActs_elsewhere acts s' done)
  | beginTick now =>
    obtain ⟨wheel, rfl⟩ := beginTick_cases done
    exact .of_elsewhere live connected (rewheel s wheel)
  | fire =>
    obtain ⟨wheel, rfl | ⟨task, ran⟩⟩ := fire_cases done
    · exact .of_elsewhere live connected (rewheel s wheel)
    · have unread := Callbacks.runTask (R := Unread c) (fun _ => inferInstance) task s' ran
      have quiet := Frames.runTask (R := Quiet) task s' ran
      exact .of_elsewhere live connected (next (rewheel s wheel) (elsewhere_of_quiet unread quiet))

/-- A client that is gone does not come back. -/
def Older (c : ClientId) (s s' : Server) : Prop :=
  c < s.nextClient → c < s'.nextClient ∧ (s.object c = none → s'.object c = none)

theorem older_put (live : s.object d = some obj) (obj' : WebsocketClient) (trace : List Act) :
    Older c s { s with object := Function.update s.object d (some obj'), trace := trace } := by
  refine fun known => ⟨known, fun gone => ?_⟩
  have other : c ≠ d := by
    rintro rfl
    simp [gone] at live
  simpa [Function.update_of_ne other] using gone

instance : Wheelless (Older c) where
  trans _ _ _ first second known :=
    ⟨(second (first known).1).1, fun gone => (second (first known).1).2 ((first known).2 gone)⟩
  same _ known := ⟨known, id⟩
  rewheel _ _ known := ⟨known, id⟩

instance (d : ClientId) : Moves d (Older c) where
  write live _ := older_put live _ _
  queue live _ _ := older_put live _ _
  received _ _ known := ⟨known, id⟩
  close {s _} _ known := by
    refine ⟨known, fun gone => ?_⟩
    by_cases own : c = d
    · simp [own, closing]
    · simpa [closing, Function.update_of_ne own] using gone
  deleted _ known := ⟨known, id⟩

instance : Callbacks (Older c) where
  queues _ := inferInstance
  send live _ := older_put live _ _
  delivered _ _ known := ⟨known, id⟩
  connects live _ := older_put live _ _
  sentCallback _ known := ⟨known, id⟩

theorem step_older {l : Label} (done : s.step env l = .ok s') : Older c s s' := by
  refine Callbacks.step (R := Older c) (fun _ => inferInstance) (fun fd _ known => ?_)
    (fun _ _ _ _ live _ _ => older_put live _ _) s' done
  have other : c ≠ s.nextClient := Nat.ne_of_lt known
  exact ⟨Nat.lt_succ_of_lt known, fun gone => by simpa [admitted, Function.update_of_ne other] using gone⟩

theorem run_older {labels : List Label} (done : run (Server.step env) s labels = .ok s') :
    Older c s s' := by
  have kept (s0 : Server) (l : Label) (next : Server) (before : Older c s s0)
      (taken : s0.step env l = .ok next) : Older c s next :=
    Wheelless.next before (step_older taken)
  exact run_invariant kept (same s) done

theorem run_hears {labels : List Label} (rooted : s.Rooted) (live : s.object c = some obj)
    (connected : obj.isConnected = .connected) (live' : s'.object c = some obj')
    (done : run (Server.step env) s labels = .ok s') : Hears env c obj s s' := by
  induction labels generalizing s obj with
  | nil =>
    cases done
    exact .of_elsewhere live connected (same _)
  | cons l rest ih =>
    obtain ⟨s1, taken, later⟩ := bind_eq_ok.mp done
    have older : c < s1.nextClient ∧ (s1.object c = none → s'.object c = none) :=
      ⟨(step_older taken (rooted.known live)).1,
        (run_older later (step_older taken (rooted.known live)).1).2⟩
    obtain ⟨obj1, live1⟩ : ∃ obj1, s1.object c = some obj1 := by
      refine Option.ne_none_iff_exists'.mp fun gone => ?_
      simp [older.2 gone] at live'
    obtain ⟨front, added, first⟩ := step_hears rooted live connected taken
    obtain ⟨connected1, heard⟩ := first obj1 live1
    obtain ⟨back, added', second⟩ := ih (step_rooted rooted taken) live1 connected1 later
    refine ⟨front ++ back, by simp [added, added'], fun obj2 live2 => ?_⟩
    obtain ⟨connected2, heard'⟩ := second obj2 live2
    rw [readsOf_append, heardFrom_append]
    exact ⟨connected2, Protocol.hearAll_append heard heard'⟩

/-- The messages of the frames that a client sends, however they are cut into reads. -/
theorem Hears.messages (hears : Hears env c obj s s') (empty : obj.decodeBuffer = [])
    (live' : s'.object c = some obj') {acts : List Act} (added : s'.trace = s.trace ++ acts)
    {reads : List (List Frame)} (cut : readsOf c acts = reads.map encodeAll)
    (admitted : Admitted reads) : heardFrom c acts = Rfc6455.messages [] reads.flatten := by
  obtain ⟨acts', added', heard⟩ := hears
  obtain rfl : acts' = acts := List.append_cancel_left (added'.symm.trans added)
  have hears := (heard obj' live').2
  rw [cut, empty, Protocol.hearAll_served admitted.served (fun _ => rfl) admitted.legal
    admitted.text] at hears
  exact (congrArg Prod.snd (Except.ok.inj hears)).symm

theorem run_rooted {current : Int} {labels : List Label}
    (done : run (Server.step env) (.start current) labels = .ok s) : s.Rooted :=
  run_invariant (fun _ _ _ rooted taken => step_rooted rooted taken) (start_rooted current) done

end Server

/-- From any state of a run in which a client is connected, to any later one in which it is still
there: the user heard from it what one receiver makes of the reads from it, whatever other
clients, the timing wheel and user code did in between. -/
theorem server_hears (env : Setup) (current : Int) (labels later : List Label) (s s' : Server)
    (done : run (Server.step env) (.start current) labels = .ok s)
    (done' : run (Server.step env) s later = .ok s') (c : ClientId) (obj obj' : WebsocketClient)
    (live : s.object c = some obj) (connected : obj.isConnected = .connected)
    (live' : s'.object c = some obj') :
    ∃ acts, s'.trace = s.trace ++ acts ∧ env.proto.hearAll obj.decodeBuffer (readsOf c acts) =
      .ok (obj'.decodeBuffer, heardFrom c acts) := by
  obtain ⟨acts, added, heard⟩ :=
    Server.run_hears (Server.run_rooted done) live connected live' done'
  exact ⟨acts, added, (heard obj' live').2⟩

/-- Two reads of a client that shook hands, and another client that comes between them. -/
def interrupted : List Label :=
  [readable 5 [.returns (encodeAll [he, llo, emptyPing]), .wouldBlock] 0, connection 6,
    readable 5 [.returns (encodeAll [emptyPing, emptyPing]), .wouldBlock] 0]

theorem interrupted_runs : ∃ s s' obj obj',
    run (Server.step quietSetup) (.start 0) handshaken = .ok s ∧
    run (Server.step quietSetup) s interrupted = .ok s' ∧ s.object 0 = some obj ∧
    obj.isConnected = .connected ∧ obj.decodeBuffer = [] ∧ s'.object 0 = some obj' ∧
    readsOf 0 s.trace = [handshakeRequest] ∧ readsOf 0 s'.trace =
      handshakeRequest :: [[he, llo, emptyPing], [emptyPing, emptyPing]].map encodeAll := by
  obtain ⟨s, reached, facts⟩ := reaches (x := run (Server.step quietSetup) (.start 0) handshaken)
    (f := fun s => ((s.object 0).map fun obj => (obj.isConnected, obj.decodeBuffer),
      readsOf 0 s.trace)) (b := (some (.connected, []), [handshakeRequest])) (by decide +kernel)
  obtain ⟨s', reached', facts'⟩ := reaches
    (x := run (Server.step quietSetup) (.start 0) (handshaken ++ interrupted))
    (f := fun s => ((s.object 0).isSome, readsOf 0 s.trace)) (b := (true, handshakeRequest ::
      [[he, llo, emptyPing], [emptyPing, emptyPing]].map encodeAll)) (by decide +kernel)
  rw [run_append, reached, ok_bind] at reached'
  obtain ⟨there, read⟩ := Prod.mk.inj facts
  obtain ⟨there', read'⟩ := Prod.mk.inj facts'
  obtain ⟨obj, live, state⟩ := Option.map_eq_some_iff.mp there
  obtain ⟨connected, empty⟩ := Prod.mk.inj state
  obtain ⟨obj', live'⟩ := Option.isSome_iff_exists.mp there'
  exact ⟨s, s', obj, obj', reached, reached', live, connected, empty, live', read, read'⟩

theorem interrupted_hears : ∃ s s' acts, ∃ obj obj' : WebsocketClient,
    run (Server.step quietSetup) (.start 0) handshaken = .ok s ∧
    run (Server.step quietSetup) s interrupted = .ok s' ∧ s'.trace = s.trace ++ acts ∧
    quietSetup.proto.hearAll obj.decodeBuffer (readsOf 0 acts) =
      .ok (obj'.decodeBuffer, heardFrom 0 acts) := by
  obtain ⟨s, s', obj, obj', reached, reached', live, connected, _, live', _⟩ := interrupted_runs
  obtain ⟨acts, added, heard⟩ := server_hears quietSetup 0 handshaken interrupted s s' reached
    reached' 0 obj obj' live connected live'
  exact ⟨s, s', acts, obj, obj', reached, reached', added, heard⟩

/-- The user hears the messages that the frames of a client carry, each once and in order, in
every run whose reads cut these frames so that the server can take them. -/
theorem server_messages (env : Setup) (current : Int) (labels later : List Label) (s s' : Server)
    (done : run (Server.step env) (.start current) labels = .ok s)
    (done' : run (Server.step env) s later = .ok s') (c : ClientId) (obj obj' : WebsocketClient)
    (live : s.object c = some obj) (connected : obj.isConnected = .connected)
    (empty : obj.decodeBuffer = []) (live' : s'.object c = some obj') (acts : List Act)
    (added : s'.trace = s.trace ++ acts) (reads : List (List Frame))
    (cut : readsOf c acts = reads.map encodeAll) (admitted : Admitted reads) :
    heardFrom c acts = messages [] reads.flatten :=
  (Server.run_hears (Server.run_rooted done) live connected live' done').messages empty live'
    added cut admitted

theorem interrupted_message : ∃ s s' acts,
    run (Server.step quietSetup) (.start 0) handshaken = .ok s ∧
    run (Server.step quietSetup) s interrupted = .ok s' ∧ s'.trace = s.trace ++ acts ∧
    heardFrom 0 acts =
      messages [] [[he, llo, emptyPing], [emptyPing, emptyPing]].flatten := by
  obtain ⟨s, s', obj, obj', reached, reached', live, connected, empty, live', read, read'⟩ :=
    interrupted_runs
  obtain ⟨acts, added⟩ := Server.run_grows interrupted s' reached'
  have cut : readsOf 0 acts = [[he, llo, emptyPing], [emptyPing, emptyPing]].map encodeAll := by
    rw [← added, readsOf_append, read] at read'
    exact List.append_cancel_left read'
  exact ⟨s, s', acts, reached, reached', added.symm, server_messages quietSetup 0 handshaken
    interrupted s s' reached reached' 0 obj obj' live connected empty live' acts added.symm _ cut
    hello_admitted⟩

end WebsocketProto
