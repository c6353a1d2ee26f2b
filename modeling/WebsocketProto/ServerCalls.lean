import WebsocketProto.ServerSteps

/-! What `decode_proto_data` can ask of the server, and that the server keeps its invariant
when it does so. -/
namespace WebsocketProto
open Outcome

/-- A read whose first header says CLOSE. -/
def readsClose : Bytes → Bool
  | b0 :: b1 :: _ => decide ((WebsocketHeader.ofBytes b0 b1).opcode.opcode = .close)
  | _ => false

/-- What no read changes in a client. -/
structure WebsocketClient.Keeps (c c' : WebsocketClient) : Prop where
  sockfd : c'.sockfd = c.sockfd
  queue : c'.sendBufferQueue = c.sendBufferQueue
  ids : c'.timeWheelId = c.timeWheelId ∧ c'.timeWheelHeartbeatId = c.timeWheelHeartbeatId
  connected : c'.isConnected = .none → c.isConnected = .none

inductive Protocol.Answer (proto : Protocol) (c c' : WebsocketClient) (data : Bytes) :
    Bool → List Call → Prop where
  | quiet (ret : Bool) : Answer proto c c' data ret []
  | refused (flag : CloseFlag) : Answer proto c c' data false [.closeWebsocketClient flag]
  | shaken (response : Bytes) (fresh : c.isConnected = .none) (waits : c'.isConnected = .waitShake) :
    Answer proto c c' data false (.sendWithoutFrame (.handshake response) ::
      if proto.heartbeat then [.addToTimeWheelHeartbeat] else [])
  | ponged : Answer proto c c' data false [.sendWithoutFrame (.frame .pongReply)]
  | disarmed : Answer proto c c' data false [.removeFromTimeWheel]
  | passive (shaken : c.isConnected ≠ .none) (closing : readsClose data)
    (open_ : c'.waitClose = false) : Answer proto c c' data false (decodeClose c')
  | expiring (shaken : c.isConnected ≠ .none) (closing : readsClose data)
    (closed : c.waitClose = true) : Answer proto c c' data false [.addToTimeWheelExpire .normalClose]

namespace Protocol
variable {proto : Protocol} {c c' : WebsocketClient} {data : Bytes} {ret : Bool}
  {calls : List Call}

theorem websocketShakeHands_cases (proto : Protocol) (c : WebsocketClient) :
    (∃ response, proto.websocketShakeHands c = (true, { c with isConnected := .waitShake },
      [.sendWithoutFrame (.handshake response)])) ∨
    proto.websocketShakeHands c = (false, c, [.closeWebsocketClient .protocolError]) := by
  unfold websocketShakeHands
  split
  · split
    · exact Or.inl ⟨_, rfl⟩
    · exact Or.inr rfl
  · exact Or.inr rfl

theorem decodeHandshake_answer (fresh : c.isConnected = .none)
    (done : proto.decodeHandshake c data = .ok (c', calls)) :
    c.Keeps c' ∧ proto.Answer c c' data false calls := by
  obtain ⟨⟨decoded, httpHeader⟩, _, done⟩ := bind_eq_ok.mp done
  have kept : c.Keeps { c with recvBuffer := data, httpHeader := httpHeader } :=
    ⟨rfl, rfl, ⟨rfl, rfl⟩, id⟩
  cases decoded with
  | false =>
    obtain ⟨rfl, rfl⟩ := Prod.mk.inj (Except.ok.inj done)
    exact ⟨kept, .quiet false⟩
  | true =>
    simp only [Bool.true_eq_false, ↓reduceIte] at done
    rcases websocketShakeHands_cases proto { c with recvBuffer := data, httpHeader := httpHeader }
      with ⟨response, shaken⟩ | refused
    · rw [shaken] at done
      obtain ⟨rfl, same⟩ := Prod.mk.inj (Except.ok.inj done)
      refine ⟨⟨rfl, rfl, ⟨rfl, rfl⟩, nofun⟩, ?_⟩
      have answer : proto.Answer c { c with
          recvBuffer := data, httpHeader := httpHeader, isConnected := .waitShake } data false _ :=
        .shaken response fresh rfl
      cases on : proto.heartbeat <;> simpa [on, ← same] using answer
    · rw [refused] at done
      obtain ⟨rfl, rfl⟩ := Prod.mk.inj (Except.ok.inj done)
      exact ⟨kept, .refused _⟩

theorem finishDecode_keeps (c : WebsocketClient) (jump : Jump) (st : DecodeState) :
    c.Keeps (finishDecode c jump st).2 := by
  unfold finishDecode
  split
  · exact ⟨rfl, rfl, ⟨rfl, rfl⟩, id⟩
  · dsimp only
    split <;> exact ⟨rfl, rfl, ⟨rfl, rfl⟩, id⟩

theorem decodeWebsocketDataFrame_keeps {flag : CloseFlag}
    (done : decodeWebsocketDataFrame c = .ok (flag, c')) : c.Keeps c' := by
  obtain ⟨⟨jump, st⟩, _, done⟩ := bind_eq_ok.mp done
  have result : (finishDecode c.markStreaming jump st).2 = c' :=
    congrArg Prod.snd (Except.ok.inj done)
  have marked : c.Keeps c.markStreaming := by
    unfold WebsocketClient.markStreaming
    split <;> exact ⟨rfl, rfl, ⟨rfl, rfl⟩, id⟩
  obtain ⟨sockfd, queue, ids, connected⟩ := finishDecode_keeps c.markStreaming jump st
  rw [result] at sockfd queue ids connected
  exact ⟨sockfd.trans marked.sockfd, queue.trans marked.queue,
    ⟨ids.1.trans marked.ids.1, ids.2.trans marked.ids.2⟩,
    fun none_ => marked.connected (connected none_)⟩

theorem decodeFrame_answer (shaken : c.isConnected ≠ .none)
    (closing : c.wbHeader.opcode.opcode = .close → readsClose data)
    (done : decodeFrame c = .ok (ret, c', calls)) :
    c.Keeps c' ∧ proto.Answer c c' data ret calls := by
  have kept : c.Keeps c := ⟨rfl, rfl, ⟨rfl, rfl⟩, id⟩
  have frames (done : (decodeWebsocketDataFrame c >>= fun result =>
      if result.1 ≠ .success then pure (false, result.2, [.closeWebsocketClient result.1])
      else pure (result.2.wbHeader.opcode.fin, result.2, [])) = .ok (ret, c', calls)) :
      c.Keeps c' ∧ proto.Answer c c' data ret calls := by
    obtain ⟨⟨flag, after⟩, decoded, done⟩ := bind_eq_ok.mp done
    have kept := decodeWebsocketDataFrame_keeps decoded
    dsimp only at done
    split at done
    · obtain ⟨rfl, rfl, rfl⟩ := Except.ok.inj done
      exact ⟨kept, .refused flag⟩
    · obtain ⟨rfl, rfl, rfl⟩ := Except.ok.inj done
      exact ⟨kept, .quiet _⟩
  unfold decodeFrame at done
  cases kind : c.wbHeader.opcode.opcode with
  | close =>
    rw [kind] at done
    obtain ⟨rfl, rfl, rfl⟩ := Except.ok.inj done
    refine ⟨kept, ?_⟩
    cases waits : c.waitClose with
    | false => exact .passive shaken (closing kind) waits
    | true =>
      have only : decodeClose c = [.addToTimeWheelExpire .normalClose] := by
        simp [decodeClose, waits]
      rw [only]
      exact .expiring shaken (closing kind) waits
  | pong =>
    rw [kind] at done
    obtain ⟨rfl, rfl, rfl⟩ := Except.ok.inj done
    refine ⟨kept, ?_⟩
    split
    · exact .disarmed
    · exact .quiet false
  | ping =>
    rw [kind] at done
    obtain ⟨rfl, rfl, rfl⟩ := Except.ok.inj done
    exact ⟨kept, .ponged⟩
  | unnamed value =>
    rw [kind] at done
    obtain ⟨rfl, rfl, rfl⟩ := Except.ok.inj done
    exact ⟨kept, .quiet _⟩
  | _ =>
    rw [kind] at done
    exact frames done

theorem decodeProtoData_answer (done : proto.decodeProtoData c data = .ok (ret, c', calls)) :
    c.Keeps c' ∧ proto.Answer c c' data ret calls := by
  unfold decodeProtoData at done
  split at done
  · rename_i fresh
    obtain ⟨⟨after, asked⟩, decoded, done⟩ := bind_eq_ok.mp done
    obtain ⟨rfl, rfl, rfl⟩ := Except.ok.inj done
    exact decodeHandshake_answer fresh decoded
  · rename_i shaken
    split at done
    · rename_i b0 b1 rest
      have loaded : (c.loaded b0 b1 rest).Keeps c' ∧
          proto.Answer (c.loaded b0 b1 rest) c' (b0 :: b1 :: rest) ret calls :=
        decodeFrame_answer shaken (by simp [readsClose, WebsocketClient.loaded]) done
      obtain ⟨⟨sockfd, queue, ids, connected⟩, answer⟩ := loaded
      refine ⟨⟨sockfd, queue, ids, connected⟩, ?_⟩
      cases answer with
      | quiet => exact .quiet _
      | refused flag => exact .refused flag
      | shaken response fresh waits => exact .shaken response fresh waits
      | ponged => exact .ponged
      | disarmed => exact .disarmed
      | passive shaken closing open_ => exact .passive shaken closing open_
      | expiring shaken closing closed => exact .expiring shaken closing closed
    · obtain ⟨rfl, rfl, rfl⟩ := Except.ok.inj done
      exact ⟨⟨rfl, rfl, ⟨rfl, rfl⟩, id⟩, .refused _⟩

end Protocol

/-- A new task of one's own. -/
structure Adds (c : ClientId) (id : Nat) (fn : Task) (wheel wheel' : TimeWheel Task) : Prop where
  own : OwnTasks c wheel wheel'
  id_eq : id = wheel.nextId
  nextId : wheel'.nextId = wheel.nextId + 1
  left : ∀ task, task ∈ wheel'.pending ↔ task = (id, fn) ∨ task ∈ wheel.pending

theorem add_own {c : ClientId} {wheel wheel' : TimeWheel Task} {id : Nat} {fn : Task}
    {now expire : Int} {circleCount : UInt32} (tidy : wheel.Tidy) (endless : Endless wheel)
    (room : wheel.nextId < 2 ^ 32) (mine : fn.client = c)
    (counts : ∀ d, fn = .heartbeat d → circleCount = FULL_CIRCLE)
    (done : wheel.addTask now fn expire circleCount false 0 = .ok (wheel', id)) :
    Adds c id fn wheel wheel' := by
  obtain ⟨⟨tidy', left⟩, id_eq, nextId, rounds⟩ := TimeWheel.addTask_leaves tidy room done
  refine ⟨⟨tidy', ?_, ?_, ?_, ?_, ?_⟩, id_eq, nextId, left⟩
  · intro d count member
    rcases rounds _ member with same | old
    · obtain ⟨beats, rfl⟩ := Prod.mk.inj same
      exact counts d beats.symm
    · exact endless d count old
  · rw [nextId]
    exact room
  · rw [nextId]
    exact Nat.le_succ _
  · intro other fn' captures
    refine (left _).trans (or_iff_right ?_)
    intro same
    exact captures ((Prod.mk.inj same).2 ▸ mine)
  · intro other fn' member
    rcases (left _).mp member with same | old
    · exact Or.inr (id_eq ▸ Nat.le_of_eq (Prod.mk.inj same).1.symm)
    · exact Or.inl old

namespace Server
variable {env : Setup} {strict : Prop} {busy : Option ClientId} {s : Server} {c : ClientId}
  {obj : WebsocketClient} {now : Int}

theorem removeFromTimeWheel_good (good : Good env strict busy s) (live : s.object c = some obj) :
    Ensures Fault.freed (s.removeFromTimeWheel c) fun s' => Good env strict busy s' ∧
      s'.object c = some { obj with timeWheelId := 0 } ∧ s'.wheel.nextId = s.wheel.nextId := by
  have alive := good.alive live
  rw [removeFromTimeWheel, get_live live, ok_bind]
  cases erased : s.wheel.eraseTask obj.timeWheelId with
  | error fault => simp [Server.eraseTask, erased, Ensures, Fault.freed]
  | ok result =>
    obtain ⟨wheel', found⟩ := result
    obtain ⟨tasks, nextId, left⟩ := erase_own good.tidy good.endless good.room
      alive.issued.1 (fun fn member => by rw [alive.owned fn member, Task.client]) erased
    simp only [Server.eraseTask, erased, ok_bind, pure_ok, put]
    refine ⟨?_, Function.update_self .., nextId⟩
    have changed := good.change live { obj with timeWheelId := 0 } [] wheel' rfl
      (List.forall_mem_nil _) tasks
    simp only [List.append_nil] at changed
    apply changed
    obtain ⟨running, heartbeat, expire, owned, only, issued, silent, stage, ended, hushed⟩ := alive
    refine ⟨running, ?_, fun named => absurd rfl named, ?_, ?_, ?_, silent, stage, ended, hushed⟩
    · intro id
      refine (left _).trans ((and_iff_left_of_imp ?_).trans (heartbeat id))
      rintro member rfl
      cases owned _ member
    · intro fn member
      exact absurd (tasks.tidy.bounds member).1 (Nat.lt_irrefl 0)
    · intro holds id member
      obtain ⟨old, other⟩ := (left _).mp member
      exact absurd (only holds id old) other
    · rw [nextId]
      exact ⟨good.tidy.counted, issued.2⟩

theorem addToTimeWheelExpire_good (good : Good env strict busy s) (live : s.object c = some obj)
    (room : s.wheel.nextId < 2 ^ 32) (unarmed : strict → obj.timeWheelId = 0) :
    Ensures Fault.freed (s.addToTimeWheelExpire now c) (Good env strict busy) := by
  have alive := good.alive live
  rw [addToTimeWheelExpire]
  cases added : s.wheel.addTask now (.expire c) defaultExpireTime 1 false 0 with
  | error fault => simp [Server.addTask, added, Ensures, Fault.freed]
  | ok result =>
    obtain ⟨wheel', id⟩ := result
    have once (d : ClientId) : Task.expire c = .heartbeat d → (1 : UInt32) = FULL_CIRCLE := by
      rintro ⟨⟩
    obtain ⟨tasks, rfl, nextId, left⟩ := add_own good.tidy good.endless room rfl once added
    have still : { s with wheel := wheel' }.object c = some obj := live
    simp only [Server.addTask, added, ok_bind, get_live still, put]
    have changed := good.change live { obj with timeWheelId := s.wheel.nextId } [] wheel' rfl
      (List.forall_mem_nil _) tasks
    simp only [List.append_nil] at changed
    apply changed
    obtain ⟨running, heartbeat, expire, owned, only, issued, silent, stage, ended, hushed⟩ := alive
    refine ⟨running, ?_, ?_, ?_, ?_, ?_, silent, stage, ended, hushed⟩
    · intro id
      refine (left _).trans ((or_iff_right ?_).trans (heartbeat id))
      rintro ⟨⟩
    · exact fun _ _ => (left _).mpr (Or.inl rfl)
    · intro fn member
      rcases (left _).mp member with same | old
      · exact (Prod.mk.inj same).2
      · exact absurd (good.tidy.bounds old).2 (Nat.lt_irrefl _)
    · intro holds id member
      rcases (left _).mp member with same | old
      · exact (Prod.mk.inj same).1
      · have zero := (only holds id old).trans (unarmed holds)
        exact absurd (good.tidy.bounds old).1 (by omega)
    · dsimp only
      omega

theorem addToTimeWheelHeartbeat_good (good : Good env strict busy s)
    (live : s.object c = some obj) (room : s.wheel.nextId < 2 ^ 32)
    (on : env.proto.heartbeat = true) (begun : obj.isConnected ≠ .none)
    (still : stageOf (actsOf c s.trace) ≠ .ended) (unarmed : obj.timeWheelHeartbeatId = 0) :
    Ensures Fault.freed (s.addToTimeWheelHeartbeat now c) (Good env strict busy) := by
  have alive := good.alive live
  rw [addToTimeWheelHeartbeat]
  cases added : s.wheel.addTask now (.heartbeat c) defaultHeartbeatTime FULL_CIRCLE false 0 with
  | error fault => simp [Server.addTask, added, Ensures, Fault.freed]
  | ok result =>
    obtain ⟨wheel', id⟩ := result
    obtain ⟨tasks, rfl, nextId, left⟩ := add_own good.tidy good.endless room rfl
      (fun _ _ => rfl) added
    have there : { s with wheel := wheel' }.object c = some obj := live
    simp only [Server.addTask, added, ok_bind, get_live there, put]
    have changed := good.change live { obj with timeWheelHeartbeatId := s.wheel.nextId } [] wheel'
      rfl (List.forall_mem_nil _) tasks
    simp only [List.append_nil] at changed
    apply changed
    obtain ⟨running, heartbeat, expire, owned, only, issued, silent, stage, ended, hushed⟩ := alive
    refine ⟨running, ?_, ?_, ?_, ?_, ?_, ?_, stage, fun gone => absurd gone still, hushed⟩
    · intro id
      have none_ : (id, .heartbeat c) ∉ s.wheel.pending := fun member =>
        ((heartbeat id).mp member).2 (((heartbeat id).mp member).1 ▸ unarmed)
      refine (left _).trans ((or_iff_left none_).trans ?_)
      have counted := good.tidy.counted
      constructor
      · intro same
        obtain ⟨rfl, _⟩ := Prod.mk.inj same
        exact ⟨rfl, Nat.ne_of_gt counted⟩
      · rintro ⟨rfl, _⟩
        rfl
    · exact fun named free => (left _).mpr (Or.inr (expire named free))
    · intro fn member
      rcases (left _).mp member with same | old
      · exact absurd (Prod.mk.inj same).1 (Nat.ne_of_lt issued.1)
      · exact owned fn old
    · intro holds id member
      rcases (left _).mp member with same | old
      · cases same
      · exact only holds id old
    · dsimp only
      omega
    · rintro (off | none_)
      · rw [on] at off
        contradiction
      · exact absurd none_ begun

theorem performAll_one (call : Call) :
    performAll env now c [call] s = s.perform env now c call := by
  simp only [performAll]
  cases s.perform env now c call <;> rfl

theorem handshake_good (good : Good env strict busy s) (live : s.object c = some obj)
    (begun : obj.isConnected ≠ .none) (fresh : stageOf (actsOf c s.trace) = .fresh)
    (unarmed : obj.timeWheelHeartbeatId = 0) (response : Bytes) :
    Good env strict busy (s.sent c obj (.handshake response)) ∧
      stageOf (actsOf c (s.sent c obj (.handshake response)).trace) = .accepted := by
  have mine : ∀ a ∈ [Act.queued c (.handshake response), .epollCtl c (.mod true)],
      a.client = c := by simp [Act.client]
  have accepted : stageOf (actsOf c s.trace ++
      [.queued c (.handshake response), .epollCtl c (.mod true)]) = .accepted := by
    rw [stageOf_append, fresh]
    rfl
  obtain ⟨running, heartbeat, expire, owned, only, issued, silent, stage, ended, hushed⟩ :=
    good.alive live
  refine ⟨good.change live _ _ s.wheel rfl mine (.refl good c) ?_, ?_⟩
  · refine ⟨?_, heartbeat, expire, owned, only, issued, silent, ?_, fun _ => unarmed, ?_⟩
    · exact running_pair running rfl rfl
    · exact fun none_ => absurd none_ begun
    · apply hushed.quiet
      simp
  · rw [sent, actsOf_append, actsOf_own mine]
    exact accepted

/-- The calls with which a CLOSE is answered by closing the connection. -/
theorem passive_good (good : Good env strict none s) (live : s.object c = some obj)
    (open_ : obj.waitClose = false) :
    Ensures Fault.freed (performAll env now c (Protocol.decodeClose obj) s) (Good env strict none) := by
  have closing (s : Server) (obj : WebsocketClient) (good : Good env strict none s)
      (live : s.object c = some obj) : Ensures Fault.freed
      (performAll env now c [.closeWebsocketClient .normalClose, .closeClient] s)
      (Good env strict none) := by
    rw [performAll]
    apply (closeWebsocketClient_good good live .normalClose).bind
    rintro s1 ⟨good1, ⟨obj1, live1, _⟩, _⟩
    rw [performAll_one]
    exact (closeClient_good good1 live1 (Or.inl rfl)).mono fun s2 done => done.1
  rw [Protocol.decodeClose, if_pos open_]
  split
  · apply (removeFromTimeWheel_good good live).bind
    rintro s1 ⟨good1, live1, _⟩
    exact closing s1 _ good1 live1
  · exact closing s obj good live

/-- The expiry task of a client is not added twice. -/
def Unarmed (obj : WebsocketClient) (data : Bytes) : Prop :=
  obj.isConnected ≠ .none → readsClose data → obj.waitClose = true → obj.timeWheelId = 0

theorem decodeProtoData_good (good : Good env strict none s) (live : s.object c = some obj)
    (room : s.wheel.nextId < 2 ^ 32) {data : Bytes} (unarmed : strict → Unarmed obj data) :
    Ensures Fault.freed (s.decodeProtoData env now c data) fun result =>
      Good env strict none result.2 ∧
        (result.1 = true → ∃ obj', result.2.object c = some obj') := by
  rw [decodeProtoData, get_live live, ok_bind]
  cases decoded : env.proto.decodeProtoData obj data with
  | error fault => simp [Ensures, Fault.freed]
  | ok result =>
    obtain ⟨ret, obj', calls⟩ := result
    obtain ⟨kept, answer⟩ := Protocol.decodeProtoData_answer decoded
    have read : Good env strict none ((s.log (.received c data)).put c obj') :=
      good.touch live obj' [.received c data] kept.ids kept.sockfd kept.connected
        (by simp [Act.client]) (by simp [Act.plain, Act.ends])
    have live' : ((s.log (.received c data)).put c obj').object c = some obj' :=
      Function.update_self ..
    have past : stageOf (actsOf c ((s.log (.received c data)).put c obj').trace) =
        stageOf (actsOf c s.trace) := by
      have one : actsOf c [Act.received c data] = [.received c data] :=
        actsOf_own (by simp [Act.client])
      rw [put, log, actsOf_append, one]
      exact stageOf_plain _ _ (by simp [Act.plain, Act.ends])
    have alone (calls : List Call) (done : Ensures Fault.freed
        (performAll env now c calls ((s.log (.received c data)).put c obj'))
        (Good env strict none)) :
        Ensures Fault.freed (performAll env now c calls ((s.log (.received c data)).put c obj') >>=
          fun s' => pure (false, s')) fun result => Good env strict none result.2 ∧
            (result.1 = true → ∃ obj', result.2.object c = some obj') :=
      done.bind fun s' good' => ⟨good', fun kept => absurd kept Bool.false_ne_true⟩
    dsimp only
    cases answer with
    | quiet => exact ⟨read, fun _ => ⟨obj', live'⟩⟩
    | refused flag =>
      apply alone
      rw [performAll_one]
      exact (closeWebsocketClient_good read live' flag).mono fun s' done => done.1
    | shaken response fresh waits =>
      have alive := good.alive live
      have begun : obj'.isConnected ≠ .none := by rw [waits]; decide
      have zero : obj'.timeWheelHeartbeatId = 0 := by
        rw [kept.ids.2]
        exact alive.silent (Or.inr fresh)
      obtain ⟨sent_, accepted⟩ := handshake_good read live' begun
        (past.trans (alive.stage fresh)) zero response
      apply alone
      rw [performAll, perform, sendBuffer_eq live', ok_bind]
      split
      · rename_i on
        rw [performAll_one]
        exact addToTimeWheelHeartbeat_good sent_ (Function.update_self ..) room on begun
          (by rw [accepted]; decide) zero
      · exact sent_
    | ponged =>
      apply alone
      rw [performAll_one, perform, sendBuffer_eq live']
      exact sendBuffer_plain read live' _ rfl
    | disarmed =>
      apply alone
      rw [performAll_one]
      exact (removeFromTimeWheel_good read live').mono fun s' done => done.1
    | passive shaken closing open_ =>
      apply alone
      exact passive_good read live' open_
    | expiring shaken closing closed =>
      apply alone
      rw [performAll_one]
      exact addToTimeWheelExpire_good read live' room fun holds =>
        kept.ids.1.trans (unarmed holds shaken closing closed)

end Server
end WebsocketProto
