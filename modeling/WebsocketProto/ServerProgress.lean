import WebsocketProto.HttpSafety
import WebsocketProto.ServerDeadline
import WebsocketProto.ServerHeartbeats
import WebsocketProto.TimeWheelCounts

/-! When the event loop goes on. Nothing stops a run of events but what the kernel or a client
does wrong in it: every access stays inside its object, and the wheel is never left locked. -/
namespace WebsocketProto
open Outcome

namespace TimeWheel
variable {F : Type} {s : TimeWheel F}

/-- The wheel behind the erasure of a pending task. -/
structure Forgets (s : TimeWheel F) (id : Nat) (s' : TimeWheel F) : Prop where
  tidy : s'.Tidy
  free : s'.locked = false
  nextId : s'.nextId = s.nextId
  left : ∀ task, task ∈ s'.pending ↔ task ∈ s.pending ∧ task.1 ≠ id

theorem eraseTask_held (tidy : s.Tidy) (free : s.locked = false) {id : Nat} {fn : F}
    (small : s.nextId ≤ 2 ^ 32) (held : (id, fn) ∈ s.pending) :
    ∃ s', s.eraseTask id = .ok (s', true) ∧ Forgets s id s' := by
  have low : id < 2 ^ 32 := Nat.lt_of_lt_of_le (tidy.bounds held).2 small
  have ran : ∃ r, s.eraseTask id = .ok r := by
    rw [eraseTask, if_neg (by simp [free])]
    split
    · exact ⟨_, rfl⟩
    · exact ⟨_, rfl⟩
  obtain ⟨⟨s', found⟩, done⟩ := ran
  obtain ⟨leaves, nextId, pending, locked, _⟩ := eraseTask_leaves tidy low done
  obtain rfl : found = true := pending.mpr ⟨fn, held⟩
  exact ⟨s', done, leaves.tidy, locked, nextId, leaves.pending⟩

end TimeWheel

/-- What a client may send: to be shaken hands with, a text that the parser of requests can read,
and behind that frames of data that the decoder can walk, the terminating NUL included; other frames
are not looked into. -/
def Legible (obj : WebsocketClient) (data : Bytes) : Prop :=
  if obj.isConnected = .none then Readable data
  else match data with
    | b0 :: b1 :: rest => (OpcodeBit.ofByte b0).opcode.isData = true →
      ∃ visited ending, Walk (rest.length + 2) 1 (.ofBytes b0 b1) (rest ++ [0]) visited ending
    | _ => True

theorem decodeHandshake_legible (proto : Protocol) (obj : WebsocketClient) (data : Bytes) :
    (∃ r, proto.decodeHandshake obj data = .ok r) ↔ Readable data := by
  constructor
  · rintro ⟨r, done⟩
    obtain ⟨decoded, found, _⟩ := bind_eq_ok.mp done
    refine (readable_or_past data).resolve_right fun past => ?_
    rw [past] at found
    contradiction
  · intro readable
    obtain ⟨⟨decoded, httpHeader⟩, found⟩ := readable.decodes obj.httpHeader
    rw [Protocol.decodeHandshake, found, ok_bind]
    cases decoded <;> exact ⟨_, rfl⟩

theorem decodeFrame_legible (c : WebsocketClient) (b0 b1 : Byte) (rest : Bytes) :
    (∃ r, Protocol.decodeFrame (c.loaded b0 b1 rest) = .ok r) ↔
      ((OpcodeBit.ofByte b0).opcode.isData = true →
        ∃ visited ending, Walk (rest.length + 2) 1 (.ofBytes b0 b1) (rest ++ [0]) visited ending) := by
  cases data : (OpcodeBit.ofByte b0).opcode.isData with
  | true =>
    have kind : (c.loaded b0 b1 rest).wbHeader.opcode.opcode.isData = true := data
    rw [decodeFrame_data kind, decodeWebsocketDataFrame, decodeInMemory, loaded_markStreaming]
    constructor
    · rintro ⟨r, done⟩ _
      obtain ⟨_, decoded, _⟩ := map_eq_ok done
      obtain ⟨_, frames, _⟩ := bind_eq_ok.mp decoded
      exact decodeFrames_inv _ b0 b1 rest nul_near frames
    · intro walks
      obtain ⟨visited, ending, walk⟩ := walks rfl
      obtain ⟨st, frames, _⟩ := decodeFrames_walk
        { c with isStreaming := !(OpcodeBit.ofByte b0).fin || c.isStreaming } b0 b1 rest nul_near walk
      rw [frames]
      exact ⟨_, rfl⟩
  | false =>
    refine iff_of_true ?_ fun shown => absurd shown Bool.false_ne_true
    simp only [Protocol.decodeFrame]
    cases kind : (c.loaded b0 b1 rest).wbHeader.opcode.opcode with
    | close | pong | ping | unnamed => exact ⟨_, rfl⟩
    | textFrame | binaryFrame | continuationFrame =>
      have isData : (OpcodeBit.ofByte b0).opcode.isData = true := congrArg OpcodeFlag.isData kind
      rw [data] at isData
      contradiction

theorem decodeProtoData_legible (proto : Protocol) (obj : WebsocketClient) (data : Bytes) :
    (∃ r, proto.decodeProtoData obj data = .ok r) ↔ Legible obj data := by
  unfold Protocol.decodeProtoData Legible
  by_cases fresh : obj.isConnected = .none
  · rw [if_pos fresh, if_pos fresh, ← decodeHandshake_legible proto obj data]
    constructor
    · rintro ⟨r, done⟩
      obtain ⟨decoded, found, _⟩ := bind_eq_ok.mp done
      exact ⟨decoded, found⟩
    · rintro ⟨decoded, found⟩
      rw [found]
      exact ⟨_, rfl⟩
  · rw [if_neg fresh, if_neg fresh]
    match data with
    | [] => exact iff_of_true ⟨_, rfl⟩ trivial
    | [_] => exact iff_of_true ⟨_, rfl⟩ trivial
    | b0 :: b1 :: rest => exact decodeFrame_legible obj b0 b1 rest

/-- A deadline is only taken back that is there. -/
theorem decodeProtoData_armed {proto : Protocol} {c c' : WebsocketClient} {data : Bytes} {ret : Bool}
    {calls : List Call} (done : proto.decodeProtoData c data = .ok (ret, c', calls))
    (member : .removeFromTimeWheel ∈ calls) : c'.timeWheelId ≠ 0 := by
  obtain ⟨_, answer⟩ := Protocol.decodeProtoData_answer done
  cases answer with
  | quiet | refused | ponged | expiring => simp at member
  | shaken response fresh waits => cases proto.heartbeat <;> simp at member
  | passive shaken closing open_ =>
    rw [Protocol.decodeClose, if_pos open_] at member
    split at member
    · assumption
    · simp at member
  | disarmed =>
    obtain ⟨shaken, pong⟩ := disarmed_pong done
    rcases data with _ | ⟨b0, _ | ⟨b1, rest⟩⟩
    · contradiction
    · contradiction
    · have kind : (c.loaded b0 b1 rest).wbHeader.opcode.opcode = .pong := of_decide_eq_true pong
      simp only [Protocol.decodeProtoData, if_neg shaken, Protocol.decodeFrame, kind] at done
      obtain ⟨_, same⟩ := Prod.mk.inj (Except.ok.inj done)
      obtain ⟨rfl, asked⟩ := Prod.mk.inj same
      intro zero
      rw [if_neg (by simpa using zero)] at asked
      contradiction

namespace Server
variable {env : Setup} {strict : Prop} {s s' : Server} {c : ClientId} {obj : WebsocketClient}
  {now : Int}

/-- The operation returns, and the lock of the wheel is free then. -/
def Works (x : Except Fault Server) : Prop := ∃ s', x = .ok s' ∧ s'.wheel.locked = false

theorem Works.bind {x : Except Fault Server} {f : Server → Except Fault Server} (first : Works x)
    (next : ∀ s, x = .ok s → s.wheel.locked = false → Works (f s)) : Works (x >>= f) := by
  obtain ⟨s1, done, free⟩ := first
  rw [done]
  exact next s1 done free

theorem Works.ensures {x : Except Fault Server} (works : Works x) :
    Ensures (fun _ => True) x fun s' => s'.wheel.locked = false := by
  obtain ⟨s1, rfl, free⟩ := works
  exact free

/-- Calls of user code return, if each does and keeps what the next one needs. -/
theorem userActs_work {P : Server → Prop}
    (each : ∀ s d other act, P s → s.wheel.locked = false → s.object d = some other →
      Works (s.userAct env d act) ∧ ∀ s', s.userAct env d act = .ok s' → P s')
    (acts : List (ClientId × UserAct)) (start : P s) (free : s.wheel.locked = false) :
    Works (userActs env acts s) := by
  have kept : Ensures (fun _ => True) (userActs env acts s)
      fun s' => s'.wheel.locked = false ∧ P s' := by
    refine userActs_keep (fun s1 d other act ⟨free1, start1⟩ live => ?_) acts ⟨free, start⟩
    obtain ⟨works, keeps⟩ := each s1 d other act start1 free1 live
    exact works.ensures.and keeps
  cases called : userActs env acts s with
  | ok s1 => exact ⟨s1, rfl, (kept.of_ok called).1⟩
  | error fault => exact absurd called (kept.not_error trivial)

theorem sendBuffer_works (free : s.wheel.locked = false) (live : s.object c = some obj)
    (output : Output) : Works (s.sendBuffer c output) := by
  rw [sendBuffer_eq live]
  exact ⟨_, rfl, free⟩

theorem closeWebsocketClient_works (good : Good env strict none s) (free : s.wheel.locked = false)
    (live : s.object c = some obj) (flag : CloseFlag) :
    Works (s.closeWebsocketClient env c flag) := by
  rw [closeWebsocketClient, sendBuffer_eq live, ok_bind]
  have queued : (s.sent c obj (.frame (.closeWebsocketClient (env.stack s.trace.length)
      flag))).object c = some { obj with sendBufferQueue := obj.sendBufferQueue ++
        [(Output.frame (.closeWebsocketClient (env.stack s.trace.length) flag)).bytes] } :=
    Function.update_self ..
  rw [get_live queued, ok_bind]
  split
  · rename_i beats
    have held := ((good.alive live).heartbeat obj.timeWheelHeartbeatId).mpr ⟨rfl, beats.2⟩
    obtain ⟨wheel, done, forgets⟩ := TimeWheel.eraseTask_held good.tidy free good.room held
    simp only [eraseTask, sent, done, ok_bind]
    exact ⟨_, rfl, forgets.free⟩
  · exact ⟨_, rfl, free⟩

/-- One of the two erasures of the destructor. -/
theorem eraseIfSet_works (tidy : s.wheel.Tidy) (free : s.wheel.locked = false)
    (small : s.wheel.nextId ≤ 2 ^ 32) {id : Nat}
    (held : id ≠ 0 → ∃ fn, (id, fn) ∈ s.wheel.pending) :
    ∃ wheel, s.eraseIfSet id = .ok { s with wheel := wheel } ∧ s.wheel.Forgets id wheel := by
  rw [eraseIfSet]
  split
  · rename_i set
    obtain ⟨fn, member⟩ := held set
    obtain ⟨wheel, done, forgets⟩ := TimeWheel.eraseTask_held tidy free small member
    exact ⟨wheel, by rw [eraseTask, done], forgets⟩
  · rename_i zero
    refine ⟨s.wheel, rfl, tidy, free, rfl, fun task => ⟨fun member => ⟨member, ?_⟩, And.left⟩⟩
    have positive := (tidy.bounds member).1
    omega

theorem Works.of_reopened {x : Except Fault Server}
    (works : Works (x.map fun s' => s'.reopened c obj)) : Works x := by
  obtain ⟨s', done, free⟩ := works
  cases x with
  | ok s1 =>
    cases done
    exact ⟨s1, rfl, free⟩
  | error fault => contradiction

/-- User code is served while a client is being closed. -/
theorem userActs_closing_works (good : Good env strict none (s.reopened c obj))
    (gone : s.object c = none) (free : s.wheel.locked = false) (acts : List (ClientId × UserAct)) :
    Works (userActs env acts s) := by
  refine userActs_work (P := fun s => Good env strict none (s.reopened c obj) ∧ s.object c = none)
    (fun s1 d other act ⟨good1, gone1⟩ free1 live => ?_) acts ⟨good, gone⟩ free
  have apart : d ≠ c := by
    rintro rfl
    simp [gone1] at live
  refine ⟨?_, fun s2 called => ⟨(userAct_closing good1 apart live act).of_ok called, ?_⟩⟩
  · cases act with
    | send payload => exact sendBuffer_works free1 live _
    | close =>
      have there : (s1.reopened c obj).object d = some other :=
        (object_reopened apart).trans live
      have kept : Good { env with stack := fun _ => env.stack s1.trace.length } strict none
          (s1.reopened c obj) := good1.of_proto rfl
      have closes := closeWebsocketClient_works kept free1 there .serverError
      rw [closeWebsocketClient_reopened apart live] at closes
      exact closes.of_reopened
  · exact (userAct_apart apart act s2 called).object.trans gone1

theorem closeClient_works (good : Good env strict none s) (free : s.wheel.locked = false)
    (live : s.object c = some obj) : Works (s.closeClient env c) := by
  have start : Good env strict none ((s.closing c obj.sockfd).reopened c obj) := by
    rwa [closing_reopened good live]
  have missing : (s.closing c obj.sockfd).object c = none := Function.update_self ..
  rw [closeClient_eq live, callback]
  refine Works.bind (userActs_closing_works start missing free _) fun s1 told free1 => ?_
  obtain ⟨good1, _⟩ := (userActs_closing start missing _).of_ok told
  have alive := good1.alive (Function.update_self ..)
  have first : obj.timeWheelId ≠ 0 → ∃ fn, (obj.timeWheelId, fn) ∈ s1.wheel.pending :=
    fun set => ⟨.expire c, alive.expire set (Option.some_ne_none c).symm⟩
  obtain ⟨wheel, erased, forgets⟩ := eraseIfSet_works (s := s1) good1.tidy free1 good1.room first
  rw [delete, erased, ok_bind]
  have second : obj.timeWheelHeartbeatId ≠ 0 → ∃ fn, (obj.timeWheelHeartbeatId, fn) ∈ wheel.pending := by
    intro set
    have beats := (alive.heartbeat obj.timeWheelHeartbeatId).mpr ⟨rfl, set⟩
    refine ⟨.heartbeat c, (forgets.left _).mpr ⟨beats, fun same => ?_⟩⟩
    -- a heartbeat under the id of the deadline would be a deadline
    exact absurd (alive.owned (.heartbeat c) (same ▸ beats)) (by simp)
  obtain ⟨wheel', erased', forgets'⟩ := eraseIfSet_works (s := { s1 with wheel := wheel })
    forgets.tidy forgets.free (forgets.nextId ▸ good1.room) second
  rw [erased', ok_bind]
  exact ⟨_, rfl, forgets'.free⟩

theorem removeFromTimeWheel_works (good : Good env strict none s) (free : s.wheel.locked = false)
    (live : s.object c = some obj) (armed : obj.timeWheelId ≠ 0) :
    Works (s.removeFromTimeWheel c) := by
  have held := (good.alive live).expire armed (Option.some_ne_none c).symm
  obtain ⟨wheel, done, forgets⟩ := TimeWheel.eraseTask_held good.tidy free good.room held
  rw [removeFromTimeWheel, get_live live, ok_bind, eraseTask, done]
  exact ⟨_, rfl, forgets.free⟩

theorem addTask_works (free : s.wheel.locked = false) (now : Int) (fn : Task) (expire : Int)
    (circleCount : UInt32) : ∃ wheel id, s.addTask now fn expire circleCount =
      .ok ({ s with wheel := wheel }, id) ∧ wheel.locked = false := by
  obtain ⟨wheel, done, free'⟩ := s.wheel.addTask_free now expire 0 fn circleCount false free
  exact ⟨wheel, s.wheel.getId, by rw [addTask, done], free'⟩

theorem addToTimeWheelExpire_works (free : s.wheel.locked = false) (live : s.object c = some obj) :
    Works (s.addToTimeWheelExpire now c) := by
  obtain ⟨wheel, id, done, free'⟩ := addTask_works free now (.expire c) defaultExpireTime 1
  have still : { s with wheel := wheel }.object c = some obj := live
  simp only [addToTimeWheelExpire, done, ok_bind, get_live still]
  exact ⟨_, rfl, free'⟩

theorem addToTimeWheelHeartbeat_works (free : s.wheel.locked = false)
    (live : s.object c = some obj) : Works (s.addToTimeWheelHeartbeat now c) := by
  obtain ⟨wheel, id, done, free'⟩ :=
    addTask_works free now (.heartbeat c) defaultHeartbeatTime FULL_CIRCLE
  have still : { s with wheel := wheel }.object c = some obj := live
  simp only [addToTimeWheelHeartbeat, done, ok_bind, get_live still]
  exact ⟨_, rfl, free'⟩

theorem passive_works (good : Good env strict none s) (free : s.wheel.locked = false)
    (live : s.object c = some obj) (open_ : obj.waitClose = false) :
    Works (performAll env now c (Protocol.decodeClose obj) s) := by
  have closing (s : Server) (obj : WebsocketClient) (good : Good env strict none s)
      (free : s.wheel.locked = false) (live : s.object c = some obj) :
      Works (performAll env now c [.closeWebsocketClient .normalClose, .closeClient] s) := by
    rw [performAll]
    refine (closeWebsocketClient_works good free live _).bind fun s1 done free1 => ?_
    obtain ⟨good1, ⟨obj1, live1, _⟩, _⟩ :=
      (closeWebsocketClient_good good live .normalClose).of_ok done
    rw [performAll_one]
    exact closeClient_works good1 free1 live1
  rw [Protocol.decodeClose, if_pos open_]
  split
  · rename_i armed
    refine Works.bind (removeFromTimeWheel_works good free live armed) fun s1 done free1 => ?_
    obtain ⟨good1, live1, _⟩ := (removeFromTimeWheel_good good live).of_ok done
    exact closing s1 _ good1 free1 live1
  · exact closing s obj good free live

theorem performAll_works (good : Good env strict none s) (free : s.wheel.locked = false)
    {obj' : WebsocketClient} (live : s.object c = some obj') {data : Bytes} {ret : Bool}
    {calls : List Call} (decoded : env.proto.decodeProtoData obj data = .ok (ret, obj', calls)) :
    Works (performAll env now c calls s) := by
  obtain ⟨_, answer⟩ := Protocol.decodeProtoData_answer decoded
  have armed := decodeProtoData_armed decoded
  cases answer with
  | quiet => exact ⟨s, rfl, free⟩
  | refused flag =>
    rw [performAll_one]
    exact closeWebsocketClient_works good free live flag
  | ponged =>
    rw [performAll_one]
    exact sendBuffer_works free live _
  | shaken response fresh waits =>
    refine Works.bind (sendBuffer_works free live _) fun s1 done free1 => ?_
    rw [perform, sendBuffer_eq live] at done
    cases done
    split
    · rw [performAll_one]
      exact addToTimeWheelHeartbeat_works free1 (Function.update_self ..)
    · exact ⟨_, rfl, free1⟩
  | disarmed =>
    rw [performAll_one]
    exact removeFromTimeWheel_works good free live (armed (List.mem_singleton_self _))
  | passive shaken closing open_ => exact passive_works good free live open_
  | expiring shaken closing closed =>
    rw [performAll_one]
    exact addToTimeWheelExpire_works free live

theorem decodeProtoData_works (good : Good env strict none s) (free : s.wheel.locked = false)
    (live : s.object c = some obj) {data : Bytes} (legible : Legible obj data) :
    ∃ r, s.decodeProtoData env now c data = .ok r ∧ r.2.wheel.locked = false := by
  obtain ⟨⟨ret, obj', calls⟩, decoded⟩ := (decodeProtoData_legible env.proto obj data).mpr legible
  obtain ⟨kept, _⟩ := Protocol.decodeProtoData_answer decoded
  have read : Good env strict none ((s.log (.received c data)).put c obj') :=
    good.touch live obj' [.received c data] kept.ids kept.sockfd kept.connected
      (by simp [Act.client]) (by simp [Act.plain, Act.ends])
  have performs : Works (performAll env now c calls ((s.log (.received c data)).put c obj')) :=
    performAll_works read free (Function.update_self ..) decoded
  obtain ⟨s1, performed, free1⟩ := performs
  simp only [decodeProtoData, get_live live, ok_bind, decoded, performed]
  exact ⟨_, rfl, free1⟩

theorem userActs_works (good : Good env strict none s) (free : s.wheel.locked = false)
    (acts : List (ClientId × UserAct)) : Works (userActs env acts s) := by
  refine userActs_work (P := Good env strict none)
    (fun s1 d other act good1 free1 live => ⟨?_, fun s2 called => ?_⟩) acts good free
  · cases act with
    | send payload => exact sendBuffer_works free1 live _
    | close => exact closeWebsocketClient_works good1 free1 live _
  · exact ((userAct_good good1 live act).of_ok called).1

/-- User code is told of a client. -/
theorem told_good (good : Good env strict none s) (live : s.object c = some obj) {a : Act}
    (own : a.client = c) (plain : a.plain = true) : Good env strict none (s.log a) := by
  have changed := good.touch live obj [a] ⟨rfl, rfl⟩ rfl id (List.forall_mem_singleton.mpr own)
    (List.forall_mem_singleton.mpr plain)
  rwa [← live, Function.update_eq_self] at changed

theorem recvCallback_works (good : Good env strict none s) (free : s.wheel.locked = false)
    (live : s.object c = some obj) : Works (s.recvCallback env c) := by
  rw [recvCallback, get_live live, ok_bind]
  split
  · have told : Good env strict none (s.log (.delivered c obj.decodeBuffer)) :=
      told_good good live rfl rfl
    have still : (s.log (.delivered c obj.decodeBuffer)).object c = some obj := live
    refine Works.bind (userActs_works told free _) fun s1 done free1 => ?_
    obtain ⟨_, obj1, live1⟩ := (callback_good told still).of_ok done
    rw [get_live live1, ok_bind]
    exact ⟨_, rfl, free1⟩
  · exact ⟨s, rfl, free⟩

theorem sentCallback_works (good : Good env strict none s) (free : s.wheel.locked = false)
    (live : s.object c = some obj) : Works (s.sentCallback env c) := by
  have connects : Works (s.connect env c) := by
    rw [connect, get_live live, ok_bind]
    split
    · have begun := good.touch live { obj with isConnected := .connected } [.connectedCallback c]
        ⟨rfl, rfl⟩ rfl (by simp) (by simp [Act.client]) (by simp [Act.plain, Act.ends])
      exact userActs_works begun free _
    · exact ⟨s, rfl, free⟩
  refine connects.bind fun s1 done free1 => ?_
  obtain ⟨good1, obj1, live1⟩ := (connect_good good live).of_ok done
  exact userActs_works (told_good good1 live1 rfl rfl) free1 _

/-- What the kernel and the clients have to do for one round: the descriptors of `accept` are
new, the loops over `recv` and `send` end, nobody ends a stream behind data or breaks a connection
while it is written to, and what is read is legible. -/
def Sound (env : Setup) (s : Server) (e : Event) : Prop :=
  (e.hup = false → e.input = true → e.fd = env.listenFd →
    ∀ fd ∈ e.accepts, fd ≠ env.listenFd ∧ s.clients fd = none) ∧
  (e.reads env = true → ∀ c ∈ s.clients e.fd, ∀ obj ∈ s.object c, ∃ m closed,
    recvAll e.recvs [] = some (m, closed) ∧ (m ≠ [] → closed = false ∧ Legible obj m)) ∧
  (e.writes = true → ∀ c ∈ s.clients e.fd, ∀ obj ∈ s.object c, ∃ drained,
    drainQueue obj.sendBufferQueue e.sends = some drained ∧ drained.closed = false)

theorem onInput_works (good : Good env False none s) (free : s.wheel.locked = false)
    (room : s.Room) (live : s.object c = some obj) {e : Event} {m : Bytes} {closed : Bool}
    (received : recvAll e.recvs [] = some (m, closed))
    (legible : m ≠ [] → closed = false ∧ Legible obj m) : Works (s.onInput env e c) := by
  simp only [onInput, received]
  by_cases empty : m = []
  · have closes : Works (s.closeIf env c closed) := by
      cases closed with
      | true => exact closeClient_works good free live
      | false => exact ⟨s, rfl, free⟩
    refine closes.bind fun s1 _ free1 => ?_
    rw [if_pos empty]
    exact ⟨s1, rfl, free1⟩
  · obtain ⟨rfl, reads⟩ := legible empty
    rw [closeIf, if_neg (by simp), ok_bind, if_neg empty]
    have decodes : ∃ r, s.decodeProtoData env e.now c m = .ok r ∧ r.2.wheel.locked = false :=
      decodeProtoData_works good free live reads
    obtain ⟨⟨ret, s1⟩, decoded, free1⟩ := decodes
    have read := (decodeProtoData_good good live room False.elim).of_ok decoded
    rw [decoded, ok_bind]
    cases ret with
    | true =>
      obtain ⟨obj1, live1⟩ := read.2 rfl
      exact recvCallback_works read.1 free1 live1
    | false => exact ⟨s1, rfl, free1⟩

theorem onOutput_works (good : Good env False none s) (free : s.wheel.locked = false)
    (live : s.object c = some obj) {e : Event} {drained : Drained}
    (drains : drainQueue obj.sendBufferQueue e.sends = some drained)
    (open_ : drained.closed = false) : Works (s.onOutput env e c) := by
  have offered := good.touch live { obj with sendBufferQueue := drained.queue }
    (drained.calls.map (Act.sendCall c)) ⟨rfl, rfl⟩ rfl id (by simp [Act.client])
    (by simp [Act.plain, Act.ends])
  have told := told_good offered (Function.update_self ..) (a := .epollCtl c (.mod false)) rfl rfl
  have still : ({ s with
      object := Function.update s.object c (some { obj with sendBufferQueue := drained.queue })
      trace := s.trace ++ drained.calls.map (Act.sendCall c) } : Server).object c =
        some { obj with sendBufferQueue := drained.queue } := Function.update_self ..
  rw [onOutput, get_live live, ok_bind]
  simp only [drains, put, closeIf, open_, Bool.false_eq_true, ↓reduceIte, ok_bind, get_live still]
  exact sentCallback_works told free (Function.update_self ..)

theorem accept_works (free : s.wheel.locked = false) {fd : Nat} (foreign : fd ≠ env.listenFd)
    (unused : s.clients fd = none) : Works (s.accept env fd) := by
  rw [accept, if_neg (by simp [foreign, unused])]
  exact ⟨_, rfl, free⟩

theorem onEvent_works (good : Good env False none s) (free : s.wheel.locked = false)
    (room : s.Room) {e : Event} (sound : Sound env s e) : Works (s.onEvent env e) := by
  obtain ⟨accepts, reads, writes⟩ := sound
  have still : Works (.ok s) := ⟨s, rfl, free⟩
  rw [onEvent]
  split
  · split
    · rename_i c known
      obtain ⟨obj, live, _⟩ := (good.registered e.fd c).mp known
      exact closeClient_works good free live
    · exact still
  rename_i hup
  split
  · rename_i input
    split
    · rename_i listening
      split
      · exact still
      · rename_i fd offered
        obtain ⟨foreign, unused⟩ := accepts (by simpa using hup) input listening fd offered
        exact accept_works free foreign unused
    · rename_i foreign
      split
      · exact still
      · rename_i c known
        obtain ⟨obj, live, _⟩ := (good.registered e.fd c).mp known
        obtain ⟨m, closed, received, legible⟩ :=
          reads (by simp [Event.reads, hup, input, foreign]) c known obj live
        exact onInput_works good free room live received legible
  rename_i input
  split
  · rename_i output
    split
    · exact still
    · rename_i c known
      obtain ⟨obj, live, _⟩ := (good.registered e.fd c).mp known
      obtain ⟨drained, drains, open_⟩ :=
        writes (by simp [Event.writes, hup, input, output]) c known obj live
      exact onOutput_works good free live drains open_
  · exact still

/-- A round that ends was sound. -/
theorem onEvent_sound {e : Event} (done : s.onEvent env e = .ok s') : Sound env s e := by
  cases onEvent_cases done with
  | missed foreign nobody =>
    refine ⟨fun hup input listening => ?_, by simp [nobody], by simp [nobody]⟩
    rcases foreign with other | other | other <;> simp_all
  | refused hup input listening refused =>
    refine ⟨by simp [refused], ?_, ?_⟩
    · simp [Event.reads, listening]
    · simp [Event.writes, input]
  | silent hup input output =>
    refine ⟨by simp [input], ?_, ?_⟩
    · simp [Event.reads, input]
    · simp [Event.writes, output]
  | hangUp d _ hup known done =>
    refine ⟨by simp [hup], ?_, ?_⟩
    · simp [Event.reads, hup]
    · simp [Event.writes, hup]
  | accepts fd hup input listening offered foreign free =>
    refine ⟨fun _ _ _ fd' offered' => ?_, ?_, ?_⟩
    · cases offered.symm.trans offered'
      exact ⟨foreign, free⟩
    · simp [Event.reads, listening]
    · simp [Event.writes, input]
  | reads d _ hup input foreign known done =>
    refine ⟨fun _ _ listening => absurd listening foreign, fun _ c known' obj live => ?_, ?_⟩
    · cases known.symm.trans known'
      obtain ⟨m, closed, received, ⟨empty, _⟩ | ⟨empty, _⟩ | ⟨_, open_, ret, s1, decoded, _⟩⟩ :=
        onInput_cases done
      · exact ⟨m, closed, received, fun full => absurd empty full⟩
      · exact ⟨m, closed, received, fun full => absurd empty full⟩
      · refine ⟨m, closed, received, fun _ => ⟨open_, ?_⟩⟩
        rw [decodeProtoData, get_live live, ok_bind] at decoded
        split at decoded
        · contradiction
        · rename_i answered
          exact (decodeProtoData_legible env.proto obj m).mp ⟨_, answered⟩
    · simp [Event.writes, input]
  | writes d _ hup input output known done =>
    refine ⟨by simp [input], by simp [Event.reads, input], fun _ c known' obj live => ?_⟩
    cases known.symm.trans known'
    obtain ⟨obj', drained, live', drains, open_, _⟩ := onOutput_cases done
    cases live.symm.trans live'
    exact ⟨drained, drains, open_⟩

theorem beginTick_works (started : env.proto.heartbeat = true) (free : s.wheel.locked = false)
    (idle : s.wheel.temp = []) (due : s.wheel.current ≤ now) : Works (s.beginTick env now) := by
  obtain ⟨wheel, done, free'⟩ := s.wheel.beginTick_free now free idle due
  rw [beginTick, if_neg (by simp [started]), done]
  exact ⟨_, rfl, free'⟩

theorem fire_works (good : Good env strict none s) (started : env.proto.heartbeat = true)
    (free : s.wheel.locked = false) (noDeadline : ∀ c, s.fires ≠ some (.expire c)) :
    Works (s.fire env) := by
  obtain ⟨⟨wheel, call⟩, done, free'⟩ := s.wheel.fire_free free
  have fires : s.fires = call.map Prod.fst := by rw [Server.fires, done]
  rw [fire, if_neg (by simp [started]), done]
  rcases call with _ | ⟨task, isDone, id⟩
  · exact ⟨_, rfl, free'⟩
  cases task with
  | expire c => exact absurd fires (noDeadline c)
  | heartbeat c =>
    obtain ⟨_, pending, _⟩ := TimeWheel.fire_leaves good.tidy done
    have there : (s.object c).isSome := by
      by_contra gone
      exact (good.dead (by simpa using gone)).heartbeat id pending
    obtain ⟨obj, live⟩ := Option.isSome_iff_exists.mp there
    have still : { s with wheel := wheel }.object c = some obj := live
    exact sendBuffer_works free' still _

/-- What the kernel, the clients and the clock have to do for one step. -/
def SoundOrInOrder (env : Setup) (s : Server) : Label → Prop
  | .event e => Sound env s e
  | .beginTick now => env.proto.heartbeat = true ∧ s.wheel.temp = [] ∧ s.wheel.current ≤ now
  | .fire => env.proto.heartbeat = true
  | .user _ => True

/-- No deadline of a client runs in the step. Behind one that ran, `delete` looks for the task that
is gone, and the lock of the wheel is left. -/
def NoDeadlineRuns (s : Server) : Label → Prop
  | .fire => ∀ c, s.fires ≠ some (.expire c)
  | .event _ | .beginTick _ | .user _ => True

instance (s : Server) : (l : Label) → Decidable (s.NoDeadlineRuns l)
  | .fire =>
    match fired : s.fires with
    | some (.expire c) => isFalse fun noDeadline => noDeadline c fired
    | some (.heartbeat _) => isTrue fun _ => by simp [fired]
    | none => isTrue fun _ => by simp [fired]
  | .event _ | .beginTick _ | .user _ => isTrue trivial

theorem step_works (good : Good env False none s) (free : s.wheel.locked = false) (room : s.Room)
    {l : Label} (noDeadline : s.NoDeadlineRuns l) (goes : SoundOrInOrder env s l) :
    Works (s.step env l) := by
  cases l with
  | event e => exact onEvent_works good free room goes
  | beginTick now => exact beginTick_works goes.1 free goes.2.1 goes.2.2
  | fire => exact fire_works good goes free noDeadline
  | user acts => exact userActs_works good free acts

theorem step_goes {l : Label} (done : s.step env l = .ok s') : SoundOrInOrder env s l := by
  cases l with
  | event e => exact onEvent_sound done
  | beginTick now =>
    rw [step, beginTick] at done
    split at done
    · contradiction
    rename_i started
    split at done
    · rename_i wheel ticked
      obtain ⟨settled, begins⟩ := TimeWheel.beginTick_begins ticked
      exact ⟨by simpa using started, begins.idle, begins.reached⟩
    · contradiction
  | fire =>
    rw [step, fire] at done
    split at done
    · contradiction
    · rename_i started
      simpa [SoundOrInOrder] using started
  | user acts => trivial

/-- Between its steps the server is in order, and nobody holds the lock of the wheel. -/
structure AtRest (env : Setup) (s : Server) : Prop where
  good : Good env False none s
  free : s.wheel.locked = false

theorem step_atRest {l : Label} (rest : AtRest env s) (cond : s.Room ∧ s.NoDeadlineRuns l)
    (done : s.step env l = .ok s') : AtRest env s' := by
  refine ⟨(step_good rest.good l cond.1 nofun).of_ok done, ?_⟩
  obtain ⟨next, taken, free⟩ :=
    step_works rest.good rest.free cond.1 cond.2 (step_goes done)
  cases done.symm.trans taken
  exact free

theorem step_returns_iff {l : Label} (rest : AtRest env s) (cond : s.Room ∧ s.NoDeadlineRuns l) :
    (∃ next, s.step env l = .ok next) ↔ SoundOrInOrder env s l := by
  constructor
  · rintro ⟨next, done⟩
    exact step_goes done
  · intro goes
    obtain ⟨next, done, _⟩ := step_works rest.good rest.free cond.1 cond.2 goes
    exact ⟨next, done⟩

end Server

/-- As long as no deadline of a client runs, the server goes on through every interleaving of
rounds, ticks and calls of user code in which the kernel, the clients and the clock do their part:
nothing of its own stops it. -/
theorem server_goes_on_iff (env : Setup) (current : Int) (labels : List Label)
    (cond : Along (Server.step env) (fun s l => s.Room ∧ s.NoDeadlineRuns l) (.start current) labels) :
    (∃ s, run (Server.step env) (.start current) labels = .ok s) ↔
      Along (Server.step env) (Server.SoundOrInOrder env) (.start current) labels :=
  run_returns_iff (fun _ _ _ => Server.step_atRest) (fun _ _ => Server.step_returns_iff)
    ⟨start_good current, rfl⟩ cond

theorem handshake_goes : Along (Server.step quietSetup) (Server.SoundOrInOrder quietSetup)
    (.start 3000) (handshaken ++ [.beginTick 3000, .fire]) :=
  (server_goes_on_iff quietSetup 3000 _ (by decide +kernel)).mp (exists_ok (by decide +kernel))

end WebsocketProto
