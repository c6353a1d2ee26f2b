import WebsocketProto.ServerClosing
import WebsocketProto.ServerHandshake
import WebsocketProto.TimeWheelDeadlines

/-! The deadline of a client that the server is closing: what leaves its expiry task, its id
and its expiry as they are. -/
namespace WebsocketProto
open Outcome
open TimeWheel (Early)

/-- What a step does that has nothing to do with the deadline of `c`. -/
structure Undisturbed (c : ClientId) (s s' : Server) : Prop where
  objects : ∀ obj', s'.object c = some obj' → ∃ obj, s.object c = some obj ∧
    obj'.timeWheelId = obj.timeWheelId ∧ (obj.waitClose = true → obj'.waitClose = true)
  early : ∀ id bound, id < s.wheel.nextId → Early s.wheel.cells id bound →
    Early s'.wheel.cells id bound
  nextId : s.wheel.nextId ≤ s'.wheel.nextId
  nextClient : s.nextClient ≤ s'.nextClient

theorem Undisturbed.refl (c : ClientId) (s : Server) : Undisturbed c s s :=
  ⟨fun obj' live => ⟨obj', live, rfl, id⟩, fun _ _ _ early => early, Nat.le_refl _, Nat.le_refl _⟩

theorem Undisturbed.trans {c : ClientId} {s s1 s2 : Server} (first : Undisturbed c s s1)
    (second : Undisturbed c s1 s2) : Undisturbed c s s2 := by
  refine ⟨fun obj2 live2 => ?_, fun id bound issued early => ?_, Nat.le_trans first.nextId
    second.nextId, Nat.le_trans first.nextClient second.nextClient⟩
  · obtain ⟨obj1, live1, same1, waits1⟩ := second.objects obj2 live2
    obtain ⟨obj, live, same, waits⟩ := first.objects obj1 live1
    exact ⟨obj, live, same1.trans same, fun waiting => waits1 (waits waiting)⟩
  · exact second.early id bound (Nat.lt_of_lt_of_le issued first.nextId)
      (first.early id bound issued early)

abbrev Undisturbing (c : ClientId) (s : Server) (x : Except Fault Server) : Prop :=
  Leads (Undisturbed c) s x

namespace Server
variable {env : Setup} {s s' : Server} {c d : ClientId} {now : Int}

/-- Changes of a client that are not those of its deadline. -/
structure SameDeadline (obj obj' : WebsocketClient) : Prop where
  id : obj'.timeWheelId = obj.timeWheelId
  waits : obj.waitClose = true → obj'.waitClose = true

theorem put_undisturbed {obj obj' : WebsocketClient} (live : s.object d = some obj)
    (same : d = c → SameDeadline obj obj') : Undisturbed c s (s.put d obj') := by
  refine ⟨fun obj1 live1 => ?_, fun _ _ _ early => early, Nat.le_refl _, Nat.le_refl _⟩
  by_cases own : c = d
  · subst own
    obtain rfl := Option.some.inj (put_self.symm.trans live1)
    exact ⟨obj, live, (same rfl).id, (same rfl).waits⟩
  · exact ⟨obj1, (put_other own).symm.trans live1, rfl, id⟩

theorem log_undisturbed (a : Act) : Undisturbed c s (s.log a) :=
  ⟨fun obj live => ⟨obj, live, rfl, id⟩, fun _ _ _ early => early, Nat.le_refl _, Nat.le_refl _⟩

theorem retrace_undisturbed (acts : List Act) : Undisturbed c s { s with trace := acts } :=
  ⟨fun obj live => ⟨obj, live, rfl, id⟩, fun _ _ _ early => early, Nat.le_refl _, Nat.le_refl _⟩

theorem unregister_undisturbed (clients : Nat → Option ClientId) :
    Undisturbed c s { s with clients := clients } :=
  ⟨fun obj live => ⟨obj, live, rfl, id⟩, fun _ _ _ early => early, Nat.le_refl _, Nat.le_refl _⟩

theorem eraseTask_undisturbed (id : Nat) : Undisturbing c s (s.eraseTask id) := by
  rw [eraseTask]
  split
  · rename_i wheel found erased
    have same := TimeWheel.eraseTask_nextId erased
    refine Leads.ok ⟨fun obj live => ⟨obj, live, rfl, fun waits => waits⟩, ?_, ?_, Nat.le_refl _⟩
    · exact fun id bound _ early => TimeWheel.eraseTask_early erased early
    · exact Nat.le_of_eq same.symm
  · exact Leads.error _

theorem forget_undisturbed :
    Undisturbed c s { s with object := Function.update s.object d none } := by
  refine ⟨fun obj live => ?_, fun _ _ _ early => early, Nat.le_refl _, Nat.le_refl _⟩
  dsimp only at live
  by_cases own : c = d
  · subst own
    rw [Function.update_self] at live
    contradiction
  · rw [Function.update_of_ne own] at live
    exact ⟨obj, live, rfl, id⟩

instance (c : ClientId) : Frames (Undisturbed c) where
  trans _ _ _ := Undisturbed.trans
  same := Undisturbed.refl c
  put live alike := by
    obtain ⟨queue, heartbeat, rfl⟩ := alike
    exact put_undisturbed live fun _ => ⟨rfl, id⟩
  log _ a _ := log_undisturbed a
  unregister _ := unregister_undisturbed
  forget _ _ := forget_undisturbed
  eraseTask _ := eraseTask_undisturbed

theorem sendBuffer_undisturbed (output : Output) : Undisturbing c s (s.sendBuffer d output) :=
  Frames.sendBuffer output fun _ => log_undisturbed _

/-- Ids that `add_task` can still give out. -/
def Fresh (s : Server) : Prop := 0 < s.wheel.nextId ∧ s.wheel.nextId < 2 ^ 32

theorem addTask_undisturbed {fn : Task} {expire : Int} {circleCount : UInt32} {id : Nat}
    (fresh : s.Fresh) (done : s.addTask now fn expire circleCount = .ok (s', id)) :
    Undisturbed c s s' := by
  rw [addTask] at done
  split at done
  · rename_i wheel new added
    obtain ⟨rfl, same⟩ := Prod.mk.inj (Except.ok.inj done)
    obtain ⟨issued, next⟩ := TimeWheel.addTask_nextId fresh.1 fresh.2 added
    refine ⟨fun obj live => ⟨obj, live, rfl, fun waits => waits⟩, ?_, ?_, Nat.le_refl _⟩
    · intro old bound young early
      refine TimeWheel.addTask_early added early fun named => ?_
      rw [issued] at named
      exact absurd named (Nat.ne_of_gt young)
    · exact next ▸ Nat.le_succ _
  · contradiction

theorem addToTimeWheelHeartbeat_undisturbed (fresh : s.Fresh) :
    Undisturbing c s (s.addToTimeWheelHeartbeat now d) := by
  intro s' done
  obtain ⟨s1, id, obj, added, live, rfl⟩ := addToTimeWheelHeartbeat_adds done
  exact (addTask_undisturbed fresh added).trans
    (put_undisturbed live fun _ => ⟨rfl, fun waits => waits⟩)

theorem addToTimeWheelExpire_undisturbed (fresh : s.Fresh) (other : d ≠ c) :
    Undisturbing c s (s.addToTimeWheelExpire now d) := by
  intro s' done
  obtain ⟨s1, id, obj, added, live, rfl⟩ := addToTimeWheelExpire_adds done
  exact (addTask_undisturbed fresh added).trans
    (put_undisturbed live fun own => absurd own other)

theorem removeFromTimeWheel_undisturbed (other : d ≠ c) :
    Undisturbing c s (s.removeFromTimeWheel d) := by
  intro s' done
  obtain ⟨obj, found, done⟩ := bind_eq_ok.mp done
  obtain ⟨s1, erased, same⟩ := bind_eq_ok.mp done
  cases same
  have live : s1.object d = some obj := by
    rw [eraseTask_object erased]
    exact get_eq_ok found
  exact (eraseTask_undisturbed _ s1 erased).trans
    (put_undisturbed live fun own => absurd own other)

end Server

def readsPong : Bytes → Bool
  | b0 :: b1 :: _ => decide ((WebsocketHeader.ofBytes b0 b1).opcode.opcode = .pong)
  | _ => false

/-- No CLOSE and no PONG comes from a client whose deadline is set. -/
def Steady (obj : WebsocketClient) (data : Bytes) : Prop :=
  obj.isConnected ≠ .none → readsClose data = true ∨ readsPong data = true →
    obj.waitClose = true → obj.timeWheelId = 0

instance (obj : WebsocketClient) (data : Bytes) : Decidable (Steady obj data) :=
  inferInstanceAs (Decidable (_ → _))

/-- Of the reads that touch the id of the deadline, only a PONG removes it alone. -/
theorem disarmed_pong {proto : Protocol} {c c' : WebsocketClient} {data : Bytes} {ret : Bool}
    (done : proto.decodeProtoData c data = .ok (ret, c', [.removeFromTimeWheel])) :
    c.isConnected ≠ .none ∧ readsPong data = true := by
  by_cases fresh : c.isConnected = .none
  · unfold Protocol.decodeProtoData at done
    rw [if_pos fresh] at done
    obtain ⟨⟨after, asked⟩, handshake, same⟩ := bind_eq_ok.mp done
    cases same
    rcases decodeHandshake_cases handshake with ⟨_, _, refuses⟩
    rcases refuses with none_ | refused
    · contradiction
    · contradiction
  · refine ⟨fresh, ?_⟩
    match data with
    | [] | [_] =>
      simp only [Protocol.decodeProtoData, if_neg fresh] at done
      cases done
    | b0 :: b1 :: rest =>
      simp only [Protocol.decodeProtoData, if_neg fresh] at done
      cases data : (OpcodeBit.ofByte b0).opcode.isData with
      | true =>
        rw [decodeFrame_data data] at done
        obtain ⟨result, _, outcome⟩ := map_eq_ok done
        unfold dataOutcome at outcome
        split at outcome <;> cases outcome
      | false =>
        simp only [Protocol.decodeFrame] at done
        cases kind : (c.loaded b0 b1 rest).wbHeader.opcode.opcode with
        | pong => exact decide_eq_true kind
        | ping | unnamed =>
          rw [kind] at done
          cases done
        | close =>
          rw [kind] at done
          have calls := congrArg (fun r => r.2.2) (Except.ok.inj done)
          dsimp only [Protocol.decodeClose] at calls
          split at calls
          · split at calls <;> contradiction
          · contradiction
        | textFrame | binaryFrame | continuationFrame =>
          have isData : (OpcodeBit.ofByte b0).opcode.isData = true :=
            congrArg OpcodeFlag.isData kind
          rw [isData] at data
          contradiction

/-- Nothing that is read takes `wait_close_` back. -/
theorem decodeProtoData_waits {proto : Protocol} {c c' : WebsocketClient} {data : Bytes}
    {ret : Bool} {calls : List Call} (waits : c.waitClose = true)
    (done : proto.decodeProtoData c data = .ok (ret, c', calls)) : c'.waitClose = true := by
  by_cases fresh : c.isConnected = .none
  · unfold Protocol.decodeProtoData at done
    rw [if_pos fresh] at done
    obtain ⟨⟨after, asked⟩, handshake, same⟩ := bind_eq_ok.mp done
    cases same
    cases decodeHandshake_cases handshake with
    | stays => exact waits
    | accepts => exact waits
  · exact (decodeProtoData_settled fresh done).waitClose waits

/-- A client whose deadline is set may only be read in this way. -/
def Guarded (c d : ClientId) (obj : WebsocketClient) (data : Bytes) : Prop :=
  d = c → obj.waitClose = true ∧ obj.timeWheelId ≠ 0 ∧ Steady obj data

namespace Server
variable {env : Setup} {s s' : Server} {c d : ClientId} {now : Int}

/-- The calls of a read, made for the client that was read. -/
theorem performAll_undisturbed {obj obj' : WebsocketClient} {data : Bytes} {ret : Bool}
    {calls : List Call} (fresh : s.Fresh) (live : s.object d = some obj')
    (guarded : Guarded c d obj data)
    (decoded : env.proto.decodeProtoData obj data = .ok (ret, obj', calls)) :
    Undisturbing c s (performAll env now d calls s) := by
  obtain ⟨kept, answer⟩ := Protocol.decodeProtoData_answer decoded
  cases answer with
  | quiet => exact Leads.ok (.refl c s)
  | refused flag =>
    rw [performAll_one]
    exact Frames.closeWebsocketClient flag
  | ponged =>
    rw [performAll_one]
    exact sendBuffer_undisturbed _
  | shaken response _ waits =>
    have queued := sendBuffer_undisturbed (c := c) (.handshake response) _ (sendBuffer_eq live _)
    have still : (s.sent d obj' (.handshake response)).Fresh := fresh
    rw [performAll, perform, sendBuffer_eq live, ok_bind]
    split
    · rw [performAll_one]
      exact (addToTimeWheelHeartbeat_undisturbed still).from queued
    · exact Leads.ok queued
  | disarmed =>
    rw [performAll_one]
    by_cases own : d = c
    · obtain ⟨waits, set, steady⟩ := guarded own
      obtain ⟨shaken, pong⟩ := disarmed_pong decoded
      exact absurd (steady shaken (Or.inr pong) waits) set
    · exact removeFromTimeWheel_undisturbed own
  | passive shaken closing open_ =>
    by_cases own : d = c
    · obtain ⟨waits, _⟩ := guarded own
      have still := (decodeProtoData_settled shaken decoded).waitClose waits
      rw [still] at open_
      contradiction
    · have closes (s1 : Server) : Undisturbing c s1 (performAll env now d
          [.closeWebsocketClient .normalClose, .closeClient] s1) := by
        refine Leads.bind (R := Undisturbed c) (Frames.closeWebsocketClient _) fun s2 => ?_
        rw [performAll_one]
        exact Frames.closeClient
      rw [Protocol.decodeClose, if_pos open_]
      split
      · exact (removeFromTimeWheel_undisturbed own).bind closes
      · exact closes s
  | expiring shaken closing closed =>
    rw [performAll_one]
    by_cases own : d = c
    · obtain ⟨waits, set, steady⟩ := guarded own
      exact absurd (steady shaken (Or.inl closing) waits) set
    · exact addToTimeWheelExpire_undisturbed fresh own

theorem decodeProtoData_undisturbed {data : Bytes} {ret : Bool} (fresh : s.Fresh)
    (guarded : ∀ obj, s.object d = some obj → Guarded c d obj data)
    (done : s.decodeProtoData env now d data = .ok (ret, s')) : Undisturbed c s s' := by
  obtain ⟨obj, found, done⟩ := bind_eq_ok.mp done
  have live := get_eq_ok found
  split at done
  · contradiction
  · rename_i ret' obj' calls decoded
    obtain ⟨s1, performed, same⟩ := bind_eq_ok.mp done
    cases same
    have written : Undisturbed c s ((s.log (.received d data)).put d obj') := by
      refine (log_undisturbed _).trans (put_undisturbed live fun own => ⟨?_, fun waits => ?_⟩)
      · exact (Protocol.decodeProtoData_answer decoded).1.ids.1
      · exact decodeProtoData_waits waits decoded
    have still : ((s.log (.received d data)).put d obj').Fresh := fresh
    exact written.trans
      (performAll_undisturbed still put_self (guarded obj live) decoded s' performed)

theorem recvCallback_undisturbed : Undisturbing c s (s.recvCallback env d) := by
  intro s' done
  obtain ⟨obj, found, done⟩ := bind_eq_ok.mp done
  split at done
  · obtain ⟨s1, called, done⟩ := bind_eq_ok.mp done
    obtain ⟨obj1, found1, same⟩ := bind_eq_ok.mp done
    cases same
    exact ((log_undisturbed _).trans (Frames.userActs _ s1 called)).trans
      (put_undisturbed (get_eq_ok found1) fun _ => ⟨rfl, fun waits => waits⟩)
  · cases done
    exact .refl c s

theorem sentCallback_undisturbed : Undisturbing c s (s.sentCallback env d) := by
  apply Leads.bind
  · intro s' done
    obtain ⟨obj, found, done⟩ := bind_eq_ok.mp done
    split at done
    · have connected : Undisturbed c s (s.put d { obj with isConnected := .connected }) :=
        put_undisturbed (get_eq_ok found) fun _ => ⟨rfl, fun waits => waits⟩
      exact (connected.trans (log_undisturbed _)).trans (Frames.userActs _ s' done)
    · cases done
      exact .refl c s
  · exact fun s1 => Leads.from (R := Undisturbed c) (Frames.userActs _) (log_undisturbed _)

theorem onInput_undisturbed {e : Event} (fresh : s.Fresh)
    (guarded : ∀ obj m, s.object d = some obj → recvAll e.recvs [] = some (m, false) →
      Guarded c d obj m) : Undisturbing c s (s.onInput env e d) := by
  rw [onInput]
  split
  · exact Leads.error _
  · rename_i m closed received
    cases closed with
    | true =>
      -- a client that the loop over `recv` closed is not read any more
      intro s' done
      obtain ⟨s1, closed, done⟩ := bind_eq_ok.mp done
      have finished : Undisturbed c s s1 := Frames.closeClient s1 closed
      split at done
      · cases done
        exact finished
      · obtain ⟨_, decoded, _⟩ := bind_eq_ok.mp done
        obtain ⟨obj, found, _⟩ := bind_eq_ok.mp decoded
        rw [get, (closeClient_trace closed).1] at found
        contradiction
    | false =>
      rw [closeIf, if_neg Bool.false_ne_true, ok_bind]
      split
      · exact Leads.ok (.refl c s)
      · intro s' done
        obtain ⟨⟨ret, s1⟩, decoded, done⟩ := bind_eq_ok.mp done
        have read := decodeProtoData_undisturbed fresh
          (fun obj live => guarded obj m live received) decoded
        dsimp only at done
        split at done
        · exact recvCallback_undisturbed.from read s' done
        · cases done
          exact read

theorem onOutput_undisturbed {e : Event} : Undisturbing c s (s.onOutput env e d) := by
  intro s' done
  obtain ⟨obj, found, done⟩ := bind_eq_ok.mp done
  split at done
  · contradiction
  · rename_i drained _
    have offered : Undisturbed c s (s.put d { obj with sendBufferQueue := drained.queue }) :=
      put_undisturbed (get_eq_ok found) fun _ => ⟨rfl, fun waits => waits⟩
    obtain ⟨s1, closed, done⟩ := bind_eq_ok.mp done
    obtain ⟨_, _, done⟩ := bind_eq_ok.mp done
    have told : Undisturbed c s (s1.log (.epollCtl d (.mod false))) :=
      (offered.trans ((retrace_undisturbed _).trans (Frames.closeIf _ s1 closed))).trans
        (log_undisturbed _)
    exact sentCallback_undisturbed.from told s' done

theorem accept_undisturbed (born : c < s.nextClient) (fd : Nat) :
    Undisturbing c s (s.accept env fd) := by
  rw [accept]
  split
  · exact Leads.error _
  · refine Leads.ok ⟨fun obj live => ?_, fun _ _ _ early => early, Nat.le_refl _, Nat.le_succ _⟩
    dsimp only at live
    rw [Function.update_of_ne (Nat.ne_of_lt born)] at live
    exact ⟨obj, live, rfl, id⟩

/-- The server has promised to close `c` by `bound`. -/
structure Waits (c : ClientId) (bound : Int) (s : Server) : Prop where
  born : c < s.nextClient
  armed : ∀ obj, s.object c = some obj → obj.waitClose = true ∧ obj.timeWheelId ≠ 0 ∧
    obj.timeWheelId < s.wheel.nextId ∧ Early s.wheel.cells obj.timeWheelId bound

theorem Waits.after {bound : Int} (waits : Waits c bound s) (undisturbed : Undisturbed c s s') :
    Waits c bound s' := by
  refine ⟨Nat.lt_of_lt_of_le waits.born undisturbed.nextClient, fun obj' live' => ?_⟩
  obtain ⟨obj, live, same, still⟩ := undisturbed.objects obj' live'
  obtain ⟨waiting, set, issued, early⟩ := waits.armed obj live
  rw [same]
  exact ⟨still waiting, set, Nat.lt_of_lt_of_le issued undisturbed.nextId,
    undisturbed.early _ _ issued early⟩

theorem Waits.rewheel {bound : Int} {wheel : TimeWheel Task} (waits : Waits c bound s)
    (nextId : wheel.nextId = s.wheel.nextId)
    (early : ∀ obj, s.object c = some obj → Early s.wheel.cells obj.timeWheelId bound →
      Early wheel.cells obj.timeWheelId bound) : Waits c bound { s with wheel := wheel } := by
  refine ⟨waits.born, fun obj live => ?_⟩
  obtain ⟨waiting, set, issued, old⟩ := waits.armed obj live
  exact ⟨waiting, set, nextId ▸ issued, early obj live old⟩

/-- What a step reads from `c`, if it reads from it, lets its deadline stand. -/
def Patient (env : Setup) (c : ClientId) (s : Server) : Label → Prop
  | .event e => s.clients e.fd = some c → ∀ read ∈ s.read env (.event e), Steady read.1 read.2
  | _ => True

instance (env : Setup) (c : ClientId) (s : Server) : (l : Label) → Decidable (Patient env c s l)
  | .event _ => inferInstanceAs (Decidable (_ → _))
  | .beginTick _ | .fire | .user _ => isTrue trivial

def SparesDeadline (env : Setup) (c : ClientId) (s : Server) (l : Label) : Prop :=
  s.Room ∧ Patient env c s l

instance (env : Setup) (c : ClientId) (s : Server) (l : Label) :
    Decidable (SparesDeadline env c s l) :=
  inferInstanceAs (Decidable (_ ∧ _))

theorem read_eq {e : Event} {obj : WebsocketClient} {m : Bytes} {closed : Bool}
    (reads : e.reads env = true) (known : s.clients e.fd = some d) (live : s.object d = some obj)
    (received : recvAll e.recvs [] = some (m, closed)) :
    s.read env (.event e) = some (obj, m) := by
  simp [read, reads, known, live, received]

theorem onEvent_waits {bound : Int} {e : Event} (counted : 0 < s.wheel.nextId)
    (waits : Waits c bound s) (spared : SparesDeadline env c s (.event e))
    (done : s.onEvent env e = .ok s') : Waits c bound s' := by
  suffices undisturbing : Undisturbing c s (s.onEvent env e) from
    waits.after (undisturbing s' done)
  refine onEvent_rule (P := Undisturbing c s) e (Leads.ok (.refl c s))
    (fun _ _ => Frames.closeClient) (accept_undisturbed waits.born) (fun d reads known => ?_)
    fun _ _ _ => onOutput_undisturbed
  apply onInput_undisturbed ⟨counted, spared.1⟩
  rintro obj m live received rfl
  obtain ⟨waiting, set, _⟩ := waits.armed obj live
  exact ⟨waiting, set, spared.2 known _ (read_eq reads known live received)⟩

theorem beginTick_waits {bound : Int} (good : Good env False none s) (waits : Waits c bound s)
    (done : s.beginTick env now = .ok s') : Waits c bound s' := by
  rw [beginTick] at done
  split at done
  · contradiction
  · split at done
    · rename_i wheel ticked
      cases done
      obtain ⟨_, nextId, _⟩ := TimeWheel.beginTick_leaves good.tidy ticked
      exact waits.rewheel nextId fun obj _ => TimeWheel.beginTick_early ticked
    · contradiction

/-- Either the deadline task of the client runs, and closes it, or another task does. -/
theorem fire_waits {bound : Int} (good : Good env False none s) (waits : Waits c bound s)
    (done : s.fire env = .ok s') : Waits c bound s' := by
  rw [fire] at done
  split at done
  · contradiction
  split at done
  · contradiction
  · rename_i wheel fired
    cases done
    obtain ⟨nextId, _⟩ := TimeWheel.fire_leaves good.tidy fired
    exact waits.rewheel nextId fun obj _ early =>
      TimeWheel.fire_early fired early fun _ gone => absurd gone (Option.not_mem_none _)
  · rename_i wheel fn isDone id fired
    obtain ⟨nextId, due, _⟩ := TimeWheel.fire_leaves good.tidy fired
    by_cases own : fn = .expire c
    · subst own
      obtain ⟨s1, queued, closed⟩ := bind_eq_ok.mp done
      have gone := (closeClient_trace closed).1
      have quiet : Quiet { s with wheel := wheel } s' := Frames.runTask (.expire c) s' done
      have clients := quiet.nextClient
      refine ⟨clients ▸ waits.born, fun obj live => ?_⟩
      rw [gone] at live
      contradiction
    · have kept : Waits c bound { s with wheel := wheel } := by
        refine waits.rewheel nextId fun obj live early => TimeWheel.fire_early fired early ?_
        rintro r ⟨⟩ rfl
        exact own ((good.alive live).owned fn due)
      exact kept.after (Frames.runTask fn s' done)

theorem step_waits {bound : Int} {l : Label} (good : Good env False none s)
    (waits : Waits c bound s) (spared : SparesDeadline env c s l) (done : s.step env l = .ok s') :
    Waits c bound s' := by
  cases l with
  | event e => exact onEvent_waits good.tidy.counted waits spared done
  | beginTick now => exact beginTick_waits good waits done
  | fire => exact fire_waits good waits done
  | user acts => exact waits.after (Frames.userActs acts s' done)

/-- The client whose CLOSE a step reads after the server has announced the end to it. -/
def answered (env : Setup) (s : Server) (e : Event) : Option ClientId := do
  let c ← s.clients e.fd
  let (obj, m) ← s.read env (.event e)
  if obj.isConnected ≠ .none ∧ obj.waitClose = true ∧ readsClose m = true then some c else none

theorem read_live {e : Event} {read : WebsocketClient × Bytes} (known : s.clients e.fd = some c)
    (taken : s.read env (.event e) = some read) :
    e.reads env = true ∧ s.object c = some read.1 ∧
      ∃ closed, recvAll e.recvs [] = some (read.2, closed) := by
  rw [Server.read] at taken
  split at taken
  · rename_i reads
    obtain ⟨obj, live, taken⟩ := Option.bind_eq_some_iff.mp taken
    obtain ⟨⟨m, closed⟩, received, same⟩ := Option.bind_eq_some_iff.mp taken
    cases same
    rw [known] at live
    exact ⟨reads, live, closed, received⟩
  · contradiction

theorem answered_reads {e : Event} (answers : s.answered env e = some c) :
    e.reads env = true ∧ s.clients e.fd = some c ∧ ∃ obj m closed, s.object c = some obj ∧
      recvAll e.recvs [] = some (m, closed) ∧ s.read env (.event e) = some (obj, m) ∧
      obj.isConnected ≠ .none ∧ obj.waitClose = true ∧ readsClose m = true := by
  obtain ⟨d, known, answers⟩ := Option.bind_eq_some_iff.mp answers
  obtain ⟨⟨obj, m⟩, taken, answers⟩ := Option.bind_eq_some_iff.mp answers
  dsimp only at answers
  split at answers
  · rename_i holds
    cases answers
    obtain ⟨reads, live, closed, received⟩ := read_live known taken
    exact ⟨reads, known, obj, m, closed, live, received, taken, holds⟩
  · contradiction

theorem addToTimeWheelExpire_waits {obj : WebsocketClient} (good : Good env False none s)
    (room : s.Room) (live : s.object c = some obj) (waiting : obj.waitClose = true)
    (done : s.addToTimeWheelExpire now c = .ok s') :
    Waits c (now + defaultExpireTime) s' := by
  have born := good.known live
  obtain ⟨s1, id, obj1, added, live1, rfl⟩ := addToTimeWheelExpire_adds done
  rw [addTask] at added
  split at added
  · rename_i wheel new placed
    cases added
    obtain ⟨rfl, next⟩ := TimeWheel.addTask_nextId good.tidy.counted room placed
    dsimp only at live1
    rw [live] at live1
    cases live1
    refine ⟨born, fun obj1 live1 => ?_⟩
    cases put_self.symm.trans live1
    refine ⟨waiting, Nat.ne_of_gt good.tidy.counted, ?_, ?_⟩
    · exact next ▸ Nat.lt_succ_self _
    · refine TimeWheel.addTask_early placed ?_ fun _ => Int.le_refl _
      intro cell member named
      have old := good.tidy.linked.issued cell member
      rw [named] at old
      exact absurd old.2 (Nat.lt_irrefl _)
  · contradiction

theorem answered_waits {e : Event} (good : Good env False none s)
    (spared : SparesDeadline env c s (.event e)) (answers : s.answered env e = some c)
    (done : s.onEvent env e = .ok s') : Waits c (e.now + defaultExpireTime) s' := by
  obtain ⟨reads, known, obj, m, closed, live, received, taken, shaken, waiting, closing⟩ :=
    answered_reads answers
  have unset : obj.timeWheelId = 0 := spared.2 known _ taken shaken (Or.inl closing) waiting
  have full : m ≠ [] := by
    rintro rfl
    contradiction
  have branch : s.onEvent env e = s.onInput env e c := by
    simp only [Event.reads, Bool.and_eq_true, Bool.not_eq_true', bne_iff_ne] at reads
    rw [onEvent, reads.1.1, reads.1.2, if_neg Bool.false_ne_true, if_pos rfl, if_neg reads.2, known]
  rw [branch, onInput, received] at done
  obtain ⟨s1, closedIf, done⟩ := bind_eq_ok.mp done
  rw [if_neg full] at done
  obtain ⟨⟨ret, s2⟩, decoded, done⟩ := bind_eq_ok.mp done
  obtain ⟨obj1, found, decoded⟩ := bind_eq_ok.mp decoded
  cases closed with
  | true =>
    rw [get, (closeClient_trace closedIf).1] at found
    contradiction
  | false =>
    cases closedIf
    cases get_eq_ok found ▸ live
    obtain ⟨obj', same, frame⟩ := decodeProtoData_close env.proto shaken closing
    have kept := (Protocol.decodeProtoData_answer frame).1
    rw [frame] at decoded
    dsimp only at decoded
    have waiting' : obj'.waitClose = true := same.trans waiting
    rw [Protocol.decodeClose, if_neg (by rw [waiting']; exact Bool.noConfusion),
      performAll_one] at decoded
    obtain ⟨s3, armed, result⟩ := bind_eq_ok.mp decoded
    cases result
    cases done
    have touched : Good env False none ((s.log (.received c m)).put c obj') :=
      good.touch live obj' [.received c m] kept.ids kept.sockfd kept.connected
        (by simp [Act.client]) (by simp [Act.plain, Act.ends])
    exact addToTimeWheelExpire_waits touched spared.1 put_self waiting' armed

/-- The client is not registered any more, or the task under its `time_wheel_id_` closes it
in time, in a wheel that was started. -/
def DeadlineStands (env : Setup) (s : Server) (c : ClientId) (due : Int) : Prop :=
  (∀ fd, s.clients fd ≠ some c) ∨
  ∃ obj, s.object c = some obj ∧ env.proto.heartbeat = true ∧
    ∃ cell ∈ s.wheel.cells, cell.node.id = obj.timeWheelId ∧ cell.node.fn = .expire c ∧
      cell.node.expire ≤ due

theorem Waits.stands {bound : Int} (good : Good env False none s) (waits : Waits c bound s)
    (started : env.proto.heartbeat = true) : s.DeadlineStands env c bound := by
  cases found : s.object c with
  | none =>
    refine Or.inl fun fd known => ?_
    obtain ⟨obj, live, _⟩ := (good.registered fd c).mp known
    rw [found] at live
    contradiction
  | some obj =>
    obtain ⟨_, set, _, early⟩ := waits.armed obj found
    have pending := (good.alive found).expire set nofun
    obtain ⟨cell, member, same⟩ := List.mem_map.mp pending
    obtain ⟨named, closes⟩ := Prod.mk.inj same
    exact Or.inr ⟨obj, found, started, cell, member, named, closes, early cell member named⟩

theorem run_good {current : Int} {labels : List Label}
    (spared : Along (Server.step env) (SparesDeadline env c) (.start current) labels)
    (reached : run (Server.step env) (.start current) labels = .ok s) :
    Good env False none s := by
  have kept (s : Server) (l : Label) (s' : Server) (good : Good env False none s)
      (cond : SparesDeadline env c s l) (done : s.step env l = .ok s') : Good env False none s' :=
    (Server.step_good good l cond.1 nofun).of_ok done
  exact along_invariant kept (start_good current) spared reached

theorem run_waits {bound : Int} {labels : List Label} (good : Good env False none s)
    (waits : Waits c bound s) (spared : Along (Server.step env) (SparesDeadline env c) s labels)
    (reached : run (Server.step env) s labels = .ok s') : Waits c bound s' := by
  have kept (s : Server) (l : Label) (s' : Server)
      (inv : Good env False none s ∧ Waits c bound s) (cond : SparesDeadline env c s l)
      (done : s.step env l = .ok s') : Good env False none s' ∧ Waits c bound s' :=
    ⟨(Server.step_good inv.1 l cond.1 nofun).of_ok done, step_waits inv.1 inv.2 cond done⟩
  exact (along_invariant kept ⟨good, waits⟩ spared reached).2

end Server

theorem closing_deadline (env : Setup) (current : Int) (front back : List Label) (e : Event)
    (c : ClientId) (before s : Server) (started : env.proto.heartbeat = true)
    (spared : Along (Server.step env) (Server.SparesDeadline env c) (.start current)
      (front ++ .event e :: back))
    (reached : run (Server.step env) (.start current) front = .ok before)
    (answers : before.answered env e = some c)
    (later : run (Server.step env) before (.event e :: back) = .ok s) :
    s.DeadlineStands env c (e.now + defaultExpireTime) := by
  obtain ⟨first, rest⟩ := along_append spared
  have good := Server.run_good first reached
  obtain ⟨middle, taken, finished⟩ := bind_eq_ok.mp later
  have lasts := (rest before reached).1
  have waits := Server.answered_waits good lasts answers taken
  have kept := Server.step_good good (.event e) lasts.1 nofun
  have good1 := kept.of_ok taken
  have final := Server.run_waits good1 waits ((rest before reached).2 middle taken) finished
  have whole : run (Server.step env) (Server.start current) (front ++ .event e :: back) = .ok s := by
    rw [run_append, reached, ok_bind, later]
  exact final.stands (Server.run_good spared whole) started

/-- The event of `closeRead`. -/
def closeEvent (now : Int) : Event :=
  ⟨5, false, true, false, none, [.returns [0x88, 0x80, 0x00, 0x00, 0x00, 0x00], .wouldBlock], [],
    now⟩

/-- A short read follows the CLOSE, and a tick begins. -/
theorem deadline_stands : ∃ before s, run (Server.step quietSetup) (.start 0)
    (handshaken ++ [shortRead]) = .ok before ∧ before.answered quietSetup (closeEvent 0) = some 0 ∧
    run (Server.step quietSetup) before [.event (closeEvent 0), shortRead, .beginTick 0] = .ok s ∧
    s.DeadlineStands quietSetup 0 ((closeEvent 0).now + defaultExpireTime) := by
  obtain ⟨before, reached, answers⟩ := reaches (x := run (Server.step quietSetup) (.start 0)
      (handshaken ++ [shortRead])) (f := fun s => s.answered quietSetup (closeEvent 0))
    (b := some 0) (by decide +kernel)
  obtain ⟨s, whole⟩ := exists_ok (x := run (Server.step quietSetup) (.start 0)
    ((handshaken ++ [shortRead]) ++ [.event (closeEvent 0), shortRead, .beginTick 0]))
    (by decide +kernel)
  rw [run_append, reached, ok_bind] at whole
  have spared : Along (Server.step quietSetup) (Server.SparesDeadline quietSetup 0) (.start 0)
      ((handshaken ++ [shortRead]) ++ [.event (closeEvent 0), shortRead, .beginTick 0]) := by
    decide +kernel
  have stands := closing_deadline quietSetup 0 _ _ (closeEvent 0) 0 before s rfl spared reached
    answers whole
  exact ⟨before, s, reached, answers, whole, stands⟩

/-- A PONG behind the CLOSE takes the deadline away. -/
theorem pong_cancels_deadline : ∃ before s, run (Server.step quietSetup) (.start 0)
    (handshaken ++ [shortRead]) = .ok before ∧ before.answered quietSetup (closeEvent 0) = some 0 ∧
    run (Server.step quietSetup) before [.event (closeEvent 0),
      readable 5 [.returns [0x8a, 0x80, 0x00, 0x00, 0x00, 0x00], .wouldBlock] 0] = .ok s ∧
    ¬ s.DeadlineStands quietSetup 0 ((closeEvent 0).now + defaultExpireTime) := by
  obtain ⟨before, reached, answers⟩ := reaches (x := run (Server.step quietSetup) (.start 0)
      (handshaken ++ [shortRead])) (f := fun s => s.answered quietSetup (closeEvent 0))
    (b := some 0) (by decide +kernel)
  obtain ⟨s, whole, facts⟩ := reaches (x := run (Server.step quietSetup) (.start 0)
      ((handshaken ++ [shortRead]) ++ [.event (closeEvent 0),
        readable 5 [.returns [0x8a, 0x80, 0x00, 0x00, 0x00, 0x00], .wouldBlock] 0]))
    (f := fun s => (s.clients 5, s.wheel.cells.all fun cell => cell.node.fn != .expire 0))
    (b := (some 0, true)) (by decide +kernel)
  obtain ⟨known, none_⟩ := Prod.mk.inj facts
  rw [run_append, reached, ok_bind] at whole
  refine ⟨before, s, reached, answers, whole, ?_⟩
  rintro (gone | ⟨obj, _, _, cell, member, _, closes, _⟩)
  · exact gone 5 known
  · have other := List.all_eq_true.mp none_ cell member
    rw [closes] at other
    exact absurd other (by decide)

end WebsocketProto
