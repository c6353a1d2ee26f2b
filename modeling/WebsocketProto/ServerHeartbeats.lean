import WebsocketProto.ServerLife
import WebsocketProto.ServerRounds
import WebsocketProto.TimeWheelBounds

/-! The heartbeat of a client: from the handshake to the Close it has a task in the wheel, which is
due an interval behind the reading of the clock at which it was added or ran last. -/
namespace WebsocketProto
open Outcome
open TimeWheel (Every Sinking)

/-- The node, if it is a heartbeat of the client, is due by `bound`. -/
def Beat (c : ClientId) (bound : Int) (node : TimeNode Task) : Prop :=
  node.fn = .heartbeat c → node.interval = defaultHeartbeatTime ∧ node.expire ≤ bound ∧
    node.insertion.current ≤ bound

theorem beat_sinking (c : ClientId) (bound : Int) : Sinking (Beat c bound) := by
  intro node expire list lower beat mine
  obtain ⟨interval, early, placed⟩ := beat mine
  exact ⟨interval, Int.le_trans lower early, placed⟩

/-- Of the acts of a client, only the response to its handshake begins its heartbeat. -/
def Act.calm : Act → Bool
  | .queued _ (.handshake _) => false
  | _ => true

/-- A client whose handshake was accepted, and to which no Close was queued, has a heartbeat. -/
def Server.Beating (c : ClientId) (s : Server) : Prop :=
  ∀ obj, s.object c = some obj → stageOf (actsOf c s.trace) = .accepted →
    obj.timeWheelHeartbeatId ≠ 0

structure Paced (c : ClientId) (bound : Int) (s : Server) : Prop where
  wheel : s.wheel.Good
  beats : Every (Beat c bound) s.wheel.cells
  beating : s.Beating c

/-- Between ticks the heartbeat of the client goes on as it was. -/
structure Paces (c : ClientId) (bound : Int) (s s' : Server) : Prop where
  paced : Paced c bound s → Paced c bound s'
  current : s'.wheel.current = s.wheel.current
  now : s'.wheel.now = s.wheel.now
  idle : s.wheel.temp = [] → s'.wheel.temp = []

theorem Paces.refl (c : ClientId) (bound : Int) (s : Server) : Paces c bound s s :=
  ⟨id, rfl, rfl, id⟩

instance (c : ClientId) (bound : Int) : IsTrans Server (Paces c bound) where
  trans _ _ _ first second := ⟨second.paced ∘ first.paced, second.current.trans first.current,
    second.now.trans first.now, second.idle ∘ first.idle⟩

theorem Paces.next {c : ClientId} {bound : Int} {s s1 s' : Server} (first : Paces c bound s s1)
    (second : Paces c bound s1 s') : Paces c bound s s' :=
  IsTrans.trans s s1 s' first second

abbrev Pacing (c : ClientId) (bound : Int) (s : Server) (x : Except Fault Server) : Prop :=
  Leads (Paces c bound) s x

namespace Server
variable {env : Setup} {s s' : Server} {c d : ClientId} {bound now : Int}
  {obj obj' : WebsocketClient}

theorem calm_stage {stage : Stage} {acts : List Act} (calm : ∀ a ∈ acts, a.calm = true)
    (accepted : acts.foldl Stage.next stage = .accepted) : stage = .accepted := by
  induction acts generalizing stage with
  | nil => exact accepted
  | cons a rest ih =>
    have later := ih (fun b member => calm b (List.mem_cons_of_mem a member)) accepted
    have here := calm a List.mem_cons_self
    cases stage with
    | accepted => rfl
    | ended => exact later
    | fresh =>
      cases a with
      | queued d output => cases output <;> contradiction
      | _ => contradiction

theorem accepted_of_calm {trace acts : List Act} (calm : ∀ a ∈ acts, a.calm = true)
    (accepted : stageOf (actsOf c (trace ++ acts)) = .accepted) :
    stageOf (actsOf c trace) = .accepted := by
  rw [actsOf_append, stageOf_append] at accepted
  exact calm_stage (fun a member => calm a (List.mem_filter.mp member).1) accepted

/-- The object of a client is written, and acts of the client are logged. -/
def amend (s : Server) (d : ClientId) (obj : WebsocketClient) (acts : List Act) : Server :=
  { s with object := Function.update s.object d (some obj), trace := s.trace ++ acts }

theorem put_amend : s.put d obj = s.amend d obj [] := by
  simp [put, amend]

theorem amend_paces {acts : List Act} (mine : ∀ a ∈ acts, a.client = d)
    (beats : d = c → s.Beating c → stageOf (actsOf c (s.trace ++ acts)) = .accepted →
      obj.timeWheelHeartbeatId ≠ 0) : Paces c bound s (s.amend d obj acts) := by
  refine ⟨fun paced => ⟨paced.wheel, paced.beats, fun obj1 live1 accepted => ?_⟩, rfl, rfl, id⟩
  rw [amend] at live1 accepted
  by_cases own : d = c
  · subst own
    cases (Function.update_self ..).symm.trans live1
    exact beats rfl paced.beating accepted
  · rw [actsOf_append, actsOf_other mine (Ne.symm own), List.append_nil] at accepted
    refine paced.beating obj1 ?_ accepted
    simpa [Function.update_of_ne (Ne.symm own)] using live1

/-- The heartbeat stays under its id, and no handshake is accepted. -/
theorem calm_paces (live : s.object d = some obj)
    (same : obj'.timeWheelHeartbeatId = obj.timeWheelHeartbeatId) {acts : List Act}
    (mine : ∀ a ∈ acts, a.client = d) (calm : ∀ a ∈ acts, a.calm = true) :
    Paces c bound s (s.amend d obj' acts) := by
  apply amend_paces mine
  rintro rfl beating accepted
  rw [same]
  exact beating obj live (accepted_of_calm calm accepted)

theorem put_paces (live : s.object d = some obj)
    (same : obj'.timeWheelHeartbeatId = obj.timeWheelHeartbeatId) :
    Paces c bound s (s.put d obj') := by
  rw [put_amend]
  exact calm_paces live same (List.forall_mem_nil _) (List.forall_mem_nil _)

theorem log_paces {a : Act} (calm : a.calm = true) : Paces c bound s (s.log a) := by
  refine ⟨fun paced => ⟨paced.wheel, paced.beats, fun obj live accepted => ?_⟩, rfl, rfl, id⟩
  exact paced.beating obj live (accepted_of_calm (List.forall_mem_singleton.mpr calm) accepted)

theorem rewheel_paces {wheel : TimeWheel Task} (good : s.wheel.Good → wheel.Good)
    (beats : Every (Beat c bound) s.wheel.cells → Every (Beat c bound) wheel.cells)
    (current : wheel.current = s.wheel.current) (now : wheel.now = s.wheel.now)
    (idle : s.wheel.temp = [] → wheel.temp = []) : Paces c bound s { s with wheel := wheel } :=
  ⟨fun paced => ⟨good paced.wheel, beats paced.beats, paced.beating⟩, current, now, idle⟩

theorem eraseTask_paces (id : Nat) : Pacing c bound s (s.eraseTask id) := by
  rw [eraseTask]
  split
  · rename_i wheel found erased
    have erases := (TimeWheel.eraseTask_erases erased).2
    refine Leads.ok (rewheel_paces (fun good => good.erases erases)
      (TimeWheel.eraseTask_every erased) ?_ ?_ ?_)
    · cases erases <;> rfl
    · cases erases <;> rfl
    · intro idle
      cases erases <;> simp [idle]
  · exact Leads.error _

theorem eraseIfSet_paces (id : Nat) : Pacing c bound s (s.eraseIfSet id) := by
  rw [eraseIfSet]
  split
  · exact eraseTask_paces id
  · exact Leads.ok (.refl c bound s)

/-- A heartbeat of the client may only be added in time. -/
theorem addTask_paces {fn : Task} {expire : Int} {circleCount : UInt32} {id : Nat}
    (own : fn = .heartbeat c → expire = defaultHeartbeatTime ∧ now + expire ≤ bound ∧
      s.wheel.current ≤ bound)
    (done : s.addTask now fn expire circleCount = .ok (s', id)) :
    Paces c bound s s' ∧ id ≠ 0 := by
  rw [addTask] at done
  split at done
  · rename_i wheel new added
    obtain ⟨rfl, rfl⟩ := Prod.mk.inj (Except.ok.inj done)
    obtain ⟨node, adds, _⟩ := TimeWheel.addTask_adds added
    refine ⟨rewheel_paces (fun good => good.adds adds) (fun every => ?_) ?_ ?_ ?_, ?_⟩
    · refine TimeWheel.addTask_every (beat_sinking c bound) added every ?_
      intro node function interval asked placed mine
      obtain ⟨same, early, before⟩ := own (function.symm.trans mine)
      exact ⟨interval.trans same, asked ▸ early, placed ▸ before⟩
    · rw [adds.eq]
      rfl
    · rw [adds.eq]
      rfl
    · intro idle
      rw [adds.eq]
      exact idle
    · rw [adds.issued, TimeWheel.getId]
      split <;> simp [*]
  · contradiction

theorem sent_amend (output : Output) : s.sent d obj output =
    s.amend d { obj with sendBufferQueue := obj.sendBufferQueue ++ [output.bytes] }
      [.queued d output, .epollCtl d (.mod true)] := rfl

theorem sendBuffer_paces {output : Output} (calm : (Act.queued d output).calm = true) :
    Pacing c bound s (s.sendBuffer d output) := by
  intro s' done
  obtain ⟨obj, live, rfl⟩ := sendBuffer_cases done
  rw [sent_amend]
  apply calm_paces live
  · rfl
  · simp [Act.client]
  · simpa using ⟨calm, rfl⟩

/-- Behind a Close the client is at its end, if it ever was accepted. -/
theorem closed_stage (obj : WebsocketClient) (stack : Bytes) (flag : CloseFlag) :
    stageOf (actsOf d (s.sent d obj (.frame (.closeWebsocketClient stack flag))).trace) ≠
      .accepted := by
  have mine : ∀ a ∈ [Act.queued d (.frame (.closeWebsocketClient stack flag)),
      .epollCtl d (.mod true)], a.client = d := by simp [Act.client]
  rw [sent, actsOf_append, actsOf_own mine, stageOf_append]
  cases stageOf (actsOf d s.trace) <;> simp [Stage.next]

theorem closeWebsocketClient_paces (flag : CloseFlag) :
    Pacing c bound s (s.closeWebsocketClient env d flag) := by
  intro s' done
  obtain ⟨s1, queued, done⟩ := bind_eq_ok.mp done
  have first : Paces c bound s s1 := sendBuffer_paces rfl s1 queued
  obtain ⟨obj, live, rfl⟩ := sendBuffer_cases queued
  obtain ⟨obj1, found, done⟩ := bind_eq_ok.mp done
  split at done
  · obtain ⟨s2, erased, same⟩ := bind_eq_ok.mp done
    cases same
    have second := first.next (eraseTask_paces _ s2 erased)
    obtain ⟨wheel, rfl⟩ := eraseTask_cases erased
    refine second.next ?_
    rw [put_amend]
    refine amend_paces (List.forall_mem_nil _) ?_
    rintro rfl _ accepted
    rw [List.append_nil] at accepted
    exact absurd accepted (closed_stage obj _ flag)
  · exact Except.ok.inj done ▸ first

theorem userActs_paces (acts : List (ClientId × UserAct)) :
    Pacing c bound s (userActs env acts s) := by
  refine userActs_leads (.refl c bound s) (fun s1 d act => ?_) acts
  cases act with
  | send payload => exact sendBuffer_paces rfl
  | close => exact closeWebsocketClient_paces _

theorem closeClient_paces : Pacing c bound s (s.closeClient env d) := by
  intro s' done
  obtain ⟨obj, found, _⟩ := bind_eq_ok.mp done
  have ended : Paces c bound s (s.closing d obj.sockfd) := by
    refine ⟨fun paced => ⟨paced.wheel, paced.beats, fun obj1 live1 accepted => ?_⟩, rfl, rfl, id⟩
    have calm : ∀ a ∈ [Act.closeFd d obj.sockfd, .epollCtl d .del, .disconnected d],
        a.calm = true := by simp [Act.calm]
    have before := accepted_of_calm calm accepted
    by_cases own : c = d
    · simp [closing, own] at live1
    · exact paced.beating obj1 (by simpa [closing, Function.update_of_ne own] using live1) before
  rw [closeClient_eq (get_eq_ok found)] at done
  obtain ⟨s1, told, done⟩ := bind_eq_ok.mp done
  obtain ⟨s2, first, done⟩ := bind_eq_ok.mp done
  obtain ⟨s3, second, same⟩ := bind_eq_ok.mp done
  cases same
  have called := ended.next (userActs_paces _ s1 told)
  have erased := (called.next (eraseIfSet_paces _ s2 first)).next (eraseIfSet_paces _ s3 second)
  exact erased.next (log_paces rfl)

theorem addToTimeWheelExpire_paces : Pacing c bound s (s.addToTimeWheelExpire now d) := by
  intro s' done
  obtain ⟨s1, id, obj, added, live, rfl⟩ := addToTimeWheelExpire_adds done
  have other : Task.expire d ≠ .heartbeat c := by simp
  exact (addTask_paces (fun same => absurd same other) added).1.next (put_paces live rfl)

theorem removeFromTimeWheel_paces : Pacing c bound s (s.removeFromTimeWheel d) := by
  intro s' done
  obtain ⟨obj, found, done⟩ := bind_eq_ok.mp done
  obtain ⟨s1, erased, same⟩ := bind_eq_ok.mp done
  cases same
  have live : s1.object d = some obj := by
    rw [eraseTask_object erased]
    exact get_eq_ok found
  exact (eraseTask_paces _ s1 erased).next (put_paces live rfl)

/-- A new heartbeat of the client is due by `bound`. -/
def InTime (c d : ClientId) (bound now : Int) (s : Server) (obj : WebsocketClient) : Prop :=
  d = c → obj.isConnected = .none → now + defaultHeartbeatTime ≤ bound ∧ s.wheel.current ≤ bound

/-- The heartbeat begins together with the response to the handshake. -/
theorem shaken_paces (response : Bytes)
    (inTime : d = c → now + defaultHeartbeatTime ≤ bound ∧ s.wheel.current ≤ bound) :
    Pacing c bound s ((s.sent d obj (.handshake response)).addToTimeWheelHeartbeat now d) := by
  intro s' done
  obtain ⟨s1, id, obj1, added, live1, rfl⟩ := addToTimeWheelHeartbeat_adds done
  rw [addTask] at added
  split at added
  · rename_i wheel new placed
    obtain ⟨rfl, rfl⟩ := Prod.mk.inj (Except.ok.inj added)
    have before : s.addTask now (.heartbeat d) defaultHeartbeatTime FULL_CIRCLE =
        .ok ({ s with wheel := wheel }, new) := by
      have here : s.wheel.addTask now (.heartbeat d) defaultHeartbeatTime FULL_CIRCLE false 0 =
          .ok (wheel, new) := placed
      rw [addTask, here]
    obtain ⟨first, set⟩ := addTask_paces (c := c)
      (fun same => ⟨rfl, inTime (Task.heartbeat.inj same)⟩) before
    have second : Paces c bound { s with wheel := wheel }
        (amend { s with wheel := wheel } d { obj1 with timeWheelHeartbeatId := new }
          [.queued d (.handshake response), .epollCtl d (.mod true)]) :=
      amend_paces (by simp [Act.client]) fun _ _ _ => set
    simpa [amend, put, sent] using first.next second
  · contradiction

theorem performAll_paces {data : Bytes} {ret : Bool} {calls : List Call}
    (started : env.proto.heartbeat = true) (live : s.object d = some obj')
    (inTime : InTime c d bound now s obj) (answer : env.proto.Answer obj obj' data ret calls) :
    Pacing c bound s (performAll env now d calls s) := by
  cases answer with
  | quiet => exact Leads.ok (.refl c bound s)
  | refused flag =>
    rw [performAll_one]
    exact closeWebsocketClient_paces flag
  | ponged =>
    rw [performAll_one]
    exact sendBuffer_paces rfl
  | shaken response fresh waits =>
    rw [performAll, perform, sendBuffer_eq live, ok_bind, if_pos started, performAll_one]
    exact shaken_paces response fun own => inTime own fresh
  | disarmed =>
    rw [performAll_one]
    exact removeFromTimeWheel_paces
  | passive shaken closing open_ =>
    have closes (s1 : Server) : Pacing c bound s1 (performAll env now d
        [.closeWebsocketClient .normalClose, .closeClient] s1) := by
      refine Leads.bind (R := Paces c bound) (closeWebsocketClient_paces _) fun s2 => ?_
      rw [performAll_one]
      exact closeClient_paces
    rw [Protocol.decodeClose, if_pos open_]
    split
    · exact removeFromTimeWheel_paces.bind closes
    · exact closes s
  | expiring shaken closing closed =>
    rw [performAll_one]
    exact addToTimeWheelExpire_paces

theorem decodeProtoData_paces {data : Bytes} {ret : Bool} (started : env.proto.heartbeat = true)
    (inTime : ∀ obj, s.object d = some obj → InTime c d bound now s obj)
    (done : s.decodeProtoData env now d data = .ok (ret, s')) : Paces c bound s s' := by
  obtain ⟨obj, found, done⟩ := bind_eq_ok.mp done
  have live := get_eq_ok found
  split at done
  · contradiction
  · rename_i ret' obj' calls decoded
    obtain ⟨s1, performed, same⟩ := bind_eq_ok.mp done
    cases same
    obtain ⟨kept, answer⟩ := Protocol.decodeProtoData_answer decoded
    have logged : Paces c bound s (s.log (.received d data)) := log_paces rfl
    have still : (s.log (.received d data)).object d = some obj := live
    have written : Paces c bound s ((s.log (.received d data)).put d obj') :=
      logged.next (put_paces still kept.ids.2)
    have inTime' : InTime c d bound now ((s.log (.received d data)).put d obj') obj :=
      inTime obj live
    exact written.next (performAll_paces started put_self inTime' answer s' performed)

theorem recvCallback_paces : Pacing c bound s (s.recvCallback env d) := by
  intro s' done
  obtain ⟨obj, found, done⟩ := bind_eq_ok.mp done
  split at done
  · obtain ⟨s1, called, done⟩ := bind_eq_ok.mp done
    obtain ⟨obj1, found1, same⟩ := bind_eq_ok.mp done
    cases same
    have told : Paces c bound s (s.log (.delivered d obj.decodeBuffer)) := log_paces rfl
    exact (told.next (userActs_paces _ s1 called)).next (put_paces (get_eq_ok found1) rfl)
  · exact Except.ok.inj done ▸ .refl c bound s

theorem sentCallback_paces : Pacing c bound s (s.sentCallback env d) := by
  intro s' done
  obtain ⟨s1, connected, done⟩ := bind_eq_ok.mp done
  have begun : Paces c bound s s1 := by
    obtain ⟨obj, found, connected⟩ := bind_eq_ok.mp connected
    split at connected
    · have put : Paces c bound s (s.put d { obj with isConnected := .connected }) :=
        put_paces (get_eq_ok found) rfl
      exact (put.next (log_paces rfl)).next (userActs_paces _ s1 connected)
    · exact Except.ok.inj connected ▸ .refl c bound s
  exact (begun.next (log_paces rfl)).next (userActs_paces _ s' done)

theorem onInput_paces {e : Event} (started : env.proto.heartbeat = true)
    (inTime : ∀ obj, s.object d = some obj → InTime c d bound e.now s obj) :
    Pacing c bound s (s.onInput env e d) := by
  intro s' done
  obtain ⟨m, closed, _, ⟨_, _, gone⟩ | ⟨_, _, rfl⟩ | ⟨_, _, ret, s1, decoded, after⟩⟩ :=
    onInput_cases done
  · exact closeClient_paces s' gone
  · exact .refl c bound s'
  · have read : Paces c bound s s1 := decodeProtoData_paces started inTime decoded
    rcases after with ⟨_, called⟩ | ⟨_, rfl⟩
    · exact read.next (recvCallback_paces s' called)
    · exact read

theorem onOutput_paces {e : Event} : Pacing c bound s (s.onOutput env e d) := by
  intro s' done
  obtain ⟨obj, drained, live, _, _, called⟩ := onOutput_cases done
  have offered : Paces c bound s (s.offered d obj drained) := by
    have written : Paces c bound s (s.amend d { obj with sendBufferQueue := drained.queue }
        (drained.calls.map (Act.sendCall d) ++ [.epollCtl d (.mod false)])) := by
      apply calm_paces live
      · rfl
      · simp [Act.client, or_imp, forall_and]
      · simp [Act.calm, or_imp, forall_and]
    simpa [Server.offered, amend] using written
  exact offered.next (sentCallback_paces s' called)

/-- A new client has no handshake behind it. -/
theorem admitted_paces (rooted : s.Rooted) (fd : Nat) : Paces c bound s (s.admitted fd) := by
  refine ⟨fun paced => ⟨paced.wheel, paced.beats, fun obj live accepted => ?_⟩, rfl, rfl, id⟩
  have before : stageOf (actsOf c s.trace) = .accepted :=
    accepted_of_calm (by simp [Act.calm]) accepted
  by_cases own : c = s.nextClient
  · rw [own, (rooted.unborn s.nextClient (Nat.le_refl _)).2] at before
    contradiction
  · refine paced.beating obj ?_ before
    simpa [admitted, Function.update_of_ne own] using live

theorem onEvent_paces {e : Event} (started : env.proto.heartbeat = true) (rooted : s.Rooted)
    (inTime : ∀ d obj, s.object d = some obj → InTime c d bound e.now s obj) :
    Pacing c bound s (s.onEvent env e) := by
  intro s' done
  cases onEvent_cases done with
  | missed | refused | silent => exact .refl c bound s
  | hangUp d _ hup known done => exact closeClient_paces s' done
  | accepts fd => exact admitted_paces rooted fd
  | reads d _ hup input foreign known done => exact onInput_paces started (inTime d) s' done
  | writes d _ hup input output known done => exact onOutput_paces s' done

theorem beginTick_paced (done : s.beginTick env now = .ok s') (paced : Paced c bound s) :
    Paced c bound s' := by
  rw [beginTick] at done
  split at done
  · contradiction
  split at done
  · rename_i wheel ticked
    cases done
    obtain ⟨settled, begins⟩ := TimeWheel.beginTick_begins ticked
    have every := TimeWheel.beginTick_every (beat_sinking c bound) ticked paced.beats
    exact ⟨paced.wheel.begins begins, every, paced.beating⟩
  · contradiction

theorem beginTick_clock (done : s.beginTick env now = .ok s') :
    s'.wheel.current = s.wheel.current + 1 ∧ s'.wheel.now = now := by
  rw [beginTick] at done
  split at done
  · contradiction
  split at done
  · rename_i wheel ticked
    cases done
    obtain ⟨settled, begins⟩ := TimeWheel.beginTick_begins ticked
    simp [begins.eq, (TimeWheel.cascades_moving begins.cascaded).current]
  · contradiction

/-- The task that the step runs. -/
def fires (s : Server) : Option Task :=
  match s.wheel.fire with
  | .ok (_, call) => call.map Prod.fst
  | .error _ => none

/-- Another task may run, or the heartbeat of the client in time. -/
theorem fire_paces (done : s.fire env = .ok s') (inTime : s.fires = some (.heartbeat c) →
    s.wheel.now + defaultHeartbeatTime ≤ bound ∧ s.wheel.current ≤ bound) :
    Paces c bound s s' := by
  have rings {wheel : TimeWheel Task} {call : Option (Task × Bool × Nat)}
      (fired : s.wheel.fire = .ok (wheel, call)) : Paces c bound s { s with wheel := wheel } := by
    have steps := TimeWheel.fire_fires fired
    refine rewheel_paces (fun good => good.fires steps) (fun every => ?_) ?_ ?_ ?_
    · refine TimeWheel.fire_every (beat_sinking c bound) fired every ?_
      intro v due beat isDone called mine
      obtain ⟨interval, _, _⟩ := beat mine
      have here : s.fires = some (.heartbeat c) := by
        rw [fires, fired, called]
        exact congrArg some mine
      obtain ⟨early, before⟩ := inTime here
      exact ⟨interval, by simpa [TimeWheel.rearmed, interval] using early, before⟩
    · cases steps <;> rfl
    · cases steps <;> rfl
    · intro idle
      cases steps <;> simp_all
  rw [fire] at done
  split at done
  · contradiction
  split at done
  · contradiction
  · rename_i wheel fired
    exact Except.ok.inj done ▸ rings fired
  · rename_i wheel task isDone id fired
    refine (rings fired).next ?_
    cases task with
    | expire d =>
      exact Leads.bind (R := Paces c bound) (closeWebsocketClient_paces _)
        (fun s1 => closeClient_paces) s' done
    | heartbeat d => exact sendBuffer_paces rfl s' done

/-- The PINGs that were queued to a client. -/
def pings (c : ClientId) (s : Server) : Nat := s.trace.count (.queued c (.frame .heartbeatPing))

/-- A heartbeat that runs queues its PING. -/
theorem fire_pings (done : s.fire env = .ok s') (beats : s.fires = some (.heartbeat c)) :
    s.pings c < s'.pings c := by
  rw [fires] at beats
  rw [fire] at done
  split at done
  · contradiction
  split at done
  · contradiction
  · rename_i wheel fired
    rw [fired] at beats
    contradiction
  · rename_i wheel task isDone id fired
    rw [fired] at beats
    cases beats
    obtain ⟨obj, _, rfl⟩ := sendBuffer_cases done
    simp [pings, sent]

theorem pings_grow {l : Label} (done : s.step env l = .ok s') : s.pings c ≤ s'.pings c := by
  obtain ⟨acts, added⟩ := step_grows l s' done
  rw [pings, pings, ← added, List.count_append]
  exact Nat.le_add_right _ _

/-- The clock of the wheel never goes back. -/
theorem step_current (started : env.proto.heartbeat = true) (rooted : s.Rooted) {l : Label}
    (done : s.step env l = .ok s') : s.wheel.current ≤ s'.wheel.current := by
  cases l with
  | event e =>
    have inTime (d : ClientId) (obj : WebsocketClient) (_ : s.object d = some obj) :
        InTime 0 d (max (e.now + defaultHeartbeatTime) s.wheel.current) e.now s obj :=
      fun _ _ => ⟨le_max_left _ _, le_max_right _ _⟩
    exact (onEvent_paces started rooted inTime s' done).current.ge
  | beginTick now =>
    rw [(beginTick_clock done).1]
    exact Int.le_of_lt (Int.lt_succ _)
  | fire =>
    have paces := fire_paces (c := 0) done fun _ =>
      ⟨le_max_left (s.wheel.now + defaultHeartbeatTime) s.wheel.current, le_max_right _ _⟩
    exact paces.current.ge
  | user acts =>
    have paces : Paces 0 0 s s' := userActs_paces acts s' done
    exact paces.current.ge

end Server

/-- The step reads the clock at `t` or earlier, if it reads it. -/
def Label.ReadBy (t : Int) : Label → Prop
  | .event e => e.now ≤ t
  | .beginTick now => now ≤ t
  | .fire | .user _ => True

instance (t : Int) : (l : Label) → Decidable (l.ReadBy t)
  | .event e => inferInstanceAs (Decidable (e.now ≤ t))
  | .beginTick now => inferInstanceAs (Decidable (now ≤ t))
  | .fire | .user _ => isTrue trivial

namespace Server
variable {env : Setup} {s s' : Server} {c : ClientId} {t bound : Int}

/-- Every reading of the clock was `t` or earlier. -/
structure Timed (c : ClientId) (t bound : Int) (s : Server) : Prop where
  rooted : s.Rooted
  paced : Paced c bound s
  reading : s.wheel.temp = [] ∨ s.wheel.now ≤ t

theorem start_timed (current : Int) : Timed c t bound (start current) := by
  refine ⟨start_rooted current, ⟨TimeWheel.empty_good current, ?_, nofun⟩, Or.inl rfl⟩
  intro cell member
  simp [start] at member

theorem Timed.keep (timed : Timed c t bound s) (rooted : s'.Rooted) (paces : Paces c bound s s') :
    Timed c t bound s' :=
  ⟨rooted, paces.paced timed.paced, timed.reading.imp paces.idle fun read => paces.now ▸ read⟩

theorem step_timed {l : Label} (started : env.proto.heartbeat = true)
    (timely : t + defaultHeartbeatTime ≤ bound) (read : l.ReadBy t)
    (soon : s.wheel.current ≤ bound) (timed : Timed c t bound s) (done : s.step env l = .ok s') :
    Timed c t bound s' := by
  have rooted := step_rooted timed.rooted done
  cases l with
  | event e =>
    have early : e.now + defaultHeartbeatTime ≤ bound :=
      Int.le_trans (Int.add_le_add_right read _) timely
    exact timed.keep rooted
      (onEvent_paces started timed.rooted (fun _ _ _ _ _ => ⟨early, soon⟩) s' done)
  | beginTick now =>
    refine ⟨rooted, beginTick_paced done timed.paced, Or.inr ?_⟩
    rw [(beginTick_clock done).2]
    exact read
  | fire =>
    refine timed.keep rooted (fire_paces done fun beats => ⟨?_, soon⟩)
    rcases timed.reading with idle | read
    · simp [fires, TimeWheel.fire, idle] at beats
    · exact Int.le_trans (Int.add_le_add_right read _) timely
  | user acts => exact timed.keep rooted (userActs_paces acts s' done)

theorem run_current {labels : List Label} (started : env.proto.heartbeat = true)
    (rooted : s.Rooted) (done : run (Server.step env) s labels = .ok s') :
    s.wheel.current ≤ s'.wheel.current := by
  induction labels generalizing s with
  | nil =>
    cases done
    exact Int.le_refl _
  | cons l rest ih =>
    obtain ⟨next, taken, later⟩ := bind_eq_ok.mp done
    exact Int.le_trans (step_current started rooted taken) (ih (step_rooted rooted taken) later)

theorem run_timed {labels : List Label} (started : env.proto.heartbeat = true)
    (timely : t + defaultHeartbeatTime ≤ bound) (read : ∀ l ∈ labels, l.ReadBy t)
    (timed : Timed c t bound s) (done : run (Server.step env) s labels = .ok s')
    (soon : s'.wheel.current ≤ bound) : Timed c t bound s' := by
  induction labels generalizing s with
  | nil =>
    cases done
    exact timed
  | cons l rest ih =>
    have before := Int.le_trans (run_current started timed.rooted done) soon
    obtain ⟨next, taken, later⟩ := bind_eq_ok.mp done
    have stepped := step_timed started timely (read l List.mem_cons_self) before timed taken
    exact ih (fun m member => read m (List.mem_cons_of_mem l member)) stepped later

theorem next_fresh {stage : Stage} {a : Act} (fresh : stage.next a = .fresh) : stage = .fresh := by
  cases stage with
  | fresh => rfl
  | ended => exact fresh
  | accepted =>
    unfold Stage.next at fresh
    split at fresh <;> contradiction

theorem fresh_before {front back : List Act} (fresh : stageOf (front ++ back) = .fresh) :
    stageOf front = .fresh := by
  rw [stageOf_append] at fresh
  induction back generalizing front with
  | nil => exact fresh
  | cons a rest ih =>
    have next : stageOf (front ++ [a]) = .fresh := ih (by simpa [stageOf_append] using fresh)
    rw [stageOf_append] at next
    exact next_fresh next

/-- A client whose handshake is done goes on with its heartbeat until a PING is queued. -/
structure Going (env : Setup) (c : ClientId) (bound : Int) (count : Nat) (s : Server) : Prop where
  good : Good env False none s
  begun : stageOf (actsOf c s.trace) ≠ .fresh
  beats : Paced c bound s ∨ count < s.pings c

theorem Going.rooted {count : Nat} (going : Going env c bound count s) : s.Rooted :=
  ⟨going.good.registered, going.good.unborn⟩

theorem step_going {count : Nat} {l : Label} (started : env.proto.heartbeat = true)
    (room : s.Room) (from_ : count ≤ s.pings c) (going : Going env c bound count s)
    (done : s.step env l = .ok s') : Going env c bound count s' := by
  refine ⟨(step_good going.good l room nofun).of_ok done, fun fresh => ?_, ?_⟩
  · obtain ⟨acts, added⟩ := step_grows l s' done
    rw [← added, actsOf_append] at fresh
    exact going.begun (fresh_before fresh)
  rcases going.beats with paced | pinged
  · cases l with
    | event e =>
      refine Or.inl ((onEvent_paces started going.rooted ?_ s' done).paced paced)
      rintro d obj live rfl none_
      exact absurd ((going.good.alive live).stage none_) going.begun
    | beginTick now => exact Or.inl (beginTick_paced done paced)
    | fire =>
      by_cases beats : s.fires = some (.heartbeat c)
      · exact Or.inr (Nat.lt_of_le_of_lt from_ (fire_pings done beats))
      · exact Or.inl ((fire_paces done fun same => absurd same beats).paced paced)
    | user acts => exact Or.inl ((userActs_paces acts s' done).paced paced)
  · exact Or.inr (Nat.lt_of_lt_of_le pinged (pings_grow done))

theorem run_going {count : Nat} {labels : List Label} (started : env.proto.heartbeat = true)
    (room : Along (Server.step env) (fun s _ => s.Room) s labels) (from_ : count ≤ s.pings c)
    (going : Going env c bound count s) (done : run (Server.step env) s labels = .ok s') :
    Going env c bound count s' := by
  induction labels generalizing s with
  | nil =>
    cases done
    exact going
  | cons l rest ih =>
    obtain ⟨next, taken, later⟩ := bind_eq_ok.mp done
    exact ih (room.2 next taken) (Nat.le_trans from_ (pings_grow taken))
      (step_going started room.1 from_ going taken) later

end Server

/-- Where the wheel stands, no heartbeat that it still holds was due before. -/
theorem Paced.current_le {env : Setup} {c : ClientId} {bound : Int} {s : Server}
    {obj : WebsocketClient} (paced : Paced c bound s) (good : Good env False none s)
    (live : s.object c = some obj) (accepted : stageOf (actsOf c s.trace) = .accepted) (idle : s.wheel.temp = []) :
    s.wheel.current ≤ bound := by
  have set := paced.beating obj live accepted
  have pending := ((good.alive live).heartbeat obj.timeWheelHeartbeatId).mpr ⟨rfl, set⟩
  obtain ⟨cell, member, same⟩ := List.mem_map.mp pending
  obtain ⟨_, early, before⟩ := paced.beats cell member (Prod.mk.inj same).2
  rw [TimeWheel.cells, idle, List.append_nil] at member
  obtain ⟨idx, _, listed⟩ := List.mem_flatMap.mp member
  have due := (paced.wheel.laid.placed idx cell listed).1.behind_due
  exact Int.le_trans due (max_le early before)

/-- From the handshake to the Close no client goes without a heartbeat: when the wheel has passed
its interval, counted from the last reading of the clock, a PING was queued. -/
theorem clients_pinged (env : Setup) (current t : Int) (front back : List Label) (s s' : Server)
    (started : env.proto.heartbeat = true)
    (room : Along (Server.step env) (fun s _ => s.Room) (.start current) (front ++ back))
    (done : run (Server.step env) (.start current) front = .ok s)
    (read : ∀ l ∈ front, l.ReadBy t) (c : ClientId)
    (begun : stageOf (actsOf c s.trace) = .accepted)
    (done' : run (Server.step env) s back = .ok s') (live : (s'.object c).isSome)
    (open_ : stageOf (actsOf c s'.trace) = .accepted) (idle : s'.wheel.temp = [])
    (passed : max (t + defaultHeartbeatTime) s.wheel.current < s'.wheel.current) :
    s.pings c < s'.pings c := by
  obtain ⟨first, rest⟩ := along_append room
  have timed := Server.run_timed (c := c) started (le_max_left _ _) read (Server.start_timed current)
    done (le_max_right (t + defaultHeartbeatTime) s.wheel.current)
  have good : Good env False none s := by
    have kept (s : Server) (l : Label) (s' : Server) (good : Good env False none s)
        (room : s.Room) (done : s.step env l = .ok s') : Good env False none s' :=
      (Server.step_good good l room nofun).of_ok done
    exact along_invariant kept (start_good current) first done
  have going := Server.run_going started (rest s done) (Nat.le_refl (s.pings c))
    ⟨good, by simp [begun], Or.inl timed.paced⟩ done'
  rcases going.beats with paced | pinged
  · obtain ⟨obj, found⟩ := Option.isSome_iff_exists.mp live
    exact absurd (paced.current_le going.good found open_ idle) (Int.not_le.mpr passed)
  · exact pinged

/-- The clock was put back by an interval between the start and the handshake, so that the first
tick is the one in which the heartbeat is due. -/
theorem handshake_pinged : ∃ s s', run (Server.step quietSetup) (.start 3000) handshaken = .ok s ∧
    run (Server.step quietSetup) s [.beginTick 3000, .fire] = .ok s' ∧ s.pings 0 < s'.pings 0 := by
  obtain ⟨s, reached, facts⟩ := reaches (x := run (Server.step quietSetup) (.start 3000) handshaken)
    (f := fun s => (stageOf (actsOf 0 s.trace), s.wheel.current)) (b := (.accepted, 3000))
    (by decide +kernel)
  obtain ⟨s', whole, facts'⟩ := reaches (x := run (Server.step quietSetup) (.start 3000)
      (handshaken ++ [.beginTick 3000, .fire]))
    (f := fun s => ((s.object 0).isSome, stageOf (actsOf 0 s.trace), s.wheel.temp.isEmpty,
      s.wheel.current)) (b := (true, .accepted, true, 3001)) (by decide +kernel)
  rw [run_append, reached, ok_bind] at whole
  obtain ⟨begun, current⟩ := Prod.mk.inj facts
  obtain ⟨live, facts'⟩ := Prod.mk.inj facts'
  obtain ⟨open_, facts'⟩ := Prod.mk.inj facts'
  obtain ⟨idle, current'⟩ := Prod.mk.inj facts'
  have room : Along (Server.step quietSetup) (fun s _ => s.Room) (.start 3000)
      (handshaken ++ [.beginTick 3000, .fire]) := by decide +kernel
  refine ⟨s, s', reached, whole, clients_pinged quietSetup 3000 0 handshaken _ s s' rfl room
    reached ?_ 0 begun whole live open_ (List.isEmpty_iff.mp idle) ?_⟩
  · decide
  · rw [current, current']
    decide

end WebsocketProto
