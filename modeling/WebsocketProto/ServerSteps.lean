import WebsocketProto.ServerInvariant

/-! Each operation of the server keeps the invariant, and none of them touches a deleted
client when it is called for a live one. -/
namespace WebsocketProto
open Outcome

def Fault.freed : Fault → Prop
  | .usesFreed _ => True
  | _ => False

namespace Server
variable {env : Setup} {strict : Prop} {busy : Option ClientId} {s : Server} {c : ClientId}
  {obj : WebsocketClient}

theorem get_live (live : s.object c = some obj) : s.get c = .ok obj := by
  rw [get, live]

/-- The state behind `send_buffer`. -/
def sent (s : Server) (c : ClientId) (obj : WebsocketClient) (output : Output) : Server :=
  { s with
    object := Function.update s.object c
      (some { obj with sendBufferQueue := obj.sendBufferQueue ++ [output.bytes] })
    trace := s.trace ++ [.queued c output, .epollCtl c (.mod true)] }

theorem sendBuffer_eq (live : s.object c = some obj) (output : Output) :
    s.sendBuffer c output = .ok (s.sent c obj output) := by
  rw [sendBuffer, get_live live, ok_bind]
  simp [put, log, sent]

theorem sendBuffer_plain (good : Good env strict busy s) (live : s.object c = some obj)
    (output : Output) (plain : (Act.queued c output).plain = true) :
    Good env strict busy (s.sent c obj output) := by
  refine good.touch live _ _ ⟨rfl, rfl⟩ rfl id ?_ ?_
  · simp [Act.client]
  · intro a member
    rcases List.mem_pair.mp member with rfl | rfl
    · exact plain
    · rfl

/-- What an operation on a live client keeps besides the invariant. -/
structure Serves (s s' : Server) (c : ClientId) (obj : WebsocketClient) : Prop where
  live : ∃ obj', s'.object c = some obj' ∧ obj'.isConnected = obj.isConnected ∧
    obj'.timeWheelId = obj.timeWheelId
  nextId : s'.wheel.nextId = s.wheel.nextId
  others : ∀ d, (s'.object d).isSome = (s.object d).isSome

theorem sent_serves (live : s.object c = some obj) (output : Output) :
    Serves s (s.sent c obj output) c obj := by
  refine ⟨⟨_, Function.update_self .., rfl, rfl⟩, rfl, fun d => ?_⟩
  by_cases other : d = c
  · subst other
    simp [sent, live]
  · simp [sent, Function.update_of_ne other]

/-- Erasing a task of one's own, pending or not. -/
structure Erases (c : ClientId) (id : Nat) (wheel wheel' : TimeWheel Task) : Prop where
  own : OwnTasks c wheel wheel'
  nextId : wheel'.nextId = wheel.nextId
  left : ∀ task, task ∈ wheel'.pending ↔ task ∈ wheel.pending ∧ task.1 ≠ id

theorem erase_own {wheel wheel' : TimeWheel Task} {id : Nat} {found : Bool} (tidy : wheel.Tidy)
    (endless : Endless wheel) (room : wheel.nextId ≤ 2 ^ 32) (issued : id < wheel.nextId)
    (mine : ∀ fn, (id, fn) ∈ wheel.pending → fn.client = c)
    (done : wheel.eraseTask id = .ok (wheel', found)) : Erases c id wheel wheel' := by
  obtain ⟨⟨tidy', left⟩, nextId, _, _, rounds⟩ :=
    TimeWheel.eraseTask_leaves tidy (Nat.lt_of_lt_of_le issued room) done
  have endless' : Endless wheel' := fun d count member => endless d count (rounds _ member)
  refine ⟨⟨tidy', endless', nextId ▸ room, Nat.le_of_eq nextId.symm, ?_, ?_⟩, nextId, left⟩
  · intro other fn captures
    rw [left]
    refine ⟨And.left, fun member => ⟨member, ?_⟩⟩
    rintro rfl
    exact captures (mine fn member)
  · exact fun other fn member => Or.inl ((left _).mp member).1

/-- The client behind `close_websocket_client`: a Close is queued and no heartbeat is left. -/
theorem alive_closed {acts : List Act} {wheel wheel' : TimeWheel Task} {obj' : WebsocketClient}
    {stack : Bytes} {flag : CloseFlag} (alive : Alive env strict busy c obj acts wheel)
    (nextId : wheel'.nextId = wheel.nextId)
    (left : ∀ task, task ∈ wheel'.pending ↔
      task ∈ wheel.pending ∧ task.2 ≠ .heartbeat c)
    (ids : obj'.timeWheelId = obj.timeWheelId ∧ obj'.timeWheelHeartbeatId = 0)
    (connected : obj'.isConnected = obj.isConnected) :
    Alive env strict busy c obj' (acts ++
      [.queued c (.frame (.closeWebsocketClient stack flag)), .epollCtl c (.mod true)]) wheel' := by
  obtain ⟨running, heartbeat, expire, owned, only, issued, silent, stage, ended, hushed⟩ := alive
  refine ⟨?_, ?_, ?_, ?_, ?_, ?_, fun _ => ids.2, ?_, fun _ => ids.2, ?_⟩
  · exact running_pair running rfl rfl
  · intro id
    rw [left, ids.2]
    constructor
    · exact fun kept => absurd rfl kept.2
    · rintro ⟨rfl, positive⟩
      exact absurd rfl positive
  · rw [ids.1]
    exact fun named free => (left _).mpr ⟨expire named free, nofun⟩
  · rw [ids.1]
    exact fun fn member => owned fn ((left _).mp member).1
  · rw [ids.1]
    exact fun holds id member => only holds id ((left _).mp member).1
  · rw [ids.1, ids.2, nextId]
    exact ⟨issued.1, Nat.lt_of_le_of_lt (Nat.zero_le _) issued.1⟩
  · intro none_
    rw [stageOf_append, stage (connected.symm.trans none_)]
    rfl
  · refine hushed.quiet fun a member d same => ?_
    rcases List.mem_pair.mp member with rfl | rfl <;> simp at same

theorem closeWebsocketClient_good (good : Good env strict busy s) (live : s.object c = some obj)
    (flag : CloseFlag) :
    Ensures Fault.freed (s.closeWebsocketClient env c flag) fun s' =>
      Good env strict busy s' ∧ Serves s s' c obj := by
  have alive := good.alive live
  rw [closeWebsocketClient, sendBuffer_eq live, ok_bind]
  have queued : (s.sent c obj (.frame (.closeWebsocketClient (env.stack s.trace.length)
      flag))).object c = some { obj with sendBufferQueue := obj.sendBufferQueue ++
        [(Output.frame (.closeWebsocketClient (env.stack s.trace.length) flag)).bytes] } :=
    Function.update_self ..
  have serves := sent_serves live
    (.frame (.closeWebsocketClient (env.stack s.trace.length) flag))
  rw [get_live queued, ok_bind]
  have mine : ∀ a ∈ [Act.queued c (.frame (.closeWebsocketClient (env.stack s.trace.length)
      flag)), .epollCtl c (.mod true)], a.client = c := by simp [Act.client]
  split
  · rename_i beats
    have named : obj.timeWheelHeartbeatId ≠ 0 := beats.2
    have pending := (alive.heartbeat obj.timeWheelHeartbeatId).mpr ⟨rfl, named⟩
    have own (fn : Task) (member : (obj.timeWheelHeartbeatId, fn) ∈ s.wheel.pending) :
        fn = .heartbeat c := good.tidy.unique member pending
    cases erased : s.wheel.eraseTask obj.timeWheelHeartbeatId with
    | error fault =>
      simp [Server.eraseTask, sent, erased, Ensures, Fault.freed]
    | ok result =>
      obtain ⟨wheel', found⟩ := result
      obtain ⟨tasks, nextId, left⟩ := erase_own good.tidy good.endless good.room alive.issued.2
        (fun fn member => by rw [own fn member, Task.client]) erased
      have kept (task : Nat × Task) : task ∈ wheel'.pending ↔
          task ∈ s.wheel.pending ∧ task.2 ≠ .heartbeat c := by
        rw [left]
        refine and_congr_right fun member => not_congr ⟨?_, ?_⟩
        · rintro same
          exact own task.2 (same ▸ member)
        · intro same
          have := (alive.heartbeat task.1).mp (same ▸ member)
          exact this.1.symm
      have final := good.change live { obj with
          sendBufferQueue := obj.sendBufferQueue ++
            [(Output.frame (.closeWebsocketClient (env.stack s.trace.length) flag)).bytes]
          timeWheelHeartbeatId := 0 } _ wheel' rfl mine tasks
        (alive_closed alive nextId kept ⟨rfl, rfl⟩ rfl)
      simp only [Server.eraseTask, sent, erased, ok_bind, put, Function.update_idem]
      refine ⟨final, ⟨_, Function.update_self .., rfl, rfl⟩, nextId, fun d => ?_⟩
      refine Eq.trans ?_ (serves.others d)
      by_cases other : d = c
      · subst other
        simp [sent]
      · simp [sent, Function.update_of_ne other]
  · rename_i still
    have zero : obj.timeWheelHeartbeatId = 0 := by
      by_cases on : env.proto.heartbeat = true
      · by_contra named
        exact still ⟨on, named⟩
      · exact alive.silent (Or.inl (by simpa using on))
    have kept (task : Nat × Task) : task ∈ s.wheel.pending ↔
        task ∈ s.wheel.pending ∧ task.2 ≠ .heartbeat c := by
      refine ⟨fun member => ⟨member, fun same => ?_⟩, And.left⟩
      have := (alive.heartbeat task.1).mp (same ▸ member)
      exact this.2 (this.1 ▸ zero)
    exact ⟨good.change live _ _ s.wheel rfl mine (.refl good c)
      (alive_closed alive rfl kept ⟨rfl, zero⟩ rfl), serves⟩

theorem ownTasks_trans {first middle last : TimeWheel Task} (before : OwnTasks c first middle)
    (after : OwnTasks c middle last) : OwnTasks c first last := by
  refine ⟨after.tidy, after.endless, after.room, Nat.le_trans before.grows after.grows, ?_, ?_⟩
  · exact fun id fn other => (after.others id fn other).trans (before.others id fn other)
  · intro id fn member
    rcases after.newer id fn member with old | beyond
    · exact before.newer id fn old
    · exact Or.inr (Nat.le_trans before.grows beyond)

/-- The guarded erasures of the destructor; zero is nobody's id. -/
theorem eraseTask_own {id : Nat} (tidy : s.wheel.Tidy) (endless : Endless s.wheel)
    (room : s.wheel.nextId ≤ 2 ^ 32) (issued : id < s.wheel.nextId)
    (mine : ∀ fn, (id, fn) ∈ s.wheel.pending → fn.client = c) :
    Ensures Fault.freed (s.eraseIfSet id) fun s' =>
      ∃ wheel', s' = { s with wheel := wheel' } ∧ Erases c id s.wheel wheel' := by
  unfold eraseIfSet
  split
  · cases erased : s.wheel.eraseTask id with
    | error fault => simp [Server.eraseTask, erased, Ensures, Fault.freed]
    | ok result =>
      obtain ⟨wheel', found⟩ := result
      simp only [Server.eraseTask, erased]
      exact ⟨wheel', rfl, erase_own tidy endless room issued mine erased⟩
  · rename_i zero
    refine ⟨s.wheel, rfl, ⟨tidy, endless, room, Nat.le_refl _, fun _ _ _ => Iff.rfl, fun _ _ => Or.inl⟩,
      rfl, fun task => ⟨fun member => ⟨member, ?_⟩, And.left⟩⟩
    have positive := (tidy.bounds member).1
    exact fun same => zero (by omega)

/-- The state in which `close_client` calls the disconnect callback. -/
def closing (s : Server) (c : ClientId) (fd : Nat) : Server := { s with
  clients := Function.update s.clients fd none
  object := Function.update s.object c none
  trace := s.trace ++ [.closeFd c fd, .epollCtl c .del, .disconnected c] }

theorem closeClient_eq (live : s.object c = some obj) : s.closeClient env c =
    (s.closing c obj.sockfd).callback env >>= fun s' => s'.delete c obj := by
  rw [closeClient, get_live live, ok_bind]
  simp [closing, log]

/-- The client that is being closed, put back as it was. -/
def reopened (s : Server) (c : ClientId) (obj : WebsocketClient) : Server := { s with
  clients := Function.update s.clients obj.sockfd (some c)
  object := Function.update s.object c (some obj)
  trace := s.trace.filter fun a => !(a.client == c && a.ends) }

theorem closing_reopened (good : Good env strict busy s) (live : s.object c = some obj) :
    (s.closing c obj.sockfd).reopened c obj = s := by
  have known := (good.registered obj.sockfd c).mpr ⟨obj, live, rfl⟩
  have running : s.trace.filter (fun a => !(a.client == c && a.ends)) = s.trace := by
    refine List.filter_eq_self.mpr fun a member => ?_
    by_cases mine : a.client = c
    · have own : a ∈ actsOf c s.trace := List.mem_filter.mpr ⟨member, by simpa using mine⟩
      simp [(good.alive live).running a own]
    · simp [mine]
  have closed : [Act.closeFd c obj.sockfd, .epollCtl c .del, .disconnected c].filter
      (fun a => !(a.client == c && a.ends)) = [] := by simp [Act.client, Act.ends]
  simp only [reopened, closing, Function.update_idem, List.filter_append, running, closed,
    List.append_nil, ← known, ← live, Function.update_eq_self]

section Reopened
variable {d : ClientId} {other : WebsocketClient}

theorem put_reopened (apart : d ≠ c) (other : WebsocketClient) :
    (s.put d other).reopened c obj = (s.reopened c obj).put d other := by
  simp only [reopened, put, Function.update_comm apart]

theorem sent_reopened (apart : d ≠ c) (other : WebsocketClient) (output : Output) :
    (s.sent d other output).reopened c obj = (s.reopened c obj).sent d other output := by
  simp [reopened, sent, Function.update_comm apart, List.filter_append, Act.ends]

theorem object_reopened (apart : d ≠ c) : (s.reopened c obj).object d = s.object d :=
  Function.update_of_ne apart ..

theorem eraseTask_reopened (id : Nat) : (s.reopened c obj).eraseTask id =
    (s.eraseTask id).map fun s' => s'.reopened c obj := by
  rw [eraseTask, eraseTask]
  cases erased : s.wheel.eraseTask id <;> simp [reopened, erased, Except.map]

/-- Nothing that a call for another client reads or writes is changed, but for the length of the
history, which the frame on the stack depends on. -/
theorem closeWebsocketClient_reopened (apart : d ≠ c) (live : s.object d = some other)
    (flag : CloseFlag) : (s.reopened c obj).closeWebsocketClient
      { env with stack := fun _ => env.stack s.trace.length } d flag =
    (s.closeWebsocketClient env d flag).map fun s' => s'.reopened c obj := by
  have there : (s.reopened c obj).object d = some other := (object_reopened apart).trans live
  rw [closeWebsocketClient, closeWebsocketClient, sendBuffer_eq there, sendBuffer_eq live, ok_bind,
    ok_bind, ← sent_reopened apart]
  have queued (output : Output) : (s.sent d other output).get d =
      .ok { other with sendBufferQueue := other.sendBufferQueue ++ [output.bytes] } :=
    get_live (Function.update_self ..)
  have queued' (output : Output) : ((s.sent d other output).reopened c obj).get d =
      .ok { other with sendBufferQueue := other.sendBufferQueue ++ [output.bytes] } :=
    get_live ((object_reopened apart).trans (Function.update_self ..))
  rw [queued, queued', ok_bind, ok_bind]
  dsimp only
  split
  · rw [eraseTask_reopened]
    cases eraseTask _ _ with
    | error fault => rfl
    | ok s' => exact congrArg Except.ok (put_reopened apart _).symm
  · rfl

end Reopened

theorem userAct_good (good : Good env strict busy s) (live : s.object c = some obj)
    (act : UserAct) :
    Ensures Fault.freed (s.userAct env c act) fun s' =>
      Good env strict busy s' ∧ Serves s s' c obj := by
  cases act with
  | send payload =>
    rw [userAct, sendBuffer_eq live]
    exact ⟨sendBuffer_plain good live _ rfl, sent_serves live _⟩
  | close => exact closeWebsocketClient_good good live _

/-- What every call keeps, the calls of user code keep. -/
theorem userActs_keep {P : Server → Prop} {never : Fault → Prop}
    (each : ∀ s d other act, P s → s.object d = some other → Ensures never (s.userAct env d act) P)
    (acts : List (ClientId × UserAct)) (start : P s) : Ensures never (userActs env acts s) P := by
  induction acts generalizing s with
  | nil => exact start
  | cons first rest ih =>
    obtain ⟨d, act⟩ := first
    rw [userActs]
    split
    · rename_i there
      obtain ⟨other, live⟩ := Option.isSome_iff_exists.mp there
      exact (each s d other act start live).bind fun s1 kept => ih kept
    · exact ih start

theorem userActs_leads {R : Server → Server → Prop} [IsTrans Server R] (same : R s s)
    (each : ∀ s d act, Leads R s (s.userAct env d act)) (acts : List (ClientId × UserAct)) :
    Leads R s (userActs env acts s) := by
  intro s' done
  have kept : Ensures (fun _ => False) (userActs env acts s) (R s) :=
    userActs_keep (fun s1 d other act before _ => .of_results fun s2 called =>
      IsTrans.trans s s1 s2 before (each s1 d act s2 called)) acts same
  exact kept.of_ok done

theorem userActs_good (good : Good env strict none s) (acts : List (ClientId × UserAct)) :
    Ensures Fault.freed (userActs env acts s) fun s' => Good env strict none s' ∧
      s'.wheel.nextId = s.wheel.nextId ∧ ∀ d, (s'.object d).isSome = (s.object d).isSome := by
  refine userActs_keep (fun s1 d other act ⟨good1, nextId, same⟩ live => ?_) acts
    ⟨good, rfl, fun _ => rfl⟩
  refine (userAct_good good1 live act).mono fun s2 ⟨good2, serves⟩ => ⟨good2, ?_, fun e => ?_⟩
  · exact serves.nextId.trans nextId
  · exact (serves.others e).trans (same e)

/-- What calls for other clients leave to a client. -/
structure Apart (c : ClientId) (s s' : Server) : Prop where
  clients : s'.clients = s.clients
  object : s'.object c = s.object c
  acts : actsOf c s'.trace = actsOf c s.trace

theorem Apart.refl (s : Server) : Apart c s s := ⟨rfl, rfl, rfl⟩

theorem Apart.trans {s1 s2 : Server} (first : Apart c s s1) (second : Apart c s1 s2) :
    Apart c s s2 :=
  ⟨second.clients.trans first.clients, second.object.trans first.object,
    second.acts.trans first.acts⟩

section OtherCalls
variable {d : ClientId} {other : WebsocketClient}

theorem sendBuffer_apart {output : Output} (apart : d ≠ c) :
    Leads (Apart c) s (s.sendBuffer d output) := by
  intro s' done
  obtain ⟨obj, _, same⟩ := bind_eq_ok.mp done
  cases same
  have theirs : actsOf c [.queued d output, .epollCtl d (.mod true)] = [] :=
    actsOf_other (by simp [Act.client]) (Ne.symm apart)
  refine ⟨rfl, Function.update_of_ne (Ne.symm apart) .., ?_⟩
  simp only [log, put, List.append_assoc, List.cons_append, List.nil_append]
  rw [actsOf_append, theirs, List.append_nil]

theorem closeWebsocketClient_apart (apart : d ≠ c) (flag : CloseFlag) :
    Leads (Apart c) s (s.closeWebsocketClient env d flag) := by
  intro s' done
  obtain ⟨s1, queued, done⟩ := bind_eq_ok.mp done
  obtain ⟨obj, _, done⟩ := bind_eq_ok.mp done
  have first := sendBuffer_apart apart s1 queued
  split at done
  · obtain ⟨s2, erased, same⟩ := bind_eq_ok.mp done
    cases same
    refine first.trans ?_
    rw [eraseTask] at erased
    split at erased
    · cases erased
      exact ⟨rfl, Function.update_of_ne (Ne.symm apart) .., rfl⟩
    · contradiction
  · cases done
    exact first

theorem userAct_apart (apart : d ≠ c) (act : UserAct) :
    Leads (Apart c) s (s.userAct env d act) := by
  cases act with
  | send payload => exact sendBuffer_apart apart
  | close => exact closeWebsocketClient_apart apart _

theorem userAct_closing (good : Good env strict busy (s.reopened c obj)) (apart : d ≠ c)
    (live : s.object d = some other) (act : UserAct) :
    Ensures Fault.freed (s.userAct env d act) fun s' =>
      Good env strict busy (s'.reopened c obj) := by
  have there : (s.reopened c obj).object d = some other := (object_reopened apart).trans live
  cases act with
  | send payload =>
    rw [userAct, sendBuffer_eq live, Ensures, sent_reopened apart]
    exact sendBuffer_plain good there _ rfl
  | close =>
    have kept : Good { env with stack := fun _ => env.stack s.trace.length } strict busy
        (s.reopened c obj) := good.of_proto rfl
    have closes := closeWebsocketClient_good kept there .serverError
    rw [closeWebsocketClient_reopened apart live] at closes
    exact closes.of_map.mono fun s' done => done.1.of_proto rfl

end OtherCalls

/-- User code does not use a client that is gone. -/
theorem userActs_apart (gone : s.object c = none) (acts : List (ClientId × UserAct)) :
    Leads (Apart c) s (userActs env acts s) := by
  intro s' done
  have kept : Ensures (fun _ => False) (userActs env acts s) (Apart c s) := by
    refine userActs_keep (fun s1 d other act before live => ?_) acts (.refl s)
    have apart : d ≠ c := by
      rintro rfl
      simp [before.object, gone] at live
    exact .of_results fun s2 called => before.trans (userAct_apart apart act s2 called)
  exact kept.of_ok done

/-- The other clients are served while one is being closed. -/
theorem userActs_closing (good : Good env strict busy (s.reopened c obj))
    (gone : s.object c = none) (acts : List (ClientId × UserAct)) :
    Ensures Fault.freed (userActs env acts s) fun s' =>
      Good env strict busy (s'.reopened c obj) ∧ s'.object c = none := by
  refine userActs_keep (fun s1 d other act ⟨good1, gone1⟩ live => ?_) acts ⟨good, gone⟩
  have apart : d ≠ c := by
    rintro rfl
    simp [gone1] at live
  exact (userAct_closing good1 apart live act).and fun s2 called =>
    (userAct_apart apart act s2 called).object.trans gone1

/-- The history of every client when `delete` is done. -/
theorem closing_acts {s1 : Server} (running : ∀ a ∈ actsOf c s.trace, a.ends = false) (fd : Nat)
    (apart : Apart c (s.closing c fd) s1) (d : ClientId) :
    actsOf d (s1.trace ++ [.deleted c]) =
      actsOf d ((s1.reopened c obj).trace ++ closingActs c fd) := by
  have kept (d : ClientId) : actsOf d (s1.reopened c obj).trace =
      (actsOf d s1.trace).filter fun a => !(a.client == c && a.ends) := by
    rw [actsOf, actsOf, reopened, List.filter_filter, List.filter_filter]
    exact List.filter_congr fun a _ => Bool.and_comm ..
  rw [actsOf_append, actsOf_append, kept]
  by_cases own : d = c
  · subst own
    have begun : actsOf d [.closeFd d fd, .epollCtl d .del, .disconnected d] =
        [.closeFd d fd, .epollCtl d .del, .disconnected d] := actsOf_own (by simp [Act.client])
    have done : actsOf d [.deleted d] = [.deleted d] := actsOf_own (by simp [Act.client])
    have whole : actsOf d (closingActs d fd) = closingActs d fd :=
      actsOf_own (by simp [closingActs, Act.client])
    have closed : actsOf d s1.trace =
        actsOf d s.trace ++ [.closeFd d fd, .epollCtl d .del, .disconnected d] := by
      rw [apart.acts, closing, actsOf_append, begun]
    have before : (actsOf d s.trace).filter (fun a => !(a.client == d && a.ends)) =
        actsOf d s.trace :=
      List.filter_eq_self.mpr fun a member => by simp [running a member]
    rw [closed, List.filter_append, before, whole, done]
    simp [closingActs, Act.client, Act.ends]
  · have untouched : (actsOf d s1.trace).filter (fun a => !(a.client == c && a.ends)) =
        actsOf d s1.trace := by
      refine List.filter_eq_self.mpr fun a member => ?_
      have theirs : a.client = d := by simpa using (List.mem_filter.mp member).2
      simp [theirs, own]
    have last : actsOf d [.deleted c] = [] := actsOf_other (by simp [Act.client]) own
    have whole : actsOf d (closingActs c fd) = [] :=
      actsOf_other (by simp [closingActs, Act.client]) own
    rw [untouched, last, whole]

theorem closeClient_good (good : Good env strict busy s) (live : s.object c = some obj)
    (idle : busy = none ∨ busy = some c) :
    Ensures Fault.freed (s.closeClient env c) fun s' =>
      Good env strict none s' ∧ s'.object c = none := by
  have running := (good.alive live).running
  rw [closeClient_eq live, callback]
  have start : Good env strict busy ((s.closing c obj.sockfd).reopened c obj) := by
    rwa [closing_reopened good live]
  have missing : (s.closing c obj.sockfd).object c = none := Function.update_self ..
  refine ((userActs_closing start missing _).and (userActs_apart missing _)).bind ?_
  rintro s1 ⟨⟨good1, gone⟩, apart⟩
  have live1 : (s1.reopened c obj).object c = some obj := Function.update_self ..
  have alive := good1.alive live1
  rw [delete]
  have first := @eraseTask_own s1 c obj.timeWheelId good1.tidy good1.endless
    good1.room alive.issued.1 fun fn member => by rw [alive.owned fn member, Task.client]
  refine first.bind ?_
  rintro s2 ⟨wheel1, rfl, erases1⟩
  obtain ⟨tasks1, nextId1, left1⟩ := erases1
  have mine (fn : Task) (member : (obj.timeWheelHeartbeatId, fn) ∈ wheel1.pending) :
      fn.client = c := by
    obtain ⟨old, _⟩ := (left1 _).mp member
    have positive := (good1.tidy.bounds old).1
    have pending := (alive.heartbeat obj.timeWheelHeartbeatId).mpr ⟨rfl, Nat.ne_of_gt positive⟩
    rw [good1.tidy.unique old pending, Task.client]
  have second := @eraseTask_own { s1 with wheel := wheel1 } c
    obj.timeWheelHeartbeatId tasks1.tidy tasks1.endless tasks1.room
    (nextId1.symm ▸ alive.issued.2) mine
  refine second.bind ?_
  rintro s3 ⟨wheel2, rfl, erases2⟩
  obtain ⟨tasks2, _, left2⟩ : Erases c obj.timeWheelHeartbeatId wheel1 wheel2 := erases2
  have left (task : Nat × Task) : task ∈ wheel2.pending ↔ task ∈ s1.wheel.pending ∧
      task.1 ≠ obj.timeWheelId ∧ task.1 ≠ obj.timeWheelHeartbeatId := by
    rw [left2, left1, and_assoc]
  have dead : Dead strict c (actsOf c (s1.reopened c obj).trace ++ closingActs c obj.sockfd)
      wheel2 := by
    refine ⟨Or.inr ⟨_, _, rfl, alive.running⟩, ?_, ?_, ?_⟩
    · intro id member
      obtain ⟨old, _, other⟩ := (left _).mp member
      exact other ((alive.heartbeat id).mp old).1.symm
    · intro holds id member
      obtain ⟨old, other, _⟩ := (left _).mp member
      exact other (alive.only holds id old)
    · refine alive.hushed.quiet ?_
      simp [closingActs]
  have final := (good1.drop live1 (closingActs c obj.sockfd) wheel2
    (by simp [closingActs, Act.client]) (ownTasks_trans tasks1 tasks2) idle dead).retrace
    (s1.trace ++ [.deleted c]) (closing_acts running obj.sockfd apart)
  have unknown : s1.clients obj.sockfd = none := by
    rw [apart.clients]
    exact Function.update_self ..
  have clients : Function.update s1.clients obj.sockfd none = s1.clients := by
    rw [← unknown, Function.update_eq_self]
  have objects : Function.update s1.object c none = s1.object := by
    rw [← gone, Function.update_eq_self]
  simp only [reopened, Function.update_idem, clients, objects] at final
  exact ⟨final, gone⟩

end Server
end WebsocketProto
