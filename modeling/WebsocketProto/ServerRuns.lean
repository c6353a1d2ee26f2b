import WebsocketProto.ServerCalls

/-! Events, ticks and whole runs: under which results of the kernel and which reads the
invariant holds in every state and no step touches a deleted client. -/
namespace WebsocketProto
open Outcome

/-- Errors of `send` that are not `EAGAIN`, and a zero. -/
def SendResult.breaks : SendResult → Bool
  | .returns count => count == 0
  | .wouldBlock => false
  | .fails => true

/-- No `recv` returns zero in a loop that has received bytes before. -/
def endsAlone : Bool → List RecvResult → Bool
  | _, [] | _, .wouldBlock :: _ => true
  | received, .fails :: rest => endsAlone received rest
  | received, .returns data :: rest => if data = [] then !received else endsAlone true rest

/-- The branches of the event loop that an event takes. -/
def Event.reads (env : Setup) (e : Event) : Bool := !e.hup && e.input && e.fd != env.listenFd

def Event.writes (e : Event) : Bool := !e.hup && !e.input && e.output

/-- What the kernel has to do for a step to leave the client alone that it closed. -/
def Label.EofAloneSendsSucceed (env : Setup) : Label → Prop
  | .event e => (e.reads env → endsAlone false e.recvs) ∧
    (e.writes → ∀ result ∈ e.sends, result.breaks = false)
  | _ => True

instance (env : Setup) : (l : Label) → Decidable (l.EofAloneSendsSucceed env)
  | .event _ => inferInstanceAs (Decidable (_ ∧ _))
  | .beginTick _ | .fire | .user _ => isTrue trivial

/-- The client and the bytes that a step hands to `decode_proto_data`. -/
def Server.read (env : Setup) (s : Server) : Label → Option (WebsocketClient × Bytes)
  | .event e => if e.reads env then do
      let obj ← s.clients e.fd >>= s.object
      let (m, _) ← recvAll e.recvs []
      return (obj, m)
    else none
  | _ => none

/-- The read of a step, if it has one, does not add a second expiry task. -/
def Server.Rearmed (env : Setup) (s : Server) (l : Label) : Prop :=
  ∀ read ∈ s.read env l, Unarmed read.1 read.2

instance (obj : WebsocketClient) (data : Bytes) : Decidable (Server.Unarmed obj data) :=
  inferInstanceAs (Decidable (obj.isConnected ≠ .none → readsClose data →
    obj.waitClose = true → obj.timeWheelId = 0))

instance (env : Setup) (s : Server) (l : Label) : Decidable (s.Rearmed env l) :=
  inferInstanceAs (Decidable (∀ read ∈ s.read env l, Server.Unarmed read.1 read.2))

theorem recvAll_closed {results : List RecvResult} {m m' : Bytes} {received : Bool}
    (seen : m ≠ [] → received = true) (alone : endsAlone received results = true)
    (done : Server.recvAll results m = some (m', true)) : m' = [] := by
  induction results generalizing m received with
  | nil => contradiction
  | cons result rest ih =>
    cases result with
    | wouldBlock => simp [Server.recvAll] at done
    | fails => exact ih seen alone done
    | returns data =>
      rw [Server.recvAll] at done
      rw [endsAlone] at alone
      split at done
      · rename_i empty
        rw [if_pos empty] at alone
        obtain ⟨rfl, _⟩ := Prod.mk.inj (Option.some.inj done)
        by_contra full
        rw [seen full] at alone
        contradiction
      · rename_i full
        rw [if_neg full] at alone
        exact ih (fun _ => rfl) alone done

theorem sendEntry_open {entry : Bytes} {results : List SendResult} {sent : Sent}
    (calm : ∀ result ∈ results, result.breaks = false)
    (done : sendEntry entry results = some sent) :
    sent.closed = false ∧ ∀ result ∈ sent.left, result.breaks = false := by
  induction results generalizing entry sent with
  | nil => contradiction
  | cons result rest ih =>
    have first := calm result List.mem_cons_self
    have later (r : SendResult) (member : r ∈ rest) := calm r (List.mem_cons_of_mem _ member)
    cases result with
    | wouldBlock =>
      obtain rfl := Option.some.inj done
      exact ⟨rfl, later⟩
    | fails => contradiction
    | returns count =>
      rw [sendEntry] at done
      split at done
      · rename_i zero
        subst zero
        contradiction
      · split at done
        · obtain rfl := Option.some.inj done
          exact ⟨rfl, later⟩
        · obtain ⟨more, sentMore, same⟩ := Option.bind_eq_some_iff.mp done
          obtain rfl := Option.some.inj same
          have open_ := ih later sentMore
          exact open_

theorem drainQueue_open {queue : List Bytes} {results : List SendResult} {drained : Drained}
    (calm : ∀ result ∈ results, result.breaks = false)
    (done : drainQueue queue results = some drained) : drained.closed = false := by
  induction queue generalizing results drained with
  | nil =>
    obtain rfl := Option.some.inj done
    rfl
  | cons entry rest ih =>
    obtain ⟨sent, first, done⟩ := Option.bind_eq_some_iff.mp done
    obtain ⟨open_, later⟩ := sendEntry_open calm first
    rw [open_] at done
    obtain ⟨more, drainedMore, same⟩ := Option.bind_eq_some_iff.mp done
    obtain rfl := Option.some.inj same
    have rest_open := ih later drainedMore
    exact rest_open

namespace Server
variable {env : Setup} {strict : Prop} {busy : Option ClientId} {s : Server} {c : ClientId}
  {obj : WebsocketClient}

theorem callback_good (good : Good env strict none s) (live : s.object c = some obj) :
    Ensures Fault.freed (s.callback env) fun s' =>
      Good env strict none s' ∧ ∃ obj', s'.object c = some obj' := by
  apply (userActs_good good (env.user s.trace)).mono
  rintro s' ⟨good', _, same⟩
  have still := same c
  rw [live] at still
  exact ⟨good', Option.isSome_iff_exists.mp still⟩

theorem recvCallback_good (good : Good env strict none s) (live : s.object c = some obj) :
    Ensures Fault.freed (s.recvCallback env c) (Good env strict none) := by
  rw [recvCallback, get_live live, ok_bind]
  split
  · have told : Good env strict none (s.log (.delivered c obj.decodeBuffer)) := by
      have changed := good.touch live obj [.delivered c obj.decodeBuffer] ⟨rfl, rfl⟩ rfl id
        (by simp [Act.client]) (by simp [Act.plain, Act.ends])
      rwa [← live, Function.update_eq_self] at changed
    have still : (s.log (.delivered c obj.decodeBuffer)).object c = some obj := live
    apply (callback_good told still).bind
    rintro s1 ⟨good1, obj1, live1⟩
    rw [get_live live1, ok_bind]
    have changed := good1.touch live1 { obj1 with decodeBuffer := [] } [] ⟨rfl, rfl⟩ rfl id
      (List.forall_mem_nil _) (List.forall_mem_nil _)
    rw [List.append_nil] at changed
    exact changed
  · exact good

theorem connect_good (good : Good env strict none s) (live : s.object c = some obj) :
    Ensures Fault.freed (s.connect env c) fun s' =>
      Good env strict none s' ∧ ∃ obj', s'.object c = some obj' := by
  rw [connect, get_live live, ok_bind]
  split
  · refine callback_good ?_ (Function.update_self ..)
    exact good.touch live { obj with isConnected := .connected } [.connectedCallback c] ⟨rfl, rfl⟩
      rfl nofun (by simp [Act.client]) (by simp [Act.plain, Act.ends])
  · exact ⟨good, obj, live⟩

theorem sentCallback_good (good : Good env strict none s) (live : s.object c = some obj) :
    Ensures Fault.freed (s.sentCallback env c) (Good env strict none) := by
  apply (connect_good good live).bind
  rintro s1 ⟨good1, obj1, live1⟩
  have told : Good env strict none (s1.log (.sentCallback c)) := by
    have changed := good1.touch live1 obj1 [.sentCallback c] ⟨rfl, rfl⟩ rfl id
      (by simp [Act.client]) (by simp [Act.plain, Act.ends])
    rwa [← live1, Function.update_eq_self] at changed
  exact (callback_good told live1).mono fun s2 done => done.1

theorem registered_live (good : Good env strict busy s) {fd : Nat} (known : s.clients fd = some c) :
    ∃ obj, s.object c = some obj := by
  obtain ⟨obj, live, _⟩ := (good.registered fd c).mp known
  exact ⟨obj, live⟩

theorem onInput_good (good : Good env strict none s) (live : s.object c = some obj)
    (room : s.wheel.nextId < 2 ^ 32) (e : Event)
    (unarmed : strict → ∀ m closed, recvAll e.recvs [] = some (m, closed) → Unarmed obj m) :
    Ensures (fun fault => fault.freed ∧ endsAlone false e.recvs) (s.onInput env e c)
      (Good env strict none) := by
  rw [onInput]
  split
  · simp [Ensures, Fault.freed]
  · rename_i m closed received
    cases closed with
    | true =>
      rw [closeIf, if_pos rfl]
      apply (closeClient_good good live (Or.inl rfl)).under.bind
      rintro s1 ⟨good1, gone⟩
      split
      · exact good1
      · rename_i full
        rw [decodeProtoData, get, gone]
        exact fun bad => full (recvAll_closed (fun some_ => absurd rfl some_) bad.2 received)
    | false =>
      rw [closeIf, if_neg Bool.false_ne_true, ok_bind]
      split
      · exact good
      · apply Ensures.under
        apply (decodeProtoData_good good live room fun holds => unarmed holds m false received).bind
        rintro ⟨ret, s1⟩ ⟨good1, alive⟩
        dsimp only at good1 alive ⊢
        split
        · rename_i returned
          obtain ⟨obj1, live1⟩ := alive returned
          exact recvCallback_good good1 live1
        · exact good1

/-- Behind the loop over the send queue: an event that closed the client goes on with it. -/
theorem afterSends_good (good : Good env strict none s) (live : s.object c = some obj)
    {closed : Bool} {calm : Prop} (intact : calm → closed = false) :
    Ensures (fun fault => fault.freed ∧ calm) (s.closeIf env c closed >>= fun s =>
      s.get c >>= fun _ => (s.log (.epollCtl c (.mod false))).sentCallback env c)
      (Good env strict none) := by
  cases closed with
  | true =>
    rw [closeIf, if_pos rfl]
    apply (closeClient_good good live (Or.inl rfl)).under.bind
    rintro s1 ⟨_, gone⟩
    rw [get, gone]
    exact fun bad => Bool.noConfusion (intact bad.2)
  | false =>
    rw [closeIf, if_neg Bool.false_ne_true, ok_bind, get_live live, ok_bind]
    apply Ensures.under
    have told := good.touch live obj [.epollCtl c (.mod false)] ⟨rfl, rfl⟩ rfl id
      (by simp [Act.client]) (by simp [Act.plain, Act.ends])
    rw [← live, Function.update_eq_self] at told
    exact sentCallback_good told live

theorem onOutput_good (good : Good env strict none s) (live : s.object c = some obj) (e : Event) :
    Ensures (fun fault => fault.freed ∧ ∀ result ∈ e.sends, result.breaks = false)
      (s.onOutput env e c) (Good env strict none) := by
  rw [onOutput, get_live live, ok_bind]
  split
  · simp [Ensures, Fault.freed]
  · rename_i drained done
    have offered := good.touch live { obj with sendBufferQueue := drained.queue }
      (drained.calls.map (Act.sendCall c)) ⟨rfl, rfl⟩ rfl id (by simp [Act.client])
      (by simp [Act.plain, Act.ends])
    exact afterSends_good offered (Function.update_self ..) fun calm => drainQueue_open calm done

/-- The branches of the loop over the events. -/
theorem onEvent_rule {P : Except Fault Server → Prop} (e : Event) (still : P (.ok s))
    (closes : ∀ c, s.clients e.fd = some c → P (s.closeClient env c))
    (accepts : ∀ fd, P (s.accept env fd))
    (inputs : ∀ c, e.reads env = true → s.clients e.fd = some c → P (s.onInput env e c))
    (outputs : ∀ c, e.writes = true → s.clients e.fd = some c → P (s.onOutput env e c)) :
    P (s.onEvent env e) := by
  rw [onEvent]
  split
  · split
    · exact closes _ ‹_›
    · exact still
  rename_i hup
  split
  · rename_i input
    split
    · split
      · exact still
      · exact accepts _
    · rename_i foreign
      split
      · exact still
      · exact inputs _ (by simp [Event.reads, hup, input, foreign]) ‹_›
  rename_i input
  split
  · rename_i output
    split
    · exact still
    · exact outputs _ (by simp [Event.writes, hup, input, output]) ‹_›
  · exact still

theorem onEvent_good (good : Good env strict none s) (room : s.wheel.nextId < 2 ^ 32) (e : Event)
    (unarmed : strict → s.Rearmed env (.event e)) :
    Ensures (fun fault => fault.freed ∧ (Label.event e).EofAloneSendsSucceed env) (s.onEvent env e)
      (Good env strict none) := by
  refine onEvent_rule (P := fun x => Ensures
    (fun fault => fault.freed ∧ (Label.event e).EofAloneSendsSucceed env) x
    (Good env strict none)) e good ?closes ?accepts ?inputs ?outputs
  case closes =>
    intro c known
    obtain ⟨obj, live⟩ := registered_live good known
    exact ((closeClient_good good live (Or.inl rfl)).mono fun _ done => done.1).under
  case accepts =>
    intro fd
    rw [accept]
    split
    · simp [Ensures, Fault.freed]
    · rename_i free
      apply good.birth
      simpa using fun known => free (Or.inr known)
  case inputs =>
    intro c reads known
    obtain ⟨obj, live⟩ := registered_live good known
    refine Ensures.narrow (onInput_good good live room e fun holds m closed received => ?_)
      fun _ bad => ⟨bad.1, bad.2.1 reads⟩
    apply unarmed holds (obj, m)
    simp [read, reads, known, live, received]
  case outputs =>
    intro c writes known
    obtain ⟨obj, live⟩ := registered_live good known
    exact (onOutput_good good live e).narrow fun _ bad => ⟨bad.1, bad.2.2 writes⟩

/-- A wheel in which the tasks of one client may have become fewer. -/
theorem Good.rewheel (good : Good env strict none s) {wheel' : TimeWheel Task}
    (own : OwnTasks c s.wheel wheel')
    (each : Each env strict busy c (s.object c) (actsOf c s.trace) wheel') :
    Good env strict busy { s with wheel := wheel' } := by
  refine ⟨good.registered, good.unborn, own.tidy, own.endless, own.room, fun d => ?_⟩
  by_cases other : d = c
  · subst other
    exact each
  · have same := (good.each d).others own other
    dsimp only
    cases found : s.object d with
    | none =>
      rw [found] at same
      exact same
    | some obj =>
      rw [found] at same
      exact { same with expire := fun named _ => same.expire named nofun }

/-- A step on the wheel that forgets at most the task under `id`. -/
theorem shrinks_own (good : Good env strict busy s) {wheel' : TimeWheel Task} {id : Nat}
    {forgets : Prop} (leaves : wheel'.Leaves fun task => task ∈ s.wheel.pending ∧
      (forgets → task.1 ≠ id)) (nextId : wheel'.nextId = s.wheel.nextId) (endless : Endless wheel')
    (mine : forgets → ∀ fn, (id, fn) ∈ s.wheel.pending → fn.client = c) :
    OwnTasks c s.wheel wheel' := by
  refine ⟨leaves.tidy, endless, nextId ▸ good.room, Nat.le_of_eq nextId.symm, ?_, ?_⟩
  · intro other fn captures
    rw [leaves.pending]
    refine ⟨And.left, fun member => ⟨member, ?_⟩⟩
    rintro holds rfl
    exact captures (mine holds fn member)
  · exact fun other fn member => Or.inl ((leaves.pending _).mp member).1

theorem still_good (good : Good env strict none s) {wheel' : TimeWheel Task}
    (leaves : wheel'.Leaves fun task => task ∈ s.wheel.pending)
    (nextId : wheel'.nextId = s.wheel.nextId) (endless : Endless wheel') :
    Good env strict none { s with wheel := wheel' } := by
  have kept : wheel'.Leaves fun task => task ∈ s.wheel.pending ∧ (False → task.1 ≠ 0) :=
    ⟨leaves.tidy, fun task => (leaves.pending task).trans ⟨fun member => ⟨member, nofun⟩, And.left⟩⟩
  have own (c : ClientId) : OwnTasks c s.wheel wheel' :=
    shrinks_own good kept nextId endless nofun
  exact Good.rewheel good (own 0) ((good.each 0).others (own 1) Nat.zero_ne_one)

theorem beginTick_good (good : Good env strict none s) (now : Int) :
    Ensures Fault.freed (s.beginTick env now) (Good env strict none) := by
  rw [beginTick]
  split
  · simp [Ensures, Fault.freed]
  · split
    · rename_i wheel' done
      obtain ⟨leaves, nextId, rounds⟩ := TimeWheel.beginTick_leaves good.tidy done
      exact still_good good leaves nextId fun d count member =>
        good.endless d count (rounds _ member)
    · simp [Ensures, Fault.freed]

/-- A heartbeat is still due only to a client that no Close was queued to. -/
theorem ping_good (good : Good env strict none s) {id : Nat}
    (due : (id, .heartbeat c) ∈ s.wheel.pending) :
    Ensures Fault.freed (s.runTask env (.heartbeat c)) (Good env strict none) := by
  cases live : s.object c with
  | none => exact absurd due ((good.dead live).heartbeat id)
  | some obj =>
    rw [runTask, sendBuffer_eq live]
    obtain ⟨running, heartbeat, expire, owned, only, issued, silent, stage, ended, hushed⟩ :=
      good.alive live
    obtain ⟨named, positive⟩ := (heartbeat id).mp due
    have stages (acts : List Act) : stageOf (acts ++ [.queued c (.frame .heartbeatPing),
        .epollCtl c (.mod true)]) = stageOf acts := by
      rw [stageOf_append]
      cases stageOf acts <;> rfl
    refine good.change live _ _ s.wheel rfl (by simp [Act.client]) (.refl good c) ?_
    refine ⟨?_, heartbeat, expire, owned, only, issued, silent, ?_, ?_, ?_⟩
    · exact running_pair running rfl rfl
    · exact fun none_ => (stages _).trans (stage none_)
    · exact fun gone => ended ((stages _).symm.trans gone)
    · have pinged := hushed.snoc (.queued c (.frame .heartbeatPing)) fun _ gone =>
        positive (named.symm.trans (ended gone))
      have more := pinged.snoc (.epollCtl c (.mod true)) (by rintro ⟨_, ⟨⟩⟩)
      rwa [List.append_assoc] at more

/-- The function of an expiry task that was due in the wheel before. -/
theorem expire_good {wheel' : TimeWheel Task} {id : Nat}
    (good : Good env strict none s) (due : (id, .expire c) ∈ s.wheel.pending)
    (own : OwnTasks c s.wheel wheel') {forgets : Prop}
    (left : ∀ task, task ∈ wheel'.pending ↔ task ∈ s.wheel.pending ∧ (forgets → task.1 ≠ id))
    (nextId : wheel'.nextId = s.wheel.nextId) :
    Ensures (fun fault => fault.freed ∧ strict) (runTask env { s with wheel := wheel' } (.expire c))
      (Good env strict none) := by
  cases live : s.object c with
  | none =>
    have gone : { s with wheel := wheel' }.get c = .error (.usesFreed c) := by
      rw [get, live]
    rw [runTask, closeWebsocketClient, sendBuffer, gone]
    exact fun bad => (good.dead live).only bad.2 id due
  | some obj =>
    have alive : Alive env strict (some c) c obj (actsOf c s.trace) wheel' := by
      obtain ⟨running, heartbeat, expire, owned, only, issued, silent, stage, ended, hushed⟩ :=
        good.alive live
      refine ⟨running, ?_, fun _ free => absurd rfl free, ?_, ?_, ?_, silent, stage, ended, hushed⟩
      · intro other
        refine (left _).trans ((and_iff_left_of_imp ?_).trans (heartbeat other))
        rintro member _ rfl
        cases good.tidy.unique member due
      · exact fun fn member => owned fn ((left _).mp member).1
      · exact fun holds other member => only holds other ((left _).mp member).1
      · rwa [nextId]
    have taken : Good env strict (some c) { s with wheel := wheel' } := by
      refine Good.rewheel good own ?_
      rw [live]
      exact alive
    apply Ensures.under
    have live' : { s with wheel := wheel' }.object c = some obj := live
    apply (closeWebsocketClient_good taken live' _).bind
    rintro s1 ⟨good1, ⟨obj1, live1, _⟩, _⟩
    exact (closeClient_good good1 live1 (Or.inr rfl)).mono fun s2 done => done.1

theorem fire_good (good : Good env strict none s) :
    Ensures (fun fault => fault.freed ∧ strict) (s.fire env) (Good env strict none) := by
  rw [fire]
  split
  · simp [Ensures, Fault.freed]
  · split
    · simp [Ensures, Fault.freed]
    · rename_i wheel' done
      obtain ⟨nextId, leaves, rounds⟩ := TimeWheel.fire_leaves good.tidy done
      exact still_good good leaves nextId fun d count member =>
        good.endless d count (rounds _ member)
    · rename_i wheel' fn isDone id done
      obtain ⟨nextId, due, leaves, count, turn, last, rounds⟩ :=
        TimeWheel.fire_leaves good.tidy done
      have endless : Endless wheel' := by
        intro d n member
        rcases rounds _ member with same | old
        · obtain ⟨rfl, rfl⟩ := Prod.mk.inj same
          rw [good.endless d count turn]
          rfl
        · exact good.endless d n old
      have own (c : ClientId) (mine : isDone = true → fn.client = c) : OwnTasks c s.wheel wheel' :=
        shrinks_own good leaves nextId endless fun once fn' member => by
          rw [good.tidy.unique member due, mine once]
      cases fn with
      | expire c => exact expire_good good due (own c fun _ => rfl) leaves.pending nextId
      | heartbeat c =>
        have goesOn : isDone = false := by
          rw [last, good.endless c count turn]
          rfl
        have kept : wheel'.Leaves fun task => task ∈ s.wheel.pending := by
          refine ⟨leaves.tidy, fun task => (leaves.pending task).trans ?_⟩
          rw [goesOn]
          exact ⟨And.left, fun member => ⟨member, fun gone => absurd gone Bool.false_ne_true⟩⟩
        apply Ensures.under
        exact ping_good (still_good good kept nextId endless) ((kept.pending _).mpr due)

theorem step_good (good : Good env strict none s) (l : Label) (room : s.wheel.nextId < 2 ^ 32)
    (unarmed : strict → s.Rearmed env l) :
    Ensures (fun fault => fault.freed ∧ strict ∧ l.EofAloneSendsSucceed env) (s.step env l)
      (Good env strict none) := by
  cases l with
  | event e => exact (onEvent_good good room e unarmed).narrow fun _ bad => ⟨bad.1, bad.2.2⟩
  | beginTick now => exact (beginTick_good good now).under
  | fire => exact (fire_good good).narrow fun _ bad => ⟨bad.1, bad.2.1⟩
  | user acts => exact ((userActs_good good acts).mono fun _ done => done.1).under

end Server
end WebsocketProto
