import WebsocketProto.ServerLife
import WebsocketProto.ServerRounds
import WebsocketProto.TimeWheelBounds

/-! Which clients the server lets go. Whatever it finds wrong with what a client sends, and whatever
user code asks for, it waits for the client to leave. -/
namespace WebsocketProto
open Outcome Wheelless
open TimeWheel (Every Sinking)

/-- A client that has ever come is there. -/
def Server.Present (c : ClientId) (s : Server) : Prop :=
  c < s.nextClient → ∃ obj, s.object c = some obj

/-- The node is not the closing deadline of the client. -/
def Undue (c : ClientId) (node : TimeNode Task) : Prop := node.fn ≠ .expire c

theorem undue_sinking (c : ClientId) : Sinking (Undue c) := fun _ _ _ _ undue => undue

/-- The server is not about to close the client. -/
def Server.Spared (c : ClientId) (s : Server) : Prop := Every (Undue c) s.wheel.cells

namespace Protocol
variable {proto : Protocol} {c c' : WebsocketClient} {data : Bytes} {ret : Bool}
  {calls : List Call}

/-- Only a CLOSE behind the handshake has the server close the client, now or later. -/
theorem Answer.keeps (answer : proto.Answer c c' data ret calls)
    (polite : c.isConnected ≠ .none → readsClose data = false) :
    .closeClient ∉ calls ∧ ∀ flag, .addToTimeWheelExpire flag ∉ calls := by
  cases answer with
  | shaken response fresh waits =>
    cases proto.heartbeat <;> simp
  | passive shaken closing open_ | expiring shaken closing closed =>
    rw [polite shaken] at closing
    contradiction
  | _ => simp

end Protocol

namespace Server
variable {env : Setup} {s s' : Server} {c d : ClientId} {obj obj' : WebsocketClient} {now : Int}

theorem present_put (obj : WebsocketClient) (wheel : TimeWheel Task) (trace : List Act) :
    Keeps (Present c) s { s with
      object := Function.update s.object d (some obj), wheel := wheel, trace := trace } := by
  intro present known
  by_cases own : c = d
  · exact ⟨obj, by simp [own]⟩
  · simpa [Function.update_of_ne own] using present known

theorem present_closing (other : c ≠ d) (fd : Nat) : Keeps (Present c) s (s.closing d fd) := by
  intro present known
  simpa [closing, Function.update_of_ne other] using present known

instance : Wheelless (Keeps (Present c)) where
  trans _ _ _ first second present := second (first present)
  same _ := id
  rewheel _ _ := id

instance (d : ClientId) : Queues d (Keeps (Present c)) where
  write _ _ := present_put _ _ _
  queue _ _ _ := present_put _ _ _

theorem present_moves (other : c ≠ d) : Moves d (Keeps (Present c)) where
  received _ _ := id
  close _ := present_closing other _
  deleted _ := id

instance : Callbacks (Keeps (Present c)) where
  queues _ := inferInstance
  send _ _ := present_put _ _ _
  delivered _ _ := id
  connects _ _ := present_put _ _ _
  sentCallback _ := id

/-- A read that is no CLOSE, for whomever it is. -/
theorem decodeProtoData_present {data : Bytes} {ret : Bool} (live : s.object d = some obj)
    (polite : obj.isConnected ≠ .none → readsClose data = false)
    (done : s.decodeProtoData env now d data = .ok (ret, s')) : Keeps (Present c) s s' := by
  rw [decodeProtoData, get_live live, ok_bind] at done
  split at done
  · contradiction
  · rename_i ret' obj' calls decoded
    obtain ⟨s1, performed, same⟩ := bind_eq_ok.mp done
    cases same
    obtain ⟨_, answer⟩ := Protocol.decodeProtoData_answer decoded
    obtain ⟨open_, _⟩ := answer.keeps polite
    have read : Keeps (Present c) s ((s.log (.received d data)).put d obj') := present_put _ _ _
    refine next read (Wheelless.performAll (fun call member s1 => ?_) s' performed)
    exact Queues.perform (fun output same => answer.own output (same ▸ member))
      (ne_of_mem_of_not_mem member open_)

instance : Frames (Keeps (Spared c)) where
  trans _ _ _ first second spared := second (first spared)
  same _ := id
  put _ _ := id
  log _ _ _ := id
  unregister _ _ := id
  forget _ _ := id
  eraseTask {s} id s' done spared := by
    rw [eraseTask] at done
    split at done
    · rename_i wheel found erased
      cases done
      exact TimeWheel.eraseTask_every erased spared
    · contradiction

theorem addTask_spared {fn : Task} {expire : Int} {circleCount : UInt32} {id : Nat}
    (other : fn ≠ .expire c) (done : s.addTask now fn expire circleCount = .ok (s', id)) :
    Keeps (Spared c) s s' := by
  intro spared
  rw [addTask] at done
  split at done
  · rename_i wheel new added
    obtain ⟨rfl, rfl⟩ := Prod.mk.inj (Except.ok.inj done)
    exact TimeWheel.addTask_every (undue_sinking c) added spared
      fun node function _ _ _ same => other (function.symm.trans same)
  · contradiction

theorem perform_spared {call : Call} (other : d = c → ∀ flag, call ≠ .addToTimeWheelExpire flag) :
    Leads (Keeps (Spared c)) s (s.perform env now d call) := by
  cases call with
  | sendWithoutFrame output =>
    intro s' done
    obtain ⟨obj, live, rfl⟩ := sendBuffer_cases done
    exact id
  | closeWebsocketClient flag => exact Frames.closeWebsocketClient (R := Keeps (Spared c)) flag
  | closeClient => exact Frames.closeClient (R := Keeps (Spared c))
  | addToTimeWheelExpire flag =>
    intro s' done
    obtain ⟨s1, id, obj, added, _, rfl⟩ := addToTimeWheelExpire_adds done
    have kept : Keeps (Spared c) s s1 :=
      addTask_spared (fun same => other (Task.expire.inj same) flag rfl) added
    exact kept
  | addToTimeWheelHeartbeat =>
    intro s' done
    obtain ⟨s1, id, obj, added, _, rfl⟩ := addToTimeWheelHeartbeat_adds done
    have kept : Keeps (Spared c) s s1 := addTask_spared (by simp) added
    exact kept
  | removeFromTimeWheel =>
    intro s' done
    obtain ⟨obj, _, done⟩ := bind_eq_ok.mp done
    obtain ⟨s1, erased, same⟩ := bind_eq_ok.mp done
    cases same
    exact Frames.eraseTask (R := Keeps (Spared c)) s _ s1 erased

theorem performAll_spared {calls : List Call}
    (other : d = c → ∀ flag, .addToTimeWheelExpire flag ∉ calls) :
    Leads (Keeps (Spared c)) s (performAll env now d calls s) := by
  induction calls generalizing s with
  | nil => exact Leads.ok (Frames.same s)
  | cons call rest ih =>
    refine Leads.bind (R := Keeps (Spared c)) (perform_spared fun own flag same => ?_) fun s1 =>
      ih fun own flag member => other own flag (List.mem_cons_of_mem call member)
    exact other own flag (same ▸ List.mem_cons_self)

theorem decodeProtoData_spared {data : Bytes} {ret : Bool} (live : s.object d = some obj)
    (polite : d = c → obj.isConnected ≠ .none → readsClose data = false)
    (done : s.decodeProtoData env now d data = .ok (ret, s')) : Keeps (Spared c) s s' := by
  rw [decodeProtoData, get_live live, ok_bind] at done
  split at done
  · contradiction
  · rename_i ret' obj' calls decoded
    obtain ⟨s1, performed, same⟩ := bind_eq_ok.mp done
    cases same
    obtain ⟨_, answer⟩ := Protocol.decodeProtoData_answer decoded
    have kept : Keeps (Spared c) ((s.log (.received d data)).put d obj') s' :=
      performAll_spared (fun own => (answer.keeps (polite own)).2) s' performed
    exact kept

theorem recvCallback_spared : Leads (Keeps (Spared c)) s (s.recvCallback env d) := by
  intro s' done
  obtain ⟨obj, _, done⟩ := bind_eq_ok.mp done
  split at done
  · obtain ⟨s1, called, done⟩ := bind_eq_ok.mp done
    obtain ⟨obj1, _, same⟩ := bind_eq_ok.mp done
    cases same
    have told : Keeps (Spared c) (s.log (.delivered d obj.decodeBuffer)) s1 :=
      Frames.userActs _ s1 called
    exact told
  · exact Except.ok.inj done ▸ Frames.same s

theorem sentCallback_spared : Leads (Keeps (Spared c)) s (s.sentCallback env d) := by
  intro s' done
  obtain ⟨s1, connected, done⟩ := bind_eq_ok.mp done
  have begun : Keeps (Spared c) s s1 := by
    obtain ⟨obj, _, connected⟩ := bind_eq_ok.mp connected
    split at connected
    · have told : Keeps (Spared c) ((s.put d { obj with isConnected := .connected }).log
          (.connectedCallback d)) s1 := Frames.userActs _ s1 connected
      exact told
    · exact Except.ok.inj connected ▸ Frames.same s
  have told : Keeps (Spared c) (s1.log (.sentCallback d)) s' := Frames.userActs _ s' done
  exact told ∘ begun

/-- The step does not tell the server that the client is gone, and reads no CLOSE from it. -/
def Remains (env : Setup) (c : ClientId) (s : Server) : Label → Prop
  | .event e => s.clients e.fd = some c → e.hup = false ∧
      (e.reads env = true → .returns [] ∉ e.recvs) ∧
      ∀ read ∈ s.read env (.event e), read.1.isConnected ≠ .none → readsClose read.2 = false
  | _ => True

instance (env : Setup) (c : ClientId) (s : Server) : (l : Label) → Decidable (Remains env c s l)
  | .event _ => inferInstanceAs (Decidable (_ → _))
  | .beginTick _ | .fire | .user _ => isTrue trivial

/-- No loop over `recv` closes the client without a result of zero bytes. -/
theorem recvAll_open {results : List RecvResult} {m m' : Bytes} {closed : Bool}
    (open_ : .returns [] ∉ results) (done : recvAll results m = some (m', closed)) :
    closed = false := by
  induction results generalizing m with
  | nil => contradiction
  | cons result rest ih =>
    obtain ⟨first, later⟩ := not_or.mp (List.mem_cons.not.mp open_)
    cases result with
    | wouldBlock =>
      cases done
      rfl
    | fails => exact ih later done
    | returns data =>
      rw [recvAll] at done
      split at done
      · rename_i empty
        exact absurd (empty ▸ rfl) first
      · exact ih later done

/-- The client is there, if it ever came, and no closing deadline of it runs. -/
structure Stays (c : ClientId) (s : Server) : Prop where
  present : s.Present c
  spared : s.Spared c

theorem onEvent_stays {e : Event} (rooted : s.Rooted) (remains : Remains env c s (.event e))
    (stays : Stays c s) (done : s.onEvent env e = .ok s') : Stays c s' := by
  cases onEvent_cases done with
  | missed | refused | silent => exact stays
  | hangUp d _ hup known done =>
    have other : c ≠ d := by
      rintro rfl
      rw [(remains known).1] at hup
      contradiction
    have := present_moves other
    exact ⟨Ends.closeClient (R := Keeps (Present c)) UserSends.disconnectKeeps s' done stays.present,
      Frames.closeClient (R := Keeps (Spared c)) s' done stays.spared⟩
  | accepts fd =>
    refine ⟨fun known => ?_, stays.spared⟩
    by_cases new : c = s.nextClient
    · exact ⟨.new fd, by simp [admitted, new]⟩
    · have before : c < s.nextClient := Nat.lt_of_le_of_ne (Nat.le_of_lt_succ known) new
      simpa [admitted, Function.update_of_ne new] using stays.present before
  | reads d _ hup input foreign known done =>
    obtain ⟨obj, live, _⟩ := rooted.live known
    have reading : e.reads env = true := by simp [Event.reads, hup, input, foreign]
    obtain ⟨m, closed, received, ⟨_, ended, gone⟩ | ⟨_, _, rfl⟩ | ⟨_, _, ret, s1, decoded, after⟩⟩ :=
      onInput_cases done
    · have other : c ≠ d := by
        rintro rfl
        have still := recvAll_open ((remains known).2.1 reading) received
        rw [ended] at still
        contradiction
      have := present_moves other
      exact ⟨Ends.closeClient (R := Keeps (Present c)) UserSends.disconnectKeeps s' gone stays.present,
        Frames.closeClient (R := Keeps (Spared c)) s' gone stays.spared⟩
    · exact stays
    have polite (own : d = c) (shaken : obj.isConnected ≠ .none) : readsClose m = false := by
      subst own
      refine (remains known).2.2 (obj, m) ?_ shaken
      simp [Server.read, reading, known, live, received]
    have present : Keeps (Present c) s s1 := by
      by_cases own : d = c
      · exact decodeProtoData_present live (polite own) decoded
      · have := present_moves (Ne.symm own)
        exact Moves.decodeProtoData UserSends.disconnectKeeps decoded
    have spared : Keeps (Spared c) s s1 := decodeProtoData_spared live polite decoded
    have read : Stays c s1 := ⟨present stays.present, spared stays.spared⟩
    rcases after with ⟨_, called⟩ | ⟨_, rfl⟩
    · exact ⟨Callbacks.recvCallback (R := Keeps (Present c)) s' called read.present,
        recvCallback_spared s' called read.spared⟩
    · exact read
  | writes d _ hup input output known done =>
    obtain ⟨obj, drained, live, _, _, called⟩ := onOutput_cases done
    have offered : Keeps (Present c) s (s.offered d obj drained) := present_put _ _ _
    have told := Callbacks.sentWrapper (R := Keeps (Present c)) s' called
    exact ⟨told (offered stays.present), sentCallback_spared s' called stays.spared⟩

theorem beginTick_stays (stays : Stays c s) (done : s.beginTick env now = .ok s') :
    Stays c s' := by
  rw [beginTick] at done
  split at done
  · contradiction
  split at done
  · rename_i wheel ticked
    cases done
    exact ⟨stays.present, TimeWheel.beginTick_every (undue_sinking c) ticked stays.spared⟩
  · contradiction

/-- The task that runs is none that closes the client. -/
theorem fire_stays (stays : Stays c s) (done : s.fire env = .ok s') : Stays c s' := by
  have rings {wheel : TimeWheel Task} {call : Option (Task × Bool × Nat)}
      (fired : s.wheel.fire = .ok (wheel, call)) : Stays c { s with wheel := wheel } :=
    ⟨stays.present, TimeWheel.fire_every (undue_sinking c) fired stays.spared
      fun v _ undue _ _ => undue⟩
  rw [fire] at done
  split at done
  · contradiction
  split at done
  · contradiction
  · rename_i wheel fired
    exact Except.ok.inj done ▸ rings fired
  · rename_i wheel task isDone id fired
    have rung := rings fired
    refine ⟨?_, Frames.runTask (R := Keeps (Spared c)) task s' done rung.spared⟩
    cases task with
    | expire d =>
      have other : c ≠ d := by
        rintro rfl
        obtain ⟨node, undue, same⟩ := TimeWheel.fire_called fired stays.spared
        exact undue same
      have := present_moves other
      exact Leads.bind (R := Keeps (Present c)) (Queues.closeWebsocketClient (c := d) _)
        (fun s1 => Ends.closeClient (c := d) UserSends.disconnectKeeps) s' done rung.present
    | heartbeat d =>
      exact Queues.sendBuffer (R := Keeps (Present c)) (c := d) rfl s' done rung.present

theorem step_stays {l : Label} (rooted : s.Rooted) (remains : Remains env c s l)
    (stays : Stays c s) (done : s.step env l = .ok s') : Stays c s' := by
  cases l with
  | event e => exact onEvent_stays rooted remains stays done
  | beginTick now => exact beginTick_stays stays done
  | fire => exact fire_stays stays done
  | user acts =>
    exact ⟨UserSends.userActs (R := Keeps (Present c)) acts s' done stays.present,
      Frames.userActs (R := Keeps (Spared c)) acts s' done stays.spared⟩

theorem run_stays {labels : List Label} (rooted : s.Rooted)
    (remains : Along (Server.step env) (Remains env c) s labels) (stays : Stays c s)
    (done : run (Server.step env) s labels = .ok s') : s'.Rooted ∧ Stays c s' := by
  induction labels generalizing s with
  | nil =>
    cases done
    exact ⟨rooted, stays⟩
  | cons l rest ih =>
    obtain ⟨next, taken, later⟩ := bind_eq_ok.mp done
    exact ih (step_rooted rooted taken) (remains.2 next taken)
      (step_stays rooted remains.1 stays taken) later

theorem start_stays (current : Int) : Stays c (start current) := by
  refine ⟨fun known => absurd known (Nat.not_lt_zero c), fun cell member => ?_⟩
  simp [start] at member

end Server

/-- The server never lets a client go of its own accord: whatever it finds wrong with what it reads,
however long the client is silent, and whoever asks for the client to be closed, a client that
neither leaves nor sends a CLOSE behind its handshake stays registered. -/
theorem clients_stay (env : Setup) (current : Int) (labels : List Label) (s : Server)
    (done : run (Server.step env) (.start current) labels = .ok s) (c : ClientId)
    (remains : Along (Server.step env) (Server.Remains env c) (.start current) labels)
    (known : c < s.nextClient) :
    ∃ obj, s.object c = some obj ∧ s.clients obj.sockfd = some c := by
  obtain ⟨rooted, stays⟩ :=
    Server.run_stays (Server.start_rooted current) remains (Server.start_stays current) done
  obtain ⟨obj, live⟩ := stays.present known
  exact ⟨obj, live, (rooted.registered obj.sockfd c).mpr ⟨obj, live, rfl⟩⟩

/-- A protocol error, a close that user code asks for, and another client that leaves. -/
def trouble : List Label :=
  handshaken ++ [shortRead, .user [(0, .close)], connection 6,
    .event ⟨6, true, false, false, none, [], [], 0⟩]

theorem troubled_stays : ∃ s obj, run (Server.step quietSetup) (.start 0) trouble = .ok s ∧
    s.object 0 = some obj ∧ s.clients obj.sockfd = some 0 := by
  obtain ⟨s, reached, known⟩ := reaches (x := run (Server.step quietSetup) (.start 0) trouble)
    (f := Server.nextClient) (b := 2) (by decide +kernel)
  obtain ⟨obj, stays⟩ := clients_stay quietSetup 0 trouble s reached 0 (by decide +kernel)
    (by rw [known]; decide)
  exact ⟨s, obj, reached, stays⟩

end WebsocketProto
