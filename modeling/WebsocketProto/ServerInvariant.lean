import WebsocketProto.Server
import WebsocketProto.TimeWheelTasks

/-! What holds of a server between its steps: which objects are registered under which
descriptor, which wheel tasks capture which object, and what the history of each client
looks like. Every change concerns one client, so one lemma moves the invariant along. -/
namespace WebsocketProto
open Outcome

def Act.client : Act → ClientId
  | .accepted c _ | .epollCtl c _ | .received c _ | .delivered c _ | .queued c _ => c
  | .sendCall c _ | .connectedCallback c | .sentCallback c => c
  | .closeFd c _ | .disconnected c | .deleted c => c

def actsOf (c : ClientId) (trace : List Act) : List Act := trace.filter fun a => a.client == c

/-- The acts of `close_client`. -/
def closingActs (c : ClientId) (fd : Nat) : List Act :=
  [.closeFd c fd, .epollCtl c .del, .disconnected c, .deleted c]

def Act.ends : Act → Bool
  | .closeFd _ _ | .epollCtl _ .del | .disconnected _ | .deleted _ => true
  | _ => false

/-- How far a client has come: the handshake was accepted, and then a Close was queued. -/
inductive Stage where
  | fresh | accepted | ended
  deriving DecidableEq, Repr

def Stage.next : Stage → Act → Stage
  | .fresh, .queued _ (.handshake _) => .accepted
  | .accepted, .queued _ (.frame (.closeWebsocketClient _ _)) => .ended
  | stage, _ => stage

def stageOf (acts : List Act) : Stage := acts.foldl Stage.next .fresh

theorem stageOf_append (front back : List Act) :
    stageOf (front ++ back) = back.foldl Stage.next (stageOf front) :=
  List.foldl_append

/-- No heartbeat is queued behind a Close. -/
def Hushed (acts : List Act) : Prop :=
  ∀ front back c, acts = front ++ .queued c (.frame .heartbeatPing) :: back →
    stageOf front ≠ .ended

/-- Acts that tell nothing of stages, heartbeats or the end of a client. -/
def Act.plain : Act → Bool
  | .queued _ (.frame (.send _)) | .queued _ (.frame .pongReply) => true
  | .queued _ _ => false
  | a => !a.ends

theorem actsOf_append (c : ClientId) (front back : List Act) :
    actsOf c (front ++ back) = actsOf c front ++ actsOf c back :=
  List.filter_append front back

theorem actsOf_own {c : ClientId} {acts : List Act} (own : ∀ a ∈ acts, a.client = c) :
    actsOf c acts = acts := by
  apply List.filter_eq_self.mpr
  intro a member
  simpa using own a member

theorem actsOf_other {c d : ClientId} {acts : List Act} (own : ∀ a ∈ acts, a.client = c)
    (other : d ≠ c) : actsOf d acts = [] := by
  apply List.filter_eq_nil_iff.mpr
  intro a member
  have mine := own a member
  simpa [mine] using other.symm

theorem Act.plain_next {a : Act} (plain : a.plain = true) (stage : Stage) :
    stage.next a = stage := by
  cases a with
  | queued c output =>
    cases output with
    | handshake response => contradiction
    | frame op =>
      cases op with
      | closeWebsocketClient stack flag => contradiction
      | _ => cases stage <;> rfl
  | _ => cases stage <;> rfl

theorem Act.plain_ends {a : Act} (plain : a.plain = true) : a.ends = false := by
  cases a with
  | queued c output => rfl
  | _ => simpa [Act.plain] using plain

theorem stageOf_plain (acts more : List Act) (plain : ∀ a ∈ more, a.plain = true) :
    stageOf (acts ++ more) = stageOf acts := by
  rw [stageOf_append]
  induction more generalizing acts with
  | nil => rfl
  | cons a rest ih =>
    have here := Act.plain_next (plain a List.mem_cons_self) (stageOf acts)
    rw [List.foldl_cons, here]
    exact ih acts fun b member => plain b (List.mem_cons_of_mem a member)

theorem Hushed.snoc {acts : List Act} (hushed : Hushed acts) (a : Act)
    (silent : (∃ c, a = .queued c (.frame .heartbeatPing)) → stageOf acts ≠ .ended) :
    Hushed (acts ++ [a]) := by
  intro front back c split
  rcases List.eq_nil_or_concat back with rfl | ⟨rest, last, rfl⟩
  · obtain ⟨rfl, same⟩ := List.append_inj' split rfl
    exact silent ⟨c, List.cons.inj same |>.1⟩
  · have shifted : acts ++ [a] = (front ++ .queued c (.frame .heartbeatPing) :: rest) ++ [last] := by
      rw [split, List.append_assoc, List.concat_eq_append]
      rfl
    obtain ⟨same, _⟩ := List.append_inj' shifted rfl
    exact hushed front rest c same

theorem hushed_nil : Hushed [] := fun _ _ _ split =>
  absurd split.symm (List.append_ne_nil_of_right_ne_nil _ (List.cons_ne_nil _ _))

theorem Hushed.quiet {acts more : List Act} (hushed : Hushed acts)
    (silent : ∀ a ∈ more, ∀ c, a ≠ .queued c (.frame .heartbeatPing)) : Hushed (acts ++ more) := by
  induction more generalizing acts with
  | nil => rwa [List.append_nil]
  | cons a rest ih =>
    have here := hushed.snoc a fun ⟨c, ping⟩ => absurd ping (silent a List.mem_cons_self c)
    have later := ih here fun b member => silent b (List.mem_cons_of_mem a member)
    rwa [List.append_assoc] at later

/-- A client object, its history and the tasks that capture it. A task that is being run
for the last time (`busy`) is gone from the wheel while its client still has its id. -/
structure Alive (env : Setup) (strict : Prop) (busy : Option ClientId) (c : ClientId)
    (obj : WebsocketClient) (acts : List Act) (wheel : TimeWheel Task) : Prop where
  running : ∀ a ∈ acts, a.ends = false
  heartbeat : ∀ id, (id, .heartbeat c) ∈ wheel.pending ↔ obj.timeWheelHeartbeatId = id ∧ id ≠ 0
  expire : obj.timeWheelId ≠ 0 → busy ≠ some c → (obj.timeWheelId, .expire c) ∈ wheel.pending
  owned : ∀ fn, (obj.timeWheelId, fn) ∈ wheel.pending → fn = .expire c
  only : strict → ∀ id, (id, .expire c) ∈ wheel.pending → id = obj.timeWheelId
  issued : obj.timeWheelId < wheel.nextId ∧ obj.timeWheelHeartbeatId < wheel.nextId
  silent : env.proto.heartbeat = false ∨ obj.isConnected = .none → obj.timeWheelHeartbeatId = 0
  stage : obj.isConnected = .none → stageOf acts = .fresh
  ended : stageOf acts = .ended → obj.timeWheelHeartbeatId = 0
  hushed : Hushed acts

/-- Nothing happens to a client behind `close_client`, and no task captures it. -/
structure Dead (strict : Prop) (c : ClientId) (acts : List Act) (wheel : TimeWheel Task) :
    Prop where
  finished : acts = [] ∨ ∃ life fd, acts = life ++ closingActs c fd ∧ ∀ a ∈ life, a.ends = false
  heartbeat : ∀ id, (id, .heartbeat c) ∉ wheel.pending
  only : strict → ∀ id, (id, .expire c) ∉ wheel.pending
  hushed : Hushed acts

def Each (env : Setup) (strict : Prop) (busy : Option ClientId) (c : ClientId) :
    Option WebsocketClient → List Act → TimeWheel Task → Prop
  | some obj, acts, wheel => Alive env strict busy c obj acts wheel
  | none, acts, wheel => Dead strict c acts wheel

/-- Heartbeats go on for ever. -/
def Endless (wheel : TimeWheel Task) : Prop :=
  ∀ c count, (.heartbeat c, count) ∈ wheel.rounds → count = FULL_CIRCLE

/-- The invariant. Without `strict`, an expiry task may also have been forgotten by its
client or outlive it. -/
structure Good (env : Setup) (strict : Prop) (busy : Option ClientId) (s : Server) : Prop where
  registered : ∀ fd c, s.clients fd = some c ↔ ∃ obj, s.object c = some obj ∧ obj.sockfd = fd
  unborn : ∀ c, s.nextClient ≤ c → s.object c = none ∧ actsOf c s.trace = []
  tidy : s.wheel.Tidy
  endless : Endless s.wheel
  room : s.wheel.nextId ≤ 2 ^ 32
  each : ∀ c, Each env strict busy c (s.object c) (actsOf c s.trace) s.wheel

/-- Two further acts that end nothing. -/
theorem running_pair {acts : List Act} {a b : Act} (running : ∀ act ∈ acts, act.ends = false)
    (first : a.ends = false) (second : b.ends = false) :
    ∀ act ∈ acts ++ [a, b], act.ends = false :=
  List.forall_mem_append.mpr ⟨running, by simp [first, second]⟩

section Changes
variable {env : Setup} {strict : Prop} {busy : Option ClientId} {s : Server} {c : ClientId}
  {obj : WebsocketClient}

theorem start_good (current : Int) : Good env strict none (.start current) := by
  have tidy := TimeWheel.empty_tidy (F := Task) current
  have idle (task : Nat × Task) : task ∉ (TimeWheel.empty current : TimeWheel Task).pending := by
    simp [TimeWheel.pending, TimeWheel.cells, TimeWheel.lists, TimeWheel.empty]
  have endless : Endless (TimeWheel.empty current) := by
    simp [Endless, TimeWheel.rounds, TimeWheel.cells, TimeWheel.lists, TimeWheel.empty]
  refine ⟨?_, fun _ _ => ⟨rfl, rfl⟩, tidy, endless, ?_, ?_⟩
  · intro fd c
    constructor
    · rintro ⟨⟩
    · rintro ⟨_, ⟨⟩, _⟩
  · simp only [Server.start, TimeWheel.empty]
    decide
  · intro c
    exact ⟨Or.inl rfl, fun _ => idle _, fun _ _ => idle _, hushed_nil⟩

theorem Good.alive (good : Good env strict busy s) (live : s.object c = some obj) :
    Alive env strict busy c obj (actsOf c s.trace) s.wheel := by
  have each := good.each c
  rwa [live] at each

theorem Good.dead (good : Good env strict busy s) (gone : s.object c = none) :
    Dead strict c (actsOf c s.trace) s.wheel := by
  have each := good.each c
  rwa [gone] at each

theorem Good.known (good : Good env strict busy s) (live : s.object c = some obj) :
    c < s.nextClient := by
  by_contra beyond
  have := (good.unborn c (Nat.le_of_not_lt beyond)).1
  rw [live] at this
  contradiction

/-- Only what each client did counts of the history. -/
theorem Good.retrace (good : Good env strict busy s) (trace : List Act)
    (same : ∀ d, actsOf d trace = actsOf d s.trace) :
    Good env strict busy { s with trace := trace } := by
  refine ⟨good.registered, fun d beyond => ?_, good.tidy, good.endless, good.room, fun d => ?_⟩
  · exact ⟨(good.unborn d beyond).1, (same d).trans (good.unborn d beyond).2⟩
  · exact same d ▸ good.each d

/-- Of what surrounds the server only the protocol counts. -/
theorem Good.of_proto {env' : Setup} (good : Good env strict busy s)
    (same : env'.proto = env.proto) : Good env' strict busy s := by
  refine ⟨good.registered, good.unborn, good.tidy, good.endless, good.room, fun c => ?_⟩
  have each := good.each c
  cases found : s.object c with
  | none =>
    rw [found] at each
    exact each
  | some obj =>
    rw [found] at each
    exact { each with silent := by rw [same]; exact each.silent }

/-- How the wheel may change on behalf of one client. -/
structure OwnTasks (c : ClientId) (wheel wheel' : TimeWheel Task) : Prop where
  tidy : wheel'.Tidy
  endless : Endless wheel'
  room : wheel'.nextId ≤ 2 ^ 32
  grows : wheel.nextId ≤ wheel'.nextId
  others : ∀ id fn, fn.client ≠ c → ((id, fn) ∈ wheel'.pending ↔ (id, fn) ∈ wheel.pending)
  newer : ∀ id fn, (id, fn) ∈ wheel'.pending → (id, fn) ∈ wheel.pending ∨ wheel.nextId ≤ id

theorem OwnTasks.refl (good : Good env strict busy s) (c : ClientId) :
    OwnTasks c s.wheel s.wheel :=
  ⟨good.tidy, good.endless, good.room, Nat.le_refl _, fun _ _ _ => Iff.rfl, fun _ _ => Or.inl⟩

theorem Each.others {d : ClientId} {o : Option WebsocketClient} {acts : List Act}
    {wheel wheel' : TimeWheel Task} (each : Each env strict busy d o acts wheel)
    (own : OwnTasks c wheel wheel') (other : d ≠ c) : Each env strict busy d o acts wheel' := by
  have same (id : Nat) (fn : Task) (captures : fn.client = d) :=
    own.others id fn (by rw [captures]; exact other)
  cases o with
  | none =>
    obtain ⟨finished, heartbeat, only, hushed⟩ := each
    refine ⟨finished, ?_, ?_, hushed⟩
    · exact fun id member => heartbeat id ((same id _ rfl).mp member)
    · exact fun holds id member => only holds id ((same id _ rfl).mp member)
  | some obj =>
    obtain ⟨running, heartbeat, expire, owned, only, issued, silent, stage, ended, hushed⟩ := each
    refine ⟨running, ?_, ?_, ?_, ?_, ?_, silent, stage, ended, hushed⟩
    · exact fun id => (same id _ rfl).trans (heartbeat id)
    · exact fun named free => (same _ _ rfl).mpr (expire named free)
    · intro fn member
      rcases own.newer _ _ member with old | beyond
      · exact owned fn old
      · exact absurd issued.1 (Nat.not_lt.mpr beyond)
    · exact fun holds id member => only holds id ((same id _ rfl).mp member)
    · exact ⟨Nat.lt_of_lt_of_le issued.1 own.grows, Nat.lt_of_lt_of_le issued.2 own.grows⟩

/-- A client that was not accepted yet is not one that is written. -/
theorem Good.unborn_still {acts : List Act} {d : ClientId} (good : Good env strict busy s)
    (live : s.object c = some obj) (written : Option WebsocketClient)
    (mine : ∀ a ∈ acts, a.client = c) (beyond : s.nextClient ≤ d) :
    Function.update s.object c written d = none ∧ actsOf d (s.trace ++ acts) = [] := by
  have other : d ≠ c := by
    rintro rfl
    exact absurd (good.known live) (Nat.not_lt.mpr beyond)
  obtain ⟨unborn, silent⟩ := good.unborn d beyond
  constructor
  · simp only [Function.update_of_ne other, unborn]
  · simp only [actsOf_append, silent, actsOf_other mine other, List.append_nil]

/-- The one way in which a step changes a client that stays. -/
theorem Good.change (good : Good env strict busy s) (live : s.object c = some obj)
    (obj' : WebsocketClient) (acts : List Act) (wheel' : TimeWheel Task)
    (sockfd : obj'.sockfd = obj.sockfd) (mine : ∀ a ∈ acts, a.client = c)
    (own : OwnTasks c s.wheel wheel')
    (alive : Alive env strict busy c obj' (actsOf c s.trace ++ acts) wheel') :
    Good env strict busy { s with
      object := Function.update s.object c (some obj')
      trace := s.trace ++ acts
      wheel := wheel' } := by
  refine ⟨?_, ?_, own.tidy, own.endless, own.room, ?_⟩
  · intro fd d
    refine (good.registered fd d).trans ?_
    by_cases other : d = c
    · subst other
      simp only [Function.update_self, live, Option.some.injEq, exists_eq_left', sockfd]
    · simp only [Function.update_of_ne other]
  · exact fun d => good.unborn_still live _ mine
  · intro d
    by_cases other : d = c
    · subst other
      simp only [Function.update_self, actsOf_append, actsOf_own mine]
      exact alive
    · simp only [Function.update_of_ne other, actsOf_append, actsOf_other mine other,
        List.append_nil]
      exact (good.each d).others own other

/-- The change that `close_client` makes in the end. -/
theorem Good.drop (good : Good env strict busy s) (live : s.object c = some obj)
    (acts : List Act) (wheel' : TimeWheel Task) (mine : ∀ a ∈ acts, a.client = c)
    (own : OwnTasks c s.wheel wheel') (idle : busy = none ∨ busy = some c)
    (dead : Dead strict c (actsOf c s.trace ++ acts) wheel') :
    Good env strict none { s with
      clients := Function.update s.clients obj.sockfd none
      object := Function.update s.object c none
      trace := s.trace ++ acts
      wheel := wheel' } := by
  have calm {d : ClientId} {o : Option WebsocketClient} {past : List Act} (other : d ≠ c)
      (each : Each env strict busy d o past wheel') : Each env strict none d o past wheel' := by
    cases o with
    | none => exact each
    | some obj =>
      refine { each with expire := fun named _ => each.expire named ?_ }
      rcases idle with rfl | rfl
      · exact nofun
      · exact fun same => other (Option.some.inj same).symm
  refine ⟨?_, ?_, own.tidy, own.endless, own.room, ?_⟩
  · intro fd d
    dsimp only
    by_cases here : fd = obj.sockfd
    · subst here
      rw [Function.update_self]
      refine ⟨nofun, ?_⟩
      rintro ⟨obj', found, same⟩
      by_cases other : d = c
      · subst other
        rw [Function.update_self] at found
        contradiction
      · rw [Function.update_of_ne other] at found
        have first := (good.registered obj.sockfd d).mpr ⟨obj', found, same⟩
        have second := (good.registered obj.sockfd c).mpr ⟨obj, live, rfl⟩
        exact absurd (Option.some.inj (first.symm.trans second)) other
    · rw [Function.update_of_ne here, good.registered]
      by_cases other : d = c
      · subst other
        simp only [live, Function.update_self, Option.some.injEq, exists_eq_left', reduceCtorEq,
          false_and, exists_false, iff_false]
        exact fun same => here same.symm
      · rw [Function.update_of_ne other]
  · exact fun d => good.unborn_still live _ mine
  · intro d
    by_cases other : d = c
    · subst other
      simp only [Function.update_self, actsOf_append, actsOf_own mine]
      exact dead
    · simp only [Function.update_of_ne other, actsOf_append, actsOf_other mine other,
        List.append_nil]
      exact calm other ((good.each d).others own other)

/-- A client that was accepted under a free descriptor. -/
theorem Good.birth (good : Good env strict busy s) (fd : Nat) (free : s.clients fd = none) :
    Good env strict busy { s with
      clients := Function.update s.clients fd (some s.nextClient)
      object := Function.update s.object s.nextClient (some (.new fd))
      nextClient := s.nextClient + 1
      trace := s.trace ++ [.accepted s.nextClient fd, .epollCtl s.nextClient .add] } := by
  obtain ⟨unborn, silent⟩ := good.unborn s.nextClient (Nat.le_refl _)
  have nobody := good.dead unborn
  have mine : ∀ a ∈ [Act.accepted s.nextClient fd, .epollCtl s.nextClient .add],
      a.client = s.nextClient := by simp [Act.client]
  refine ⟨?_, ?_, good.tidy, good.endless, good.room, ?_⟩
  · intro fd' d
    dsimp only
    by_cases other : d = s.nextClient
    · subst other
      rw [Function.update_self]
      by_cases here : fd' = fd
      · subst here
        simp [WebsocketClient.new]
      · rw [Function.update_of_ne here]
        have old : s.clients fd' ≠ some s.nextClient := by
          rw [Ne, good.registered, unborn]
          simp
        simpa [WebsocketClient.new, old] using fun same => here same.symm
    · rw [Function.update_of_ne other]
      by_cases here : fd' = fd
      · subst here
        rw [Function.update_self]
        have unused := (not_congr (good.registered fd' d)).mp (by rw [free]; nofun)
        simpa [Ne.symm other] using unused
      · rw [Function.update_of_ne here]
        exact good.registered fd' d
  · intro d beyond
    have other : d ≠ s.nextClient := Nat.ne_of_gt beyond
    obtain ⟨unborn', silent'⟩ := good.unborn d (Nat.le_of_succ_le beyond)
    refine ⟨?_, ?_⟩
    · simp only [Function.update_of_ne other, unborn']
    · simp only [actsOf_append, silent', actsOf_other mine other, List.append_nil]
  · intro d
    by_cases other : d = s.nextClient
    · subst other
      simp only [Function.update_self, actsOf_append, actsOf_own mine, silent, List.nil_append]
      have counted := good.tidy.counted
      refine ⟨by simp [Act.ends], ?_, nofun, ?_, ?_, ⟨counted, counted⟩, fun _ => rfl,
        fun _ => rfl, nofun, ?_⟩
      · intro id
        refine ⟨fun member => absurd member (nobody.heartbeat id), ?_⟩
        rintro ⟨rfl, positive⟩
        exact absurd rfl positive
      · intro fn member
        exact absurd (good.tidy.bounds member).1 (Nat.lt_irrefl 0)
      · exact fun holds id member => absurd member (nobody.only holds id)
      · exact hushed_nil.quiet (by simp)
    · simp only [Function.update_of_ne other, actsOf_append, actsOf_other mine other,
        List.append_nil]
      exact good.each d

/-- Acts that tell nothing leave a client as it is, if its ids stay. -/
theorem Alive.plain {acts more : List Act} {wheel : TimeWheel Task} {obj' : WebsocketClient}
    (alive : Alive env strict busy c obj acts wheel)
    (ids : obj'.timeWheelId = obj.timeWheelId ∧
      obj'.timeWheelHeartbeatId = obj.timeWheelHeartbeatId)
    (connected : obj'.isConnected = .none → obj.isConnected = .none)
    (plain : ∀ a ∈ more, a.plain = true) :
    Alive env strict busy c obj' (acts ++ more) wheel := by
  obtain ⟨running, heartbeat, expire, owned, only, issued, silent, stage, ended, hushed⟩ := alive
  have stages := stageOf_plain acts more plain
  refine ⟨?_, ?_, ?_, ?_, ?_, ?_, ?_, ?_, ?_, ?_⟩
  · intro a member
    rcases List.mem_append.mp member with old | new
    · exact running a old
    · exact Act.plain_ends (plain a new)
  · rwa [ids.2]
  · rwa [ids.1]
  · rwa [ids.1]
  · rwa [ids.1]
  · rwa [ids.1, ids.2]
  · rw [ids.2]
    exact fun still => silent (still.imp_right connected)
  · rw [stages]
    exact fun none_ => stage (connected none_)
  · rwa [stages, ids.2]
  · refine hushed.quiet fun a member d same => ?_
    have := plain a member
    rw [same] at this
    contradiction

/-- A change of the object and of the history that leaves the wheel alone. -/
theorem Good.touch (good : Good env strict busy s) (live : s.object c = some obj)
    (obj' : WebsocketClient) (acts : List Act)
    (ids : obj'.timeWheelId = obj.timeWheelId ∧
      obj'.timeWheelHeartbeatId = obj.timeWheelHeartbeatId)
    (sockfd : obj'.sockfd = obj.sockfd)
    (connected : obj'.isConnected = .none → obj.isConnected = .none)
    (mine : ∀ a ∈ acts, a.client = c) (plain : ∀ a ∈ acts, a.plain = true) :
    Good env strict busy { s with
      object := Function.update s.object c (some obj'), trace := s.trace ++ acts } :=
  good.change live obj' acts s.wheel sockfd mine (.refl good c)
    ((good.alive live).plain ids connected plain)

end Changes
end WebsocketProto
