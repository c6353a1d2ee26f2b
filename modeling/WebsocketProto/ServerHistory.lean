import WebsocketProto.ServerFrames

/-! The history of a server only grows, from one handler to the next and over a run. -/
namespace WebsocketProto
open Outcome

/-- Whatever the computation returns, it only added to the history. -/
def Grows (s : Server) (x : Except Fault Server) : Prop :=
  ∀ s', x = .ok s' → s.trace <+: s'.trace

def Server.Extends (s s' : Server) : Prop := s.trace <+: s'.trace

theorem Server.Extends.of_eq {s s' : Server} (same : s'.trace = s.trace) : s.Extends s' :=
  ⟨[], (List.append_nil _).trans same.symm⟩

/-- The history of the wheel is another one. -/
theorem Server.eraseTask_extends {s : Server} (id : Nat) :
    Leads Server.Extends s (s.eraseTask id) := by
  rw [Server.eraseTask]
  split
  · exact Leads.ok (.of_eq rfl)
  · exact Leads.error _

/-- Each single operation logs what it does at the end. -/
instance : Frames Server.Extends where
  trans _ _ _ := List.IsPrefix.trans
  same _ := List.prefix_rfl
  put _ _ := .of_eq rfl
  log _ _ _ := List.prefix_append _ _
  unregister _ _ := .of_eq rfl
  forget _ _ := .of_eq rfl
  eraseTask _ := Server.eraseTask_extends

theorem Grows.bind {s : Server} {x : Except Fault Server} {f : Server → Except Fault Server}
    (first : Grows s x) (next : ∀ s1, Grows s1 (f s1)) : Grows s (x >>= f) :=
  Leads.bind (R := Server.Extends) first next

/-- A lookup logs nothing. -/
theorem Grows.after {s : Server} {α : Type} {x : Except Fault α} {f : α → Except Fault Server}
    (next : ∀ a, Grows s (f a)) : Grows s (x >>= f) := Leads.after (R := Server.Extends) next

/-- Growth counts from a state before the handler as well. -/
theorem Grows.from {s s1 : Server} {x : Except Fault Server} (later : Grows s1 x)
    (acts : List Act) (added : s1.trace = s.trace ++ acts) : Grows s x :=
  Leads.from (R := Server.Extends) later ⟨acts, added.symm⟩

theorem grows_ok {s s' : Server} (acts : List Act) (added : s'.trace = s.trace ++ acts) :
    Grows s (.ok s') := Leads.ok (R := Server.Extends) ⟨acts, added.symm⟩

theorem grows_error {s : Server} (fault : Fault) : Grows s (.error fault) :=
  Leads.error (R := Server.Extends) fault

namespace Server
variable {env : Setup} {s s' : Server} {c : ClientId} {now : Int}

theorem closeWebsocketClient_grows (flag : CloseFlag) :
    Grows s (s.closeWebsocketClient env c flag) := Frames.closeWebsocketClient (R := Extends) flag

theorem closeClient_grows : Grows s (s.closeClient env c) := Frames.closeClient (R := Extends)

theorem closeIf_grows (closed : Bool) : Grows s (s.closeIf env c closed) :=
  Frames.closeIf (R := Extends) closed

theorem userActs_grows (acts : List (ClientId × UserAct)) : Grows s (userActs env acts s) :=
  Frames.userActs (R := Extends) acts

theorem runTask_grows (task : Task) : Grows s (s.runTask env task) :=
  Frames.runTask (R := Extends) task

/-- Neither the wheel nor the ids that a client keeps of it are part of the history. -/
theorem addTask_trace {fn : Task} {expire : Int} {circleCount : UInt32} {id : Nat}
    (done : s.addTask now fn expire circleCount = .ok (s', id)) : s'.trace = s.trace := by
  rw [addTask] at done
  split at done
  · obtain ⟨rfl, _⟩ := Prod.mk.inj (Except.ok.inj done)
    rfl
  · contradiction

theorem addToTimeWheelExpire_grows : Grows s (s.addToTimeWheelExpire now c) := by
  intro s' done
  obtain ⟨s1, id, obj, added, _, rfl⟩ := addToTimeWheelExpire_adds done
  exact addTask_trace added ▸ List.prefix_rfl

theorem addToTimeWheelHeartbeat_grows : Grows s (s.addToTimeWheelHeartbeat now c) := by
  intro s' done
  obtain ⟨s1, id, obj, added, _, rfl⟩ := addToTimeWheelHeartbeat_adds done
  exact addTask_trace added ▸ List.prefix_rfl

theorem removeFromTimeWheel_grows : Grows s (s.removeFromTimeWheel c) := by
  apply Grows.after
  intro obj
  exact Grows.bind (eraseTask_extends _) fun s1 => grows_ok [] (List.append_nil _).symm

/-- One case for each call that the protocol makes. -/
theorem perform_grows (call : Call) : Grows s (s.perform env now c call) := by
  cases call with
  | sendWithoutFrame output => exact Frames.sendBuffer (R := Extends) output fun s => List.prefix_append _ _
  | closeWebsocketClient flag => exact closeWebsocketClient_grows flag
  | addToTimeWheelExpire flag => exact addToTimeWheelExpire_grows
  | addToTimeWheelHeartbeat => exact addToTimeWheelHeartbeat_grows
  | removeFromTimeWheel => exact removeFromTimeWheel_grows
  | closeClient => exact closeClient_grows

theorem performAll_grows (calls : List Call) : Grows s (performAll env now c calls s) := by
  induction calls generalizing s with
  | nil => exact grows_ok [] (List.append_nil _).symm
  | cons call rest ih => exact (perform_grows call).bind fun s1 => ih

/-- The read is logged, then its calls. -/
theorem decodeProtoData_grows {data : Bytes} {ret : Bool}
    (done : s.decodeProtoData env now c data = .ok (ret, s')) : s.trace <+: s'.trace := by
  obtain ⟨obj, _, done⟩ := bind_eq_ok.mp done
  split at done
  · contradiction
  · rename_i ret obj' calls _
    obtain ⟨s1, performed, same⟩ := bind_eq_ok.mp done
    obtain ⟨_, rfl⟩ := Prod.mk.inj (Except.ok.inj same)
    exact ((performAll_grows calls).from [.received c data] rfl) s1 performed

/-- A message is logged before the callback that gets it. -/
theorem recvCallback_grows : Grows s (s.recvCallback env c) := by
  apply Grows.after
  intro obj
  split
  · apply Grows.bind
    · exact (userActs_grows _).from [.delivered c obj.decodeBuffer] rfl
    · intro s1
      apply Grows.after
      exact fun obj1 => grows_ok [] (List.append_nil _).symm
  · exact grows_ok [] (List.append_nil _).symm

/-- The connected callback comes before the one for what was sent. -/
theorem sentCallback_grows : Grows s (s.sentCallback env c) := by
  apply Grows.bind
  · apply Grows.after
    intro obj
    split
    · exact (userActs_grows _).from [.connectedCallback c] rfl
    · exact grows_ok [] (List.append_nil _).symm
  · exact fun s1 => (userActs_grows _).from [.sentCallback c] rfl

theorem onInput_grows (e : Event) : Grows s (s.onInput env e c) := by
  rw [onInput]
  split
  · exact grows_error _
  · apply (closeIf_grows _).bind
    intro s1
    split
    · exact grows_ok [] (List.append_nil _).symm
    · intro s' done
      obtain ⟨⟨ret, s2⟩, decoded, done⟩ := bind_eq_ok.mp done
      have first := decodeProtoData_grows decoded
      dsimp only at done
      split at done
      · exact first.trans (recvCallback_grows s' done)
      · exact Except.ok.inj done ▸ first

theorem onOutput_grows (e : Event) : Grows s (s.onOutput env e c) := by
  apply Grows.after
  intro obj
  split
  · exact grows_error _
  · rename_i drained _
    apply Grows.bind
    · exact (closeIf_grows _).from (drained.calls.map (Act.sendCall c)) rfl
    · intro s1
      apply Grows.after
      exact fun _ => sentCallback_grows.from [.epollCtl c (.mod false)] rfl

theorem accept_grows (fd : Nat) : Grows s (s.accept env fd) := by
  rw [accept]
  split
  · exact grows_error _
  · exact grows_ok _ rfl

theorem onEvent_grows (e : Event) : Grows s (s.onEvent env e) :=
  onEvent_rule (P := Grows s) e (grows_ok [] (List.append_nil _).symm)
    (fun _ _ => closeClient_grows) accept_grows (fun _ _ _ => onInput_grows e)
    fun _ _ _ => onOutput_grows e

/-- One step, of the event loop, of the thread of the wheel or of user code. -/
theorem step_grows (l : Label) : Grows s (s.step env l) := by
  cases l with
  | event e => exact onEvent_grows e
  | beginTick now =>
    rw [step, beginTick]
    split
    · exact grows_error _
    · split
      · exact grows_ok [] (List.append_nil _).symm
      · exact grows_error _
  | fire =>
    rw [step, fire]
    split
    · exact grows_error _
    · split
      · exact grows_error _
      · exact grows_ok [] (List.append_nil _).symm
      · exact (runTask_grows _).from [] (List.append_nil _).symm
  | user acts => exact userActs_grows acts

/-- What has happened stays in the history of every later state. -/
theorem run_grows (labels : List Label) : Grows s (run (Server.step env) s labels) := by
  induction labels generalizing s with
  | nil => exact grows_ok [] (List.append_nil _).symm
  | cons l rest ih => exact (step_grows l).bind fun s1 => ih

end Server
end WebsocketProto
