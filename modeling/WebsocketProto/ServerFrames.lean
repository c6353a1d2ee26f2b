import WebsocketProto.ServerRuns

/-! Relations between two states of the server that queueing frames, erasing tasks and closing
clients keep. A relation shows this of single writes, and has it of all of these operations. -/
namespace WebsocketProto
open Outcome

/-- Acts that move no client through its handshake and deliver nothing. -/
def Act.neutral : Act → Bool
  | .queued _ (.handshake _) | .connectedCallback _ | .delivered _ _ => false
  | _ => true

/-- The two differ in what is queued and in the heartbeat at most. -/
def WebsocketClient.Alike (obj obj' : WebsocketClient) : Prop :=
  ∃ queue heartbeat, obj' = { obj with
    sendBufferQueue := queue, timeWheelHeartbeatId := heartbeat }

/-- What single writes have to keep. -/
class Frames (R : Server → Server → Prop) : Prop extends IsTrans Server R where
  same (s : Server) : R s s
  put {s : Server} {c : ClientId} {obj obj' : WebsocketClient} (live : s.object c = some obj)
    (alike : obj.Alike obj') : R s (s.put c obj')
  log (s : Server) {a : Act} (neutral : a.neutral = true) : R s (s.log a)
  unregister (s : Server) (clients : Nat → Option ClientId) : R s { s with clients := clients }
  forget (s : Server) (c : ClientId) : R s { s with object := Function.update s.object c none }
  eraseTask (s : Server) (id : Nat) : Leads R s (s.eraseTask id)

namespace Server
variable {s s' : Server} {c : ClientId}

theorem get_eq_ok {obj : WebsocketClient} (found : s.get c = .ok obj) :
    s.object c = some obj := by
  rw [get] at found
  split at found
  · rename_i other live
    rw [live, Except.ok.inj found]
  · contradiction

/-- The client gets the id of the task that was added for it. -/
theorem addToTimeWheelExpire_adds {now : Int} (done : s.addToTimeWheelExpire now c = .ok s') :
    ∃ s1 id obj, s.addTask now (.expire c) defaultExpireTime 1 = .ok (s1, id) ∧
      s1.object c = some obj ∧ s' = s1.put c { obj with timeWheelId := id } := by
  obtain ⟨⟨s1, id⟩, added, done⟩ := bind_eq_ok.mp done
  obtain ⟨obj, found, same⟩ := bind_eq_ok.mp done
  exact ⟨s1, id, obj, added, get_eq_ok found, (Except.ok.inj same).symm⟩

theorem addToTimeWheelHeartbeat_adds {now : Int}
    (done : s.addToTimeWheelHeartbeat now c = .ok s') :
    ∃ s1 id obj, s.addTask now (.heartbeat c) defaultHeartbeatTime FULL_CIRCLE = .ok (s1, id) ∧
      s1.object c = some obj ∧ s' = s1.put c { obj with timeWheelHeartbeatId := id } := by
  obtain ⟨⟨s1, id⟩, added, done⟩ := bind_eq_ok.mp done
  obtain ⟨obj, found, same⟩ := bind_eq_ok.mp done
  exact ⟨s1, id, obj, added, get_eq_ok found, (Except.ok.inj same).symm⟩

theorem eraseTask_object {id : Nat} (done : s.eraseTask id = .ok s') :
    s'.object = s.object := by
  rw [eraseTask] at done
  split at done
  · obtain rfl := Except.ok.inj done
    rfl
  · contradiction

end Server

namespace Frames
variable {R : Server → Server → Prop} [Frames R] {env : Setup} {s : Server} {c : ClientId}

theorem next {s1 s2 : Server} (first : R s s1) (second : R s1 s2) : R s s2 :=
  IsTrans.trans s s1 s2 first second

theorem sendBuffer (output : Output) (queued : ∀ s : Server, R s (s.log (.queued c output))) :
    Leads R s (s.sendBuffer c output) := by
  intro s' done
  obtain ⟨obj, found, done⟩ := bind_eq_ok.mp done
  obtain rfl := Except.ok.inj done
  have written : R s (s.put c { obj with
      sendBufferQueue := obj.sendBufferQueue ++ [output.bytes] }) :=
    put (Server.get_eq_ok found) ⟨_, _, rfl⟩
  exact next (next written (queued _)) (log _ rfl)

theorem sendFrame (op : ServerOp) : Leads R s (s.sendBuffer c (.frame op)) :=
  sendBuffer _ fun s => log s rfl

theorem closeWebsocketClient (flag : CloseFlag) :
    Leads R s (s.closeWebsocketClient env c flag) := by
  refine Leads.bind (R := R) (sendFrame _) fun s1 s' done => ?_
  obtain ⟨obj, found, done⟩ := bind_eq_ok.mp done
  split at done
  · obtain ⟨s2, erased, same⟩ := bind_eq_ok.mp done
    obtain rfl := Except.ok.inj same
    have live : s2.object c = some obj := by
      rw [Server.eraseTask_object erased]
      exact Server.get_eq_ok found
    exact next (eraseTask s1 _ s2 erased) (put live ⟨_, _, rfl⟩)
  · exact Except.ok.inj done ▸ same s1

theorem eraseIfSet (id : Nat) : Leads R s (s.eraseIfSet id) := by
  rw [Server.eraseIfSet]
  split
  · exact eraseTask s id
  · exact Leads.ok (same s)

theorem userActs (acts : List (ClientId × UserAct)) : Leads R s (Server.userActs env acts s) := by
  refine Server.userActs_leads (same s) (fun s1 c act => ?_) acts
  cases act with
  | send payload => exact sendFrame _
  | close => exact closeWebsocketClient _

theorem delete (obj : WebsocketClient) : Leads R s (s.delete c obj) := by
  refine Leads.bind (R := R) (eraseIfSet _) fun s1 => ?_
  refine Leads.bind (R := R) (eraseIfSet _) fun s2 => ?_
  exact Leads.ok (log s2 rfl)

theorem closeClient : Leads R s (s.closeClient env c) := by
  apply Leads.after
  intro obj
  refine Leads.bind (R := R) ?_ fun s1 => delete obj
  refine Leads.from (R := R) (userActs _) ?_
  exact next (next (next (next (log s rfl) (log _ rfl)) (unregister _ _)) (forget _ _)) (log _ rfl)

theorem closeIf (closed : Bool) : Leads R s (s.closeIf env c closed) := by
  rw [Server.closeIf]
  split
  · exact closeClient
  · exact Leads.ok (same s)

theorem runTask (task : Task) : Leads R s (s.runTask env task) := by
  cases task with
  | expire c => exact Leads.bind (R := R) (closeWebsocketClient _) fun s1 => closeClient
  | heartbeat c => exact sendFrame _

end Frames
end WebsocketProto
