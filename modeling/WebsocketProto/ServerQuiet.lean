import WebsocketProto.ServerHistory
import WebsocketProto.Receiver

/-! Operations of the server that leave the handshake and the open message of every client
alone: they queue, set timers and close. -/
namespace WebsocketProto
open Outcome

/-- What no operation but a read or the sent callback changes in a client. -/
structure WebsocketClient.Same (obj obj' : WebsocketClient) : Prop where
  isConnected : obj'.isConnected = obj.isConnected
  httpHeader : obj'.httpHeader = obj.httpHeader
  decodeBuffer : obj'.decodeBuffer = obj.decodeBuffer

theorem WebsocketClient.Same.refl (obj : WebsocketClient) : obj.Same obj := ⟨rfl, rfl, rfl⟩

theorem WebsocketClient.Same.trans {a b c : WebsocketClient} (first : a.Same b)
    (second : b.Same c) : a.Same c :=
  ⟨second.isConnected.trans first.isConnected, second.httpHeader.trans first.httpHeader,
    second.decodeBuffer.trans first.decodeBuffer⟩

/-- `s'` has no new client, and every client that it still has is the same. -/
structure Quiet (s s' : Server) : Prop where
  nextClient : s'.nextClient = s.nextClient
  objects : ∀ c obj', s'.object c = some obj' → ∃ obj, s.object c = some obj ∧ obj.Same obj'
  acts : ∃ acts, s'.trace = s.trace ++ acts ∧ ∀ a ∈ acts, a.neutral = true

theorem Quiet.refl (s : Server) : Quiet s s :=
  ⟨rfl, fun _ obj' live => ⟨obj', live, .refl obj'⟩, [], (List.append_nil _).symm, nofun⟩

theorem Quiet.trans {s s1 s2 : Server} (first : Quiet s s1) (second : Quiet s1 s2) :
    Quiet s s2 := by
  obtain ⟨before, added, neutral⟩ := first.acts
  obtain ⟨after, added', neutral'⟩ := second.acts
  refine ⟨second.nextClient.trans first.nextClient, fun c obj' live => ?_,
    before ++ after, by rw [added', added, List.append_assoc], fun a member => ?_⟩
  · obtain ⟨obj1, live1, same1⟩ := second.objects c obj' live
    obtain ⟨obj, live0, same0⟩ := first.objects c obj1 live1
    exact ⟨obj, live0, same0.trans same1⟩
  · rcases List.mem_append.mp member with old | new
    · exact neutral a old
    · exact neutral' a new

/-- Whatever the computation returns, it was quiet. -/
abbrev Quietly (s : Server) (x : Except Fault Server) : Prop := Leads Quiet s x

namespace Server
variable {env : Setup} {s s' : Server} {c : ClientId} {now : Int}

theorem put_self {obj : WebsocketClient} : (s.put c obj).object c = some obj :=
  Function.update_self ..

theorem put_other {d : ClientId} {obj : WebsocketClient} (other : d ≠ c) :
    (s.put c obj).object d = s.object d :=
  Function.update_of_ne other ..

/-- Writing fields of one client that do not matter here. -/
theorem put_quiet {obj obj' : WebsocketClient} (live : s.object c = some obj)
    (same : obj.Same obj') : Quiet s (s.put c obj') := by
  refine ⟨rfl, fun d obj1 live1 => ?_, [], (List.append_nil _).symm, nofun⟩
  by_cases own : d = c
  · subst own
    obtain rfl := Option.some.inj (put_self.symm.trans live1)
    exact ⟨obj, live, same⟩
  · rw [put_other own] at live1
    exact ⟨obj1, live1, .refl obj1⟩

theorem log_quiet {a : Act} (neutral : a.neutral = true) : Quiet s (s.log a) := by
  refine ⟨rfl, fun d obj live => ⟨obj, live, .refl obj⟩, [a], rfl, fun b member => ?_⟩
  rw [List.mem_singleton.mp member]
  exact neutral

theorem wheel_quiet (wheel : TimeWheel Task) : Quiet s { s with wheel := wheel } :=
  ⟨rfl, fun _ obj live => ⟨obj, live, .refl obj⟩, [], (List.append_nil _).symm, nofun⟩

theorem eraseTask_quiet (id : Nat) : Quietly s (s.eraseTask id) := by
  rw [eraseTask]
  split
  · exact Leads.ok (wheel_quiet _)
  · exact Leads.error _

theorem unregister_quiet (clients : Nat → Option ClientId) :
    Quiet s { s with clients := clients } :=
  ⟨rfl, fun _ obj live => ⟨obj, live, .refl obj⟩, [], (List.append_nil _).symm, nofun⟩

theorem forget_quiet : Quiet s { s with object := Function.update s.object c none } := by
  refine ⟨rfl, fun d obj live => ?_, [], (List.append_nil _).symm, nofun⟩
  dsimp only at live
  by_cases own : d = c
  · subst own
    rw [Function.update_self] at live
    contradiction
  · rw [Function.update_of_ne own] at live
    exact ⟨obj, live, .refl obj⟩

instance : Frames Quiet where
  trans _ _ _ := Quiet.trans
  same := Quiet.refl
  put live alike := by
    obtain ⟨queue, heartbeat, rfl⟩ := alike
    exact put_quiet live ⟨rfl, rfl, rfl⟩
  log _ _ := log_quiet
  unregister _ := unregister_quiet
  forget _ _ := forget_quiet
  eraseTask _ := eraseTask_quiet

theorem addTask_quiet {fn : Task} {expire : Int} {circleCount : UInt32} {id : Nat}
    (done : s.addTask now fn expire circleCount = .ok (s', id)) : Quiet s s' := by
  rw [addTask] at done
  split at done
  · obtain ⟨rfl, _⟩ := Prod.mk.inj (Except.ok.inj done)
    exact wheel_quiet _
  · contradiction

theorem addToTimeWheelExpire_quiet : Quietly s (s.addToTimeWheelExpire now c) := by
  intro s' done
  obtain ⟨s1, id, obj, added, live, rfl⟩ := addToTimeWheelExpire_adds done
  exact (addTask_quiet added).trans (put_quiet live ⟨rfl, rfl, rfl⟩)

theorem addToTimeWheelHeartbeat_quiet : Quietly s (s.addToTimeWheelHeartbeat now c) := by
  intro s' done
  obtain ⟨s1, id, obj, added, live, rfl⟩ := addToTimeWheelHeartbeat_adds done
  exact (addTask_quiet added).trans (put_quiet live ⟨rfl, rfl, rfl⟩)

theorem removeFromTimeWheel_quiet : Quietly s (s.removeFromTimeWheel c) := by
  intro s' done
  obtain ⟨obj, found, done⟩ := bind_eq_ok.mp done
  obtain ⟨s1, erased, same⟩ := bind_eq_ok.mp done
  obtain rfl := Except.ok.inj same
  have live : s1.object c = some obj := by
    rw [eraseTask_object erased]
    exact get_eq_ok found
  exact (eraseTask_quiet _ s1 erased).trans (put_quiet live ⟨rfl, rfl, rfl⟩)

/-- All calls but the handshake response are quiet. -/
theorem performAll_quiet (calls : List Call)
    (frames : ∀ response, .sendWithoutFrame (.handshake response) ∉ calls) :
    Quietly s (performAll env now c calls s) := by
  induction calls generalizing s with
  | nil => exact Leads.ok (.refl s)
  | cons call rest ih =>
    apply Leads.bind
    · cases call with
      | sendWithoutFrame output =>
        cases output with
        | handshake response => exact absurd List.mem_cons_self (frames response)
        | frame op => exact Frames.sendFrame op
      | closeWebsocketClient flag => exact Frames.closeWebsocketClient flag
      | addToTimeWheelExpire flag => exact addToTimeWheelExpire_quiet
      | addToTimeWheelHeartbeat => exact addToTimeWheelHeartbeat_quiet
      | removeFromTimeWheel => exact removeFromTimeWheel_quiet
      | closeClient => exact Frames.closeClient
    · exact fun s1 => ih fun response member => frames response (List.mem_cons_of_mem _ member)

end Server
end WebsocketProto
