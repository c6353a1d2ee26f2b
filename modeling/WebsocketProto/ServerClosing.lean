import WebsocketProto.ServerHistory
import WebsocketProto.ServerLife

/-! What a queued Close is worth. On the two paths of the close handshake the connection is
closed in the step that queues the Close: nothing happens to the client afterwards, and
the Close never reaches `send`. -/
namespace WebsocketProto
open Outcome

/-- The step closes the client because of the close handshake. -/
def Server.Finishes (env : Setup) (s : Server) (c : ClientId) : Label → Prop
  | .event e => e.reads env = true ∧ s.clients e.fd = some c ∧ ∃ obj m,
    s.object c = some obj ∧ obj.isConnected ≠ .none ∧ obj.waitClose = false ∧
      Server.recvAll e.recvs [] = some (m, false) ∧ readsClose m = true
  | .fire => ∃ wheel isDone id, s.wheel.fire = .ok (wheel, some (.expire c, isDone, id))
  | _ => False

/-- The acts of `close_client`, with those that the disconnect callback asks for. -/
def closingWith (c : ClientId) (fd : Nat) (told : List Act) : List Act :=
  [.closeFd c fd, .epollCtl c .del, .disconnected c] ++ told ++ [.deleted c]

theorem actsOf_closingWith {c : ClientId} {told : List Act} (others : actsOf c told = []) (fd : Nat) :
    actsOf c (closingWith c fd told) = closingActs c fd := by
  have begun : actsOf c [.closeFd c fd, .epollCtl c .del, .disconnected c] =
      [.closeFd c fd, .epollCtl c .del, .disconnected c] := actsOf_own (by simp [Act.client])
  have done : actsOf c [.deleted c] = [.deleted c] := actsOf_own (by simp [Act.client])
  rw [closingWith, actsOf_append, actsOf_append, others, begun, done]
  rfl

/-- The acts of `close_websocket_client`. -/
def farewell (c : ClientId) (stack : Bytes) (flag : CloseFlag) : List Act :=
  [.queued c (.frame (.closeWebsocketClient stack flag)), .epollCtl c (.mod true)]

namespace Server
variable {env : Setup} {s s' : Server} {c : ClientId} {now : Int} {obj : WebsocketClient}

theorem eraseTask_frame {id : Nat} (done : s.eraseTask id = .ok s') :
    s'.trace = s.trace ∧ s'.object = s.object := by
  rw [eraseTask] at done
  split at done
  · obtain rfl := Except.ok.inj done
    exact ⟨rfl, rfl⟩
  · contradiction

theorem eraseIfSet_frame {id : Nat} (done : s.eraseIfSet id = .ok s') :
    s'.trace = s.trace ∧ s'.object = s.object := by
  rw [eraseIfSet] at done
  split at done
  · exact eraseTask_frame done
  · obtain rfl := Except.ok.inj done
    exact ⟨rfl, rfl⟩

theorem removeFromTimeWheel_trace (done : s.removeFromTimeWheel c = .ok s') :
    s'.trace = s.trace := by
  obtain ⟨obj, _, done⟩ := bind_eq_ok.mp done
  obtain ⟨s1, erased, same⟩ := bind_eq_ok.mp done
  obtain rfl := Except.ok.inj same
  exact (eraseTask_frame erased).1

theorem closeWebsocketClient_trace {flag : CloseFlag}
    (done : s.closeWebsocketClient env c flag = .ok s') :
    s'.trace = s.trace ++ farewell c (env.stack s.trace.length) flag := by
  obtain ⟨s1, sent, done⟩ := bind_eq_ok.mp done
  have queued : s1.trace = s.trace ++ farewell c (env.stack s.trace.length) flag := by
    obtain ⟨obj, _, same⟩ := bind_eq_ok.mp sent
    obtain rfl := Except.ok.inj same
    simp [log, put, farewell]
  obtain ⟨obj1, _, done⟩ := bind_eq_ok.mp done
  split at done
  · obtain ⟨s2, erased, same⟩ := bind_eq_ok.mp done
    obtain rfl := Except.ok.inj same
    exact (eraseTask_frame erased).1.trans queued
  · obtain rfl := Except.ok.inj done
    exact queued

theorem closeClient_trace (done : s.closeClient env c = .ok s') :
    s'.object c = none ∧ ∃ fd told, actsOf c told = [] ∧
      s'.trace = s.trace ++ closingWith c fd told := by
  obtain ⟨obj, found, _⟩ := bind_eq_ok.mp done
  rw [closeClient_eq (get_eq_ok found)] at done
  obtain ⟨s1, told, done⟩ := bind_eq_ok.mp done
  obtain ⟨s2, first, done⟩ := bind_eq_ok.mp done
  obtain ⟨s3, second, same⟩ := bind_eq_ok.mp done
  obtain rfl := Except.ok.inj same
  obtain ⟨trace2, object2⟩ := eraseIfSet_frame first
  obtain ⟨trace3, object3⟩ := eraseIfSet_frame second
  have missing : (s.closing c obj.sockfd).object c = none := Function.update_self ..
  have apart : Apart c (s.closing c obj.sockfd) s1 := userActs_apart missing _ s1 told
  obtain ⟨acts, grown⟩ := userActs_grows _ s1 told
  refine ⟨?_, obj.sockfd, acts, ?_, ?_⟩
  · rw [log, object3, object2, apart.object, missing]
  · have own := apart.acts
    rw [← grown, actsOf_append] at own
    simpa using own
  · simp only [log, trace3, trace2, ← grown, closing, closingWith, List.append_assoc]

/-- Both paths end with these two calls. -/
theorem farewell_trace {flag : CloseFlag} (done : (s.closeWebsocketClient env c flag >>=
    fun s1 => s1.closeClient env c) = .ok s') : s'.object c = none ∧ ∃ stack fd told,
      actsOf c told = [] ∧ s'.trace = s.trace ++ farewell c stack flag ++ closingWith c fd told := by
  obtain ⟨s1, queued, done⟩ := bind_eq_ok.mp done
  obtain ⟨gone, fd, told, others, closed⟩ := closeClient_trace done
  rw [closeWebsocketClient_trace queued] at closed
  exact ⟨gone, _, fd, told, others, closed⟩

theorem passive_trace (open_ : obj.waitClose = false)
    (done : performAll env now c (Protocol.decodeClose obj) s = .ok s') : s'.object c = none ∧
      ∃ stack fd told, actsOf c told = [] ∧
        s'.trace = s.trace ++ farewell c stack .normalClose ++ closingWith c fd told := by
  have closing {s : Server} (done : performAll env now c
      [.closeWebsocketClient .normalClose, .closeClient] s = .ok s') : s'.object c = none ∧
      ∃ stack fd told, actsOf c told = [] ∧
        s'.trace = s.trace ++ farewell c stack .normalClose ++ closingWith c fd told := by
    apply farewell_trace
    obtain ⟨s1, queued, done⟩ := bind_eq_ok.mp done
    rw [performAll_one] at done
    exact bind_eq_ok.mpr ⟨s1, queued, done⟩
  rw [Protocol.decodeClose, if_pos open_] at done
  split at done
  · obtain ⟨s1, removed, done⟩ := bind_eq_ok.mp done
    rw [← removeFromTimeWheel_trace removed]
    exact closing done
  · exact closing done

/-- A CLOSE for a client that does not wait for one. -/
theorem decodeProtoData_close (proto : Protocol) {m : Bytes} (shaken : obj.isConnected ≠ .none)
    (closing : readsClose m = true) : ∃ obj', obj'.waitClose = obj.waitClose ∧
      proto.decodeProtoData obj m = .ok (false, obj', Protocol.decodeClose obj') := by
  match m, closing with
  | b0 :: b1 :: rest, closing =>
    have kind : (WebsocketHeader.ofBytes b0 b1).opcode.opcode = .close := of_decide_eq_true closing
    refine ⟨obj.loaded b0 b1 rest, rfl, ?_⟩
    rw [Protocol.decodeProtoData, if_neg shaken, Protocol.decodeFrame, WebsocketClient.loaded, kind]
    rfl

theorem finishes_trace {l : Label} (finishes : s.Finishes env c l)
    (done : s.step env l = .ok s') : s'.object c = none ∧ ∃ read stack flag fd told,
      actsOf c told = [] ∧
      s'.trace = s.trace ++ read ++ farewell c stack flag ++ closingWith c fd told := by
  cases l with
  | event e =>
    obtain ⟨reads, known, obj, m, live, shaken, open_, received, closing⟩ := finishes
    simp only [Event.reads, Bool.and_eq_true, Bool.not_eq_eq_eq_not, Bool.not_true, bne_iff_ne,
      ne_eq] at reads
    obtain ⟨⟨hup, input⟩, foreign⟩ := reads
    obtain ⟨obj', waits, decoded⟩ :=
      decodeProtoData_close env.proto shaken closing
    have some_ : m ≠ [] := by
      rintro rfl
      contradiction
    simp only [step, onEvent, hup, input, foreign, known, onInput, received, closeIf, some_,
      Bool.false_eq_true, ↓reduceIte, ok_bind, decodeProtoData, get_live live, decoded] at done
    obtain ⟨⟨ret, s1⟩, answered, done⟩ := bind_eq_ok.mp done
    obtain ⟨s2, performed, same⟩ := bind_eq_ok.mp answered
    obtain ⟨rfl, rfl⟩ := Prod.mk.inj (Except.ok.inj same)
    obtain rfl := Except.ok.inj done
    obtain ⟨gone, stack, fd, told, others, added⟩ := passive_trace (waits.trans open_) performed
    exact ⟨gone, [.received c m], stack, .normalClose, fd, told, others, added⟩
  | fire =>
    obtain ⟨wheel, isDone, id, due⟩ := finishes
    rw [step, fire] at done
    split at done
    · contradiction
    · rw [due] at done
      obtain ⟨gone, stack, fd, told, others, added⟩ := farewell_trace done
      exact ⟨gone, [], stack, _, fd, told, others, by rw [added, List.append_nil]⟩
  | beginTick now => exact finishes.elim
  | user acts => exact finishes.elim

end Server

/-- Every string queued before the descriptor is closed was passed to `send` in between. -/
def Flushed (c : ClientId) (acts : List Act) : Prop :=
  ∀ before output between fd after,
    acts = before ++ .queued c output :: between ++ .closeFd c fd :: after →
    ∃ call, .sendCall c call ∈ between ∧ call.offered = output.bytes

theorem farewell_unflushed (c : ClientId) (before : List Act) (stack : Bytes) (flag : CloseFlag)
    (fd : Nat) (told : List Act) :
    ¬ Flushed c (before ++ farewell c stack flag ++ closingWith c fd told) := by
  intro flushed
  obtain ⟨call, member, _⟩ := flushed before (.frame (.closeWebsocketClient stack flag))
    [.epollCtl c (.mod true)] fd ([.epollCtl c .del, .disconnected c] ++ told ++ [.deleted c])
    (by simp [farewell, closingWith])
  simp at member

/-- The Close of the close handshake is never sent, whatever was queued before it. -/
theorem finished_unflushed (env : Setup) (s s' : Server) (c : ClientId) (l : Label)
    (finishes : s.Finishes env c l) (done : s.step env l = .ok s') : ¬ Flushed c s'.trace := by
  obtain ⟨_, read, stack, flag, fd, told, _, added⟩ := Server.finishes_trace finishes done
  rw [added]
  exact farewell_unflushed c (s.trace ++ read) stack flag fd told

/-- The tick in which the expiry task of a client is due; the clock was set back by ten
seconds before, so that it is the first tick of the wheel. -/
theorem expired_unflushed : ∃ s s', run (Server.step quietSetup) (.start 10000) (handshaken ++
    [shortRead, closeRead 0, .beginTick 10000]) = .ok s ∧
      s.step quietSetup .fire = .ok s' ∧ ¬ Flushed 0 s'.trace := by
  obtain ⟨s, reached, facts⟩ := reaches (x := run (Server.step quietSetup) (.start 10000)
      (handshaken ++ [shortRead, closeRead 0, .beginTick 10000]))
    (f := fun s => (s.wheel.fire.toOption.map fun result => result.2.map Prod.fst,
      (s.step quietSetup .fire).isOk))
    (b := (some (some (.expire 0)), true)) (by decide +kernel)
  obtain ⟨due, ends⟩ := Prod.mk.inj facts
  obtain ⟨⟨wheel, call⟩, fired, due⟩ := reaches due
  obtain ⟨⟨fn, isDone, id⟩, rfl, rfl⟩ := Option.map_eq_some_iff.mp due
  obtain ⟨s', done⟩ := exists_ok ends
  exact ⟨s, s', reached, done,
    finished_unflushed quietSetup s s' 0 .fire ⟨wheel, isDone, id, fired⟩ done⟩

/-- A client that sends CLOSE as its first frame. -/
theorem close_reply_lost : ∃ s, run (Server.step quietSetup) (.start 0)
    (handshaken ++ [closeRead 0]) = .ok s ∧ ¬ Flushed 0 s.trace := by
  obtain ⟨s, reached, last⟩ := reaches (x := run (Server.step quietSetup) (.start 0)
      (handshaken ++ [closeRead 0])) (f := fun s => s.trace.drop 10)
    (b := farewell 0 [0] .normalClose ++ closingWith 0 5 []) (by decide +kernel)
  refine ⟨s, reached, ?_⟩
  have split := List.take_append_drop 10 s.trace
  rw [last, ← List.append_assoc] at split
  rw [← split]
  exact farewell_unflushed 0 _ [0] .normalClose 5 []

/-- Nothing is queued to the client behind a Close, and nothing is delivered. -/
def CloseFinal (c : ClientId) (acts : List Act) : Prop :=
  ∀ front stack flag back,
    acts = front ++ .queued c (.frame (.closeWebsocketClient stack flag)) :: back →
    ∀ a ∈ back, (∀ output, a ≠ .queued c output) ∧ ∀ message, a ≠ .delivered c message

theorem closed_unchanged {c : ClientId} {life acts : List Act} {fd : Nat}
    (running : ∀ a ∈ life, a.ends = false) (grown : life ++ closingActs c fd <+: acts)
    (once : ClosedOnce c acts) : acts = life ++ closingActs c fd := by
  obtain ⟨more, rfl⟩ := grown
  obtain ⟨life', running', same | ⟨fd', same⟩⟩ := once
  · have closed : Act.closeFd c fd ∈ life' := by
      rw [← same]
      simp [closingActs]
    cases running' _ closed
  · have shape (front back : List Act) (clean : ∀ a ∈ front, a.ends = false) (fd : Nat) :
        (front ++ (closingActs c fd ++ back)).takeWhile (fun a => !a.ends) = front := by
      rw [List.takeWhile_append_of_pos (by simpa using clean)]
      simp [closingActs, Act.ends]
    have first := shape life more running fd
    have second := shape life' [] running' fd'
    rw [List.append_nil, ← same, List.append_assoc, first] at second
    subst second
    rw [List.append_assoc] at same
    have lengths := congrArg List.length (List.append_cancel_left same)
    have nothing : more = [] := by
      simpa [closingActs] using lengths
    rw [nothing, List.append_nil]

theorem close_handshake_final (env : Setup) (current : Int) (labels : List Label) (final : Server)
    (room : Along (Server.step env) (fun s _ => s.Room) (.start current) labels)
    (reached : run (Server.step env) (.start current) labels = .ok final) :
    (∀ c, Hushed (actsOf c final.trace)) ∧
    ∀ front l back s s1 c, labels = front ++ l :: back →
      run (Server.step env) (.start current) front = .ok s → s.Finishes env c l →
      s.step env l = .ok s1 → s1.object c = none ∧
        (∃ life stack flag fd, actsOf c s1.trace =
          life ++ farewell c stack flag ++ closingActs c fd) ∧
        actsOf c final.trace = actsOf c s1.trace := by
  have kept (s : Server) (l : Label) (s' : Server) (good : Good env False none s) (room : s.Room)
      (done : s.step env l = .ok s') : Good env False none s' :=
    (Server.step_good good l room nofun).of_ok done
  have good := along_invariant kept (start_good current) room reached
  refine ⟨fun c => ?_, ?_⟩
  · cases found : final.object c with
    | some obj => exact (good.alive found).hushed
    | none => exact (good.dead found).hushed
  · rintro front l back s s1 c rfl before finishes taken
    obtain ⟨gone, read, stack, flag, fd, told, others, added⟩ :=
      Server.finishes_trace finishes taken
    obtain ⟨along, later⟩ := along_append room
    have good0 := along_invariant kept (start_good current) along before
    have good1 := kept s l s1 good0 (later s before).1 taken
    have rest : run (Server.step env) s1 back = .ok final := by
      rw [run_append, before, ok_bind, run, taken, ok_bind] at reached
      exact reached
    have own : actsOf c (farewell c stack flag ++ closingWith c fd told) =
        farewell c stack flag ++ closingActs c fd := by
      rw [actsOf_append, actsOf_closingWith others,
        actsOf_own (by simp [farewell, Act.client] : ∀ a ∈ farewell c stack flag, a.client = c)]
    have shape : actsOf c s1.trace =
        (actsOf c (s.trace ++ read) ++ farewell c stack flag) ++ closingActs c fd := by
      rw [added, List.append_assoc (s.trace ++ read), actsOf_append, own, List.append_assoc]
    refine ⟨gone, ⟨_, stack, flag, fd, shape⟩, ?_⟩
    obtain ⟨more, grown⟩ := Server.run_grows back final rest
    have longer : actsOf c s1.trace <+: actsOf c final.trace := by
      rw [← grown, actsOf_append]
      exact List.prefix_append _ _
    have running : ∀ a ∈ actsOf c (s.trace ++ read) ++ farewell c stack flag, a.ends = false := by
      rcases (good1.dead gone).finished with nothing | ⟨life, fd', same, running⟩
      · rw [shape] at nothing
        simp [closingActs] at nothing
      · rw [shape] at same
        exact (List.append_inj' same rfl).1 ▸ running
    rw [shape] at longer ⊢
    exact closed_unchanged running longer (.of_good good c)

/-- A CLOSE behind the handshake, and a tick of the wheel after it. -/
theorem closed_then_ticked : ∃ s1 final,
    run (Server.step quietSetup) (.start 0) (handshaken ++ [closeRead 0]) = .ok s1 ∧
      s1.step quietSetup (.beginTick 0) = .ok final ∧ s1.object 0 = none ∧
      actsOf 0 final.trace = actsOf 0 s1.trace := by
  obtain ⟨s, before, facts⟩ := reaches (x := run (Server.step quietSetup) (.start 0) handshaken)
    (f := fun s => (s.clients 5, (s.object 0).map fun obj => (obj.isConnected, obj.waitClose),
      (run (Server.step quietSetup) s [closeRead 0, .beginTick 0]).isOk))
    (b := (some 0, some (.connected, false), true)) (by decide +kernel)
  obtain ⟨known, facts⟩ := Prod.mk.inj facts
  obtain ⟨state, ends⟩ := Prod.mk.inj facts
  obtain ⟨obj, live, fields⟩ := Option.map_eq_some_iff.mp state
  obtain ⟨connected, open_⟩ := Prod.mk.inj fields
  obtain ⟨final, rest⟩ := exists_ok ends
  obtain ⟨s1, taken, later⟩ := bind_eq_ok.mp rest
  have reached : run (Server.step quietSetup) (.start 0)
      (handshaken ++ [closeRead 0, .beginTick 0]) = .ok final := by
    rw [run_append, before]
    exact rest
  have finishes : s.Finishes quietSetup 0 (closeRead 0) :=
    ⟨rfl, known, obj, _, live, by rw [connected]; nofun, open_, rfl, rfl⟩
  have ended := (close_handshake_final quietSetup 0 _ final (by decide +kernel) reached).2
    handshaken (closeRead 0) [.beginTick 0] s s1 0 rfl before finishes taken
  obtain ⟨_, tick, same⟩ := bind_eq_ok.mp later
  obtain rfl := Except.ok.inj same
  exact ⟨s1, _, run_snoc.mpr ⟨s, before, taken⟩, tick, ended.1, ended.2.2⟩

/-- A client that is told to go away by a short read still has its text delivered. -/
theorem delivered_behind_close : ∃ s, run (Server.step quietSetup) (.start 0)
    (handshaken ++ [shortRead, readable 5 [.returns [0x81, 0x81, 0x00, 0x00, 0x00, 0x00, 0x68],
      .wouldBlock] 0]) = .ok s ∧ ¬ CloseFinal 0 s.trace := by
  obtain ⟨s, reached, last⟩ := reaches (x := run (Server.step quietSetup) (.start 0)
      (handshaken ++ [shortRead, readable 5 [.returns
        [0x81, 0x81, 0x00, 0x00, 0x00, 0x00, 0x68], .wouldBlock] 0]))
    (f := fun s => s.trace.drop 10)
    (b := farewell 0 [0] .protocolError ++ [.received 0 [0x81, 0x81, 0x00, 0x00, 0x00, 0x00, 0x68],
      .delivered 0 [0x68]]) (by decide +kernel)
  refine ⟨s, reached, fun final => ?_⟩
  have split := List.take_append_drop 10 s.trace
  rw [last] at split
  have quiet := final _ _ _ _ split.symm (.delivered 0 [0x68]) (by simp)
  exact quiet.2 [0x68] rfl

end WebsocketProto
