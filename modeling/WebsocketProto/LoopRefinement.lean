import WebsocketProto.TcpBatches
import WebsocketProto.TcpWakeups
import WebsocketProto.WebsocketLoop

/-! The loop of the websocket server is that of `Tcp_server`, round by round. What holds of
every run of `Tcp_server` therefore holds here, and two of its conditions always do: a round
closes no client but its own, and nothing is sent to a client that is being accepted. -/
namespace WebsocketProto
open Outcome Wheelless
open Epoll (Kernel Ready)

section Rounds
variable {env : Setup} {s s' : Server} {t : TcpServer} {c : ClientId} {e : Ready} {r : Results}
  {kernel : Kernel}

theorem sockfd_agrees (before after : Server) (c : ClientId) (obj : WebsocketClient)
    (live : before.object c = some obj) : WebsocketLoop.sockfd before after c = obj.sockfd := by
  simp [WebsocketLoop.sockfd, live]

/-- `EPOLL_CTL_ADD` and the history of it. -/
theorem TcpServer.epollAdd_fields (t : TcpServer) (fd : Nat) (c : ClientId) :
    (t.epollAdd fd c).clients = t.clients ∧ (t.epollAdd fd c).nextClient = t.nextClient ∧
    (t.epollAdd fd c).object = t.object ∧ (t.epollAdd fd c).kernel = t.kernel.add fd false ∧
    (t.epollAdd fd c).batch = t.batch ∧ (t.epollAdd fd c).returned = t.returned := by
  rw [TcpServer.epollAdd]
  split
  · exact ⟨rfl, rfl, rfl, rfl, rfl, rfl⟩
  · rename_i there
    exact ⟨rfl, rfl, rfl, (if_neg there).symm, rfl, rfl⟩

/-- What one round does below: with these calls it is a round of `Tcp_server`. -/
def RoundBelow (env : Setup) (t : TcpServer) (e : Ready) (r : Results) (s' : Server)
    (acts : List Act) (kernel : Kernel) : Prop :=
  ∃ t', TcpServer.onEvent env.listenFd t e
      ⟨r.accepts, r.recvs, r.sends, acts.filterMap Act.tcpCall⟩ = .ok t' ∧
    Mirrors s' t' ∧ t'.kernel = kernel ∧ t'.batch = t.batch ∧ t'.returned = t.returned

/-- Calls that are made below for a client that is there. -/
theorem called_below {s1 : Server} {t1 : TcpServer} (below : CallsBelow (WebsocketLoop.sockfd s s') s1 s')
    (agrees : ∀ c obj, s1.object c = some obj → WebsocketLoop.sockfd s s' c = obj.sockfd)
    (mirrors : Mirrors s1 t1) {acts : List Act} (added : s'.trace = s1.trace ++ acts)
    (seen : acts.foldlM (Kernel.sees (WebsocketLoop.sockfd s s')) t1.kernel = some kernel) :
    ∃ t', TcpServer.callAll (acts.filterMap Act.tcpCall) t1 = .ok t' ∧ Mirrors s' t' ∧
      t'.kernel = kernel ∧ t'.batch = t1.batch ∧ t'.returned = t1.returned := by
  obtain ⟨_, acts', added', calls⟩ := below agrees
  obtain rfl := List.append_cancel_left (added.symm.trans added')
  obtain ⟨t', called, mirrors', seen', batch, returned⟩ := calls t1 mirrors
  exact ⟨t', called, mirrors', Option.some.inj (seen'.symm.trans seen), batch, returned⟩

/-- A client that is gone is not closed again. -/
theorem TcpServer.disconnect_calls {h : Handling} {obj : TcpClient}
    {rest : List (ClientId × TcpCall)} (live : t.object c = some obj)
    (calls : h.calls = (c, .close) :: rest) : t.disconnect h c = callAll h.calls t := by
  have closes : t.closeClient c = .ok (t.dropped c obj.sockfd) := by
    rw [closeClient, get_some live]
    rfl
  have gone : ¬ ((t.dropped c obj.sockfd).object c).isSome = true := by simp [dropped_self]
  have there : (t.object c).isSome = true := by simp [live]
  rw [disconnect, calls, closes, ok_bind, callAll, if_neg gone, callAll, if_pos there, call, closes,
    ok_bind]

theorem closing_calls (done : s.closeClient env c = .ok s') {acts : List Act}
    (added : s'.trace = s.trace ++ acts) :
    ∃ rest, acts.filterMap Act.tcpCall = (c, .close) :: rest := by
  obtain ⟨obj, s1, wheel, live, told, rfl⟩ := Server.closeClient_cases done
  obtain ⟨more, grown⟩ := Server.userActs_grows _ s1 told
  have whole : s.trace ++ acts = s.trace ++
      (Act.closeFd c obj.sockfd :: ([.epollCtl c .del, .disconnected c] ++ more ++ [.deleted c])) := by
    rw [← added]
    simp [Server.deleted, ← grown, Server.closing]
  rw [List.append_cancel_left whole]
  exact ⟨_, List.filterMap_cons_some rfl⟩

/-- `close_client` of the loop, with the calls of the disconnect callback. -/
theorem closes_below (mirrors : Mirrors s t) (done : s.closeClient env c = .ok s')
    {acts : List Act} (added : s'.trace = s.trace ++ acts)
    (seen : acts.foldlM (Kernel.sees (WebsocketLoop.sockfd s s')) t.kernel = some kernel) :
    ∃ t', t.disconnect ⟨r.accepts, r.recvs, r.sends, acts.filterMap Act.tcpCall⟩ c = .ok t' ∧
      Mirrors s' t' ∧ t'.kernel = kernel ∧ t'.batch = t.batch ∧ t'.returned = t.returned := by
  obtain ⟨rest, calls⟩ := closing_calls done added
  obtain ⟨obj, _, _, live, _, _⟩ := Server.closeClient_cases done
  obtain ⟨other, there, _⟩ := mirrors.live live
  have below : CallsBelow (WebsocketLoop.sockfd s s') s s' :=
    Ends.closeClient (c := c) UserSends.disconnectKeeps s' done
  rw [TcpServer.disconnect_calls there calls]
  exact called_below below (sockfd_agrees s s') mirrors added seen

theorem hangUp_below (mirrors : Mirrors s t) (hup : e.hup = true) (known : s.clients e.fd = some c)
    (done : s.closeClient env c = .ok s') {acts : List Act} (added : s'.trace = s.trace ++ acts)
    (seen : acts.foldlM (Kernel.sees (WebsocketLoop.sockfd s s')) t.kernel = some kernel) :
    RoundBelow env t e r s' acts kernel := by
  obtain ⟨t', called, rest⟩ := closes_below (r := r) mirrors done added seen
  refine ⟨t', ?_, rest⟩
  simp only [TcpServer.onEvent, hup, ↓reduceIte, mirrors.clients, known]
  exact called

/-- The branch of the listening socket. No callback of the websocket server is called. -/
theorem accepts_below {fd : Nat} (rooted : s.Rooted) (mirrors : Mirrors s t)
    (hup : e.hup = false) (input : e.input = true) (listening : e.fd = env.listenFd)
    (offered : r.accepts = some fd) (free : s.clients fd = none)
    (seen : [Act.accepted s.nextClient fd, .epollCtl s.nextClient .add].foldlM
      (Kernel.sees (WebsocketLoop.sockfd s (s.admitted fd))) t.kernel = some kernel) :
    RoundBelow env t e r (s.admitted fd) [.accepted s.nextClient fd, .epollCtl s.nextClient .add]
      kernel := by
  have unborn := (rooted.unborn s.nextClient (Nat.le_refl _)).1
  have named : WebsocketLoop.sockfd s (s.admitted fd) s.nextClient = fd := by
    simp [WebsocketLoop.sockfd, unborn, Server.admitted, WebsocketClient.new]
  simp only [List.foldlM_cons, List.foldlM_nil, Kernel.sees, named] at seen
  obtain ⟨k1, taken, added⟩ := Option.bind_eq_some_iff.mp seen
  obtain ⟨⟨connection, k2⟩, accepted, rfl⟩ := Option.map_eq_some_iff.mp taken
  cases added
  have unknown : t.clients fd = none := mirrors.clients ▸ free
  have entered : (t.allocateClient k2 connection fd).emplace fd t.nextClient =
      t.admitted k2 connection fd := by
    simp [TcpServer.emplace, TcpServer.allocateClient, TcpServer.admitted, unknown]
  have mirrors' : Mirrors (s.admitted fd) (t.admitted k2 connection fd) := by
    refine ⟨?_, ?_, fun d => ?_⟩
    · simp [TcpServer.admitted, Server.admitted, mirrors.clients, mirrors.nextClient]
    · simp [TcpServer.admitted, Server.admitted, mirrors.nextClient]
    · simp only [TcpServer.admitted, Server.admitted, mirrors.nextClient]
      exact mirrors.update s.nextClient (by rfl) d
  obtain ⟨clients, nextClient, object, kernel', batch, returned⟩ := TcpServer.epollAdd_fields
    (t.admitted k2 connection fd) fd t.nextClient
  refine ⟨(t.admitted k2 connection fd).epollAdd fd t.nextClient, ?_, ?_, kernel', batch, returned⟩
  · simp only [TcpServer.onEvent, hup, input, listening, Bool.false_eq_true, ↓reduceIte,
      TcpServer.onAccept, offered, accepted, entered]
    rfl
  · exact ⟨clients.trans mirrors'.clients, nextClient.trans mirrors'.nextClient,
      fun d => object ▸ mirrors'.objects d⟩

theorem reads_below (mirrors : Mirrors s t) (hup : e.hup = false) (input : e.input = true)
    (foreign : e.fd ≠ env.listenFd) (known : s.clients e.fd = some c)
    (done : s.onInput env (e.event r) c = .ok s') {acts : List Act} (added : s'.trace = s.trace ++ acts)
    (seen : acts.foldlM (Kernel.sees (WebsocketLoop.sockfd s s')) t.kernel = some kernel) :
    RoundBelow env t e r s' acts kernel := by
  suffices inputs : ∃ t', t.onInput ⟨r.accepts, r.recvs, r.sends, acts.filterMap Act.tcpCall⟩ c =
      .ok t' ∧ Mirrors s' t' ∧ t'.kernel = kernel ∧ t'.batch = t.batch ∧ t'.returned = t.returned by
    obtain ⟨t', called, rest⟩ := inputs
    refine ⟨t', ?_, rest⟩
    simp only [TcpServer.onEvent, hup, input, foreign, Bool.false_eq_true, ↓reduceIte,
      mirrors.clients, known]
    exact called
  obtain ⟨m, closed, received, cases⟩ := Server.onInput_cases done
  have recvs : Server.recvAll r.recvs [] = some (m, closed) := received
  simp only [TcpServer.onInput, recvs]
  rcases cases with ⟨empty, rfl, gone⟩ | ⟨empty, rfl, rfl⟩ | ⟨full, rfl, ret, s1, decoded, after⟩
  · obtain ⟨t', called, rest⟩ := closes_below (r := r) mirrors gone added seen
    refine ⟨t', ?_, rest⟩
    simp [TcpServer.closeIf, called, empty]
  · obtain rfl : acts = [] := by simpa using added
    refine ⟨t, ?_, mirrors, Option.some.inj seen, rfl, rfl⟩
    simp [TcpServer.closeIf, empty]
  · have below : CallsBelow (WebsocketLoop.sockfd s s') s s' := by
      have read : CallsBelow (WebsocketLoop.sockfd s s') s s1 := Moves.decodeProtoData UserSends.disconnectKeeps decoded
      rcases after with ⟨_, called⟩ | ⟨_, rfl⟩
      · exact read.trans (Callbacks.recvCallback s' called)
      · exact read
    obtain ⟨obj, found, _⟩ := bind_eq_ok.mp decoded
    obtain ⟨other, there, fd, queue⟩ := mirrors.live (Server.get_eq_ok found)
    have written : Mirrors s (t.put c { other with recvBuffer := m }) := by
      refine ⟨mirrors.clients, mirrors.nextClient, fun d => ?_⟩
      by_cases own : d = c
      · subst own
        simp [TcpServer.put, ← mirrors.objects d, there, TcpClient.link]
      · simpa [TcpServer.put, Function.update_of_ne own] using mirrors.objects d
    obtain ⟨t', called, rest⟩ := called_below below (sockfd_agrees s s') written added seen
    refine ⟨t', ?_, rest⟩
    simp [TcpServer.closeIf, full, TcpServer.get_some there, called]

/-- The whole branch of a writable client that stays open. -/
theorem writes_below (mirrors : Mirrors s t) (hup : e.hup = false) (input : e.input = false)
    (output : e.output = true) (known : s.clients e.fd = some c)
    (done : s.onOutput env (e.event r) c = .ok s') {acts : List Act}
    (added : s'.trace = s.trace ++ acts)
    (seen : acts.foldlM (Kernel.sees (WebsocketLoop.sockfd s s')) t.kernel = some kernel) :
    RoundBelow env t e r s' acts kernel := by
  obtain ⟨obj, drained, live, drains, open_, called⟩ := Server.onOutput_cases done
  have offers : drainQueue obj.sendBufferQueue r.sends = some drained := drains
  obtain ⟨other, there, fd, queue⟩ := mirrors.live live
  have below : CallsBelow (WebsocketLoop.sockfd s s') (s.offered c obj drained) s' :=
    Callbacks.sentWrapper s' called
  have agrees (d : ClientId) (o : WebsocketClient)
      (found : (s.offered c obj drained).object d = some o) :
      WebsocketLoop.sockfd s s' d = o.sockfd := by
    by_cases own : d = c
    · subst own
      cases (Function.update_self ..).symm.trans found
      exact sockfd_agrees s s' d obj live
    · exact sockfd_agrees s s' d o ((Function.update_of_ne own ..).symm.trans found)
  obtain ⟨_, more, grown, _⟩ := below agrees
  have whole : s.trace ++ acts = s.trace ++
      (drained.calls.map (Act.sendCall c) ++ [Act.epollCtl c (.mod false)] ++ more) := by
    rw [← added, grown]
    simp [Server.offered]
  have acts_eq := List.append_cancel_left whole
  let emptied : TcpServer := { t.put c { other with sendBufferQueue := drained.queue } with
    kernel := t.kernel.modify other.sockfd false }
  have written : Mirrors (s.offered c obj drained) emptied := by
    refine ⟨mirrors.clients, mirrors.nextClient, ?_⟩
    exact mirrors.update c (by simp [TcpClient.link, WebsocketClient.link, fd])
  have skipped (k : Kernel) : (drained.calls.map (Act.sendCall c) ++
      [Act.epollCtl c (.mod false)]).foldlM
      (Kernel.sees (WebsocketLoop.sockfd s s')) k = some (k.modify other.sockfd false) := by
    have sends (calls : List SendCall) : (calls.map (Act.sendCall c)).foldlM
        (Kernel.sees (WebsocketLoop.sockfd s s')) k = some k := by
      induction calls with
      | nil => rfl
      | cons call rest ih => exact ih
    rw [List.foldlM_append, sends]
    simp [Kernel.sees, sockfd_agrees s s' c obj live, fd]
  rw [acts_eq, List.foldlM_append, skipped] at seen
  obtain ⟨t', called', rest⟩ := called_below below agrees written grown seen
  refine ⟨t', ?_, rest⟩
  have calls : acts.filterMap Act.tcpCall = more.filterMap Act.tcpCall := by
    rw [acts_eq, List.filterMap_append, List.filterMap_append, List.filterMap_map]
    simp [Act.tcpCall, Function.comp_def]
  simp only [TcpServer.onEvent, hup, input, output, Bool.false_eq_true, ↓reduceIte,
    mirrors.clients, known, TcpServer.onOutput, TcpServer.get_some there, ok_bind, queue, offers,
    TcpServer.closeIf, open_, calls]
  rw [TcpServer.get_some TcpServer.put_self, ok_bind]
  exact called'

/-- What the branches of a round do is what `Tcp_server` does in them. -/
theorem round_below (rooted : s.Rooted) (mirrors : Mirrors s t)
    (done : s.onEvent env (e.event r) = .ok s') {acts : List Act} (added : s'.trace = s.trace ++ acts)
    (seen : acts.foldlM (Kernel.sees (WebsocketLoop.sockfd s s')) t.kernel = some kernel) :
    RoundBelow env t e r s' acts kernel := by
  have still (same : s' = s) (called : TcpServer.onEvent env.listenFd t e
      ⟨r.accepts, r.recvs, r.sends, []⟩ = .ok t) : RoundBelow env t e r s' acts kernel := by
    obtain rfl : acts = [] := by simpa [same] using added
    subst same
    exact ⟨t, called, mirrors, Option.some.inj seen, rfl, rfl⟩
  cases Server.onEvent_cases done with
  | missed foreign nobody =>
    have unknown : t.clients e.fd = none := mirrors.clients ▸ nobody
    apply still rfl
    rcases foreign with hup | input | foreign
    · have hup' : e.hup = true := hup
      simp [TcpServer.onEvent, hup', unknown]
    · have input' : e.input = false := input
      simp [TcpServer.onEvent, input', unknown]
    · have foreign' : e.fd ≠ env.listenFd := foreign
      simp [TcpServer.onEvent, foreign', unknown]
  | refused hup input listening refused =>
    have hup' : e.hup = false := hup
    have input' : e.input = true := input
    have listening' : e.fd = env.listenFd := listening
    have refused' : r.accepts = none := refused
    apply still rfl
    simp [TcpServer.onEvent, hup', input', listening', TcpServer.onAccept, refused']
  | silent hup input output =>
    have hup' : e.hup = false := hup
    have input' : e.input = false := input
    have output' : e.output = false := output
    apply still rfl
    simp [TcpServer.onEvent, hup', input', output']
  | hangUp c _ hup known done =>
    exact hangUp_below mirrors hup known done added seen
  | accepts fd hup input listening offered foreign free =>
    obtain rfl := List.append_cancel_left added
    exact accepts_below rooted mirrors hup input listening offered free seen
  | reads c _ hup input foreign known done =>
    exact reads_below mirrors hup input foreign known done added seen
  | writes c _ hup input output known done =>
    exact writes_below mirrors hup input output known done added seen

end Rounds

/-- No descriptor but `fd`, that of the client `c`, is closed. -/
def ClosesOnly (c : ClientId) (fd : Nat) (s s' : Server) : Prop :=
  (∀ obj, s.object c = some obj → obj.sockfd = fd) →
    (∀ obj, s'.object c = some obj → obj.sockfd = fd) ∧
    ∃ acts, s'.trace = s.trace ++ acts ∧ ∀ d other, .closeFd d other ∈ acts → other = fd

section Closes
variable {c d : ClientId} {fd : Nat} {s s' : Server} {obj obj' : WebsocketClient}

theorem ClosesOnly.trans {s1 s2 : Server} (first : ClosesOnly c fd s s1)
    (second : ClosesOnly c fd s1 s2) : ClosesOnly c fd s s2 := by
  intro own
  obtain ⟨own1, before, added1, only1⟩ := first own
  obtain ⟨own2, after, added2, only2⟩ := second own1
  refine ⟨own2, before ++ after, by rw [added2, added1, List.append_assoc], fun d other member => ?_⟩
  rcases List.mem_append.mp member with old | new
  · exact only1 d other old
  · exact only2 d other new

/-- A client that stays is written, and nothing is closed. -/
theorem put_closesOnly (live : s.object d = some obj) (sockfd : obj'.sockfd = obj.sockfd)
    {acts : List Act} (silent : ∀ e other, .closeFd e other ∉ acts) :
    ClosesOnly c fd s { s with
      object := Function.update s.object d (some obj'), trace := s.trace ++ acts } := by
  intro own
  refine ⟨fun other found => ?_, acts, rfl, fun e other member => absurd member (silent e other)⟩
  by_cases mine : c = d
  · subst mine
    cases (Function.update_self ..).symm.trans found
    exact sockfd.trans (own obj live)
  · exact own other ((Function.update_of_ne mine ..).symm.trans found)

theorem log_closesOnly {a : Act} (silent : ∀ e other, .closeFd e other ≠ a) :
    ClosesOnly c fd s (s.log a) := by
  intro own
  refine ⟨own, [a], rfl, fun e other member => ?_⟩
  exact absurd (List.mem_singleton.mp member) (silent e other)

theorem write_closesOnly (live : s.object d = some obj) (sockfd : obj'.sockfd = obj.sockfd) :
    ClosesOnly c fd s (s.put d obj') := by
  have written : ClosesOnly c fd s { s with
      object := Function.update s.object d (some obj'), trace := s.trace ++ [] } :=
    put_closesOnly live sockfd (by simp)
  simpa [Server.put] using written

theorem sent_closesOnly (live : s.object d = some obj) (output : Output) :
    ClosesOnly c fd s (s.sent d obj output) := by
  apply put_closesOnly live
  · rfl
  · simp

instance (c : ClientId) (fd : Nat) : Wheelless (ClosesOnly c fd) where
  trans _ _ _ := ClosesOnly.trans
  same _ own := ⟨own, [], (List.append_nil _).symm, by simp⟩
  rewheel _ _ own := ⟨own, [], (List.append_nil _).symm, by simp⟩

instance (c : ClientId) (fd : Nat) : Moves c (ClosesOnly c fd) where
  write live rewrites := write_closesOnly live rewrites.sockfd
  queue live _ _ := sent_closesOnly live _
  received _ _ := log_closesOnly (by simp)
  close live own := by
    refine ⟨fun other found => ?_, [.closeFd c _, .epollCtl c .del, .disconnected c], rfl,
      fun d other member => ?_⟩
    · simp [Server.closing] at found
    · simp only [List.mem_cons, Act.closeFd.injEq, List.not_mem_nil, reduceCtorEq,
        or_false] at member
      exact member.2.trans (own _ live)
  deleted _ := log_closesOnly (by simp)

instance (c : ClientId) (fd : Nat) : Callbacks (ClosesOnly c fd) where
  queues _ := {
    write := fun live rewrites => write_closesOnly live rewrites.sockfd
    queue := fun live _ _ => sent_closesOnly live _ }
  send live _ := sent_closesOnly live _
  delivered _ _ := log_closesOnly (by simp)
  connects live _ := (write_closesOnly live (by rfl)).trans (log_closesOnly (by simp))
  sentCallback _ := log_closesOnly (by simp)

theorem round_closes {env : Setup} {e : Event} (rooted : s.Rooted)
    (done : s.onEvent env e = .ok s') :
    ∃ acts, s'.trace = s.trace ++ acts ∧ ∀ d other, .closeFd d other ∈ acts → other = e.fd := by
  have own {c : ClientId} (known : s.clients e.fd = some c) (obj : WebsocketClient)
      (live : s.object c = some obj) : obj.sockfd = e.fd := by
    obtain ⟨other, found, fd⟩ := rooted.live known
    cases found.symm.trans live
    exact fd
  have nothing : ∃ acts, s.trace = s.trace ++ acts ∧
      ∀ d other, .closeFd d other ∈ acts → other = e.fd := ⟨[], (List.append_nil _).symm, by simp⟩
  cases Server.onEvent_cases done with
  | missed | refused | silent => exact nothing
  | hangUp c _ hup known done =>
    have closes : ClosesOnly c e.fd s s' := Ends.closeClient UserSends.disconnectKeeps s' done
    exact (closes (own known)).2
  | accepts fd hup input listening offered foreign free =>
    exact ⟨[.accepted s.nextClient fd, .epollCtl s.nextClient .add], rfl, by simp⟩
  | reads c _ hup input foreign known done =>
    have closes : ClosesOnly c e.fd s s' :=
      Moves.onInput UserSends.disconnectKeeps (fun _ => Callbacks.recvCallback) s' done
    exact (closes (own known)).2
  | writes c _ hup input output known done =>
    obtain ⟨obj, drained, live, _, _, called⟩ := Server.onOutput_cases done
    have first : ClosesOnly c e.fd s (s.offered c obj drained) := by
      have written : ClosesOnly c e.fd s { s with
          object := Function.update s.object c (some { obj with sendBufferQueue := drained.queue })
          trace := s.trace ++ (drained.calls.map (Act.sendCall c) ++ [.epollCtl c (.mod false)]) } := by
        apply put_closesOnly live
        · rfl
        · simp
      simpa [Server.offered] using written
    exact ((first.trans (Callbacks.sentWrapper s' called)) (own known)).2

end Closes

/-- A descriptor that is not closed stays open. -/
theorem seen_open {sockfd : ClientId → Nat} {acts : List Act} {k k' : Kernel} {fd : Nat}
    (seen : acts.foldlM (Kernel.sees sockfd) k = some k') (keeps : ∀ d, .closeFd d fd ∉ acts)
    (open_ : k.isOpen fd = true) : k'.isOpen fd = true := by
  induction acts generalizing k with
  | nil =>
    cases seen
    exact open_
  | cons a rest ih =>
    rw [List.foldlM_cons] at seen
    obtain ⟨k1, first, later⟩ := Option.bind_eq_some_iff.mp seen
    refine ih later (fun d member => keeps d (List.mem_cons_of_mem a member)) ?_
    cases a with
    | accepted c other =>
      obtain ⟨⟨connection, k2⟩, taken, same⟩ := Option.map_eq_some_iff.mp first
      cases same
      obtain ⟨_, _, _, rfl⟩ := Kernel.accept_ok taken
      by_cases here : fd = other
      · simp [here]
      · simpa [Function.update_of_ne here] using open_
    | epollCtl c op => cases op <;> cases first <;> simpa using open_
    | closeFd c other =>
      cases first
      have apart : fd ≠ other := fun same => keeps c (same ▸ List.mem_cons_self)
      rw [Kernel.close_isOpen apart]
      exact open_
    | _ =>
      cases first
      exact open_

/-- A branch of the listening socket makes no calls. -/
theorem offers_silent {env : Setup} {e : Ready} {r : Results} {s s' : Server}
    (done : s.onEvent env (e.event r) = .ok s') (offers : e.offers env.listenFd = true)
    {acts : List Act} (added : s'.trace = s.trace ++ acts) : acts.filterMap Act.tcpCall = [] := by
  simp only [Ready.offers, Bool.and_eq_true, Bool.not_eq_eq_eq_not, Bool.not_true, beq_iff_eq]
    at offers
  obtain ⟨⟨calm, input⟩, listening⟩ := offers
  have nothing (same : s'.trace = s.trace) : acts.filterMap Act.tcpCall = [] := by
    obtain rfl : acts = [] := by simpa [same] using added
    rfl
  cases Server.onEvent_cases done with
  | missed | refused | silent => exact nothing rfl
  | hangUp c _ hup known done => exact absurd (hup.symm.trans calm) (by decide)
  | accepts fd =>
    obtain rfl := List.append_cancel_left added
    rfl
  | reads c _ _ _ foreign known done => exact absurd listening foreign
  | writes c _ _ quiet output known done => exact absurd (input.symm.trans quiet) (by decide)

/-- The state of `Tcp_server` below a state of the websocket server. The events of a batch
are for different descriptors, which are open until they are handled. -/
structure Below (env : Setup) (l : WebsocketLoop) (t : TcpServer) : Prop where
  rooted : l.server.Rooted
  mirrors : Mirrors l.server t
  kernel : t.kernel = l.kernel
  batch : t.batch = l.batch
  returned : t.returned = l.returned
  sound : TcpServer.Sound env.listenFd t
  apart : (l.batch.map Ready.fd).Nodup
  opened : ∀ e ∈ l.batch, l.kernel.isOpen e.fd = true

section Steps
variable {env : Setup} {l l' : WebsocketLoop} {t : TcpServer}

theorem start_below (env : Setup) (opened : Nat → Bool) (current : Int) :
    Below env (.start env.listenFd opened current) (.start env.listenFd opened) where
  rooted := Server.start_rooted current
  mirrors := ⟨rfl, rfl, fun _ => rfl⟩
  kernel := rfl
  batch := rfl
  returned := rfl
  sound := TcpServer.start_sound opened
  apart := List.nodup_nil
  opened := List.forall_mem_nil _

theorem wait_below {events : List Ready} (below : Below env l t) (done : l.wait env events = .ok l') :
    ∃ t', t.step env.listenFd (.wait events) = .ok t' ∧ Below env l' t' := by
  rw [WebsocketLoop.wait] at done
  split at done
  · rename_i returns
    cases done
    have waited : t.step env.listenFd (.wait events) = .ok { t with
        kernel := t.kernel.report env.listenFd events, batch := events, returned := t.clients } := by
      rw [TcpServer.step, TcpServer.wait, below.batch, below.kernel, if_pos returns]
    refine ⟨_, waited, below.rooted, ⟨below.mirrors.clients, below.mirrors.nextClient,
      below.mirrors.objects⟩, ?_, rfl, below.mirrors.clients,
      TcpServer.step_sound below.sound waited, returns.2.1, fun e member => ?_⟩
    · rw [below.kernel]
    · have reports := returns.2.2 e member
      rw [← below.kernel] at reports ⊢
      by_cases listening : e.fd = env.listenFd
      · rw [listening]
        exact below.sound.listening
      · by_contra closed
        have unregistered := below.sound.polled e.fd (Bool.eq_false_iff.mpr closed)
        have known := reports.2 listening
        rw [unregistered] at known
        contradiction
  · contradiction

/-- A round of the websocket server, with the calls that make it one of `Tcp_server`. -/
theorem handle_below {r : Results} (below : Below env l t) (done : l.handle env r = .ok l') :
    ∃ h t', t.step env.listenFd (.handle h) = .ok t' ∧ Below env l' t' ∧
      TcpServer.Apart env.listenFd t (.handle h) ∧
      ∀ e rest, t.batch = e :: rest → e.offers env.listenFd = true → h.calls = [] := by
  rw [WebsocketLoop.handle] at done
  split at done
  · contradiction
  rename_i e rest batch
  split at done
  · contradiction
  rename_i s' served
  split at done
  · contradiction
  rename_i kernel seen
  cases done
  obtain ⟨acts, added, closes⟩ := round_closes below.rooted served
  have new : s'.trace.drop l.server.trace.length = acts := by rw [added, List.drop_left]
  rw [new] at seen
  have popped : Mirrors l.server { t with batch := rest } :=
    ⟨below.mirrors.clients, below.mirrors.nextClient, below.mirrors.objects⟩
  obtain ⟨t', handled, mirrors', kernel', batch', returned'⟩ :=
    round_below below.rooted popped served added (by rw [← seen, ← below.kernel])
  have batch_t : t.batch = e :: rest := below.batch.trans batch
  have stepped : t.step env.listenFd (.handle ⟨r.accepts, r.recvs, r.sends,
      acts.filterMap Act.tcpCall⟩) = .ok t' := by
    rw [TcpServer.step, TcpServer.handle, batch_t]
    exact handled
  have apart := below.apart
  rw [batch, List.map_cons, List.nodup_cons] at apart
  have opened (later : Ready) (member : later ∈ rest) : l.kernel.isOpen later.fd = true :=
    below.opened later (batch ▸ List.mem_cons_of_mem e member)
  refine ⟨_, t', stepped, ?_, ?_, ?_⟩
  · refine ⟨Server.onEvent_rooted below.rooted served, mirrors', kernel', batch',
      returned'.trans below.returned, TcpServer.step_sound below.sound stepped, apart.2,
      fun later member => ?_⟩
    refine seen_open seen (fun d member' => ?_) (opened later member)
    have here : later.fd = e.fd := closes d later.fd member'
    exact apart.1 (here ▸ List.mem_map_of_mem member)
  · rw [TcpServer.Apart, batch_t]
    rintro offers fd accepted later member rfl
    rw [TcpServer.onEvent_offers offers, TcpServer.onAccept, Option.mem_def.mp accepted] at handled
    cases taken : t.kernel.accept later.fd with
    | none => simp [taken] at handled
    | some result =>
      obtain ⟨connection, k⟩ := result
      have closed := (Kernel.accept_ok taken).1
      rw [below.kernel, opened later member] at closed
      contradiction
  · intro e' rest' same offers
    obtain ⟨rfl, rfl⟩ := List.cons.inj (same.symm.trans batch_t)
    exact offers_silent served offers added

/-- No input hides the report of writability to a client with something to send. -/
def WebsocketLoop.Undivided (l : WebsocketLoop) : LoopLabel → Prop
  | .handle _ => match l.batch with
    | [] => True
    | e :: _ => e.hup = false → e.input = true → e.output = true → ∀ c ∈ l.server.clients e.fd,
      ∀ obj ∈ l.server.object c, obj.sendBufferQueue = []
  | _ => True

instance (l : WebsocketLoop) : (label : LoopLabel) → Decidable (l.Undivided label)
  | .arrive | .wait _ => isTrue trivial
  | .handle r => match found : l.batch with
    | [] => isTrue (by rw [WebsocketLoop.Undivided, found]; trivial)
    | e :: _ => decidable_of_iff (e.hup = false → e.input = true → e.output = true →
        ∀ c ∈ l.server.clients e.fd, ∀ obj ∈ l.server.object c, obj.sendBufferQueue = [])
        (by rw [WebsocketLoop.Undivided, found])

theorem prompt_below {r : Results} {h : Handling} (below : Below env l t)
    (undivided : l.Undivided (.handle r))
    (silent : ∀ e rest, t.batch = e :: rest → e.offers env.listenFd = true → h.calls = []) :
    TcpServer.WritesUnhidden env.listenFd t (.handle h) := by
  rw [TcpServer.WritesUnhidden, below.batch]
  rw [below.batch] at silent
  cases batch : l.batch with
  | nil => trivial
  | cons e rest =>
    rw [WebsocketLoop.Undivided, batch] at undivided
    refine ⟨fun hup input output c known obj live => ?_, fun offers asked member => ?_⟩
    · rw [below.mirrors.clients] at known
      have same := below.mirrors.objects c
      rw [Option.mem_def.mp live] at same
      obtain ⟨other, found, link⟩ := Option.map_eq_some_iff.mp same.symm
      exact (congrArg Prod.snd link).symm.trans (undivided hup input output c known other found)
    · rw [silent e rest batch offers] at member
      contradiction

/-- One step of the websocket server is one of `Tcp_server`. -/
theorem step_below {label : LoopLabel} (below : Below env l t) (done : l.step env label = .ok l') :
    ∃ action t', t.step env.listenFd action = .ok t' ∧ Below env l' t' ∧
      TcpServer.Apart env.listenFd t action ∧
      (l.Undivided label → TcpServer.WritesUnhidden env.listenFd t action) := by
  cases label with
  | arrive =>
    cases done
    refine ⟨.arrive, { t with kernel := t.kernel.arrive }, rfl, ?_, trivial, fun _ => trivial⟩
    exact { below with
      mirrors := ⟨below.mirrors.clients, below.mirrors.nextClient, below.mirrors.objects⟩
      kernel := congrArg Kernel.arrive below.kernel
      sound := TcpServer.step_sound (l := .arrive) below.sound rfl }
  | wait events =>
    obtain ⟨t', waited, below'⟩ := wait_below below done
    exact ⟨.wait events, t', waited, below', trivial, fun _ => trivial⟩
  | handle r =>
    obtain ⟨h, t', handled, below', apart, silent⟩ := handle_below below done
    exact ⟨.handle h, t', handled, below', apart, fun undivided => prompt_below below undivided silent⟩

theorem loop_simulates (env : Setup) : Simulates (WebsocketLoop.step env) (fun _ _ => True)
    (TcpServer.step env.listenFd) (TcpServer.Apart env.listenFd) (Below env) := by
  intro l label l' t below _ done
  obtain ⟨action, t', stepped, below', apart, _⟩ := step_below below done
  exact ⟨[action], t', ⟨apart, fun _ _ => trivial⟩, by rw [run, stepped]; rfl, below'⟩

theorem undivided_simulates (env : Setup) : Simulates (WebsocketLoop.step env)
    WebsocketLoop.Undivided (TcpServer.step env.listenFd) (TcpServer.WritesUnhidden env.listenFd)
    (Below env) := by
  intro l label l' t below undivided done
  obtain ⟨action, t', stepped, below', _, prompt⟩ := step_below below done
  exact ⟨[action], t', ⟨prompt undivided, fun _ _ => trivial⟩, by rw [run, stepped]; rfl, below'⟩

end Steps

/-- The sample server without heartbeat. -/
def heartless : Setup := { quietSetup with proto := { quietSetup.proto with heartbeat := false } }

/-- A round in which nothing is received or sent. -/
def plainRound (accepts : Option Nat) : LoopLabel := .handle ⟨accepts, [], [], 0⟩

/-- Two clients, and then a batch in which the first hangs up and a third one comes. -/
def crowded : List LoopLabel :=
  [.arrive, .wait [offered], plainRound (some 5), .arrive, .wait [offered], plainRound (some 6),
    .arrive, .wait [⟨5, true, false, false⟩, offered, ⟨6, false, true, false⟩],
    plainRound none, plainRound (some 5)]

/-- Every run of the loop of the websocket server, without heartbeat, is, for what `Tcp_server`
knows of it, one of `Tcp_server`: the same clients under the same descriptors, the same kernel,
batch and send queues. No descriptor that `accept` returns in it is that of an event still to
come. -/
theorem websocket_loop_refines (env : Setup) (opened : Nat → Bool) (current : Int)
    (labels : List LoopLabel) (l : WebsocketLoop)
    (reached : run (WebsocketLoop.step env) (.start env.listenFd opened current) labels = .ok l) :
    ∃ actions t, Along (TcpServer.step env.listenFd) (TcpServer.Apart env.listenFd)
        (.start env.listenFd opened) actions ∧
      run (TcpServer.step env.listenFd) (.start env.listenFd opened) actions = .ok t ∧
      Mirrors l.server t ∧ t.kernel = l.kernel ∧ t.batch = l.batch ∧ t.returned = l.returned := by
  obtain ⟨actions, t, apart, ran, below⟩ := (loop_simulates env).run
    (start_below env opened current) (along_true _ labels) reached
  exact ⟨actions, t, apart, ran, below.mirrors, below.kernel, below.batch, below.returned⟩

theorem crowded_refines : ∃ l, run (WebsocketLoop.step heartless)
    (.start 3 firstDescriptors 0) crowded = .ok l ∧
    ∃ actions t, Along (TcpServer.step 3) (TcpServer.Apart 3) (.start 3 firstDescriptors) actions ∧
      run (TcpServer.step 3) (.start 3 firstDescriptors) actions = .ok t ∧
      Mirrors l.server t ∧ t.kernel = l.kernel ∧ t.batch = l.batch ∧ t.returned = l.returned := by
  obtain ⟨l, reached⟩ : ∃ l, run (WebsocketLoop.step heartless)
      (.start 3 firstDescriptors 0) crowded = .ok l := exists_ok (by decide +kernel)
  exact ⟨l, reached, websocket_loop_refines heartless firstDescriptors 0 crowded l reached⟩

/-- In a server without heartbeat, the next event is dropped or handled for the client that was
registered under its descriptor when `epoll_wait` returned. With heartbeat the wheel's thread, which
has no step here, closes clients too. -/
theorem websocket_events_delivered (env : Setup) (_off : env.proto.heartbeat = false)
    (opened : Nat → Bool) (current : Int) (labels : List LoopLabel) (l : WebsocketLoop)
    (reached : run (WebsocketLoop.step env) (.start env.listenFd opened current) labels = .ok l)
    (e : Ready) (rest : List Ready) (next : l.batch = e :: rest) (client : e.fd ≠ env.listenFd) :
    l.server.clients e.fd = none ∨ l.server.clients e.fd = l.returned e.fd := by
  have initial : TcpServer.Faithful env.listenFd (.start env.listenFd opened) := by
    simp [TcpServer.Faithful, TcpServer.start]
  refine (loop_simulates env).safe (TcpServer.Faithful env.listenFd) (fun l =>
    l.batch = e :: rest → l.server.clients e.fd = none ∨ l.server.clients e.fd = l.returned e.fd)
    (fun _ _ _ faithful apart done => TcpServer.step_faithful faithful apart done)
    (fun l t below faithful next => ?_) (start_below env opened current) initial
    (along_true _ labels) reached next
  have known := faithful e (below.batch.trans next ▸ List.mem_cons_self) client
  rwa [below.mirrors.clients, below.returned] at known

/-- The descriptor of the first client belongs to the third when the event of the second is
next. -/
theorem second_client_delivered : ∃ l, run (WebsocketLoop.step heartless)
    (.start 3 firstDescriptors 0) crowded = .ok l ∧ l.batch = [⟨6, false, true, false⟩] ∧
    (l.server.clients 6 = none ∨ l.server.clients 6 = l.returned 6) := by
  obtain ⟨l, reached, batch⟩ := reaches (x := run (WebsocketLoop.step heartless)
    (.start 3 firstDescriptors 0) crowded) (f := fun l => l.batch)
    (b := [⟨6, false, true, false⟩]) (by decide +kernel)
  exact ⟨l, reached, batch, websocket_events_delivered heartless rfl firstDescriptors 0 crowded
    l reached _ [] batch (by decide)⟩

/-- Without heartbeat, when `epoll_wait` is about to be called, every client with something to send
has its writability registered and a report of it due, in every run in which no event hides such a
report behind input. -/
theorem websocket_clients_woken (env : Setup) (opened : Nat → Bool) (current : Int)
    (labels : List LoopLabel)
    (undivided : Along (WebsocketLoop.step env) WebsocketLoop.Undivided
      (.start env.listenFd opened current) labels) (l : WebsocketLoop)
    (reached : run (WebsocketLoop.step env) (.start env.listenFd opened current) labels = .ok l)
    (idle : l.batch = []) (c : ClientId) (obj : WebsocketClient)
    (live : l.server.object c = some obj) (full : obj.sendBufferQueue ≠ []) :
    ∃ i, l.kernel.interest obj.sockfd = some i ∧ i.output = true ∧ i.due = true := by
  have initial : TcpServer.Sound env.listenFd (.start env.listenFd opened) ∧
      TcpServer.Alert none (.start env.listenFd opened) :=
    ⟨TcpServer.start_sound opened, by simp [TcpServer.start], by simp [TcpServer.start]⟩
  refine (undivided_simulates env).safe
    (fun t => TcpServer.Sound env.listenFd t ∧ TcpServer.Alert none t) (fun l => l.batch = [] →
      l.server.object c = some obj → ∃ i, l.kernel.interest obj.sockfd = some i ∧
        i.output = true ∧ i.due = true)
    (fun _ _ _ inv prompt done => ⟨TcpServer.step_sound inv.1 done,
      TcpServer.step_alert inv.2 inv.1 prompt done⟩)
    (fun l t below inv idle live => ?_) (start_below env opened current) initial undivided reached
    idle live
  obtain ⟨other, found, fd, queue⟩ := below.mirrors.live live
  have woken := inv.2.wakes (below.batch.trans idle) c other found (queue ▸ full)
  rwa [fd, below.kernel] at woken

/-- A client whose request was read waits for the answer. -/
def answered : List LoopLabel :=
  [.arrive, .wait [offered], plainRound (some 5), .wait [⟨5, false, true, false⟩],
    .handle ⟨none, [.returns handshakeRequest, .wouldBlock], [], 0⟩]

theorem handshake_woken : ∃ l, run (WebsocketLoop.step heartless)
    (.start 3 firstDescriptors 0) answered = .ok l ∧ ∃ obj, l.server.object 0 = some obj ∧
      ∃ i, l.kernel.interest obj.sockfd = some i ∧ i.output = true ∧ i.due = true := by
  obtain ⟨l, reached, facts⟩ := reaches (x := run (WebsocketLoop.step heartless)
    (.start 3 firstDescriptors 0) answered)
    (f := fun l => (l.batch, (l.server.object 0).map fun obj => obj.sendBufferQueue.isEmpty))
    (b := ([], some false)) (by decide +kernel)
  obtain ⟨idle, there⟩ := Prod.mk.inj facts
  obtain ⟨obj, live, full⟩ := Option.map_eq_some_iff.mp there
  exact ⟨l, reached, obj, live, websocket_clients_woken heartless firstDescriptors 0 answered
    (by decide +kernel) l reached idle 0 obj live (List.isEmpty_eq_false_iff.mp full)⟩

end WebsocketProto
