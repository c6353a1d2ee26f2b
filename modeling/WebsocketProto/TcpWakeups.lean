import WebsocketProto.TcpInvariant

/-! Whether a client with something to send is woken: where writability is asked for, and
where a report of it is used up. -/
namespace WebsocketProto
open Outcome
open Epoll (Kernel Ready)

/-- A client that stays open has offered its whole queue. -/
theorem drainQueue_empties {queue : List Bytes} {results : List SendResult} {drained : Drained}
    (done : drainQueue queue results = some drained) (open_ : drained.closed = false) :
    drained.queue = [] := by
  induction queue generalizing results drained with
  | nil =>
    cases done
    rfl
  | cons entry rest ih =>
    obtain ⟨sent, _, done⟩ := Option.bind_eq_some_iff.mp done
    split at done
    · cases done
      contradiction
    · obtain ⟨more, later, same⟩ := Option.bind_eq_some_iff.mp done
      cases same
      have still_open : more.closed = false := open_
      have emptied : more.queue = [] := ih later still_open
      exact emptied

namespace TcpServer
variable {listenFd : Nat} {s s' : TcpServer} {busy : Option ClientId} {c d : ClientId}
  {obj : TcpClient}

/-- Writability is asked for, and its report is due or among the events to come. -/
def Woken (s : TcpServer) (fd : Nat) : Prop :=
  ∃ i, s.kernel.interest fd = some i ∧ i.output = true ∧
    (i.due = true ∨ ∃ e ∈ s.batch, e.fd = fd ∧ e.output = true)

/-- Every client but the one that is being accepted is registered, and every one with
something to send is woken. -/
structure Alert (busy : Option ClientId) (s : TcpServer) : Prop where
  registered : ∀ c obj, s.object c = some obj → busy ≠ some c →
    (s.kernel.interest obj.sockfd).isSome = true
  woken : ∀ c obj, s.object c = some obj → obj.sendBufferQueue ≠ [] → s.Woken obj.sockfd

/-- The events of other descriptors are still to come. -/
def Leaves (fd : Nat) (batch rest : List Ready) : Prop :=
  ∀ e ∈ batch, e.fd ≠ fd → e.output = true → e ∈ rest

theorem Woken.still {fd own : Nat} (woken : s.Woken fd) (away : fd ≠ own)
    (same : s'.kernel.interest fd = s.kernel.interest fd)
    (leaves : Leaves own s.batch s'.batch) : s'.Woken fd := by
  obtain ⟨i, asked, output, wakes⟩ := woken
  refine ⟨i, same.trans asked, output, wakes.imp_right ?_⟩
  rintro ⟨e, member, here, told⟩
  exact ⟨e, leaves e member (fun eq => away (here.symm.trans eq)) told, here, told⟩

/-- A client whose queue changes is registered afresh. -/
theorem Alert.change (alert : Alert busy s) (sound : Sound listenFd s)
    (live : s.object c = some obj) (added : busy ≠ some c) {obj' : TcpClient}
    (same : obj'.sockfd = obj.sockfd) {output : Bool} {batch : List Ready}
    (leaves : Leaves obj.sockfd s.batch batch)
    (own : obj'.sendBufferQueue ≠ [] → output = true) :
    Alert busy { (s.put c obj') with
      kernel := s.kernel.modify obj.sockfd output, batch := batch } := by
  have known := alert.registered c obj live added
  refine ⟨fun d other found unbusy => ?_, fun d other found full => ?_⟩
  · dsimp only at found ⊢
    rw [Kernel.modify_isSome]
    by_cases mine : d = c
    · subst mine
      cases put_self.symm.trans found
      exact same ▸ known
    · exact alert.registered d other ((put_other mine).symm.trans found) unbusy
  · dsimp only at found
    by_cases mine : d = c
    · subst mine
      cases put_self.symm.trans found
      obtain rfl := own full
      rw [same]
      exact ⟨⟨true, true⟩, Kernel.modify_interest known, rfl, Or.inl rfl⟩
    · have old := (put_other mine).symm.trans found
      have away : other.sockfd ≠ obj.sockfd := fun eq => mine (sound.alone live old eq)
      exact (alert.woken d other old full).still away (Kernel.modify_other away) leaves

theorem Alert.drop (alert : Alert busy s) (sound : Sound listenFd s)
    (live : s.object c = some obj) {batch : List Ready}
    (leaves : Leaves obj.sockfd s.batch batch) :
    Alert busy { s.dropped c obj.sockfd with batch := batch } := by
  have others {d : ClientId} {other : TcpClient}
      (found : (s.dropped c obj.sockfd).object d = some other) :
      s.object d = some other ∧ other.sockfd ≠ obj.sockfd := by
    obtain ⟨mine, old⟩ := dropped_live found
    exact ⟨old, fun eq => mine (sound.alone live old eq)⟩
  refine ⟨fun d other found unbusy => ?_, fun d other found full => ?_⟩
  · obtain ⟨old, away⟩ := others found
    have kept : (s.kernel.close obj.sockfd).interest other.sockfd = _ := Kernel.close_other away
    exact (congrArg Option.isSome kept).trans (alert.registered d other old unbusy)
  · obtain ⟨old, away⟩ := others found
    exact (alert.woken d other old full).still away (Kernel.close_other away) leaves

theorem Alert.put (alert : Alert busy s) (live : s.object c = some obj) {obj' : TcpClient}
    (sockfd : obj'.sockfd = obj.sockfd) (queue : obj'.sendBufferQueue = obj.sendBufferQueue) :
    Alert busy (s.put c obj') := by
  refine ⟨fun d => ?_, fun d => ?_⟩
  · refine put_forall (P := fun d other => busy ≠ some d →
      (s.kernel.interest other.sockfd).isSome = true) alert.registered ?_ d
    exact sockfd ▸ alert.registered c obj live
  · refine put_forall (P := fun _ other => other.sendBufferQueue ≠ [] → s.Woken other.sockfd)
      alert.woken ?_ d
    rw [sockfd, queue]
    exact alert.woken c obj live

/-- An event that is no report to a client with something to send. -/
theorem Alert.pop {e : Ready} {rest : List Ready} (alert : Alert busy s) (batch : s.batch = e :: rest)
    (nobody : e.output = true → ∀ c obj, s.object c = some obj → obj.sockfd = e.fd →
      obj.sendBufferQueue = []) : Alert busy { s with batch := rest } := by
  refine ⟨alert.registered, fun d other found full => ?_⟩
  obtain ⟨i, asked, output, wakes⟩ := alert.woken d other found full
  refine ⟨i, asked, output, wakes.imp_right ?_⟩
  rintro ⟨later, member, here, told⟩
  rw [batch] at member
  rcases List.mem_cons.mp member with rfl | still
  · exact absurd (nobody told d other found here.symm) full
  · exact ⟨later, still, here, told⟩

theorem sendBuffer_alert {data : Bytes} (alert : Alert busy s) (sound : Sound listenFd s)
    (added : busy ≠ some c) (done : s.sendBuffer c data = .ok s') : Alert busy s' := by
  obtain ⟨obj, found, same⟩ := bind_eq_ok.mp done
  cases same
  exact alert.change sound (get_ok found) added (by rfl) (fun _ member _ _ => member) fun _ => rfl

theorem closeClient_alert (alert : Alert busy s) (sound : Sound listenFd s)
    (done : s.closeClient c = .ok s') : Alert busy s' := by
  obtain ⟨obj, live, rfl⟩ := closeClient_ok done
  exact alert.drop sound live fun _ member _ _ => member

/-- Nothing is sent to the client that is being accepted. -/
theorem callAll_alert {calls : List (ClientId × TcpCall)} (alert : Alert busy s)
    (sound : Sound listenFd s) (silent : ∀ asked ∈ calls, busy = some asked.1 → asked.2 = .close)
    (done : callAll calls s = .ok s') : Alert busy s' := by
  suffices kept : Sound listenFd s' ∧ Alert busy s' from kept.2
  refine callAll_invariant (P := fun s' => Sound listenFd s' ∧ Alert busy s')
    (fun c asked s1 s2 member here called => ⟨call_sound here.1 called, ?_⟩) ⟨sound, alert⟩ done
  cases asked with
  | send data =>
    have added : busy ≠ some c := by
      intro own
      cases silent _ member own
    exact sendBuffer_alert here.2 here.1 added called
  | close => exact closeClient_alert here.2 here.1 called

theorem disconnect_alert {h : Handling} (alert : Alert none s) (sound : Sound listenFd s)
    (done : s.disconnect h c = .ok s') : Alert none s' := by
  obtain ⟨s1, closed, called⟩ := bind_eq_ok.mp done
  exact callAll_alert (closeClient_alert alert sound closed) (closeClient_sound sound closed)
    (by rintro _ _ ⟨⟩) called

/-- A client that nothing is sent to stays as it is, or is closed. -/
theorem callAll_silent {calls : List (ClientId × TcpCall)}
    (silent : ∀ asked ∈ calls, asked.1 = c → asked.2 = .close)
    (done : callAll calls s = .ok s') : s'.object c = none ∨ s'.object c = s.object c := by
  refine callAll_invariant (P := fun s' => s'.object c = none ∨ s'.object c = s.object c)
    (fun d asked s1 s2 member here called => ?_) (Or.inr rfl) done
  cases asked with
  | send data =>
    have own : c ≠ d := by
      rintro rfl
      cases silent _ member rfl
    obtain ⟨other, _, same⟩ := bind_eq_ok.mp called
    cases same
    exact here.imp (put_other own).trans (put_other own).trans
  | close =>
    obtain ⟨other, _, rfl⟩ := closeClient_ok called
    by_cases own : c = d
    · subst own
      exact Or.inl dropped_self
    · exact here.imp (dropped_other own).trans (dropped_other own).trans

theorem admitted_alert {kernel : Kernel} {connection fd : Nat} (alert : Alert none s)
    (taken : s.kernel.accept fd = some (connection, kernel)) :
    Alert (some s.nextClient) (s.admitted kernel connection fd) := by
  obtain ⟨_, rest, _, rfl⟩ := Kernel.accept_ok taken
  refine ⟨fun d other found unbusy => ?_, fun d other found full => ?_⟩
  · rcases admitted_live found with ⟨rfl, _⟩ | ⟨_, old⟩
    · exact absurd rfl unbusy
    · exact alert.registered d other old nofun
  · rcases admitted_live found with ⟨_, rfl⟩ | ⟨_, old⟩
    · exact absurd rfl full
    · exact alert.woken d other old full

/-- The client that was accepted is registered with nothing to send. -/
theorem epollAdd_alert {fd : Nat} (alert : Alert (some c) s) (sound : Sound listenFd s)
    (own : ∀ obj, s.object c = some obj → obj.sockfd = fd ∧ obj.sendBufferQueue = []) :
    Alert none (s.epollAdd fd c) := by
  rw [epollAdd]
  split
  · rename_i free
    have away {d : ClientId} {other : TcpClient} (apart : d ≠ c) (found : s.object d = some other) :
        other.sockfd ≠ fd := by
      rintro rfl
      have known := alert.registered d other found fun eq => apart (Option.some.inj eq).symm
      rw [free.2] at known
      contradiction
    refine ⟨fun d other found _ => ?_, fun d other found full => ?_⟩
    · by_cases mine : d = c
      · subst mine
        rw [(own other found).1, Kernel.add, if_pos free, Kernel.register_self]
        rfl
      · rw [Kernel.add_other (away mine found)]
        exact alert.registered d other found fun eq => mine (Option.some.inj eq).symm
    · by_cases mine : d = c
      · subst mine
        exact absurd (own other found).2 full
      · exact (alert.woken d other found full).still (away mine found)
          (Kernel.add_other (away mine found)) fun _ member _ _ => member
  · rename_i there
    refine ⟨fun d other found _ => ?_, alert.woken⟩
    by_cases mine : d = c
    · subst mine
      have opened := sound.opened d other found
      rw [(own other found).1] at opened ⊢
      exact Option.isSome_iff_ne_none.mpr fun none_ => there ⟨opened, none_⟩
    · exact alert.registered d other found fun eq => mine (Option.some.inj eq).symm

theorem onAccept_alert {h : Handling} (alert : Alert none s) (sound : Sound listenFd s)
    (silent : ∀ asked ∈ h.calls, asked.1 = s.nextClient → asked.2 = .close)
    (done : s.onAccept h = .ok s') : Alert none s' := by
  rcases onAccept_cases sound done with ⟨_, rfl⟩ | ⟨fd, _, _, s1, _, taken, called, rfl⟩
  · exact alert
  · have admitted := admitted_sound sound taken
    have quiet := callAll_alert (admitted_alert alert taken) admitted
      (fun asked member eq => silent asked member (Option.some.inj eq).symm) called
    refine epollAdd_alert quiet (callAll_sound admitted called) fun obj live => ?_
    rcases callAll_silent silent called with gone | same
    · rw [gone] at live
      contradiction
    · rw [same, admitted_self] at live
      cases live
      exact ⟨rfl, rfl⟩

theorem onInput_alert {h : Handling} (alert : Alert none s) (sound : Sound listenFd s)
    (done : s.onInput h c = .ok s') : Alert none s' := by
  rw [onInput] at done
  split at done
  · contradiction
  · rename_i m closed received
    obtain ⟨s1, closedIf, done⟩ := bind_eq_ok.mp done
    have kept : Alert none s1 := by
      rw [closeIf] at closedIf
      split at closedIf
      · exact disconnect_alert alert sound closedIf
      · exact Except.ok.inj closedIf ▸ alert
    have sound1 := closeIf_sound sound closedIf
    split at done
    · exact Except.ok.inj done ▸ kept
    · obtain ⟨obj, found, done⟩ := bind_eq_ok.mp done
      have live := get_ok found
      have read : Alert none (s1.put c { obj with recvBuffer := m }) := kept.put live rfl rfl
      have sound2 : Sound listenFd (s1.put c { obj with recvBuffer := m }) := sound1.put live rfl
      exact callAll_alert read sound2 (by rintro _ _ ⟨⟩) done

/-- The whole queue is offered, so the report of its client is not missed any more. -/
theorem onOutput_alert {e : Ready} {rest : List Ready} {h : Handling} (alert : Alert none s)
    (sound : Sound listenFd s) (batch : s.batch = e :: rest) (known : s.clients e.fd = some c)
    (done : onOutput { s with batch := rest } h c = .ok s') : Alert none s' := by
  obtain ⟨obj, live, fd⟩ := sound.live known
  obtain ⟨obj0, found, done⟩ := bind_eq_ok.mp done
  cases (get_ok found).symm.trans live
  split at done
  · contradiction
  · rename_i drained offered
    obtain ⟨s1, closedIf, done⟩ := bind_eq_ok.mp done
    obtain ⟨obj1, found1, done⟩ := bind_eq_ok.mp done
    rw [closeIf] at closedIf
    split at closedIf
    · rw [get, disconnect_gone closedIf] at found1
      contradiction
    · rename_i open_
      cases closedIf
      cases (get_ok found1).symm.trans put_self
      have emptied := drainQueue_empties offered (Bool.eq_false_iff.mpr open_)
      have leaves : Leaves obj.sockfd s.batch rest := by
        intro later member away _
        rw [batch] at member
        rcases List.mem_cons.mp member with rfl | still
        · exact absurd fd.symm away
        · exact still
      have popped : Sound listenFd
          (put { s with batch := rest } c { obj with sendBufferQueue := drained.queue }) :=
        (sound.with_batch rest).put live rfl
      have quiet : Alert none { s.put c { obj with sendBufferQueue := drained.queue } with
          kernel := s.kernel.modify obj.sockfd false, batch := rest } :=
        alert.change sound live (by rintro ⟨⟩) (by rfl) leaves fun full => absurd emptied full
      exact callAll_alert quiet (popped.modify obj.sockfd false) (by rintro _ _ ⟨⟩) done

/-- No input hides a report to a client with something to send, and the connected callback
sends nothing to its own client. -/
def WritesUnhidden (listenFd : Nat) (s : TcpServer) : TcpLabel → Prop
  | .handle h => match s.batch with
    | [] => True
    | e :: _ =>
      (e.hup = false → e.input = true → e.output = true → ∀ c ∈ s.clients e.fd,
        ∀ obj ∈ s.object c, obj.sendBufferQueue = []) ∧
      (e.offers listenFd = true → ∀ asked ∈ h.calls, asked.1 = s.nextClient → asked.2 = .close)
  | _ => True

theorem onEvent_alert {e : Ready} {rest : List Ready} {h : Handling} (alert : Alert none s)
    (sound : Sound listenFd s) (batch : s.batch = e :: rest)
    (unhidden : WritesUnhidden listenFd s (.handle h))
    (done : onEvent listenFd { s with batch := rest } e h = .ok s') : Alert none s' := by
  rw [WritesUnhidden, batch] at unhidden
  obtain ⟨seen, silent⟩ := unhidden
  have sound1 := sound.with_batch rest
  have listening {c : ClientId} {obj : TcpClient} (live : s.object c = some obj) :=
    sound.apart c obj live
  have missed (nobody : s.clients e.fd = none) : Alert none { s with batch := rest } := by
    refine alert.pop batch fun _ c obj live here => ?_
    have known := (sound.registered e.fd c).mpr ⟨obj, live, here⟩
    rw [nobody] at known
    contradiction
  rw [onEvent] at done
  split at done
  · split at done
    · rename_i c known
      obtain ⟨obj, live, fd⟩ := sound.live known
      obtain ⟨s1, closed, called⟩ := bind_eq_ok.mp done
      have sound2 := closeClient_sound sound1 closed
      obtain ⟨other, found, rfl⟩ := closeClient_ok closed
      cases found.symm.trans live
      refine callAll_alert (alert.drop sound live fun later member away _ => ?_) sound2
        (by rintro _ _ ⟨⟩) called
      rw [batch] at member
      rcases List.mem_cons.mp member with rfl | still
      · exact absurd fd.symm away
      · exact still
    · rename_i nobody
      exact Except.ok.inj done ▸ missed nobody
  rename_i hup
  have calm : e.hup = false := Bool.eq_false_iff.mpr hup
  split at done
  · rename_i input
    split at done
    · rename_i here
      have popped : Alert none { s with batch := rest } := by
        refine alert.pop batch fun _ c obj live fd => ?_
        exact absurd (fd.trans here) (listening live)
      have offers : e.offers listenFd = true := by simp [Ready.offers, calm, input, here]
      exact onAccept_alert popped sound1 (silent offers) done
    · split at done
      · rename_i nobody
        exact Except.ok.inj done ▸ missed nobody
      · rename_i c known
        have popped : Alert none { s with batch := rest } := by
          refine alert.pop batch fun output d obj live fd => ?_
          exact seen calm input output d ((sound.registered e.fd d).mpr ⟨obj, live, fd⟩) obj live
        exact onInput_alert popped sound1 done
  split at done
  · split at done
    · rename_i nobody
      exact Except.ok.inj done ▸ missed nobody
    · rename_i c known
      exact onOutput_alert alert sound batch known done
  · rename_i output
    exact Except.ok.inj done ▸ alert.pop batch fun told => absurd told output

/-- What was due when `epoll_wait` was called is now in the batch, or still due. -/
theorem wait_alert {events : List Ready} (alert : Alert none s)
    (done : s.wait listenFd events = .ok s') : Alert none s' := by
  rw [wait] at done
  split at done
  · rename_i returns
    cases done
    refine ⟨fun c obj live unbusy => ?_, fun c obj live full => ?_⟩
    · have known := alert.registered c obj live unbusy
      rw [Kernel.report_interest, Option.isSome_map]
      exact known
    · obtain ⟨i, asked, output, wakes⟩ := alert.woken c obj live full
      have due : i.due = true := by
        rcases wakes with due | ⟨e, member, _⟩
        · exact due
        · rw [returns.1] at member
          contradiction
      have reported : (s.kernel.report listenFd events).interest obj.sockfd = _ :=
        Kernel.report_interest
      rw [asked] at reported
      refine ⟨_, reported, output, ?_⟩
      cases told : events.any fun e => e.fd == obj.sockfd && e.output with
      | false =>
        exact Or.inl (by simp only [due, Bool.not_false, Bool.and_self])
      | true =>
        obtain ⟨e, member, told⟩ := List.any_eq_true.mp told
        simp only [Bool.and_eq_true, beq_iff_eq] at told
        exact Or.inr ⟨e, member, told.1, told.2⟩
  · contradiction

theorem step_alert {l : TcpLabel} (alert : Alert none s) (sound : Sound listenFd s)
    (unhidden : WritesUnhidden listenFd s l) (done : s.step listenFd l = .ok s') : Alert none s' := by
  cases l with
  | arrive =>
    cases done
    exact ⟨alert.registered, alert.woken⟩
  | wait events => exact wait_alert alert done
  | handle h =>
    rw [step, handle] at done
    split at done
    · contradiction
    · rename_i e rest batch
      exact onEvent_alert alert sound batch unhidden done

instance (listenFd : Nat) (s : TcpServer) : (l : TcpLabel) → Decidable (WritesUnhidden listenFd s l)
  | .arrive | .wait _ => isTrue trivial
  | .handle h => match found : s.batch with
    | [] => isTrue (by rw [WritesUnhidden, found]; trivial)
    | e :: _ => decidable_of_iff
        ((e.hup = false → e.input = true → e.output = true → ∀ c ∈ s.clients e.fd,
          ∀ obj ∈ s.object c, obj.sendBufferQueue = []) ∧
        (e.offers listenFd = true →
          ∀ asked ∈ h.calls, asked.1 = s.nextClient → asked.2 = .close))
        (by rw [WritesUnhidden, found])

/-- When `epoll_wait` is about to be called, every client with something to send has its
writability registered, with a report that is still to come. -/
def Wakes (s : TcpServer) : Prop :=
  s.batch = [] → ∀ c obj, s.object c = some obj → obj.sendBufferQueue ≠ [] →
    ∃ i, s.kernel.interest obj.sockfd = some i ∧ i.output = true ∧ i.due = true

theorem Alert.wakes (alert : Alert none s) : s.Wakes := by
  intro idle c obj live full
  obtain ⟨i, asked, output, due | ⟨e, member, _⟩⟩ := alert.woken c obj live full
  · exact ⟨i, asked, output, due⟩
  · rw [idle] at member
    contradiction

end TcpServer

theorem writers_woken (listenFd : Nat) (opened : Nat → Bool) (labels : List TcpLabel)
    (unhidden : Along (TcpServer.step listenFd) (TcpServer.WritesUnhidden listenFd)
      (.start listenFd opened) labels) (s : TcpServer)
    (reached : run (TcpServer.step listenFd) (.start listenFd opened) labels = .ok s) :
    s.Wakes := by
  have initial : TcpServer.Alert none (.start listenFd opened) := ⟨nofun, nofun⟩
  have kept (s : TcpServer) (l : TcpLabel) (s' : TcpServer)
      (inv : s.Sound listenFd ∧ TcpServer.Alert none s) (cond : s.WritesUnhidden listenFd l)
      (done : s.step listenFd l = .ok s') : s'.Sound listenFd ∧ TcpServer.Alert none s' :=
    ⟨TcpServer.step_sound inv.1 done, TcpServer.step_alert inv.2 inv.1 cond done⟩
  have inv := along_invariant kept ⟨TcpServer.start_sound opened, initial⟩ unhidden reached
  exact inv.2.wakes

/-- A recv callback that answers the other client. -/
theorem answer_woken : ∃ s, run (TcpServer.step 3) (.start 3 firstDescriptors)
    (twoClients ++ [.wait [⟨5, false, true, false⟩], reading [(1, .send [0x62])]]) = .ok s ∧
    s.Wakes := by
  obtain ⟨s, reached⟩ : ∃ s, run (TcpServer.step 3) (.start 3 firstDescriptors)
      (twoClients ++ [.wait [⟨5, false, true, false⟩], reading [(1, .send [0x62])]]) = .ok s :=
    exists_ok (by decide +kernel)
  exact ⟨s, reached, writers_woken 3 firstDescriptors _ (by decide +kernel) s reached⟩

/-- A greeting that the connected callback sends is queued before the descriptor is added,
and nothing asks for its writability. -/
theorem greeting_not_woken : ∃ s, run (TcpServer.step 3) (.start 3 firstDescriptors)
    [.arrive, .wait [offered], accepting 5 [(0, .send [0x68, 0x69])]] = .ok s ∧
    s.kernel.interest 5 = some ⟨false, false⟩ ∧ ¬ s.Wakes := by
  obtain ⟨s, reached, facts⟩ := reaches (x := run (TcpServer.step 3) (.start 3 firstDescriptors)
      [.arrive, .wait [offered], accepting 5 [(0, .send [0x68, 0x69])]])
    (f := fun s => (s.batch, s.object 0, s.kernel.interest 5))
    (b := ([], some ⟨5, [[0x68, 0x69]], []⟩, some ⟨false, false⟩)) (by decide +kernel)
  obtain ⟨idle, facts⟩ := Prod.mk.inj facts
  obtain ⟨live, asked⟩ := Prod.mk.inj facts
  refine ⟨s, reached, asked, fun wakes => ?_⟩
  obtain ⟨i, registered, output, _⟩ := wakes idle 0 _ live (List.cons_ne_nil _ _)
  rw [asked] at registered
  cases registered
  contradiction

end WebsocketProto
