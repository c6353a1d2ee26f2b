import WebsocketProto.TcpInvariant

/-! The branch of a readable client: the loop over `recv`, fed with what the kernel answers
call after call, and what the branch then asks of the client. The loop has an end of its own
for `EAGAIN` and for 0 only. -/
namespace WebsocketProto
open Outcome
open Server (recvAll)

/-- What the branch asks of a client. The receive callback is part of the second call. -/
inductive InputCall where
  | closeClient
  | decodeProtoData (data : Bytes)
  deriving DecidableEq, Repr

/-- The calls in the order of the program: a close from inside the loop stands in front. -/
def inputCalls (recvs : List RecvResult) : Option (List InputCall) :=
  (recvAll recvs []).map fun read =>
    (if read.2 then [.closeClient] else []) ++
      if read.1 = [] then [] else [.decodeProtoData read.1]

def Server.inputCall (env : Setup) (now : Int) (c : ClientId) (s : Server) :
    InputCall → Except Fault Server
  | .closeClient => s.closeClient env c
  | .decodeProtoData data => do
    let (ret, s) ← s.decodeProtoData env now c data
    if ret then s.recvCallback env c else return s

def TcpServer.inputCall (h : Handling) (c : ClientId) (s : TcpServer) :
    InputCall → Except TcpFault TcpServer
  | .closeClient => s.disconnect h c
  | .decodeProtoData data => do
    let obj ← s.get c
    callAll h.calls (s.put c { obj with recvBuffer := data })

/-- The close of the loop, and what is made of the bytes behind it. -/
theorem inputCalls_foldlM {σ ε : Type} (perform : σ → InputCall → Except ε σ) (s : σ)
    (recvs : List RecvResult) (endless : Except ε σ) :
    (inputCalls recvs).elim endless (fun calls => calls.foldlM perform s) =
      (recvAll recvs []).elim endless fun read =>
        (if read.2 then perform s .closeClient else .ok s) >>= fun s =>
          if read.1 = [] then .ok s else perform s (.decodeProtoData read.1) := by
  unfold inputCalls
  cases recvAll recvs [] with
  | none => rfl
  | some read =>
    obtain ⟨m, closed⟩ := read
    by_cases empty : m = []
    · cases closed <;> simp [empty]
    · cases closed <;>
        simp only [empty, Option.map_some, Option.elim_some, List.nil_append, List.cons_append,
          List.foldlM_cons, List.foldlM_nil, bind_pure, ok_bind, ↓reduceIte, Bool.false_eq_true]

theorem Server.onInput_calls (env : Setup) (s : Server) (e : Event) (c : ClientId) :
    s.onInput env e c = (inputCalls e.recvs).elim (.error .unfinished) fun calls =>
      calls.foldlM (Server.inputCall env e.now c) s := by
  rw [inputCalls_foldlM, Server.onInput]
  cases recvAll e.recvs [] <;> rfl

theorem TcpServer.onInput_calls (s : TcpServer) (h : Handling) (c : ClientId) :
    s.onInput h c = (inputCalls h.recvs).elim (.error .impossible) fun calls =>
      calls.foldlM (TcpServer.inputCall h c) s := by
  rw [inputCalls_foldlM, TcpServer.onInput]
  cases recvAll h.recvs [] <;> rfl

/-- How the results of one readiness end. -/
inductive DrainEnd where
  | again | zero | error
  deriving DecidableEq, Repr

def DrainEnd.result : DrainEnd → RecvResult
  | .again => .wouldBlock
  | .zero => .returns []
  | .error => .fails

/-- What the loop makes of it when it has collected these bytes. -/
def DrainEnd.leaves (bytes : Bytes) : DrainEnd → Option (Bytes × Bool)
  | .again => some (bytes, false)
  | .zero => some (bytes, true)
  | .error => none

/-- The kernel answers the calls of `recv` with these chunks and then with this end. An
error stays. -/
structure Delivers (recv : Nat → RecvResult) (chunks : List Bytes) (last : DrainEnd) : Prop where
  positive : ∀ chunk ∈ chunks, chunk ≠ []
  data : ∀ i (bound : i < chunks.length), recv i = .returns chunks[i]
  ends : recv chunks.length = last.result
  repeats : last = .error → ∀ i, chunks.length ≤ i → recv i = .fails

def recvResults (recv : Nat → RecvResult) (count : Nat) : List RecvResult :=
  (List.range count).map recv

/-- One close, and behind the call that takes the bytes. -/
def HandedThenClosed (bytes : Bytes) (calls : List InputCall) : Prop :=
  calls.count .closeClient = 1 ∧
    (bytes ≠ [] → [.decodeProtoData bytes, .closeClient].Sublist calls)

instance (bytes : Bytes) (calls : List InputCall) : Decidable (HandedThenClosed bytes calls) :=
  inferInstanceAs (Decidable (_ ∧ _))

/-- Some number of calls ends the loop with all the bytes, and unless it was `EAGAIN` that
ended it the client is closed behind them. -/
def Drains (recv : Nat → RecvResult) (chunks : List Bytes) (last : DrainEnd) : Prop :=
  ∃ count closed calls, recvAll (recvResults recv count) [] = some (chunks.flatten, closed) ∧
    inputCalls (recvResults recv count) = some calls ∧
    (last ≠ .again → HandedThenClosed chunks.flatten calls)

theorem recvAll_returns (chunks : List Bytes) (rest : List RecvResult) (m : Bytes)
    (positive : ∀ chunk ∈ chunks, chunk ≠ []) :
    recvAll (chunks.map .returns ++ rest) m = recvAll rest (m ++ chunks.flatten) := by
  induction chunks generalizing m with
  | nil => simp
  | cons chunk chunks ih =>
    have full := positive chunk List.mem_cons_self
    have later := ih (m ++ chunk) fun other member => positive other (List.mem_cons_of_mem _ member)
    simp [recvAll, full, later]

/-- The printed error is no end. -/
theorem recvAll_fails (recvs : List RecvResult) (m : Bytes) (failing : ∀ r ∈ recvs, r = .fails) :
    recvAll recvs m = none := by
  induction recvs with
  | nil => rfl
  | cons r recvs ih =>
    obtain rfl := failing r List.mem_cons_self
    exact ih fun other member => failing other (List.mem_cons_of_mem _ member)

namespace Delivers

variable {recv : Nat → RecvResult} {chunks : List Bytes} {last : DrainEnd}

theorem results_eq (delivered : Delivers recv chunks last) (count : Nat) :
    recvResults recv count = (chunks.take count).map .returns ++
      (List.range (count - chunks.length)).map fun i => recv (chunks.length + i) := by
  apply List.ext_getElem
  · simp only [recvResults, List.length_map, List.length_range, List.length_append, List.length_take]
    omega
  · intro i bound _
    have inside : i < count := by simpa [recvResults] using bound
    by_cases early : i < chunks.length
    · rw [List.getElem_append_left (by simp; omega)]
      simp [recvResults, delivered.data i early]
    · rw [List.getElem_append_right (by simp; omega)]
      have place : chunks.length + (i - min count chunks.length) = i := by omega
      simp [recvResults, place]

theorem recvAll_results (delivered : Delivers recv chunks last) (count : Nat) :
    recvAll (recvResults recv count) [] =
      if chunks.length < count then last.leaves chunks.flatten else none := by
  have positive : ∀ chunk ∈ chunks.take count, chunk ≠ [] :=
    fun chunk member => delivered.positive chunk (List.mem_of_mem_take member)
  rw [delivered.results_eq, recvAll_returns _ _ _ positive, List.nil_append]
  split
  · rename_i stopped
    obtain ⟨more, exact_⟩ : ∃ more, count - chunks.length = more + 1 :=
      ⟨count - chunks.length - 1, by omega⟩
    have ends := delivered.ends
    have whole : chunks.take count = chunks := List.take_of_length_le (by omega)
    rw [exact_, whole]
    cases last with
    | again => simp [List.range_succ_eq_map, ends, DrainEnd.result, recvAll, DrainEnd.leaves]
    | zero => simp [List.range_succ_eq_map, ends, DrainEnd.result, recvAll, DrainEnd.leaves]
    | error =>
      apply recvAll_fails
      intro r member
      obtain ⟨i, -, rfl⟩ := List.mem_map.mp member
      exact delivered.repeats rfl _ (Nat.le_add_right _ _)
  · rename_i short
    have none_ : count - chunks.length = 0 := by omega
    simp [none_, recvAll]

theorem inputCalls_results (delivered : Delivers recv chunks last) (count : Nat)
    (stopped : inputCalls (recvResults recv count) = some calls) :
    last = .again ∨ last = .zero ∧
      calls = .closeClient :: if chunks.flatten = [] then [] else [.decodeProtoData chunks.flatten] := by
  rw [inputCalls, delivered.recvAll_results] at stopped
  split at stopped
  · cases last with
    | again => exact Or.inl rfl
    | zero =>
      refine Or.inr ⟨rfl, Eq.symm ?_⟩
      simpa [DrainEnd.leaves] using stopped
    | error => simp [DrainEnd.leaves] at stopped
  · simp at stopped

theorem flatten_ne_nil (delivered : Delivers recv chunks last) (some_ : chunks ≠ []) :
    chunks.flatten ≠ [] := by
  obtain ⟨chunk, rest, rfl⟩ := List.exists_cons_of_ne_nil some_
  have full := delivered.positive chunk List.mem_cons_self
  simp [full]

/-- With an error that stays no number of results is enough for the branch. -/
theorem onInput_unfinished (delivered : Delivers recv chunks .error) (count : Nat) (env : Setup)
    (s : Server) (e : Event) (c : ClientId) (given : e.recvs = recvResults recv count) :
    s.onInput env e c = .error .unfinished := by
  have endless : inputCalls (recvResults recv count) = none := by
    apply Option.eq_none_iff_forall_ne_some.mpr
    intro calls stopped
    rcases delivered.inputCalls_results count stopped with again | ⟨zero, -⟩ <;> contradiction
  rw [Server.onInput_calls, given, endless]
  rfl

/-- Behind bytes a count of 0 deletes the client that the bytes are then read into. -/
theorem onInput_usesFreed (delivered : Delivers recv chunks .zero) (some_ : chunks ≠ [])
    (s : TcpServer) (h : Handling) (c : ClientId) (obj : TcpClient) (there : s.object c = some obj)
    (given : h.recvs = recvResults recv (chunks.length + 1)) :
    s.onInput h c = .error (.usesFreed c) := by
  have full := delivered.flatten_ne_nil some_
  have read := delivered.recvAll_results (chunks.length + 1)
  rw [if_pos (Nat.lt_succ_self _)] at read
  obtain ⟨t, gone⟩ := TcpServer.disconnect_ok h there
  rw [TcpServer.onInput_calls, given, inputCalls, read]
  simp [DrainEnd.leaves, full, TcpServer.inputCall, gone, TcpServer.get,
    TcpServer.disconnect_gone gone]

end Delivers

/-- A kernel that gives these results and stays with the last. -/
def kernelAnswers (chunks : List Bytes) (last : DrainEnd) (i : Nat) : RecvResult :=
  chunks[i]?.elim last.result .returns

theorem answers_delivers (chunks : List Bytes) (last : DrainEnd)
    (positive : ∀ chunk ∈ chunks, chunk ≠ []) : Delivers (kernelAnswers chunks last) chunks last where
  positive := positive
  data i bound := by simp [kernelAnswers, bound]
  ends := by simp [kernelAnswers]
  repeats := by
    rintro rfl i beyond
    simp [kernelAnswers, beyond, DrainEnd.result]

/-- The loop never ends on another error, and on 0 it closes the client in front of the
bytes, so that it keeps what it should when `EAGAIN` ends it, or 0 on an empty socket. -/
theorem drains_iff {recv : Nat → RecvResult} {chunks : List Bytes} {last : DrainEnd}
    (delivered : Delivers recv chunks last) :
    Drains recv chunks last ↔ last = .again ∨ last = .zero ∧ chunks = [] := by
  constructor
  · rintro ⟨count, closed, calls, -, asked, ordered⟩
    rcases delivered.inputCalls_results count asked with again | ⟨zero, rfl⟩
    · exact Or.inl again
    · refine Or.inr ⟨zero, ?_⟩
      by_contra some_
      have bytes := delivered.flatten_ne_nil some_
      have behind := (ordered (by simp [zero])).2 bytes
      rw [if_neg bytes] at behind
      -- two lists of length two, in opposite order
      simpa using behind.eq_of_length rfl
  · intro ends
    have read := delivered.recvAll_results (chunks.length + 1)
    rw [if_pos (Nat.lt_succ_self _)] at read
    rcases ends with rfl | ⟨rfl, rfl⟩
    · refine ⟨_, _, _, read, by rw [inputCalls, read]; rfl, ?_⟩
      intro other
      contradiction
    · exact ⟨_, _, _, read, by rw [inputCalls, read]; rfl, fun _ => by decide⟩

theorem drains_iff_two_chunks :
    Drains (kernelAnswers [[0x81], [0x00]] .again) [[0x81], [0x00]] .again := by
  have delivered := answers_delivers [[0x81], [0x00]] .again (by decide)
  exact (drains_iff delivered).mpr (Or.inl rfl)

/-- A frame and then an error that stays. -/
theorem error_not_drained :
    Delivers (kernelAnswers [[0x81, 0x00]] .error) [[0x81, 0x00]] .error ∧
      ¬ Drains (kernelAnswers [[0x81, 0x00]] .error) [[0x81, 0x00]] .error := by
  have delivered := answers_delivers [[0x81, 0x00]] .error (by decide)
  refine ⟨delivered, ?_⟩
  rintro ⟨count, closed, calls, -, stopped, -⟩
  rcases delivered.inputCalls_results count stopped with again | ⟨zero, -⟩ <;> contradiction

end WebsocketProto
