import WebsocketProto.FrameParser
import WebsocketProto.Segmentation

/-! Which message the bytes in `decode_buffer_` belong to. A ledger stands beside the client and logs
the frames of every read under the number of their message; it decides nothing. -/
namespace WebsocketProto
open Rfc6455 (Key Frame Opcode encodeAll cut parseKey)
open Outcome

/-- The frame behind a header, when it is all there, and the bytes that follow it. -/
def frameAt (header : WebsocketHeader) (bytes : Bytes) : Option (Visited × Bytes) := do
  let (extended, bytes) ← cut header.extendedWidth bytes
  let (key, bytes) ← parseKey header.payload.mask bytes
  let (raw, rest) ← cut (header.declared extended).toNat bytes
  return (⟨header, key, raw⟩, rest)

/-- The frames that lie back to back behind a header, up to the first final one. -/
def framesFrom : Nat → WebsocketHeader → Bytes → List Visited
  | 0, _, _ => []
  | fuel + 1, header, bytes =>
    match frameAt header bytes with
    | none => []
    | some (v, b0 :: b1 :: rest) =>
      if v.header.opcode.fin then [v] else v :: framesFrom fuel (.ofBytes b0 b1) rest
    | some (v, _) => [v]

/-- The frames of a read that are given to the data frame decoder. Every frame has two bytes of its
own, so the length is fuel enough. -/
def framesRead (c : WebsocketClient) : Bytes → List Visited
  | b0 :: b1 :: rest =>
    if c.isConnected ≠ .none ∧ (OpcodeBit.ofByte b0).opcode.isData then
      framesFrom (rest.length + 1) (.ofBytes b0 b1) rest
    else []
  | _ => []

/-- A frame under the number of its message; a control frame has none. -/
abbrev Piece := Option Nat × Visited

/-- `current` is the number of the last message begun, `open_` whether it still goes on. -/
structure Ledger where
  held : List Piece
  current : Nat
  open_ : Bool
  deriving DecidableEq

def OpcodeFlag.opens : OpcodeFlag → Bool
  | .textFrame | .binaryFrame => true
  | _ => false

/-- The payload bytes of some frames. -/
def payloads (pieces : List Piece) : Bytes := pieces.flatMap fun piece => piece.2.payload

namespace Ledger

def bytes (l : Ledger) : Bytes := payloads l.held

/-- A text or binary frame begins a message, and so does a continuation of none. -/
def take (l : Ledger) (v : Visited) : Ledger :=
  if v.header.opcode.opcode.isData then
    let id := if v.header.opcode.opcode.opens || !l.open_ then l.current + 1 else l.current
    ⟨l.held ++ [(some id, v)], id, !v.header.opcode.fin⟩
  else { l with held := l.held ++ [(none, v)] }

def takeAll : Ledger → List Visited → Ledger := List.foldl take

/-- A rejected message goes on no longer. -/
def reject (l : Ledger) : Ledger := { l with open_ := false }

def clear (l : Ledger) : Ledger := { l with held := [] }

end Ledger

/-- All bytes of the frames belong to one message. -/
def OneMessage (pieces : List Piece) : Prop :=
  ∃ id, ∀ piece ∈ pieces, piece.2.payload ≠ [] → piece.1 = some id

structure Conversation where
  client : WebsocketClient
  ledger : Ledger
  log : List (Bytes × List Piece)

/-- The read took the `PROTO_ERR` path. -/
def Received.rejects (received : Received) : Bool :=
  match received.calls with
  | [.closeWebsocketClient _] => true
  | _ => false

inductive Turn where
  | read (data : Bytes)
  | other (client : WebsocketClient)

/-- The frames of a read go into the ledger; a rejection or a delivery follows. -/
def Conversation.record (s : Conversation) (r : WebsocketClient × Received)
    (frames : List Visited) : Conversation :=
  let ledger := s.ledger.takeAll frames
  let ledger :=
    if s.client.isConnected ≠ .none ∧ r.2.rejects = true then ledger.reject else ledger
  match r.2.message with
  | some m => ⟨r.1, ledger.clear, s.log ++ [(m, ledger.held)]⟩
  | none => ⟨r.1, ledger, s.log⟩

/-- A read with its callback, or anything that the rest of the server does to the client. -/
def Conversation.step (proto : Protocol) (s : Conversation) :
    Turn → Except MemoryFault Conversation
  | .other client =>
    .ok { s with client := { client with decodeBuffer := s.client.decodeBuffer } }
  | .read data => do
    let r ← proto.receive s.client data
    return s.record r (framesRead s.client data)

/-- `empty` says that nothing is collected when the first of the frames is reached. -/
def OpensEmpty : Bool → List Visited → Prop
  | _, [] => True
  | empty, v :: rest =>
    (v.header.opcode.opcode.opens = true → empty = true) ∧
    (v.header.opcode.opcode.isData = false → v.raw = []) ∧
    OpensEmpty (empty && v.raw.isEmpty) rest

/-- The frames of a read leave no bytes of an old, foreign or refused message behind. -/
structure CleanFrames (c : WebsocketClient) (visited : List Visited) (ending : Ending) : Prop where
  counted : ∀ v ∈ visited, v.key.isSome = true → v.raw.length < 2 ^ 31
  opens : OpensEmpty c.decodeBuffer.isEmpty visited
  refused : ending = .refused → c.decodeBuffer = [] ∧ ∀ v ∈ visited, v.raw = []
  text : ∀ v, visited = [v] → v.header.opcode.opcode = .textFrame → v.header.opcode.fin = true →
    validateUtf8 v.payload = true
  undelivered : ∀ v ∈ visited.getLast?, v.header.opcode.fin = true →
    v.header.opcode.opcode.isData = true →
    c.isConnected = .connected ∨ c.decodeBuffer = [] ∧ ∀ w ∈ visited, w.raw = []

/-- The decoder finds all that it looks for inside the read, and the frames there are clean. -/
def CleanRead (c : WebsocketClient) : Bytes → Prop
  | b0 :: b1 :: rest =>
    c.isConnected ≠ .none → (OpcodeBit.ofByte b0).opcode.isData = true →
    ∃ visited ending, Walk (rest.length + 2) 0 (.ofBytes b0 b1) rest visited ending ∧
      CleanFrames c visited ending
  | _ => c.isConnected ≠ .none → c.decodeBuffer = []

def Conversation.Clean (s : Conversation) : Turn → Prop
  | .other _ => True
  | .read data => CleanRead s.client data

theorem parseKey_keyBytes {v : Visited} (keyed : v.header.payload.mask = v.key.isSome)
    (rest : Bytes) : parseKey v.header.payload.mask (v.keyBytes ++ rest) = some (v.key, rest) := by
  rw [keyed]
  cases v with
  | mk header key raw =>
    cases key with
    | none => exact Rfc6455.parseKey_none rest
    | some key => rfl

theorem frameAt_visit {size behind : Nat} {v : Visited} {bytes rest : Bytes}
    (visit : Visit size behind v bytes rest) : frameAt v.header bytes = some (v, rest) := by
  obtain ⟨⟨extended, rfl, width, extent, _⟩, _, keyed, _⟩ := visit
  have first := Rfc6455.cut_append extended (v.keyBytes ++ (v.raw ++ rest))
  have last := Rfc6455.cut_append v.raw rest
  rw [width] at first
  rw [extent] at last
  simp only [frameAt, first, parseKey_keyBytes keyed, last, Option.bind_eq_bind, Option.bind_some]
  rfl

/-- A frame whose length is refused is not all there. -/
theorem frameAt_refused {size : Nat} {header : WebsocketHeader} {bytes : Bytes}
    (refused : Refused size header bytes) (room : bytes.length + 2 ≤ size) :
    frameAt header bytes = none := by
  cases found : frameAt header bytes with
  | none => rfl
  | some both =>
    simp only [frameAt, Option.bind_eq_bind, Option.bind_eq_some_iff] at found
    obtain ⟨⟨extended, tail⟩, first, ⟨key, tail'⟩, middle, ⟨raw, rest⟩, last, _⟩ := found
    obtain ⟨rfl, width⟩ := Rfc6455.cut_some first
    have tails := Rfc6455.parseKey_some middle
    obtain ⟨raws, extent⟩ := Rfc6455.cut_some last
    dsimp only at tails raws extent
    subst tails raws
    simp only [List.length_append] at room
    rcases refused with short | ⟨extended', rest', split, width', large⟩
    · unfold WebsocketHeader.minimumSize at short
      unfold WebsocketHeader.extendedWidth at width
      have two : sizeofHeader = 2 := rfl
      split at short
      · rename_i flag
        rw [if_pos flag] at width
        omega
      · rename_i flag
        rw [if_neg flag] at width
        split at short
        · rename_i flag'
          rw [if_pos flag'] at width
          omega
        · exact absurd short (Nat.not_lt_zero _)
    · obtain ⟨rfl, _⟩ := List.append_inj split (width.trans width'.symm)
      have sum : (header.declared extended + sizeofHeader.toUInt64).toNat ≤
          (header.declared extended).toNat + 2 := by
        rw [UInt64.toNat_add]
        exact Nat.mod_le _ _
      omega

/-- A walk inside the read visits the frames that lie there. -/
theorem framesFrom_walk {size : Nat} {header : WebsocketHeader} {bytes : Bytes}
    {visited : List Visited} {ending : Ending} (walk : Walk size 0 header bytes visited ending)
    (fuel : Nat) (enough : bytes.length < fuel) (room : bytes.length + 2 ≤ size) :
    framesFrom fuel header bytes = visited := by
  induction walk generalizing fuel with
  | refused refused =>
    obtain ⟨fuel, rfl⟩ : ∃ n, fuel = n + 1 := ⟨fuel - 1, by omega⟩
    rw [framesFrom, frameAt_refused refused room]
  | @last v bytes rest visit ends =>
    obtain ⟨fuel, rfl⟩ : ∃ n, fuel = n + 1 := ⟨fuel - 1, by omega⟩
    rw [framesFrom, frameAt_visit visit]
    rcases ends with fin | empty
    · match rest with
      | [] | [_] => rfl
      | b0 :: b1 :: rest => exact if_pos fin
    · rw [List.length_append] at empty
      match rest with
      | [] => rfl
      | b :: rest =>
        rw [List.length_cons] at empty
        omega
  | @next v bytes b0 b1 rest visited ending visit goes walk ih =>
    obtain ⟨fuel, rfl⟩ : ∃ n, fuel = n + 1 := ⟨fuel - 1, by omega⟩
    have unfinished : v.header.opcode.fin = false := by
      rw [Bool.eq_false_iff]
      exact fun fin => goes (Or.inl fin)
    have shorter : rest.length + 2 ≤ bytes.length := by
      obtain ⟨extended, rfl, _⟩ := visit.layout
      simp only [List.length_append, List.length_cons]
      omega
    rw [framesFrom, frameAt_visit visit]
    dsimp only
    rw [unfinished, if_neg Bool.false_ne_true, ih fuel (by omega) (by omega)]

theorem Visited.payload_nil {v : Visited} : v.payload = [] ↔ v.raw = [] := by
  rw [← List.length_eq_zero_iff, Visited.payload_length, List.length_eq_zero_iff]

namespace Ledger

/-- Every byte that is held belongs to the current message. -/
def Own (l : Ledger) : Prop :=
  ∀ piece ∈ l.held, piece.2.payload ≠ [] → piece.1 = some l.current

def Live (l : Ledger) : Prop := l.open_ = false → l.bytes = []

@[simp] theorem bytes_take (l : Ledger) (v : Visited) :
    (l.take v).bytes = l.bytes ++ v.payload := by
  unfold take
  split <;> simp [bytes, payloads]

theorem bytes_takeAll (l : Ledger) (visited : List Visited) :
    (l.takeAll visited).bytes = l.bytes ++ visited.flatMap Visited.payload := by
  induction visited generalizing l with
  | nil => simp [takeAll]
  | cons v rest ih =>
    have later := ih (l.take v)
    rw [takeAll, List.foldl_cons, ← takeAll, later, bytes_take]
    simp

theorem empty_of_bytes {l : Ledger} (empty : l.bytes = []) :
    ∀ piece ∈ l.held, piece.2.payload = [] :=
  List.flatMap_eq_nil_iff.mp empty

theorem take_own {l : Ledger} {v : Visited} (own : l.Own) (live : l.Live)
    (opens : v.header.opcode.opcode.opens = true → l.bytes = [])
    (control : v.header.opcode.opcode.isData = false → v.raw = []) : (l.take v).Own := by
  unfold take
  split
  · rename_i data
    intro held member some_
    rcases List.mem_append.mp member with before | new
    · by_cases fresh : v.header.opcode.opcode.opens || !l.open_
      · have empty : l.bytes = [] := by
          rcases Bool.or_eq_true_iff.mp fresh with begins | closed
          · exact opens begins
          · exact live (by simpa using closed)
        exact absurd (empty_of_bytes empty held before) some_
      · dsimp only
        rw [if_neg fresh]
        exact own held before some_
    · rw [List.mem_singleton.mp new]
  · rename_i other
    intro held member some_
    rcases List.mem_append.mp member with before | new
    · exact own held before some_
    · rw [List.mem_singleton.mp new] at some_
      exact absurd (Visited.payload_nil.mpr (control (by simpa using other))) some_

theorem take_live {l : Ledger} {v : Visited} (live : l.Live)
    (unfinished : v.header.opcode.fin = true → v.header.opcode.opcode.isData = false)
    (control : v.header.opcode.opcode.isData = false → v.raw = []) : (l.take v).Live := by
  intro closed
  rw [bytes_take]
  cases data : v.header.opcode.opcode.isData with
  | true =>
    simp only [take, data, ↓reduceIte, Bool.not_eq_eq_eq_not, Bool.not_false] at closed
    rw [unfinished closed] at data
    contradiction
  | false =>
    simp only [take, data, Bool.false_eq_true, ↓reduceIte] at closed
    rw [live closed, Visited.payload_nil.mpr (control data)]
    rfl

end Ledger

/-- The read ends in a final data frame. -/
def EndsMessage (visited : List Visited) : Prop :=
  ∃ v ∈ visited.getLast?, v.header.opcode.fin = true ∧ v.header.opcode.opcode.isData = true

theorem Visited.payload_isEmpty (v : Visited) : v.payload.isEmpty = v.raw.isEmpty := by
  rw [Bool.eq_iff_iff, List.isEmpty_iff, List.isEmpty_iff]
  exact Visited.payload_nil

theorem takeAll_walk {size : Nat} {header : WebsocketHeader} {bytes : Bytes}
    {visited : List Visited} {ending : Ending} (walk : Walk size 0 header bytes visited ending)
    (l : Ledger) (own : l.Own) (live : l.Live) (opens : OpensEmpty l.bytes.isEmpty visited) :
    (l.takeAll visited).Own ∧
      ((l.takeAll visited).Live ∨ EndsMessage visited ∧ ending = .ended) := by
  induction walk generalizing l with
  | refused _ => exact ⟨own, Or.inl live⟩
  | @last v bytes rest visit ends =>
    obtain ⟨begins, control, _⟩ := opens
    refine ⟨Ledger.take_own own live (fun opens => List.isEmpty_iff.mp (begins opens)) control, ?_⟩
    by_cases final : v.header.opcode.fin = true ∧ v.header.opcode.opcode.isData = true
    · exact Or.inr ⟨⟨v, rfl, final⟩, rfl⟩
    · refine Or.inl (Ledger.take_live live (fun fin => ?_) control)
      exact Bool.eq_false_iff.mpr fun data => final ⟨fin, data⟩
  | @next v bytes b0 b1 rest visited ending visit goes walk ih =>
    obtain ⟨begins, control, after⟩ := opens
    have own' : (l.take v).Own :=
      Ledger.take_own own live (fun opens => List.isEmpty_iff.mp (begins opens)) control
    have live' : (l.take v).Live :=
      Ledger.take_live live (fun fin => absurd (Or.inl fin) goes) control
    have opens' : OpensEmpty (l.take v).bytes.isEmpty visited := by
      have both : (l.bytes ++ v.payload).isEmpty = (l.bytes.isEmpty && v.payload.isEmpty) := by
        cases l.bytes <;> rfl
      rw [Ledger.bytes_take, both, Visited.payload_isEmpty]
      exact after
    obtain ⟨owned, lives⟩ := ih (l.take v) own' live' opens'
    refine ⟨owned, lives.imp id ?_⟩
    rintro ⟨⟨w, last, final⟩, ended⟩
    refine ⟨⟨w, ?_, final⟩, ended⟩
    rw [List.getLast?_cons, Option.mem_def.mp last]
    rfl

/-- What is held belongs to the message that goes on, and what was delivered to one each. -/
structure Conversation.Isolated (s : Conversation) : Prop where
  holds : s.client.decodeBuffer = s.ledger.bytes
  own : s.ledger.Own
  live : s.ledger.Live
  log : ∀ entry ∈ s.log, entry.1 = payloads entry.2 ∧ OneMessage entry.2

/-- A read that the data frame decoder does not see. -/
structure Aside (c c' : WebsocketClient) (data : Bytes) (received : Received) : Prop where
  frames : framesRead c data = []
  rejects : c.isConnected ≠ .none → received.rejects = true → data.length < 2
  message : received.message = none ∧ c'.decodeBuffer = c.decodeBuffer ∨
    received.message = some c.decodeBuffer ∧ c'.decodeBuffer = []

theorem websocketShakeHands_decodeBuffer (proto : Protocol) (c : WebsocketClient) :
    (proto.websocketShakeHands c).2.1.decodeBuffer = c.decodeBuffer := by
  unfold Protocol.websocketShakeHands
  split
  · split <;> rfl
  · rfl

theorem decodeHandshake_decodeBuffer {proto : Protocol} {c : WebsocketClient} {data : Bytes}
    {r : WebsocketClient × List Call} (done : proto.decodeHandshake c data = .ok r) :
    r.1.decodeBuffer = c.decodeBuffer := by
  obtain ⟨⟨decoded, httpHeader⟩, _, done⟩ := bind_eq_ok.mp done
  cases decoded with
  | false =>
    cases done
    rfl
  | true =>
    cases done
    exact websocketShakeHands_decodeBuffer proto _

theorem recvWrapper_decodeBuffer (r : Bool × WebsocketClient × List Call) :
    (recvWrapper r).2.message = none ∧ (recvWrapper r).1.decodeBuffer = r.2.1.decodeBuffer ∨
    (recvWrapper r).2.message = some r.2.1.decodeBuffer ∧
      (recvWrapper r).1.decodeBuffer = [] := by
  unfold recvWrapper
  split
  · exact Or.inr ⟨rfl, rfl⟩
  · exact Or.inl ⟨rfl, rfl⟩

theorem recvWrapper_calls (r : Bool × WebsocketClient × List Call) :
    (recvWrapper r).2.calls = r.2.2 := by
  unfold recvWrapper
  split <;> rfl

/-- Only short reads and data frames take the `PROTO_ERR` path. -/
theorem decodeFrame_aside {c : WebsocketClient} {r : Bool × WebsocketClient × List Call}
    (aside : c.wbHeader.opcode.opcode.isData = false) (done : Protocol.decodeFrame c = .ok r) :
    r.2.1 = c ∧ ∀ flag, r.2.2 ≠ [.closeWebsocketClient flag] := by
  simp only [Protocol.decodeFrame] at done
  cases kind : c.wbHeader.opcode.opcode with
  | textFrame | binaryFrame | continuationFrame =>
    rw [kind] at aside
    contradiction
  | ping | unnamed =>
    rw [kind] at done
    cases done
    exact ⟨rfl, fun flag => by simp⟩
  | pong =>
    rw [kind] at done
    cases done
    refine ⟨rfl, fun flag => ?_⟩
    dsimp only
    split <;> simp
  | close =>
    rw [kind] at done
    cases done
    refine ⟨rfl, fun flag => ?_⟩
    dsimp only [Protocol.decodeClose]
    split
    · split <;> simp
    · simp

theorem rejects_iff (received : Received) :
    received.rejects = true ↔ ∃ flag, received.calls = [.closeWebsocketClient flag] := by
  unfold Received.rejects
  split
  · rename_i flag calls
    exact ⟨fun _ => ⟨flag, calls⟩, fun _ => rfl⟩
  · rename_i other
    exact ⟨nofun, fun ⟨flag, calls⟩ => absurd calls (other flag)⟩

theorem receive_aside {proto : Protocol} {c : WebsocketClient} {data : Bytes}
    {r : WebsocketClient × Received}
    (aside : ∀ b0 b1 rest, data = b0 :: b1 :: rest → c.isConnected ≠ .none →
      (OpcodeBit.ofByte b0).opcode.isData = false)
    (done : proto.receive c data = .ok r) : Aside c r.1 data r.2 := by
  rw [receive_wrapper] at done
  obtain ⟨result, decoded, rfl⟩ := map_eq_ok done
  have message := recvWrapper_decodeBuffer result
  have frames : framesRead c data = [] := by
    unfold framesRead
    split
    · rename_i b0 b1 rest
      apply if_neg
      rintro ⟨shaken, isData⟩
      rw [aside b0 b1 rest rfl shaken] at isData
      contradiction
    · rfl
  by_cases fresh : c.isConnected = .none
  · unfold Protocol.decodeProtoData at decoded
    rw [if_pos fresh] at decoded
    obtain ⟨⟨c', calls⟩, handshake, quiet⟩ := bind_eq_ok.mp decoded
    cases quiet
    have kept : c'.decodeBuffer = c.decodeBuffer := decodeHandshake_decodeBuffer handshake
    exact ⟨frames, fun shaken => absurd fresh shaken, kept ▸ message⟩
  · match data with
    | b0 :: b1 :: rest =>
      simp only [Protocol.decodeProtoData, if_neg fresh] at decoded
      obtain ⟨same, other⟩ := decodeFrame_aside (aside b0 b1 rest rfl fresh) decoded
      refine ⟨frames, fun _ rejects => ?_, ?_⟩
      · obtain ⟨flag, calls⟩ := (rejects_iff _).mp rejects
        rw [recvWrapper_calls] at calls
        exact absurd calls (other flag)
      · rw [same] at message
        exact message
    | [] | [_] =>
      simp only [Protocol.decodeProtoData, if_neg fresh] at decoded
      cases decoded
      exact ⟨frames, fun _ _ => by simp, message⟩

/-- What the data frame decoder makes of a read. -/
inductive DataRead (c c' : WebsocketClient) (visited : List Visited) (ending : Ending)
    (whole : Bytes) (received : Received) : Prop where
  | rejected (rejects : received.rejects = true) (message : received.message = none)
    (kept : c'.decodeBuffer = whole)
    (why : ending = .refused ∨ ∃ v, visited = [v] ∧ v.header.opcode.opcode = .textFrame ∧
      v.header.opcode.fin = true ∧ validateUtf8 whole = false)
  | delivered (accepts : received.rejects = false) (message : received.message = some whole)
    (kept : c'.decodeBuffer = [])
  | waits (accepts : received.rejects = false) (message : received.message = none)
    (kept : c'.decodeBuffer = whole) (ended : ending = .ended)
    (last : ∀ v ∈ visited.getLast?, v.header.opcode.fin = true → c.isConnected ≠ .connected)

/-- Behind an accepted read the wrapper looks at the last header and the state. -/
theorem accepted_read {c c' : WebsocketClient} {visited : List Visited}
    (state : c'.isConnected = c.isConnected)
    (ends : visited.getLast?.map Visited.header = some c'.wbHeader) :
    DataRead c (recvWrapper (dataOutcome (.success, c'))).1 visited .ended c'.decodeBuffer
      (recvWrapper (dataOutcome (.success, c'))).2 := by
  have outcome : dataOutcome (.success, c') = (c'.wbHeader.opcode.fin, c', []) := rfl
  rw [outcome]
  by_cases delivers : c'.wbHeader.opcode.fin = true ∧ c'.isConnected = .connected
  · rw [delivers.1, recvWrapper_delivers c' delivers.2]
    exact .delivered rfl rfl rfl
  · have waits : recvWrapper (c'.wbHeader.opcode.fin, c', []) = (c', ⟨none, []⟩) := if_neg delivers
    rw [waits]
    refine .waits rfl rfl rfl rfl fun v last fin connected => delivers ⟨?_, state ▸ connected⟩
    rw [Option.mem_def.mp last] at ends
    exact Option.some.inj ends ▸ fin

theorem Collected.payloads {visited : List Visited} {bytes : Bytes}
    (collected : Collected visited bytes)
    (counted : ∀ v ∈ visited, v.key.isSome = true → v.raw.length < 2 ^ 31) :
    bytes = visited.flatMap Visited.payload := by
  obtain ⟨pieces, rfl, all⟩ := collected
  induction all with
  | nil => rfl
  | @cons v piece visited pieces first later ih =>
    have known : v.key = none ∨ v.raw.length < 2 ^ 31 := by
      cases key : v.key with
      | none => exact Or.inl rfl
      | some k => exact Or.inr (counted v List.mem_cons_self (by rw [key]; rfl))
    rw [List.flatten_cons, List.flatMap_cons, first.2 known,
      ih fun w member => counted w (List.mem_cons_of_mem v member)]

theorem framesRead_walk {c : WebsocketClient} {b0 b1 : Byte} {rest : Bytes}
    {visited : List Visited} {ending : Ending} (shaken : c.isConnected ≠ .none)
    (data : (OpcodeBit.ofByte b0).opcode.isData = true)
    (walk : Walk (rest.length + 2) 0 (.ofBytes b0 b1) rest visited ending) :
    framesRead c (b0 :: b1 :: rest) = visited := by
  rw [framesRead, if_pos ⟨shaken, data⟩]
  exact framesFrom_walk walk _ (Nat.lt_succ_self _) (Nat.le_refl _)

theorem receive_data {proto : Protocol} {c : WebsocketClient} {b0 b1 : Byte} {rest : Bytes}
    {r : WebsocketClient × Received} {visited : List Visited} {ending : Ending}
    (shaken : c.isConnected ≠ .none) (data : (OpcodeBit.ofByte b0).opcode.isData = true)
    (walk : Walk (rest.length + 2) 0 (.ofBytes b0 b1) rest visited ending)
    (counted : ∀ v ∈ visited, v.key.isSome = true → v.raw.length < 2 ^ 31)
    (done : proto.receive c (b0 :: b1 :: rest) = .ok r) :
    DataRead c r.1 visited ending (c.decodeBuffer ++ visited.flatMap Visited.payload) r.2 := by
  rw [receive_wrapper] at done
  obtain ⟨result, decoded, rfl⟩ := map_eq_ok done
  simp only [Protocol.decodeProtoData, if_neg shaken] at decoded
  rw [decodeFrame_data data] at decoded
  obtain ⟨⟨flag, c'⟩, frame, rfl⟩ := map_eq_ok decoded
  obtain ⟨st, frames, ⟨bytes, content, collected⟩, last⟩ := decodeFrames_walk { c with
    isStreaming := !(OpcodeBit.ofByte b0).fin || c.isStreaming } b0 b1 rest nothing_near
    (walksTo_nil.mpr walk)
  have inside : decodeInMemory [] (c.loaded b0 b1 rest) = .ok (finishDecode
      (c.loaded b0 b1 rest).markStreaming ending.jump st) := by
    rw [decodeInMemory, loaded_markStreaming, frames, ok_bind]
    rfl
  have finished := Except.ok.inj (frame.symm.trans (decodeInMemory_extends inside [0]))
  rw [loaded_markStreaming] at finished
  have whole : st.decodeBuffer = c.decodeBuffer ++ visited.flatMap Visited.payload := by
    rw [content, collected.payloads counted]
  rw [← whole]
  cases ending with
  | refused =>
    cases finished
    exact .rejected rfl rfl rfl (Or.inl rfl)
  | ended =>
    by_cases refused : TextRefused (.ofBytes b0 b1) st.decodeBuffer
    · cases finished.trans (finishDecode_refused refused)
      obtain ⟨text, fin, invalid⟩ := refused
      refine .rejected rfl rfl rfl (Or.inr ?_)
      generalize first : WebsocketHeader.ofBytes b0 b1 = header at walk text fin
      cases walk with
      | last visit _ => exact ⟨_, rfl, text, fin, invalid⟩
      | next visit goes _ => exact absurd (Or.inl fin) goes
    · cases finished.trans (finishDecode_accepted refused)
      exact accepted_read rfl (last rfl)

theorem payloads_empty {visited : List Visited} (empty : ∀ v ∈ visited, v.raw = []) :
    visited.flatMap Visited.payload = [] :=
  List.flatMap_eq_nil_iff.mpr fun v member => Visited.payload_nil.mpr (empty v member)

theorem CleanFrames.rejected_empty {c : WebsocketClient} {visited : List Visited}
    {ending : Ending} (clean : CleanFrames c visited ending)
    (why : ending = .refused ∨ ∃ v, visited = [v] ∧ v.header.opcode.opcode = .textFrame ∧
      v.header.opcode.fin = true ∧
      validateUtf8 (c.decodeBuffer ++ visited.flatMap Visited.payload) = false) :
    c.decodeBuffer ++ visited.flatMap Visited.payload = [] := by
  rcases why with refused | ⟨v, rfl, kind, fin, invalid⟩
  · obtain ⟨buffer, raws⟩ := clean.refused refused
    rw [buffer, payloads_empty raws]
    rfl
  · have none_ : c.decodeBuffer = [] :=
      List.isEmpty_iff.mp (clean.opens.1 (by rw [kind]; rfl))
    rw [none_, List.nil_append, List.flatMap_singleton, clean.text v rfl kind fin] at invalid
    contradiction

namespace Conversation

theorem delivered_isolated {s : Conversation} {c : WebsocketClient} {l : Ledger} {m : Bytes}
    (isolated : s.Isolated) (own : l.Own) (content : m = l.bytes) (kept : c.decodeBuffer = []) :
    Isolated ⟨c, l.clear, s.log ++ [(m, l.held)]⟩ := by
  refine ⟨kept, nofun, fun _ => rfl, fun entry member => ?_⟩
  rcases List.mem_append.mp member with before | new
  · exact isolated.log entry before
  · rw [List.mem_singleton.mp new]
    exact ⟨content, l.current, own⟩

theorem data_isolated {s : Conversation} {r : WebsocketClient × Received} {visited : List Visited}
    {ending : Ending} {size : Nat} {header : WebsocketHeader} {bytes : Bytes}
    (isolated : s.Isolated) (shaken : s.client.isConnected ≠ .none)
    (walk : Walk size 0 header bytes visited ending) (clean : CleanFrames s.client visited ending)
    (read : DataRead s.client r.1 visited ending
      (s.client.decodeBuffer ++ visited.flatMap Visited.payload) r.2) :
    (s.record r visited).Isolated := by
  have content : s.client.decodeBuffer ++ visited.flatMap Visited.payload =
      (s.ledger.takeAll visited).bytes := by
    rw [Ledger.bytes_takeAll, isolated.holds]
  have opens := clean.opens
  rw [isolated.holds] at opens
  obtain ⟨own, lives⟩ := takeAll_walk walk s.ledger isolated.own isolated.live opens
  cases read with
  | rejected rejects message kept why =>
    have empty := clean.rejected_empty why
    simp only [record, message, rejects, shaken, ne_eq, not_false_eq_true, and_self, ↓reduceIte]
    exact ⟨kept.trans content, own, fun _ => content.symm.trans empty, isolated.log⟩
  | delivered accepts message kept =>
    simp only [record, message, accepts, Bool.false_eq_true, and_false, ↓reduceIte]
    exact delivered_isolated isolated own content kept
  | waits accepts message kept ended last =>
    simp only [record, message, accepts, Bool.false_eq_true, and_false, ↓reduceIte]
    refine ⟨kept.trans content, own, ?_, isolated.log⟩
    rcases lives with live | ⟨⟨v, final, fin, data⟩, _⟩
    · exact live
    · rcases clean.undelivered v final fin data with connected | ⟨buffer, raws⟩
      · exact absurd connected (last v final fin)
      · intro _
        rw [← content, buffer, payloads_empty raws]
        rfl

theorem aside_isolated {s : Conversation} {r : WebsocketClient × Received} {data : Bytes}
    (isolated : s.Isolated) (clean : CleanRead s.client data)
    (aside : Aside s.client r.1 data r.2) :
    (s.record r (framesRead s.client data)).Isolated := by
  have empty (shaken : s.client.isConnected ≠ .none) (rejects : r.2.rejects = true) :
      s.ledger.bytes = [] := by
    have short := aside.rejects shaken rejects
    rw [← isolated.holds]
    match data with
    | [] | [_] => exact clean shaken
    | b0 :: b1 :: rest =>
      simp only [List.length_cons] at short
      omega
  obtain ⟨ledger, chosen⟩ : ∃ ledger, (if s.client.isConnected ≠ .none ∧ r.2.rejects = true then
      s.ledger.reject else s.ledger) = ledger := ⟨_, rfl⟩
  have rejected : ledger.held = s.ledger.held ∧ ledger.Own ∧ ledger.Live := by
    rw [← chosen]
    split
    · rename_i both
      exact ⟨rfl, isolated.own, fun _ => empty both.1 both.2⟩
    · exact ⟨rfl, isolated.own, isolated.live⟩
  obtain ⟨held, own, live⟩ := rejected
  have bytes : s.client.decodeBuffer = ledger.bytes := by
    rw [isolated.holds, Ledger.bytes, Ledger.bytes, held]
  have taken : s.ledger.takeAll [] = s.ledger := rfl
  rw [aside.frames]
  rcases aside.message with ⟨message, kept⟩ | ⟨message, kept⟩
  · simp only [record, message, taken, chosen]
    exact ⟨kept.trans bytes, own, live, isolated.log⟩
  · simp only [record, message, taken, chosen]
    exact delivered_isolated isolated own bytes kept

theorem step_isolated (proto : Protocol) (s : Conversation) (turn : Turn)
    (isolated : s.Isolated) (clean : s.Clean turn) :
    Ensures (fun _ => False) (s.step proto turn) Conversation.Isolated := by
  cases turn with
  | other client => exact ⟨isolated.holds, isolated.own, isolated.live, isolated.log⟩
  | read data =>
    cases received : proto.receive s.client data with
    | error fault => simp only [step, received, error_bind]; exact id
    | ok r =>
      simp only [step, received, ok_bind]
      by_cases framed : ∃ b0 b1 rest, data = b0 :: b1 :: rest ∧ s.client.isConnected ≠ .none ∧
          (OpcodeBit.ofByte b0).opcode.isData = true
      · obtain ⟨b0, b1, rest, rfl, shaken, isData⟩ := framed
        obtain ⟨visited, ending, walk, frames⟩ := clean shaken isData
        rw [framesRead_walk shaken isData walk]
        exact data_isolated isolated shaken walk frames
          (receive_data shaken isData walk frames.counted received)
      · refine aside_isolated isolated clean (receive_aside ?_ received)
        intro b0 b1 rest split shaken
        exact Bool.eq_false_iff.mpr fun isData => framed ⟨b0, b1, rest, split, shaken, isData⟩

/-- A client before its first read. -/
def start (client : WebsocketClient) : Conversation := ⟨client, ⟨[], 0, false⟩, []⟩

end Conversation

/-- In a run of clean reads every delivered message is made of the payloads of its own frames. -/
theorem messages_isolated (proto : Protocol) (c : WebsocketClient) (empty : c.decodeBuffer = [])
    (turns : List Turn)
    (clean : Along (Conversation.step proto) Conversation.Clean (.start c) turns)
    (s : Conversation) (done : run (Conversation.step proto) (.start c) turns = .ok s) :
    ∀ entry ∈ s.log, entry.1 = payloads entry.2 ∧ OneMessage entry.2 := by
  have isolated : (Conversation.start c).Isolated :=
    ⟨empty, List.forall_mem_nil _, fun _ => rfl, List.forall_mem_nil _⟩
  exact ((run_ensures (Conversation.step_isolated proto) _ turns isolated clean).of_ok done).log

/-- For a read of encoded frames the condition speaks of these frames. -/
theorem clean_encoded {c : WebsocketClient} {f : Frame} {more : List Frame} {rest : Bytes}
    (chain : Chain rest f more) (plain : ∀ g ∈ f :: more, Plain g)
    (clean : CleanFrames c ((f :: more).map visited) .ended) :
    CleanRead c (encodeAll (f :: more) ++ rest) := by
  rw [Rfc6455.encodeAll_cons, Frame.encode, List.cons_append, List.cons_append, List.cons_append,
    List.cons_append, List.append_assoc]
  intro _ _
  have fits : (encodeAll (f :: more)).length ≤ (f.body ++ (encodeAll more ++ rest)).length + 2 := by
    simp only [Rfc6455.encodeAll_cons, Frame.encode, List.length_append, List.length_cons]
    omega
  refine ⟨_, _, ?_, clean⟩
  rw [WebsocketHeader.ofBytes_frame]
  exact chain_walk chain plain _ fits

/-- A fragmented message in one read, and a PING. -/
theorem hello_isolated : ∃ s, run (Conversation.step ⟨true, id⟩) (.start connectedClient)
      [.read (encodeAll [he, llo]), .read emptyPing.encode] = .ok s ∧
    ∀ entry ∈ s.log, entry.1 = payloads entry.2 ∧ OneMessage entry.2 := by
  have plain : ∀ g ∈ [he, llo], Plain g := by
    simp only [List.mem_cons, List.not_mem_nil, or_false, forall_eq_or_imp, forall_eq]
    exact ⟨.of_small (by decide), .of_small (by decide)⟩
  have hello : CleanRead connectedClient (encodeAll [he, llo] ++ []) :=
    clean_encoded (.next rfl (.last (Or.inl rfl))) plain
      { counted := by decide
        opens := by
          simp [OpensEmpty, visited, WebsocketHeader.ofFrame, he, llo, OpcodeFlag.ofRfc,
            OpcodeFlag.opens, OpcodeFlag.isData, connectedClient, WebsocketClient.new]
        refused := nofun
        text := fun v single => absurd (congrArg List.length single) (by simp)
        undelivered := fun _ _ _ _ => Or.inl rfl }
  rw [List.append_nil] at hello
  have ping (c : WebsocketClient) : CleanRead c emptyPing.encode := by
    intro _ data
    have control : (OpcodeBit.ofByte emptyPing.byte0).opcode.isData = false := by decide
    rw [control] at data
    contradiction
  have clean : Along (Conversation.step ⟨true, id⟩) Conversation.Clean (.start connectedClient)
      [.read (encodeAll [he, llo]), .read emptyPing.encode] :=
    ⟨hello, fun s _ => ⟨ping s.client, fun _ _ => trivial⟩⟩
  obtain ⟨s, done⟩ := exists_ok (x := run (Conversation.step ⟨true, id⟩) (.start connectedClient)
    [.read (encodeAll [he, llo]), .read emptyPing.encode]) (by decide +kernel)
  exact ⟨s, done, messages_isolated ⟨true, id⟩ connectedClient rfl _ clean s done⟩

/-- A text of one byte that is no UTF-8, and a binary frame. -/
def refusedText : Frame := ⟨true, .text, some ⟨1, 2, 3, 4⟩, [0xff]⟩
def binaryA : Frame := ⟨true, .binary, some ⟨5, 6, 7, 8⟩, ascii "a"⟩

/-- Refused text is delivered in front of the next message. -/
theorem refused_text_delivered :
    (run (Conversation.step ⟨true, id⟩) (.start connectedClient)
      [.read refusedText.encode, .read binaryA.encode]).toOption.map Conversation.log =
      some [(0xff :: ascii "a", [(some 1, visited refusedText), (some 2, visited binaryA)])] ∧
    ¬ OneMessage [(some 1, visited refusedText), (some 2, visited binaryA)] := by
  refine ⟨by decide +kernel, fun ⟨id, same⟩ => ?_⟩
  have first := same (some 1, visited refusedText) (by decide) (by decide)
  have second := same (some 2, visited binaryA) (by decide) (by decide)
  have equal : 1 = 2 := Option.some.inj (first.trans second.symm)
  contradiction

end WebsocketProto
