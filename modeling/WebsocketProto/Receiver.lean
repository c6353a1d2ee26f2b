import WebsocketProto.FrameDecoding

/-! One connected client over many reads: each is handled by `decode_proto_data`, which is
followed by the wrapper of the recv callback. Segmentation and control frames. -/
namespace WebsocketProto
open Rfc6455 (Key Frame Opcode encodeAll messages remainder opened Legal)
open Outcome

/-- What one read does outside the client: the message that the user's callback sees and
the calls that the server makes. -/
structure Received where
  message : Option Bytes
  calls : List Call
  deriving DecidableEq

def Protocol.receive (proto : Protocol) (c : WebsocketClient) (data : Bytes) :
    Except MemoryFault (WebsocketClient × Received) := do
  let (ret, c, calls) ← proto.decodeProtoData c data
  if ret = true ∧ c.isConnected = .connected then
    return ({ c with decodeBuffer := [] }, ⟨some c.decodeBuffer, calls⟩)
  else return (c, ⟨none, calls⟩)

/-- What the rest of the server does to a client between two reads: it queues, sends and
sets timers, but the open message and the state of a connected client stay. -/
structure Surroundings where
  between : Nat → WebsocketClient → WebsocketClient
  decodeBuffer : ∀ n c, (between n c).decodeBuffer = c.decodeBuffer
  isConnected : ∀ n c, (between n c).isConnected = c.isConnected

def Protocol.receiveAll (proto : Protocol) (around : Surroundings) :
    WebsocketClient → List Bytes → Except MemoryFault (WebsocketClient × List Received)
  | c, [] => .ok (c, [])
  | c, data :: rest => do
    let (c, received) ← proto.receive c data
    let (c, later) ← proto.receiveAll around (around.between rest.length c) rest
    return (c, received :: later)

def delivered (received : List Received) : List Bytes := received.filterMap Received.message

/-- Nothing happens between two reads. -/
def Surroundings.still : Surroundings := ⟨fun _ c => c, fun _ _ => rfl, fun _ _ => rfl⟩

/-- What the server does about a PING or a PONG. -/
def controlCalls (c : WebsocketClient) (f : Frame) : List Call :=
  if f.opcode = .ping then [.sendWithoutFrame (.frame .pongReply)]
  else if c.timeWheelId ≠ 0 then [.removeFromTimeWheel]
  else []

/-- Only the first header of a read that begins with a PING or a PONG is looked at. -/
theorem receive_control (proto : Protocol) (c : WebsocketClient) (f : Frame) (rest : Bytes)
    (shaken : c.isConnected ≠ .none) (kind : f.opcode = .ping ∨ f.opcode = .pong) :
    proto.receive c (f.encode ++ rest) =
      .ok (c.loaded f.byte0 f.byte1 (f.body ++ rest), ⟨none, controlCalls c f⟩) := by
  have header : (c.loaded f.byte0 f.byte1 (f.body ++ rest)).wbHeader.opcode.opcode =
      .ofRfc f.opcode := by
    rw [WebsocketClient.loaded, WebsocketHeader.ofBytes_frame]
    rfl
  simp only [Protocol.receive, Frame.encode, List.cons_append, Protocol.decodeProtoData,
    if_neg shaken, Protocol.decodeFrame, header]
  rcases kind with ping | pong
  · simp only [ping, OpcodeFlag.ofRfc, controlCalls]
    rfl
  · simp only [pong, OpcodeFlag.ofRfc, controlCalls]
    rfl

/-- The part of a connected client that decides what a read delivers. -/
def WebsocketClient.receiving (c : WebsocketClient) : Bytes × ConnectionState :=
  (c.decodeBuffer, c.isConnected)

/-- The results of two reads, as far as the messages go. -/
def SameReceived (x y : Except MemoryFault (WebsocketClient × Received)) : Prop :=
  x.map (fun r => (r.1.receiving, r.2.message)) = y.map (fun r => (r.1.receiving, r.2.message))

theorem finishDecode_same {c d : WebsocketClient} (header : c.wbHeader = d.wbHeader)
    (state : c.isConnected = d.isConnected) (jump : Jump) (st : DecodeState) :
    (finishDecode c jump st).1 = (finishDecode d jump st).1 ∧
    (finishDecode c jump st).2.receiving = (finishDecode d jump st).2.receiving ∧
    (finishDecode c jump st).2.wbHeader = (finishDecode d jump st).2.wbHeader := by
  cases jump with
  | returns flag => exact ⟨rfl, congrArg (Prod.mk st.decodeBuffer) state, header⟩
  | again | leave =>
    simp only [finishDecode, header]
    split <;> simp [WebsocketClient.receiving, state]

/-- The data frame decoder reads `decode_buffer_` and the read; it never looks at the state. -/
theorem decodeData_same {c d : WebsocketClient} (same : c.receiving = d.receiving)
    (b0 b1 : Byte) (rest : Bytes) :
    (decodeWebsocketDataFrame (c.loaded b0 b1 rest)).map
        (fun r => (r.1, r.2.receiving, r.2.wbHeader)) =
      (decodeWebsocketDataFrame (d.loaded b0 b1 rest)).map
        (fun r => (r.1, r.2.receiving, r.2.wbHeader)) := by
  obtain ⟨buffer, state⟩ := Prod.mk.inj same
  rw [decodeWebsocketDataFrame, decodeWebsocketDataFrame, decodeInMemory, decodeInMemory,
    loaded_markStreaming, loaded_markStreaming]
  have frames : decodeFrames [0] (WebsocketClient.loaded
        { c with isStreaming := !(OpcodeBit.ofByte b0).fin || c.isStreaming } b0 b1 rest) =
      decodeFrames [0] (WebsocketClient.loaded
        { d with isStreaming := !(OpcodeBit.ofByte b0).fin || d.isStreaming } b0 b1 rest) := by
    simp only [decodeFrames, WebsocketClient.loaded, buffer]
  rw [frames]
  cases decodeFrames [0] _ with
  | error fault => rfl
  | ok result =>
    obtain ⟨flag, view, header⟩ := finishDecode_same
      (c := WebsocketClient.loaded
        { c with isStreaming := !(OpcodeBit.ofByte b0).fin || c.isStreaming } b0 b1 rest)
      (d := WebsocketClient.loaded
        { d with isStreaming := !(OpcodeBit.ofByte b0).fin || d.isStreaming } b0 b1 rest)
      rfl state result.1 result.2
    exact congrArg Except.ok (Prod.ext flag (Prod.ext view header))

/-- What `decode_proto_data` makes of the decoder's result. -/
def dataOutcome (r : CloseFlag × WebsocketClient) : Bool × WebsocketClient × List Call :=
  if r.1 ≠ .success then (false, r.2, [.closeWebsocketClient r.1])
  else (r.2.wbHeader.opcode.fin, r.2, [])

theorem decodeFrame_data {c : WebsocketClient} (data : c.wbHeader.opcode.opcode.isData = true) :
    Protocol.decodeFrame c = (decodeWebsocketDataFrame c).map dataOutcome := by
  have outcome : ∀ result : Except MemoryFault (CloseFlag × WebsocketClient),
      (result >>= fun r => if r.1 ≠ .success then
        .ok (false, r.2, [.closeWebsocketClient r.1])
        else .ok (r.2.wbHeader.opcode.fin, r.2, [])) = result.map dataOutcome := by
    intro result
    cases result with
    | error fault => rfl
    | ok r =>
      simp only [ok_bind, Except.map, dataOutcome]
      split <;> rfl
  rw [← outcome]
  cases kind : c.wbHeader.opcode.opcode with
  | textFrame | binaryFrame | continuationFrame => simp only [Protocol.decodeFrame, kind]; rfl
  | close | pong | ping | unnamed => rw [kind] at data; contradiction

theorem decodeFrame_same {c d : WebsocketClient} (same : c.receiving = d.receiving)
    (b0 b1 : Byte) (rest : Bytes) :
    (Protocol.decodeFrame (c.loaded b0 b1 rest)).map (fun r => (r.1, r.2.1.receiving)) =
      (Protocol.decodeFrame (d.loaded b0 b1 rest)).map (fun r => (r.1, r.2.1.receiving)) := by
  have other : (c.loaded b0 b1 rest).receiving = (d.loaded b0 b1 rest).receiving := same
  have view (result : Except MemoryFault (CloseFlag × WebsocketClient)) :
      (result.map dataOutcome).map (fun r => (r.1, r.2.1.receiving)) =
        (result.map fun r => (r.1, r.2.receiving, r.2.wbHeader)).map fun v =>
          if v.1 ≠ .success then (false, v.2.1) else (v.2.2.opcode.fin, v.2.1) := by
    cases result with
    | error fault => rfl
    | ok r =>
      simp only [Except.map, dataOutcome]
      split <;> rfl
  cases data : (OpcodeBit.ofByte b0).opcode.isData with
  | true =>
    rw [decodeFrame_data data, decodeFrame_data data, view, view, decodeData_same same]
  | false =>
    have kind : (c.loaded b0 b1 rest).wbHeader = (d.loaded b0 b1 rest).wbHeader := rfl
    simp only [Protocol.decodeFrame]
    rw [kind]
    cases opcode : (d.loaded b0 b1 rest).wbHeader.opcode.opcode with
    | close | pong | ping | unnamed => exact congrArg (fun view => Except.ok (_, view)) other
    | textFrame | binaryFrame | continuationFrame =>
      have isData : (OpcodeBit.ofByte b0).opcode.isData = true := congrArg OpcodeFlag.isData opcode
      rw [isData] at data
      contradiction

theorem decodeProtoData_same (proto : Protocol) {c d : WebsocketClient}
    (same : c.receiving = d.receiving) (shaken : c.isConnected ≠ .none) (data : Bytes) :
    (proto.decodeProtoData c data).map (fun r => (r.1, r.2.1.receiving)) =
      (proto.decodeProtoData d data).map (fun r => (r.1, r.2.1.receiving)) := by
  have state : c.isConnected = d.isConnected := congrArg Prod.snd same
  have shaken' : d.isConnected ≠ .none := state ▸ shaken
  match data with
  | b0 :: b1 :: rest =>
    simp only [Protocol.decodeProtoData, if_neg shaken, if_neg shaken']
    exact decodeFrame_same same b0 b1 rest
  | [] | [_] =>
    simp only [Protocol.decodeProtoData, if_neg shaken, if_neg shaken']
    exact congrArg (fun view => Except.ok (_, view)) same

/-- The wrapper of the recv callback. -/
def recvWrapper (r : Bool × WebsocketClient × List Call) : WebsocketClient × Received :=
  if r.1 = true ∧ r.2.1.isConnected = .connected then
    ({ r.2.1 with decodeBuffer := [] }, ⟨some r.2.1.decodeBuffer, r.2.2⟩)
  else (r.2.1, ⟨none, r.2.2⟩)

theorem recvWrapper_delivers (c : WebsocketClient) (connected : c.isConnected = .connected)
    (calls : List Call) : recvWrapper (true, c, calls) =
      ({ c with decodeBuffer := [] }, ⟨some c.decodeBuffer, calls⟩) :=
  if_pos ⟨rfl, connected⟩

theorem recvWrapper_waits (c : WebsocketClient) (calls : List Call) :
    recvWrapper (false, c, calls) = (c, ⟨none, calls⟩) :=
  if_neg nofun

theorem receive_wrapper (proto : Protocol) (c : WebsocketClient) (data : Bytes) :
    proto.receive c data = (proto.decodeProtoData c data).map recvWrapper := by
  rw [Protocol.receive]
  cases proto.decodeProtoData c data with
  | error fault => rfl
  | ok r =>
    simp only [ok_bind, Except.map, recvWrapper]
    split <;> rfl

/-- A read of a connected client delivers the same, whatever else the client holds. -/
theorem receive_same (proto : Protocol) {c d : WebsocketClient}
    (same : c.receiving = d.receiving) (shaken : c.isConnected ≠ .none) (data : Bytes) :
    SameReceived (proto.receive c data) (proto.receive d data) := by
  have view (result : Except MemoryFault (Bool × WebsocketClient × List Call)) :
      (result.map recvWrapper).map (fun r => (r.1.receiving, r.2.message)) =
        (result.map fun r => (r.1, r.2.1.receiving)).map fun v =>
          if v.1 = true ∧ v.2.2 = .connected then (([], v.2.2), some v.2.1) else (v.2, none) := by
    cases result with
    | error fault => rfl
    | ok r =>
      simp only [Except.map, recvWrapper, WebsocketClient.receiving]
      split <;> rfl
  rw [SameReceived, receive_wrapper, receive_wrapper, view, view,
    decodeProtoData_same proto same shaken]

/-- What a read leaves of a client whose handshake is under way or done. -/
structure WebsocketClient.Settled (c c' : WebsocketClient) : Prop where
  isConnected : c'.isConnected = c.isConnected
  httpHeader : c'.httpHeader = c.httpHeader
  waitClose : c.waitClose = true → c'.waitClose = true

theorem finishDecode_settled (c : WebsocketClient) (jump : Jump) (st : DecodeState) :
    c.Settled (finishDecode c jump st).2 := by
  cases jump with
  | returns flag => exact ⟨rfl, rfl, id⟩
  | again | leave =>
    simp only [finishDecode]
    split <;> exact ⟨rfl, rfl, id⟩

theorem decodeWebsocketDataFrame_settled {c : WebsocketClient}
    {r : CloseFlag × WebsocketClient} (done : decodeWebsocketDataFrame c = .ok r) :
    c.Settled r.2 := by
  obtain ⟨⟨jump, st⟩, _, result⟩ := bind_eq_ok.mp done
  have marked : c.Settled c.markStreaming := by
    unfold WebsocketClient.markStreaming
    split <;> exact ⟨rfl, rfl, id⟩
  obtain ⟨state, header, waits⟩ := finishDecode_settled c.markStreaming jump st
  cases result
  exact ⟨state.trans marked.isConnected, header.trans marked.httpHeader,
    fun waiting => waits (marked.waitClose waiting)⟩

theorem decodeFrame_settled {c : WebsocketClient} {r : Bool × WebsocketClient × List Call}
    (done : Protocol.decodeFrame c = .ok r) : c.Settled r.2.1 := by
  cases data : c.wbHeader.opcode.opcode.isData with
  | true =>
    rw [decodeFrame_data data] at done
    cases decoded : decodeWebsocketDataFrame c with
    | error fault => rw [decoded] at done; nomatch done
    | ok result =>
      rw [decoded] at done
      have kept := decodeWebsocketDataFrame_settled decoded
      have final : (dataOutcome result).2.1 = result.2 := by
        unfold dataOutcome
        split <;> rfl
      cases done
      rw [final]
      exact kept
  | false =>
    simp only [Protocol.decodeFrame] at done
    cases kind : c.wbHeader.opcode.opcode with
    | close | pong | ping | unnamed =>
      rw [kind] at done
      cases done
      exact ⟨rfl, rfl, id⟩
    | textFrame | binaryFrame | continuationFrame => rw [kind] at data; contradiction

theorem decodeProtoData_settled {proto : Protocol} {c : WebsocketClient} {data : Bytes}
    {r : Bool × WebsocketClient × List Call} (shaken : c.isConnected ≠ .none)
    (done : proto.decodeProtoData c data = .ok r) : c.Settled r.2.1 := by
  match data with
  | b0 :: b1 :: rest =>
    simp only [Protocol.decodeProtoData, if_neg shaken] at done
    obtain ⟨state, header, waits⟩ := decodeFrame_settled done
    exact ⟨state, header, waits⟩
  | [] | [_] =>
    simp only [Protocol.decodeProtoData, if_neg shaken] at done
    cases done
    exact ⟨rfl, rfl, fun _ => rfl⟩

theorem receive_settled {proto : Protocol} {c : WebsocketClient} {data : Bytes}
    {r : WebsocketClient × Received} (shaken : c.isConnected ≠ .none)
    (done : proto.receive c data = .ok r) : c.Settled r.1 := by
  rw [receive_wrapper] at done
  cases decoded : proto.decodeProtoData c data with
  | error fault => rw [decoded] at done; nomatch done
  | ok result =>
    rw [decoded] at done
    obtain ⟨state, header, waits⟩ := decodeProtoData_settled shaken decoded
    cases done
    unfold recvWrapper
    split <;> exact ⟨state, header, waits⟩

end WebsocketProto
