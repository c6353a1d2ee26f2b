import WebsocketProto.Emitters
import WebsocketProto.FrameParser

/-! What one client is sent, read by a parser of the protocol. -/
namespace WebsocketProto
open Rfc6455 (Frame LengthForm Parsed encodeAll parseFrames parseFrames_encodeAll)

/-- `websocket_client::send`: `Tcp_server::send_buffer` pushes the frame. -/
def WebsocketClient.send (c : WebsocketClient) (payload : Bytes) : WebsocketClient :=
  { c with sendBufferQueue := c.sendBufferQueue ++ [sendFrame payload] }

theorem foldl_send_queue (c : WebsocketClient) (payloads : List Bytes) :
    (payloads.foldl WebsocketClient.send c).sendBufferQueue =
      c.sendBufferQueue ++ payloads.map sendFrame := by
  induction payloads generalizing c with
  | nil => simp
  | cons payload rest ih => simp [ih, WebsocketClient.send]

/-- The frame that carries a payload to a client. -/
def textFrame (payload : Bytes) : Frame := ⟨true, .text, none, payload⟩

theorem sendFrame_flatten (payloads : List Bytes) :
    (payloads.map sendFrame).flatten = encodeAll (payloads.map textFrame) := by
  induction payloads with
  | nil => rfl
  | cons payload rest ih => simp [ih, ← sendFrame_encode, textFrame]

/-- The strings that `send` pushes are, joined together, one final unmasked TEXT frame for each
payload, and every length stands in the shortest form that has room for it. -/
theorem sent_messages_parse (c : WebsocketClient) (payloads : List Bytes)
    (bound : ∀ payload ∈ payloads, payload.length < 2 ^ 64) :
    ∃ pushed parsed, (payloads.foldl WebsocketClient.send c).sendBufferQueue =
        c.sendBufferQueue ++ pushed ∧
      parseFrames pushed.flatten = some parsed ∧
      parsed.map Parsed.frame = payloads.map textFrame ∧
      ∀ p ∈ parsed, p.form.Shortest p.frame.payload.length := by
  refine ⟨payloads.map sendFrame, (payloads.map textFrame).map Frame.parsed,
    foldl_send_queue c payloads, ?_, ?_, ?_⟩
  · rw [sendFrame_flatten]
    apply parseFrames_encodeAll
    · simpa [textFrame] using bound
    · simp [Frame.ControlLegal, textFrame, Rfc6455.Opcode.isControl]
  · simp [Frame.parsed]
  · intro p member
    simp only [List.map_map, List.mem_map, Function.comp_apply] at member
    obtain ⟨payload, sent, rfl⟩ := member
    exact LengthForm.announced_shortest (bound payload sent)

/-- An empty message and one of 126 bytes, behind a string that was queued before. -/
theorem two_messages_parse : ∃ pushed parsed,
    ([[], List.replicate 126 65].foldl WebsocketClient.send
      { WebsocketClient.new 7 with sendBufferQueue := [[0x8a, 0x00]] }).sendBufferQueue =
        [[0x8a, 0x00]] ++ pushed ∧
    parseFrames pushed.flatten = some parsed ∧
    parsed.map Parsed.frame = [textFrame [], textFrame (List.replicate 126 65)] ∧
    ∀ p ∈ parsed, p.form.Shortest p.frame.payload.length :=
  sent_messages_parse { WebsocketClient.new 7 with sendBufferQueue := [[0x8a, 0x00]] }
    [[], List.replicate 126 65] (by simp)

end WebsocketProto
