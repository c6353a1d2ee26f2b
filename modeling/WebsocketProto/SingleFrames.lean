import WebsocketProto.Segmentation

/-! Reads that hold one frame each, with any first byte: which of them the user's callback sees. -/
namespace WebsocketProto
open Rfc6455 (Key Frame lengthBytes)
open Outcome

/-- A complete frame behind an arbitrary first byte. -/
structure RawFrame where
  byte0 : Byte
  key : Option Key
  payload : Bytes
  deriving DecidableEq

def RawFrame.shape (f : RawFrame) : Frame := ⟨true, .binary, f.key, f.payload⟩

def RawFrame.encode (f : RawFrame) : Bytes := f.byte0 :: f.shape.byte1 :: f.shape.body

def RawFrame.bits (f : RawFrame) : OpcodeBit := .ofByte f.byte0

theorem declared_payload {h h' : WebsocketHeader} (same : h.payload = h'.payload) :
    h.extendedWidth = h'.extendedWidth ∧ h.declared = h'.declared := by
  constructor
  · simp only [WebsocketHeader.extendedWidth, same]
  · funext extended
    unfold WebsocketHeader.declared
    rw [same]

theorem visit_whole {size behind : Nat} {v : Visited} {f : Frame} {back rest : Bytes}
    (header : v.header.payload = (WebsocketHeader.ofFrame f).payload)
    (short : f.payload.length + back.length < 2 ^ 63)
    (visit : Visit size behind v (f.body ++ back) rest) : rest = back := by
  obtain ⟨⟨extended, layout, width, extent, _⟩, _, keyed, _⟩ := visit
  obtain ⟨sameWidth, sameDeclared⟩ := declared_payload header
  rw [sameWidth, ← ofFrame_width] at width
  rw [Frame.body, List.append_assoc] at layout
  obtain ⟨rfl, tail⟩ := List.append_inj layout width.symm
  rw [header] at keyed
  have key : f.keyBytes.length = v.keyBytes.length := keyBytes_length keyed
  rw [List.append_assoc] at tail
  have payload := (List.append_inj tail key).2
  have total := congrArg List.length payload
  rw [List.length_append, List.length_append, Frame.wirePayload_length, extent, sameDeclared] at total
  by_cases plain : Unsigned (lengthBytes f.payload.length)
  · rw [declared_ofFrame f (by omega) plain] at total
    have raws : f.wirePayload.length = v.raw.length := by
      rw [Frame.wirePayload_length, extent, sameDeclared, declared_ofFrame f (by omega) plain]
    exact (List.append_inj payload raws).2.symm
  · have huge := declared_signed f plain
    omega

/-- Only the payload bits of the header say how a frame lies in the memory. -/
theorem Visit.reheader {size behind : Nat} {v : Visited} {h : WebsocketHeader} {bytes rest : Bytes}
    (visit : Visit size behind v bytes rest) (same : v.header.payload = h.payload) :
    Visit size behind { v with header := h } bytes rest := by
  obtain ⟨⟨extended, layout, width, extent, room⟩, checked, keyed, unmaskable⟩ := visit
  obtain ⟨sameWidth, sameDeclared⟩ := declared_payload same
  have minimum : h.minimumSize = v.header.minimumSize := by
    simp only [WebsocketHeader.minimumSize, same]
  refine ⟨⟨extended, layout, ?_, ?_, ?_⟩, ?_, ?_, unmaskable⟩
  · rw [width, sameWidth]
  · rw [extent, sameDeclared]
  · rw [← sameDeclared]
    exact room
  · rw [minimum]
    exact checked
  · rw [← same]
    exact keyed

/-- The decoder that accepts a read of one frame leaves the header of that frame. -/
theorem whole_frame_header {c c' : WebsocketClient} {b0 : Byte} {f : Frame}
    (short : f.encode.length < 2 ^ 63)
    (done : decodeWebsocketDataFrame (c.loaded b0 f.byte1 f.body) = .ok (.success, c')) :
    c'.wbHeader = .ofBytes b0 f.byte1 := by
  have inside : f.payload.length + ([0] : Bytes).length < 2 ^ 63 := by
    simp only [Frame.encode, Frame.body, List.length_cons, List.length_append,
      Frame.wirePayload_length, List.length_nil] at short ⊢
    omega
  obtain ⟨visited, walk⟩ := success_walk done
  have payload : (WebsocketHeader.ofBytes b0 f.byte1).payload =
      (WebsocketHeader.ofFrame f).payload := PayloadMask.ofByte_byte1 f
  have single : visited.getLast?.map Visited.header = some (.ofBytes b0 f.byte1) := by
    rw [WalksTo] at walk
    generalize first : WebsocketHeader.ofBytes b0 f.byte1 = header at walk payload
    cases walk with
    | last visit _ => rfl
    | next visit _ _ => simpa using visit_whole payload inside visit
  obtain ⟨st, frames, _, last⟩ := decodeFrames_walk { c with
    isStreaming := !(OpcodeBit.ofByte b0).fin || c.isStreaming } b0 f.byte1 f.body nul_near walk
  have header : st.header = .ofBytes b0 f.byte1 := Option.some.inj ((last rfl).symm.trans single)
  rw [decodeWebsocketDataFrame, decodeInMemory, loaded_markStreaming, frames, ok_bind] at done
  have finished := Except.ok.inj done
  by_cases refused : TextRefused (.ofBytes b0 f.byte1) st.decodeBuffer
  · have flags := congrArg Prod.fst ((finishDecode_refused refused).symm.trans finished)
    cases flags
  · have final := congrArg Prod.snd ((finishDecode_accepted refused).symm.trans finished)
    exact (congrArg WebsocketClient.wbHeader final).symm.trans header

theorem final_data_delivered {proto : Protocol} {c : WebsocketClient} {f : RawFrame}
    {r : WebsocketClient × Received} (shaken : c.isConnected ≠ .none)
    (named : ∀ bits, f.bits.opcode ≠ .unnamed bits) (short : f.shape.encode.length < 2 ^ 63)
    (done : proto.receive c f.encode = .ok r) (some_ : r.2.message.isSome = true) :
    f.bits.fin = true ∧ f.bits.opcode.isData = true := by
  rw [receive_wrapper, RawFrame.encode, Protocol.decodeProtoData, if_neg shaken] at done
  obtain ⟨result, decoded, rfl⟩ := map_eq_ok done
  have returned : result.1 = true := by
    unfold recvWrapper at some_
    split at some_
    · rename_i both
      exact both.1
    · contradiction
  cases data : f.bits.opcode.isData with
  | true =>
    refine ⟨?_, rfl⟩
    rw [decodeFrame_data data] at decoded
    obtain ⟨⟨flag, c'⟩, frame, rfl⟩ := map_eq_ok decoded
    unfold dataOutcome at returned
    split at returned
    · contradiction
    · rename_i success
      obtain rfl : flag = .success := by simpa using success
      have header := whole_frame_header short frame
      rw [header] at returned
      exact returned
  | false =>
    simp only [Protocol.decodeFrame] at decoded
    cases kind : (c.loaded f.byte0 f.shape.byte1 f.shape.body).wbHeader.opcode.opcode with
    | unnamed bits => exact absurd kind (named bits)
    | close | ping | pong =>
      rw [kind] at decoded
      cases decoded
      contradiction
    | textFrame | binaryFrame | continuationFrame =>
      have isData : f.bits.opcode.isData = true := congrArg OpcodeFlag.isData kind
      rw [isData] at data
      contradiction

/-- A data frame whose length the decoder reads as it is, and behind which it looks for no other. -/
def RawFrame.StaysInside (f : RawFrame) : Prop :=
  f.bits.opcode.isData = true → Plain f.shape ∧ (f.bits.fin = true ∨ f.payload = [])

theorem receive_inside (proto : Protocol) {c : WebsocketClient} {f : RawFrame}
    (shaken : c.isConnected ≠ .none) (inside : f.StaysInside) :
    ∃ r, proto.receive c f.encode = .ok r := by
  rw [receive_wrapper, RawFrame.encode, Protocol.decodeProtoData, if_neg shaken]
  cases data : f.bits.opcode.isData with
  | true =>
    obtain ⟨plain, ends⟩ := inside data
    have fits : f.shape.encode.length ≤ f.shape.body.length + 2 := by
      rw [Frame.encode, List.length_cons, List.length_cons]
    have visit := (frame_visit f.shape plain [] _ 0 fits (Nat.zero_le _)).reheader
      (h := .ofBytes f.byte0 f.shape.byte1) (PayloadMask.ofByte_byte1 f.shape).symm
    rw [List.append_nil] at visit
    have walk := Walk.last visit (ends.imp id fun empty => by
      have raw : f.shape.wirePayload.length = 0 := by
        rw [Frame.wirePayload_length, RawFrame.shape, empty, List.length_nil]
      simp only [visited, List.append_nil, raw, Nat.le_refl])
    obtain ⟨flag, c', done, _⟩ :=
      (decode_safe_iff_walk c f.byte0 f.shape.byte1 f.shape.body).mpr ⟨_, _, walk⟩
    rw [decodeFrame_data data, done]
    exact ⟨_, rfl⟩
  | false =>
    simp only [Protocol.decodeFrame]
    cases kind : (c.loaded f.byte0 f.shape.byte1 f.shape.body).wbHeader.opcode.opcode with
    | close | pong | ping | unnamed => exact ⟨_, rfl⟩
    | textFrame | binaryFrame | continuationFrame =>
      have isData : f.bits.opcode.isData = true := congrArg OpcodeFlag.isData kind
      rw [data] at isData
      contradiction

theorem receiveAll_inside (proto : Protocol) (around : Surroundings) (reads : List RawFrame)
    (inside : ∀ f ∈ reads, f.StaysInside) (c : WebsocketClient) (shaken : c.isConnected ≠ .none) :
    ∃ r, proto.receiveAll around c (reads.map RawFrame.encode) = .ok r := by
  induction reads generalizing c with
  | nil => exact ⟨_, rfl⟩
  | cons f rest ih =>
    obtain ⟨r, first⟩ := receive_inside proto shaken (inside f List.mem_cons_self)
    have settled := receive_settled shaken first
    obtain ⟨later, next⟩ := ih (fun g member => inside g (List.mem_cons_of_mem f member))
      (around.between (rest.map RawFrame.encode).length r.1)
      (by rw [around.isConnected, settled.isConnected]; exact shaken)
    rw [List.map_cons, Protocol.receiveAll, first, ok_bind]
    dsimp only
    rw [next]
    exact ⟨_, rfl⟩

theorem receiveAll_final (proto : Protocol) (around : Surroundings) (reads : List RawFrame)
    (named : ∀ f ∈ reads, ∀ bits, f.bits.opcode ≠ .unnamed bits)
    (short : ∀ f ∈ reads, f.shape.encode.length < 2 ^ 63) (c c' : WebsocketClient)
    (received : List Received) (shaken : c.isConnected ≠ .none)
    (done : proto.receiveAll around c (reads.map RawFrame.encode) = .ok (c', received)) :
    List.Forall₂ (fun f answer => answer.message.isSome = true →
      f.bits.fin = true ∧ f.bits.opcode.isData = true) reads received := by
  induction reads generalizing c received with
  | nil =>
    cases done
    exact .nil
  | cons f rest ih =>
    obtain ⟨r, first, done⟩ := bind_eq_ok.mp done
    obtain ⟨later, next, result⟩ := bind_eq_ok.mp done
    cases result
    have settled := receive_settled shaken first
    refine .cons (final_data_delivered shaken (named f List.mem_cons_self)
      (short f List.mem_cons_self) first) ?_
    apply ih (fun g member => named g (List.mem_cons_of_mem f member))
      (fun g member => short g (List.mem_cons_of_mem f member)) _ _ _ next
    rw [around.isConnected, settled.isConnected]
    exact shaken

/-- Whatever the client has collected, reads of one complete frame each return, and the user's
callback only runs behind a final data frame. -/
theorem callback_final_data (proto : Protocol) (around : Surroundings) (c : WebsocketClient)
    (connected : c.isConnected = .connected) (reads : List RawFrame)
    (named : ∀ f ∈ reads, ∀ bits, f.bits.opcode ≠ .unnamed bits)
    (short : ∀ f ∈ reads, f.shape.encode.length < 2 ^ 63) :
    ((∀ f ∈ reads, f.StaysInside) →
      ∃ c' received, proto.receiveAll around c (reads.map RawFrame.encode) = .ok (c', received)) ∧
    ∀ c' received, proto.receiveAll around c (reads.map RawFrame.encode) = .ok (c', received) →
      List.Forall₂ (fun f answer => answer.message.isSome = true →
        f.bits.fin = true ∧ f.bits.opcode.isData = true) reads received := by
  have shaken : c.isConnected ≠ .none := by
    rw [connected]
    decide
  refine ⟨fun inside => ?_, fun c' received => receiveAll_final proto around reads named short c c'
    received shaken⟩
  obtain ⟨⟨c', received⟩, done⟩ := receiveAll_inside proto around reads inside c shaken
  exact ⟨c', received, done⟩

def openClient : WebsocketClient := { connectedClient with decodeBuffer := ascii "Hi" }

def threeReads : List RawFrame :=
  [⟨0x89, some ⟨1, 2, 3, 4⟩, ascii "p"⟩, ⟨0x40, some ⟨1, 2, 3, 4⟩, []⟩, ⟨0x80, none, ascii "!"⟩]

theorem three_reads_final : ∃ c' received,
    (Protocol.mk true id).receiveAll .still openClient (threeReads.map RawFrame.encode) =
      .ok (c', received) ∧
    List.Forall₂ (fun f answer => answer.message.isSome = true →
      f.bits.fin = true ∧ f.bits.opcode.isData = true) threeReads received := by
  obtain ⟨returns, final⟩ := callback_final_data ⟨true, id⟩ .still openClient rfl threeReads
    (by simp [threeReads, RawFrame.bits, OpcodeBit.ofByte, OpcodeFlag.ofBits]) (by decide)
  have inside : ∀ f ∈ threeReads, f.StaysInside := by
    simp only [threeReads, List.mem_cons, List.not_mem_nil, or_false, forall_eq_or_imp, forall_eq]
    exact ⟨fun _ => ⟨.of_small (by decide), Or.inl (by decide)⟩,
      fun _ => ⟨.of_small (by decide), Or.inr rfl⟩,
      fun _ => ⟨.of_small (by decide), Or.inl (by decide)⟩⟩
  obtain ⟨c', received, done⟩ := returns inside
  exact ⟨c', received, done, final c' received done⟩

/-- Unmasked, with a reserved bit, and a continuation of no message: each is delivered. -/
theorem illegal_frames_delivered :
    sampleRun [RawFrame.encode ⟨0x81, none, ascii "a"⟩,
      RawFrame.encode ⟨0xc1, some ⟨1, 2, 3, 4⟩, ascii "b"⟩,
      RawFrame.encode ⟨0x80, some ⟨1, 2, 3, 4⟩, ascii "c"⟩] =
    some [⟨some (ascii "a"), []⟩, ⟨some (ascii "b"), []⟩, ⟨some (ascii "c"), []⟩] := by
  decide +kernel

end WebsocketProto
