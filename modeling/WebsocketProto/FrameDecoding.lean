import WebsocketProto.EncodedFrames
import WebsocketProto.Handlers
import WebsocketProto.Utf8

/-! Single frames and fragmented messages that lie in one read as a whole. -/
namespace WebsocketProto
open Rfc6455 (Key Frame Opcode lengthBytes encodeAll)
open Outcome

/-- The decoder accepts the frame and leaves its payload in `decode_buffer_`. -/
def DecodesTo (c : WebsocketClient) (f : Frame) (payload : Bytes) : Prop :=
  ∃ c', decodeWebsocketDataFrame (c.loaded f.byte0 f.byte1 f.body) = .ok (.success, c') ∧
    c'.decodeBuffer = payload

theorem declared_inside {size behind : Nat} {v : Visited} {f : Frame} {back rest : Bytes}
    (header : v.header = .ofFrame f) (visit : Visit size behind v (f.body ++ back) rest) :
    ((WebsocketHeader.ofFrame f).declared (lengthBytes f.payload.length)).toNat ≤
      (f.body ++ back).length := by
  obtain ⟨⟨extended, layout, width, extent, _⟩, _⟩ := visit
  rw [header] at width extent
  have split : f.body ++ back =
      lengthBytes f.payload.length ++ (f.keyBytes ++ f.wirePayload ++ back) := by
    rw [Frame.body, List.append_assoc]
  have same : lengthBytes f.payload.length = extended :=
    (List.append_inj (split.symm.trans layout) ((ofFrame_width f).trans width.symm)).1
  rw [same, ← extent, layout]
  simp only [List.length_append]
  omega

theorem success_walk {c : WebsocketClient} {b0 b1 : Byte} {rest : Bytes} {c' : WebsocketClient}
    (done : decodeWebsocketDataFrame (c.loaded b0 b1 rest) = .ok (.success, c')) :
    ∃ visited, WalksTo [0] b0 b1 rest visited .ended := by
  rw [decodeWebsocketDataFrame, decodeInMemory, loaded_markStreaming] at done
  obtain ⟨⟨jump, st⟩, frames, eq⟩ := bind_eq_ok.mp done
  obtain ⟨visited, ending, walk⟩ := decodeFrames_inv _ b0 b1 rest nul_near frames
  cases ending with
  | ended => exact ⟨visited, walk⟩
  | refused =>
    obtain ⟨st', frames', _⟩ := decodeFrames_walk _ b0 b1 rest nul_near walk
    obtain ⟨rfl, rfl⟩ := Prod.mk.inj (Except.ok.inj (frames.symm.trans frames'))
    have flags := congrArg Prod.fst (Except.ok.inj eq)
    contradiction

theorem single_frame_decodes_iff (c : WebsocketClient) (empty : c.decodeBuffer = []) (f : Frame)
    (fin : f.fin = true) (text : f.opcode = .text → Utf8Text f.payload) (short : f.payload.length < 2 ^ 31) :
    DecodesTo c f f.payload ↔ Unsigned (lengthBytes f.payload.length) := by
  constructor
  · rintro ⟨c', done, _⟩
    by_contra signed
    have huge := declared_signed f signed
    obtain ⟨visited, walk⟩ := success_walk done
    rw [WalksTo, WebsocketHeader.ofBytes_frame] at walk
    have inside : ((WebsocketHeader.ofFrame f).declared
        (lengthBytes f.payload.length)).toNat ≤ (f.body ++ [0]).length := by
      generalize same : WebsocketHeader.ofFrame f = header at walk
      cases walk with
      | last visit _ => exact same ▸ declared_inside same.symm visit
      | next visit _ _ => exact same ▸ declared_inside same.symm visit
    have width : (lengthBytes f.payload.length).length ≤ 8 := by
      unfold lengthBytes
      split
      · exact Nat.zero_le _
      · split <;> simp
    have key : f.keyBytes.length ≤ 4 := by
      unfold Frame.keyBytes
      cases f.key <;> simp
    simp only [Frame.body, List.length_append, Frame.wirePayload_length, List.length_cons,
      List.length_nil] at inside
    omega
  · intro unsigned
    have chain : Chain [] f [] := .last (Or.inl fin)
    have plain : ∀ g ∈ [f], Plain g := by
      simpa using Plain.mk unsigned short
    obtain ⟨c', done, _, buffer, _⟩ := decode_chain c chain plain
    have accepted : verdict f (c.decodeBuffer ++ [f].flatMap Frame.payload) = .success := by
      apply if_neg
      rintro ⟨isText, _, refused⟩
      rw [empty, List.flatMap_singleton, List.nil_append, validate_text (text isText)] at refused
      contradiction
    rw [accepted] at done
    simp only [Rfc6455.encodeAll_nil, List.append_nil] at done
    exact ⟨c', done, by simp [buffer, empty]⟩

def zeros (count : Nat) : Frame := ⟨true, .binary, some ⟨1, 2, 3, 4⟩, List.replicate count 0⟩

theorem three_hundred_decode : DecodesTo (.new 7) (zeros 300) (zeros 300).payload :=
  (single_frame_decodes_iff (.new 7) rfl (zeros 300) rfl nofun (by decide +kernel)).mpr
    (by decide +kernel)

/-- The second length byte is 128, which is negative as a character. -/
theorem length_128_refused :
    (decodeWebsocketDataFrame ((WebsocketClient.new 7).loaded (zeros 128).byte0 (zeros 128).byte1
      (zeros 128).body)).toOption.map Prod.fst = some .protocolError ∧
    ¬ DecodesTo (.new 7) (zeros 128) (zeros 128).payload := by
  have refused : (decodeWebsocketDataFrame ((WebsocketClient.new 7).loaded (zeros 128).byte0
      (zeros 128).byte1 (zeros 128).body)).toOption.map Prod.fst = some .protocolError := by
    decide +kernel
  refine ⟨refused, ?_⟩
  rintro ⟨c', done, _⟩
  rw [done] at refused
  have flags : CloseFlag.success = .protocolError := Option.some.inj refused
  nomatch flags

theorem ofRfc_data {op : Opcode} (data : op.isControl = false) :
    OpcodeFlag.ofRfc op = .textFrame ∨ OpcodeFlag.ofRfc op = .binaryFrame ∨
      OpcodeFlag.ofRfc op = .continuationFrame := by
  cases op with
  | text => exact Or.inl rfl
  | binary => exact Or.inr (Or.inl rfl)
  | continuation => exact Or.inr (Or.inr rfl)
  | _ => contradiction

theorem decodeProtoData_data (proto : Protocol) (c : WebsocketClient) (f : Frame) (rest : Bytes)
    (shaken : c.isConnected ≠ .none) (data : f.opcode.isControl = false) :
    proto.decodeProtoData c (f.encode ++ rest) =
      decodeWebsocketDataFrame (c.loaded f.byte0 f.byte1 (f.body ++ rest)) >>= fun result =>
        if result.1 ≠ .success then .ok (false, result.2, [.closeWebsocketClient result.1])
        else .ok (result.2.wbHeader.opcode.fin, result.2, []) := by
  have kind : (c.loaded f.byte0 f.byte1 (f.body ++ rest)).wbHeader.opcode.opcode =
      .ofRfc f.opcode := by
    rw [WebsocketClient.loaded, WebsocketHeader.ofBytes_frame]
    rfl
  rw [Frame.encode, List.cons_append, List.cons_append, Protocol.decodeProtoData, if_neg shaken,
    Protocol.decodeFrame, kind]
  rcases ofRfc_data data with text | binary | continuation
  · rw [text]
    rfl
  · rw [binary]
    rfl
  · rw [continuation]
    rfl

/-- Fragments of one message: only the last one is final. -/
theorem fragments_chain (first last : Frame) (middle : List Frame) (open_ : first.fin = false)
    (more : ∀ g ∈ middle, g.fin = false) (fin : last.fin = true) (rest : Bytes) :
    Chain rest first (middle ++ [last]) := by
  induction middle generalizing first with
  | nil => exact .next open_ (.last (Or.inl fin))
  | cons g later ih =>
    refine .next open_ (ih g (more g List.mem_cons_self) ?_)
    exact fun h member => more h (List.mem_cons_of_mem g member)

theorem fragments_reassemble (proto : Protocol) (c : WebsocketClient) (first last : Frame)
    (middle : List Frame)
    (opens : (first.opcode = .text ∨ first.opcode = .binary) ∧ first.fin = false)
    (continues : ∀ g ∈ middle, g.opcode = .continuation ∧ g.fin = false)
    (ends : last.opcode = .continuation ∧ last.fin = true)
    (small : ∀ g ∈ first :: (middle ++ [last]), g.payload.length ≤ 125) :
    ∃ c', decodeWebsocketDataFrame
        (c.loaded first.byte0 first.byte1 (first.body ++ encodeAll (middle ++ [last]))) =
          .ok (.success, c') ∧
      decodeInMemory []
        (c.loaded first.byte0 first.byte1 (first.body ++ encodeAll (middle ++ [last]))) =
          .ok (.success, c') ∧
      c'.decodeBuffer = c.decodeBuffer ++
        (first :: (middle ++ [last])).flatMap Frame.payload ∧
      c'.wbHeader = .ofFrame last ∧
      (c.isConnected ≠ .none →
        proto.decodeProtoData c (encodeAll (first :: (middle ++ [last]))) = .ok (true, c', [])) := by
  have chain := fragments_chain first last middle opens.2 (fun g member => (continues g member).2)
    ends.2 []
  have plain (g : Frame) (member : g ∈ first :: (middle ++ [last])) : Plain g :=
    .of_small (small g member)
  obtain ⟨c', done, inside, buffer, _, header⟩ := decode_chain c chain plain
  have accepted : verdict first (c.decodeBuffer ++
      (first :: (middle ++ [last])).flatMap Frame.payload) = .success := by
    apply if_neg
    rintro ⟨_, fin, _⟩
    rw [opens.2] at fin
    contradiction
  have final : c'.wbHeader = .ofFrame last := by
    rw [header accepted]
    simp
  rw [accepted, List.append_nil] at done inside
  refine ⟨c', done, inside, buffer, final, fun shaken => ?_⟩
  have data : first.opcode.isControl = false := by
    rcases opens.1 with text | binary
    · rw [text]
      rfl
    · rw [binary]
      rfl
  have fin : c'.wbHeader.opcode.fin = true := by
    rw [final]
    exact ends.2
  rw [Rfc6455.encodeAll_cons, decodeProtoData_data proto c first _ shaken data, done, ok_bind]
  dsimp only
  rw [if_neg (fun other => other rfl), fin]

def connectedClient : WebsocketClient := { WebsocketClient.new 7 with isConnected := .connected }

theorem hello_reassembles : ∃ c', c'.decodeBuffer = ascii "Hello" ∧
    (Protocol.mk true id).decodeProtoData connectedClient (encodeAll
      [⟨false, .text, some ⟨1, 2, 3, 4⟩, ascii "Hel"⟩, ⟨false, .continuation, some ⟨0, 0, 0, 0⟩, []⟩,
        ⟨true, .continuation, none, ascii "lo"⟩]) = .ok (true, c', []) := by
  obtain ⟨c', _, _, content, _, returned⟩ := fragments_reassemble ⟨true, id⟩ connectedClient
    ⟨false, .text, some ⟨1, 2, 3, 4⟩, ascii "Hel"⟩ ⟨true, .continuation, none, ascii "lo"⟩
    [⟨false, .continuation, some ⟨0, 0, 0, 0⟩, []⟩] (by decide) (by decide) (by decide)
    (by decide +kernel)
  exact ⟨c', content, returned (by decide)⟩

def LastFinal (frames : List Frame) : Prop :=
  frames.map Frame.fin = List.replicate (frames.length - 1) false ++ [true]

theorem LastFinal.chain {first : Frame} {more : List Frame} (fins : LastFinal (first :: more)) :
    Chain [] first more := by
  induction more generalizing first with
  | nil => exact .last (Or.inl (List.cons.inj fins).1)
  | cons g later ih =>
    obtain ⟨unfinished, rest⟩ := List.cons.inj fins
    exact .next unfinished (ih rest)

theorem LastFinal.fin_iff {first : Frame} {more : List Frame} (fins : LastFinal (first :: more)) :
    first.fin = true ↔ more = [] := by
  cases more with
  | nil => exact iff_of_true (List.cons.inj fins).1 rfl
  | cons g later =>
    have unfinished := (List.cons.inj fins).1
    simp [unfinished]

/-- What `decode_websocket_data_frame` returns for a client and the frames of one read. -/
def decodeReturns (c : WebsocketClient) (first : Frame) (more : List Frame) :
    Except MemoryFault CloseFlag :=
  (decodeWebsocketDataFrame (c.loaded first.byte0 first.byte1 (first.body ++ encodeAll more))).map
    Prod.fst

def textVerdict (text : Bytes) : CloseFlag :=
  if validateUtf8 text = true then .success else .internalUtf8

/-- The check is made only for a text that came in one frame, so any other text passes, whatever
the opcodes of its later frames. -/
theorem fragmented_text_iff (c : WebsocketClient) (empty : c.decodeBuffer = []) (first : Frame)
    (more : List Frame) (opens : first.opcode = .text) (fins : LastFinal (first :: more))
    (small : ∀ g ∈ first :: more, g.payload.length ≤ 125) :
    decodeReturns c first more = .ok (textVerdict ((first :: more).flatMap Frame.payload)) ↔
      more = [] ∨ validateUtf8 ((first :: more).flatMap Frame.payload) = true := by
  obtain ⟨c', done, _⟩ := decode_chain c fins.chain fun g member => .of_small (small g member)
  rw [List.append_nil, empty, List.nil_append] at done
  rw [decodeReturns, done]
  generalize (first :: more).flatMap Frame.payload = text
  have whole := fins.fin_iff
  simp only [Except.map, Except.ok.injEq, verdict, textVerdict, opens, true_and, whole]
  cases validateUtf8 text <;> simp

/-- Two masked fragments, cut inside a character of two bytes. -/
theorem cut_character_accepted :
    decodeReturns (.new 7) ⟨false, .text, some ⟨1, 2, 3, 4⟩, [0xC3]⟩
        [⟨true, .continuation, some ⟨1, 2, 3, 4⟩, [0xA4]⟩] = .ok (textVerdict [0xC3, 0xA4]) :=
  (fragmented_text_iff (.new 7) rfl ⟨false, .text, some ⟨1, 2, 3, 4⟩, [0xC3]⟩
    [⟨true, .continuation, some ⟨1, 2, 3, 4⟩, [0xA4]⟩] rfl rfl (by decide)).mpr
    (Or.inr (by decide))

/-- The second fragment is a bracket instead, which cannot end the character. -/
theorem broken_character_accepted : ∃ (first : Frame) (more : List Frame),
    first.opcode = .text ∧ (∀ g ∈ more, g.opcode = .continuation) ∧ LastFinal (first :: more) ∧
    (∀ g ∈ first :: more, g.payload.length ≤ 125) ∧
    decodeReturns (.new 7) first more = .ok .success ∧
    textVerdict ((first :: more).flatMap Frame.payload) = .internalUtf8 :=
  ⟨⟨false, .text, some ⟨1, 2, 3, 4⟩, [0xC3]⟩, [⟨true, .continuation, some ⟨1, 2, 3, 4⟩, [0x28]⟩], rfl,
    by decide, rfl, by decide, by decide +kernel, by decide⟩

end WebsocketProto
