import WebsocketProto.DecoderSafety

/-! What the decoder makes of frames that were encoded by the protocol. Its length field is
built from signed characters, so an extended length is read back exactly when none of its
bytes is 128 or more; any other one becomes a number that no buffer reaches. -/
namespace WebsocketProto
open Rfc6455 (Key Frame Opcode lengthBytes lengthCode encodeAll)
open Outcome

/-- Characters whose sign bit is clear. -/
def Unsigned (bytes : Bytes) : Prop := ∀ b ∈ bytes, b.toNat < 128

instance (bytes : Bytes) : Decidable (Unsigned bytes) :=
  inferInstanceAs (Decidable (∀ b ∈ bytes, b.toNat < 128))

theorem msb_byte (b : Byte) : b.toBitVec.msb = decide (128 ≤ b.toNat) :=
  BitVec.msb_eq_decide b.toBitVec

theorem widened_small {b : Byte} (small : b.toNat < 128) :
    b.toInt8.toInt64.toUInt64.toNat = b.toNat := by
  have positive : b.toBitVec.msb = false := by rw [msb_byte]; simpa using small
  have wide : (b.toBitVec.signExtend 64).toNat = b.toBitVec.toNat := by
    rw [BitVec.signExtend_eq_setWidth_of_msb_false positive, BitVec.toNat_setWidth]
    omega
  exact wide

theorem widened_large {b : Byte} (large : 128 ≤ b.toNat) :
    b.toInt8.toInt64.toUInt64.toNat = 2 ^ 64 - 256 + b.toNat := by
  have negative : b.toBitVec.msb = true := by rw [msb_byte]; simpa using large
  have wide : (b.toBitVec.signExtend 64).toNat = 2 ^ 64 - 256 + b.toBitVec.toNat := by
    rw [BitVec.toNat_signExtend, negative]
    simp
    omega
  exact wide

theorem shiftIn_toNat (acc : UInt64) (b : Byte) : (shiftIn acc b).toNat =
    acc.toNat * 256 % 2 ^ 64 ||| b.toInt8.toInt64.toUInt64.toNat := by
  simp [shiftIn, Nat.shiftLeft_eq]

theorem shiftIn_small {acc : UInt64} {b : Byte} (room : acc.toNat < 2 ^ 56)
    (small : b.toNat < 128) : (shiftIn acc b).toNat = 256 * acc.toNat + b.toNat := by
  have shifted : acc.toNat * 256 % 2 ^ 64 = acc.toNat <<< 8 := by
    rw [Nat.shiftLeft_eq]
    omega
  rw [shiftIn_toNat, widened_small small, shifted, ← Nat.shiftLeft_add_eq_or_of_lt (by omega),
    Nat.shiftLeft_eq, Nat.mul_comm]

theorem foldl_shiftIn_small {bytes : Bytes} {acc : UInt64} {k : Nat} (plain : Unsigned bytes)
    (room : acc.toNat < 256 ^ k) (width : k + bytes.length ≤ 8) :
    (bytes.foldl shiftIn acc).toNat = bytes.foldl (fun n b => 256 * n + b.toNat) acc.toNat := by
  induction bytes generalizing acc k with
  | nil => rfl
  | cons b rest ih =>
    rw [List.length_cons] at width
    have small : b.toNat < 128 := plain b List.mem_cons_self
    have power : 256 ^ k ≤ 256 ^ 7 := Nat.pow_le_pow_right (by decide) (by omega)
    have next := shiftIn_small (by omega : acc.toNat < 2 ^ 56) small
    have fits : (shiftIn acc b).toNat < 256 ^ (k + 1) := by
      rw [next, Nat.pow_succ]
      omega
    rw [List.foldl_cons, List.foldl_cons, ← next]
    exact ih (fun c member => plain c (List.mem_cons_of_mem b member)) fits (by omega)

/-- A negative character sets all higher bits, and later shifts keep the highest ones. -/
theorem shiftIn_high {acc : UInt64} (b : Byte) {k : Nat} (high : 2 ^ 64 - 2 ^ k ≤ acc.toNat)
    (room : k + 8 ≤ 64) : 2 ^ 64 - 2 ^ (k + 8) ≤ (shiftIn acc b).toNat := by
  have power : 2 ^ (k + 8) ≤ 2 ^ 64 := Nat.pow_le_pow_right (by decide) room
  have bound := acc.toNat_lt
  have kept : acc.toNat * 256 % 2 ^ 64 ≤ (shiftIn acc b).toNat := by
    rw [shiftIn_toNat]
    exact Nat.left_le_or
  rw [Nat.pow_add] at power ⊢
  omega

theorem foldl_shiftIn_high {bytes : Bytes} {acc : UInt64} {k : Nat}
    (high : 2 ^ 64 - 2 ^ k ≤ acc.toNat) (room : k + 8 * bytes.length ≤ 63) :
    2 ^ 63 ≤ (bytes.foldl shiftIn acc).toNat := by
  induction bytes generalizing acc k with
  | nil =>
    have power : 2 ^ k ≤ 2 ^ 63 := Nat.pow_le_pow_right (by decide) (by omega)
    rw [List.foldl_nil]
    omega
  | cons b rest ih =>
    rw [List.length_cons] at room
    exact ih (shiftIn_high b high (by omega)) (by omega)

theorem foldl_shiftIn_large {bytes : Bytes} (acc : UInt64) (signed : ¬ Unsigned bytes)
    (width : bytes.length ≤ 8) : 2 ^ 63 ≤ (bytes.foldl shiftIn acc).toNat := by
  simp only [Unsigned, not_forall, Nat.not_lt] at signed
  obtain ⟨b, member, large⟩ := signed
  obtain ⟨front, back, rfl⟩ := List.append_of_mem member
  rw [List.foldl_append, List.foldl_cons]
  apply foldl_shiftIn_high (k := 7)
  · have kept := Nat.right_le_or (n := (front.foldl shiftIn acc).toNat * 256 % 2 ^ 64)
      (m := b.toInt8.toInt64.toUInt64.toNat)
    rw [← shiftIn_toNat, widened_large large] at kept
    omega
  · simp only [List.length_append, List.length_cons] at width
    omega

theorem payloadLen16_toBitVec (hi lo : Byte) : (payloadLen16 hi lo).toBitVec =
    (hi.toBitVec.signExtend 32 <<< 8 ||| lo.toBitVec.signExtend 32).signExtend 64 := rfl

theorem payloadLen16_small {hi lo : Byte} (high : hi.toNat < 128) (low : lo.toNat < 128) :
    (payloadLen16 hi lo).toNat = 256 * hi.toNat + lo.toNat := by
  have first : hi.toBitVec.msb = false := by rw [msb_byte]; simpa using high
  have second : lo.toBitVec.msb = false := by rw [msb_byte]; simpa using low
  have word : (hi.toBitVec.signExtend 32 <<< 8 ||| lo.toBitVec.signExtend 32).toNat =
      256 * hi.toNat + lo.toNat := by
    have shifted : hi.toBitVec.toNat % 2 ^ 32 * 2 ^ 8 % 2 ^ 32 = hi.toNat <<< 8 := by
      rw [Nat.shiftLeft_eq, UInt8.toNat_toBitVec]
      omega
    have kept : lo.toBitVec.toNat % 2 ^ 32 = lo.toNat := by
      rw [UInt8.toNat_toBitVec]
      omega
    rw [BitVec.signExtend_eq_setWidth_of_msb_false first,
      BitVec.signExtend_eq_setWidth_of_msb_false second, BitVec.toNat_or, BitVec.toNat_shiftLeft,
      BitVec.toNat_setWidth, BitVec.toNat_setWidth, Nat.shiftLeft_eq, shifted, kept,
      ← Nat.shiftLeft_add_eq_or_of_lt (by omega), Nat.shiftLeft_eq, Nat.mul_comm]
  have positive :
      (hi.toBitVec.signExtend 32 <<< 8 ||| lo.toBitVec.signExtend 32).msb = false := by
    rw [BitVec.msb_eq_decide, word]
    simp
    omega
  have wide := congrArg BitVec.toNat (payloadLen16_toBitVec hi lo)
  rw [BitVec.signExtend_eq_setWidth_of_msb_false positive, BitVec.toNat_setWidth, word,
    UInt64.toNat_toBitVec] at wide
  omega

theorem payloadLen16_large {hi lo : Byte} (large : 128 ≤ hi.toNat ∨ 128 ≤ lo.toNat) :
    2 ^ 63 ≤ (payloadLen16 hi lo).toNat := by
  have negative :
      (hi.toBitVec.signExtend 32 <<< 8 ||| lo.toBitVec.signExtend 32).msb = true := by
    have first : (hi.toBitVec.signExtend 32 <<< 8).msb = hi.toBitVec.msb := by
      simp [BitVec.getMsbD_signExtend, BitVec.msb]
    have second : (lo.toBitVec.signExtend 32).msb = lo.toBitVec.msb := by
      simp [BitVec.msb_signExtend]
    rw [BitVec.msb_or, first, second, msb_byte, msb_byte]
    simpa using large
  have wide : (payloadLen16 hi lo).toBitVec.msb = true := by
    rw [payloadLen16_toBitVec, BitVec.msb_signExtend, negative]
    rfl
  rw [BitVec.msb_eq_decide] at wide
  simpa using wide

theorem ofFrame_width (f : Frame) :
    (lengthBytes f.payload.length).length = (WebsocketHeader.ofFrame f).extendedWidth := by
  unfold WebsocketHeader.extendedWidth WebsocketHeader.ofFrame lengthBytes lengthCode
  dsimp only
  split
  · rw [if_neg (by simp only [PAYLOAD_2_FLAG]; omega), if_neg (by simp only [PAYLOAD_8_FLAG]; omega)]
    rfl
  · split <;> rfl

theorem ofFrame_minimumSize (f : Frame) : (WebsocketHeader.ofFrame f).minimumSize ≤
    2 + (lengthBytes f.payload.length).length := by
  rw [ofFrame_width]
  unfold WebsocketHeader.minimumSize WebsocketHeader.extendedWidth
  split
  · exact Nat.le_refl 4
  · split
    · exact (by decide : (8 : Nat) ≤ 10)
    · exact Nat.zero_le _

theorem declared_ofFrame (f : Frame) (short : f.payload.length < 2 ^ 63)
    (plain : Unsigned (lengthBytes f.payload.length)) :
    ((WebsocketHeader.ofFrame f).declared (lengthBytes f.payload.length)).toNat =
      f.payload.length := by
  unfold lengthBytes at plain ⊢
  split
  · rename_i small
    have code : lengthCode f.payload.length = f.payload.length := if_pos small
    simp only [WebsocketHeader.declared, WebsocketHeader.ofFrame, code, Nat.toUInt64]
    rw [UInt64.toNat_ofNat']
    omega
  · rename_i large
    rw [if_neg large] at plain
    split
    · rename_i medium
      rw [if_pos medium] at plain
      have high := plain (f.payload.length / 256).toUInt8 (by simp [Bytes.bigEndian])
      have low := plain f.payload.length.toUInt8 (by simp [Bytes.bigEndian])
      have both := payloadLen16_small high low
      simp only [Nat.toUInt8, UInt8.toNat_ofNat'] at both
      refine both.trans ?_
      omega
    · rename_i huge
      rw [if_neg huge] at plain
      have value := Bytes.ofBigEndian_bigEndian 8 f.payload.length (by omega)
      have start : (0 : UInt64).toNat < 256 ^ 0 := Nat.one_pos
      have folded := foldl_shiftIn_small plain start (by simp)
      exact folded.trans value

theorem declared_signed (f : Frame) (signed : ¬ Unsigned (lengthBytes f.payload.length)) :
    2 ^ 63 ≤ ((WebsocketHeader.ofFrame f).declared (lengthBytes f.payload.length)).toNat := by
  unfold lengthBytes at signed ⊢
  split
  · rename_i small
    rw [if_pos small] at signed
    exact absurd nofun signed
  · rename_i large
    rw [if_neg large] at signed
    split
    · rename_i medium
      rw [if_pos medium] at signed
      apply payloadLen16_large
      by_contra both
      apply signed
      intro b member
      simp only [Bytes.bigEndian, List.nil_append, List.cons_append, List.mem_cons,
        List.not_mem_nil, or_false] at member
      rcases member with rfl | rfl
      · exact Nat.lt_of_not_le fun high => both (Or.inl high)
      · exact Nat.lt_of_not_le fun low => both (Or.inr low)
    · rename_i huge
      rw [if_neg huge] at signed
      exact foldl_shiftIn_large 0 signed (by simp)

/-- A frame whose length field and 32-bit counters serve it well. -/
structure Plain (f : Frame) : Prop where
  unsigned : Unsigned (lengthBytes f.payload.length)
  short : f.payload.length < 2 ^ 31

theorem Plain.of_small {f : Frame} (small : f.payload.length ≤ 125) : Plain f := by
  refine ⟨?_, by omega⟩
  have none_ : lengthBytes f.payload.length = [] := if_pos (by omega)
  rw [none_]
  nofun

/-- A frame as the decoder finds it in its buffer. -/
def visited (f : Frame) : Visited := ⟨.ofFrame f, f.key, f.wirePayload⟩

@[simp] theorem visited_payload (f : Frame) : (visited f).payload = f.payload := by
  cases f with
  | mk fin opcode key payload =>
    cases key with
    | none => rfl
    | some key => exact Bytes.mask_mask key.bytes payload

theorem frame_visit (f : Frame) (plain : Plain f) (rest : Bytes) (size behind : Nat)
    (fits : f.encode.length ≤ size) (room : behind ≤ rest.length) :
    Visit size behind (visited f) (f.body ++ rest) rest := by
  have length : f.encode.length =
      2 + (lengthBytes f.payload.length).length + f.keyBytes.length + f.payload.length := by
    simp only [Frame.encode, Frame.body, List.length_cons, List.length_append,
      Frame.wirePayload_length]
    omega
  have short := plain.short
  have declared := declared_ofFrame f (Nat.lt_trans short (by decide)) plain.unsigned
  refine ⟨⟨lengthBytes f.payload.length, ?_, ofFrame_width f, ?_, ?_⟩, ?_, rfl, ?_⟩
  · simp only [Frame.body, List.append_assoc]
    rfl
  · exact (Frame.wirePayload_length f).trans declared.symm
  · have header : sizeofHeader.toUInt64.toNat = 2 := rfl
    rw [UInt64.toNat_add, header, visited, declared]
    omega
  · have minimum := ofFrame_minimumSize f
    exact Nat.le_trans minimum (by omega)
  · intro key _
    rw [visited, Frame.wirePayload_length]
    exact ⟨.of_small short, .of_inside (by omega) key⟩

/-- Frames that the loop takes one after the other, with `rest` behind them in the buffer. -/
inductive Chain (rest : Bytes) : Frame → List Frame → Prop where
  | last {f} : (f.fin = true ∨ f.payload = [] ∧ rest = []) → Chain rest f []
  | next {f g more} : f.fin = false → Chain rest g more → Chain rest f (g :: more)

theorem chain_walk {rest : Bytes} {f : Frame} {more : List Frame} (chain : Chain rest f more)
    (plain : ∀ g ∈ f :: more, Plain g) (size : Nat)
    (fits : (encodeAll (f :: more)).length ≤ size) :
    Walk size 0 (.ofFrame f) (f.body ++ (encodeAll more ++ rest)) ((f :: more).map visited)
      .ended := by
  induction chain with
  | @last f ends =>
    have visit := frame_visit f (plain f List.mem_cons_self) rest size 0 (by simpa using fits)
      (Nat.zero_le _)
    refine Walk.last visit (ends.imp id ?_)
    rintro ⟨empty, rfl⟩
    have raw : (visited f).raw.length = 0 := by
      rw [visited, Frame.wirePayload_length, empty]
      rfl
    rw [List.append_nil, raw]
  | @next f g more unfinished chain ih =>
    simp only [Rfc6455.encodeAll_cons, List.length_append] at fits ih ⊢
    have visit := frame_visit f (plain f List.mem_cons_self)
      (g.byte0 :: g.byte1 :: (g.body ++ (encodeAll more ++ rest))) size 0 (by omega) (Nat.zero_le _)
    have goes : ¬ (visited f).Ends 0 (g.byte0 :: g.byte1 :: (g.body ++ (encodeAll more ++ rest))) := by
      simp [Visited.Ends, visited, WebsocketHeader.ofFrame, unfinished]
    have later := ih (fun h member => plain h (List.mem_cons_of_mem f member)) (by omega)
    rw [← WebsocketHeader.ofBytes_frame] at later
    have walk := Walk.next visit goes later
    simp only [Frame.encode, List.cons_append, List.append_assoc]
    exact walk

theorem collected_payloads {frames : List Frame} {bytes : Bytes}
    (plain : ∀ f ∈ frames, Plain f) (collected : Collected (frames.map visited) bytes) :
    bytes = frames.flatMap Frame.payload := by
  obtain ⟨pieces, rfl, all⟩ := collected
  induction frames generalizing pieces with
  | nil =>
    cases all
    rfl
  | cons f rest ih =>
    cases all with
    | @cons _ piece _ pieces first later =>
      have short : (visited f).raw.length < 2 ^ 31 := by
        rw [visited, Frame.wirePayload_length]
        exact (plain f List.mem_cons_self).short
      have same := first.2 (Or.inr short)
      rw [visited_payload] at same
      rw [List.flatten_cons, List.flatMap_cons, same,
        ih (fun g member => plain g (List.mem_cons_of_mem f member)) pieces later]

/-- What the decoder returns behind its loop. -/
def verdict (f : Frame) (decodeBuffer : Bytes) : CloseFlag :=
  if f.opcode = .text ∧ f.fin = true ∧ validateUtf8 decodeBuffer = false then .internalUtf8
  else .success

theorem ofRfc_text (op : Opcode) : OpcodeFlag.ofRfc op = .textFrame ↔ op = .text := by
  cases op <;> simp [OpcodeFlag.ofRfc]

/-- The text that `finishDecode` refuses. -/
def TextRefused (header : WebsocketHeader) (decodeBuffer : Bytes) : Prop :=
  header.opcode.opcode = .textFrame ∧ header.opcode.fin = true ∧ validateUtf8 decodeBuffer = false

theorem finishDecode_refused {c : WebsocketClient} {st : DecodeState}
    (refused : TextRefused c.wbHeader st.decodeBuffer) : finishDecode c .leave st =
      (.internalUtf8, { c with
        recvBuffer := st.memory.take st.size, decodeBuffer := st.decodeBuffer }) :=
  if_pos refused

theorem finishDecode_accepted {c : WebsocketClient} {st : DecodeState}
    (accepted : ¬ TextRefused c.wbHeader st.decodeBuffer) : finishDecode c .leave st =
      (.success, { c with
        recvBuffer := st.memory.take st.size
        decodeBuffer := st.decodeBuffer
        wbHeader := st.header }) :=
  if_neg accepted

/-- The decoder appends the payloads of a chain in order, and `wb_header_` becomes the last
header unless the text is refused. Nothing behind the string is read. -/
theorem decode_chain (c : WebsocketClient) {rest : Bytes} {f : Frame} {more : List Frame}
    (chain : Chain rest f more) (plain : ∀ g ∈ f :: more, Plain g) :
    ∃ c', decodeWebsocketDataFrame (c.loaded f.byte0 f.byte1 (f.body ++ (encodeAll more ++ rest))) =
        .ok (verdict f (c.decodeBuffer ++ (f :: more).flatMap Frame.payload), c') ∧
      decodeInMemory [] (c.loaded f.byte0 f.byte1 (f.body ++ (encodeAll more ++ rest))) =
        .ok (verdict f (c.decodeBuffer ++ (f :: more).flatMap Frame.payload), c') ∧
      c'.decodeBuffer = c.decodeBuffer ++ (f :: more).flatMap Frame.payload ∧
      c'.isConnected = c.isConnected ∧
      (verdict f (c.decodeBuffer ++ (f :: more).flatMap Frame.payload) = .success →
        c'.wbHeader = .ofFrame ((f :: more).getLast (List.cons_ne_nil f more))) := by
  have fits : (encodeAll (f :: more)).length ≤ (f.body ++ (encodeAll more ++ rest)).length + 2 := by
    simp only [Rfc6455.encodeAll_cons, Frame.encode, List.length_append, List.length_cons]
    omega
  have walk := chain_walk chain plain _ fits
  rw [← WebsocketHeader.ofBytes_frame] at walk
  obtain ⟨st, frames, ⟨bytes, decode, collected⟩, last⟩ := decodeFrames_walk { c with
    isStreaming := !(OpcodeBit.ofByte f.byte0).fin || c.isStreaming } f.byte0 f.byte1 _
    nothing_near (walksTo_nil.mpr walk)
  have content : st.decodeBuffer = c.decodeBuffer ++ (f :: more).flatMap Frame.payload := by
    rw [decode, collected_payloads plain collected]
  have header : st.header = .ofFrame ((f :: more).getLast (List.cons_ne_nil f more)) := by
    have found := last rfl
    rw [List.getLast?_map, List.getLast?_eq_some_getLast (List.cons_ne_nil f more)] at found
    exact (Option.some.inj found).symm
  have text : TextRefused (.ofBytes f.byte0 f.byte1) st.decodeBuffer ↔
      f.opcode = .text ∧ f.fin = true ∧
        validateUtf8 (c.decodeBuffer ++ (f :: more).flatMap Frame.payload) = false := by
    rw [WebsocketHeader.ofBytes_frame, content]
    exact and_congr_left' (ofRfc_text f.opcode)
  have decoded : ∃ c', decodeInMemory []
        (c.loaded f.byte0 f.byte1 (f.body ++ (encodeAll more ++ rest))) =
          .ok (verdict f (c.decodeBuffer ++ (f :: more).flatMap Frame.payload), c') ∧
      c'.decodeBuffer = st.decodeBuffer ∧ c'.isConnected = c.isConnected ∧
      (verdict f (c.decodeBuffer ++ (f :: more).flatMap Frame.payload) = .success →
        c'.wbHeader = st.header) := by
    rw [decodeInMemory, loaded_markStreaming, frames, ok_bind]
    unfold verdict
    by_cases refused : f.opcode = .text ∧ f.fin = true ∧
        validateUtf8 (c.decodeBuffer ++ (f :: more).flatMap Frame.payload) = false
    · rw [if_pos refused]
      exact ⟨_, congrArg Except.ok (finishDecode_refused (text.mpr refused)), rfl, rfl,
        fun success => by contradiction⟩
    · rw [if_neg refused]
      exact ⟨_, congrArg Except.ok (finishDecode_accepted (mt text.mp refused)), rfl, rfl,
        fun _ => rfl⟩
  obtain ⟨c', done, buffer, state, final⟩ := decoded
  exact ⟨c', decodeInMemory_extends done [0], done, buffer.trans content, state,
    fun success => (final success).trans header⟩

end WebsocketProto
