import WebsocketProto.DecoderWalk

/-! When the data frame decoder stays inside the received string. With nothing to read behind the
string, a normal result of the model means that the loop ended, that every access through `p` had
an index inside `recv_buffer_`, and that every appended length was still there. -/
namespace WebsocketProto
open Outcome

/-- What returns on a memory returns the same with more bytes behind it. -/
def Extends (back : Bytes) (x y : Except MemoryFault Bytes) : Prop :=
  ∀ memory, x = .ok memory → y = .ok (memory ++ back)

theorem readAt_extends (found : readAt memory index = .ok b) (back : Bytes) :
    readAt (memory ++ back) index = .ok b := by
  have bound := readAt_bound found
  rw [← found, readAt, readAt, List.getElem?_append_left bound]

theorem readBytes_extends (found : readBytes memory count index = .ok bytes) (back : Bytes) :
    readBytes (memory ++ back) count index = .ok bytes := by
  induction count generalizing index bytes with
  | zero => exact found
  | succ count ih =>
    simp only [readBytes, bind_eq_ok] at found
    obtain ⟨b, here, more, later, eq⟩ := found
    rw [readBytes, readAt_extends here, ok_bind, ih later, ok_bind]
    exact eq

theorem writeAt_extends (memory : Bytes) (index : Nat) (b : Byte) (back : Bytes) :
    Extends back (writeAt memory index b) (writeAt (memory ++ back) index b) := by
  intro after done
  obtain ⟨inside, rfl⟩ := writeAt_iff.mp done
  exact writeAt_iff.mpr ⟨by rw [List.length_append]; omega, (List.set_append_left _ _ inside).symm⟩

theorem xorWord_extends (order : ByteOrder) (m : UInt32) (memory : Bytes) (at_ : Nat)
    (back : Bytes) :
    Extends back (xorWord order m memory at_) (xorWord order m (memory ++ back) at_) := by
  intro after done
  simp only [xorWord, bind_eq_ok] at done
  obtain ⟨b0, r0, b1, r1, b2, r2, b3, r3, _, w0, _, w1, _, w2, w3⟩ := done
  simp only [xorWord, readAt_extends r0, readAt_extends r1, readAt_extends r2, readAt_extends r3,
    ok_bind, writeAt_extends _ _ _ back _ w0, writeAt_extends _ _ _ back _ w1,
    writeAt_extends _ _ _ back _ w2, writeAt_extends _ _ _ back _ w3]

theorem unmaskWords_extends (order : ByteOrder) (m : UInt32) (p count i : Nat) (memory back : Bytes) :
    Extends back (unmaskWords order m p count i memory)
      (unmaskWords order m p count i (memory ++ back)) := by
  induction count generalizing i memory with
  | zero =>
    rintro after done
    obtain rfl := Except.ok.inj done
    rfl
  | succ count ih =>
    intro after done
    obtain ⟨middle, word, rest⟩ := bind_eq_ok.mp done
    rw [unmaskWords, xorWord_extends order m memory _ back _ word, ok_bind]
    split at rest
    · contradiction
    · rename_i noWrap
      rw [if_neg noWrap]
      exact ih (i + 1) middle after rest

theorem xorTail_extends (mask : Bytes) (p : Nat) (memory : Bytes) (i : Int) (back : Bytes) :
    Extends back (xorTail mask p memory i) (xorTail mask p (memory ++ back) i) := by
  intro after done
  unfold xorTail at done ⊢
  split at done
  · contradiction
  · split at done
    · contradiction
    · rename_i subscript lower
      simp only [bind_eq_ok] at done
      obtain ⟨m, key, b, here, written⟩ := done
      rw [if_neg subscript, if_neg lower, key, ok_bind, readAt_extends here, ok_bind]
      exact writeAt_extends _ _ _ back _ written

theorem unmaskTail_extends (mask : Bytes) (p count : Nat) (i : Int) (memory back : Bytes) :
    Extends back (unmaskTail mask p count i memory)
      (unmaskTail mask p count i (memory ++ back)) := by
  induction count generalizing i memory with
  | zero =>
    rintro after done
    obtain rfl := Except.ok.inj done
    rfl
  | succ count ih =>
    intro after done
    obtain ⟨middle, head, rest⟩ := bind_eq_ok.mp done
    rw [unmaskTail, xorTail_extends mask p memory i back _ head, ok_bind]
    exact ih (i + 1) middle after rest

theorem unmask_extends (order : ByteOrder) (mask : Bytes) (p : Nat) (payloadLen : UInt64)
    (memory back : Bytes) :
    Extends back (unmask order mask p payloadLen memory)
      (unmask order mask p payloadLen (memory ++ back)) := by
  intro after done
  simp only [unmask, bind_eq_ok] at done
  obtain ⟨m0, r0, m1, r1, m2, r2, m3, r3, middle, words, tail⟩ := done
  simp only [unmask, r0, r1, r2, r3, ok_bind, unmaskWords_extends _ _ _ _ _ _ back _ words]
  exact unmaskTail_extends mask p _ _ middle back after tail

theorem readPayloadLen_extends (found : readPayloadLen memory size header p = .ok r)
    (back : Bytes) : readPayloadLen (memory ++ back) size header p = .ok r := by
  unfold readPayloadLen at found ⊢
  split at found
  · rename_i seven
    rw [if_pos seven]
    exact found
  · rename_i seven
    rw [if_neg seven]
    split at found
    · rename_i two
      rw [if_pos two]
      split at found
      · rename_i short
        rw [if_pos short]
        exact found
      · rename_i long
        simp only [bind_eq_ok] at found
        obtain ⟨hi, first, lo, second, eq⟩ := found
        rw [if_neg long, readAt_extends first, ok_bind, readAt_extends second, ok_bind]
        exact eq
    · rename_i two
      rw [if_neg two]
      split at found
      · rename_i eight
        rw [if_pos eight]
        split at found
        · rename_i short
          rw [if_pos short]
          exact found
        · rename_i long
          simp only [bind_eq_ok] at found
          obtain ⟨bytes, there, eq⟩ := found
          rw [if_neg long, readBytes_extends there, ok_bind]
          exact eq
      · rename_i eight
        rw [if_neg eight]
        exact found

/-- The same state with more bytes behind the string. -/
def DecodeState.extended (st : DecodeState) (back : Bytes) : DecodeState :=
  { st with memory := st.memory ++ back }

theorem readMasked_extends {st : DecodeState} (whole : st.memory.length = st.size)
    (done : readMasked payloadLen st p = .ok (after, p')) (back : Bytes) :
    after.length = st.size ∧
      readMasked payloadLen (st.extended back) p = .ok (after ++ back, p') := by
  unfold readMasked at done ⊢
  split at done
  · rename_i masked
    simp only [bind_eq_ok] at done
    obtain ⟨mask, reads, memory, unmasked, done⟩ := done
    split at done
    · obtain ⟨rfl, rfl⟩ := Prod.mk.inj (Except.ok.inj done)
      have same := (unmask_keeps unmasked).1.1
      have kept : (memory ++ back).drop st.size = (st.memory ++ back).drop st.size := by
        rw [List.drop_append_of_le_length (by omega), List.drop_append_of_le_length (by omega),
          List.drop_eq_nil_of_le (by omega), List.drop_eq_nil_of_le (by omega)]
      refine ⟨same.trans whole, ?_⟩
      simp only [DecodeState.extended, masked, ↓reduceIte, readBytes_extends reads, ok_bind,
        unmask_extends _ _ _ _ _ back _ unmasked, kept]
      rfl
    · contradiction
  · rename_i plain
    obtain ⟨rfl, rfl⟩ := Prod.mk.inj (Except.ok.inj done)
    exact ⟨whole, if_neg plain⟩

theorem appendPayload_extends {st : DecodeState} (memory : Bytes)
    (whole : memory.length = st.size)
    (done : appendPayload payloadLen st memory p = .ok (jump, st')) (back : Bytes) :
    st'.memory = memory ∧ st'.size = st.size ∧
      appendPayload payloadLen (st.extended back) (memory ++ back) p =
        .ok (jump, st'.extended back) := by
  unfold appendPayload at done ⊢
  split at done
  · contradiction
  · rename_i inside
    have within : p + payloadLen.toNat ≤ memory.length := Nat.le_of_not_lt inside
    have chunk : ((memory ++ back).drop p).take payloadLen.toNat =
        (memory.drop p).take payloadLen.toNat := by
      rw [List.drop_append_of_le_length (by omega), List.take_append_of_le_length
        (by rw [List.length_drop]; omega)]
    rw [if_neg (by rw [List.length_append]; omega), chunk]
    dsimp only [DecodeState.extended] at done ⊢
    split at done
    · rename_i ends
      obtain ⟨rfl, rfl⟩ := Prod.mk.inj (Except.ok.inj done)
      rw [if_pos ends]
      exact ⟨rfl, rfl, rfl⟩
    · rename_i goes
      simp only [bind_eq_ok] at done
      obtain ⟨b0, first, b1, second, eq⟩ := done
      obtain ⟨rfl, rfl⟩ := Prod.mk.inj (Except.ok.inj eq)
      rw [if_neg goes, readAt_extends first, ok_bind, readAt_extends second, ok_bind]
      exact ⟨rfl, rfl, rfl⟩

theorem decodeStep_extends {st : DecodeState} (whole : st.memory.length = st.size)
    (done : decodeStep st = .ok (jump, st')) (back : Bytes) :
    st'.memory.length = st'.size ∧ decodeStep (st.extended back) = .ok (jump, st'.extended back) := by
  simp only [decodeStep, bind_eq_ok] at done
  obtain ⟨field, length, done⟩ := done
  have length' : readPayloadLen (st.extended back).memory (st.extended back).size
      (st.extended back).header (st.extended back).p = .ok field :=
    readPayloadLen_extends length back
  rw [decodeStep, length', ok_bind]
  cases field with
  | none =>
    obtain ⟨rfl, rfl⟩ := Prod.mk.inj (Except.ok.inj done)
    exact ⟨whole, rfl⟩
  | some field =>
    dsimp only at done ⊢
    split at done
    · rename_i large
      obtain ⟨rfl, rfl⟩ := Prod.mk.inj (Except.ok.inj done)
      exact ⟨whole, if_pos large⟩
    · rename_i fits
      simp only [bind_eq_ok] at done
      obtain ⟨⟨memory, p⟩, masked, appended⟩ := done
      obtain ⟨same, masked'⟩ := readMasked_extends whole masked back
      obtain ⟨kept, size, appended'⟩ := appendPayload_extends memory same appended back
      refine ⟨by rw [kept, size]; exact same, ?_⟩
      have fits' : ¬ (field.1 + sizeofHeader.toUInt64).toNat > (st.extended back).size := fits
      rw [if_neg fits']
      exact bind_eq_ok.mpr ⟨_, masked', appended'⟩

theorem decodeLoop_extends {fuel more : Nat} {st : DecodeState} (enough : fuel ≤ more)
    (whole : st.memory.length = st.size) (done : decodeLoop fuel st = .ok (jump, st'))
    (back : Bytes) : st'.memory.length = st'.size ∧
      decodeLoop more (st.extended back) = .ok (jump, st'.extended back) := by
  induction fuel generalizing more st with
  | zero => contradiction
  | succ fuel ih =>
    obtain ⟨more, rfl⟩ : ∃ n, more = n + 1 := ⟨more - 1, by omega⟩
    rw [decodeLoop] at done ⊢
    cases step : decodeStep st with
    | error e => rw [step] at done; contradiction
    | ok stepped =>
      obtain ⟨jump₁, st₁⟩ := stepped
      obtain ⟨whole₁, step'⟩ := decodeStep_extends whole step back
      rw [step] at done
      rw [step']
      cases jump₁ with
      | again => exact ih (by omega) whole₁ done
      | leave | returns _ =>
        obtain ⟨rfl, rfl⟩ := Prod.mk.inj (Except.ok.inj done)
        exact ⟨whole₁, rfl⟩

/-- As long as no byte behind the string is touched, it does not matter what lies there. -/
theorem decodeInMemory_extends {c : WebsocketClient} {r : CloseFlag × WebsocketClient}
    (done : decodeInMemory [] c = .ok r) (behind : Bytes) : decodeInMemory behind c = .ok r := by
  obtain ⟨⟨jump, st⟩, frames, eq⟩ := bind_eq_ok.mp done
  have enough : c.markStreaming.recvBuffer.length + ([] : Bytes).length + 1 ≤
      c.markStreaming.recvBuffer.length + behind.length + 1 := by simp
  obtain ⟨whole, frames'⟩ := decodeLoop_extends enough (by simp) frames behind
  rw [decodeInMemory]
  refine bind_eq_ok.mpr ⟨(jump, st.extended behind), ?_, ?_⟩
  · rw [decodeFrames, ← frames']
    simp [DecodeState.extended]
  · have kept : (st.memory ++ behind).take st.size = st.memory.take st.size :=
      List.take_append_of_le_length (by omega)
    rw [← eq]
    simp only [finishDecode, DecodeState.extended, kept]

/-- The decoder returns, and it does so without the NUL behind the string. -/
def DecodesSafely (c : WebsocketClient) : Prop :=
  ∃ flag after, decodeWebsocketDataFrame c = .ok (flag, after) ∧
    decodeInMemory [] c = .ok (flag, after)

theorem decodesSafely_iff (c : WebsocketClient) :
    DecodesSafely c ↔ ∃ result, decodeFrames [] c.markStreaming = .ok result := by
  constructor
  · rintro ⟨flag, after, _, done⟩
    obtain ⟨result, frames, _⟩ := bind_eq_ok.mp done
    exact ⟨result, frames⟩
  · rintro ⟨result, frames⟩
    have done : decodeInMemory [] c = .ok (finishDecode c.markStreaming result.1 result.2) :=
      bind_eq_ok.mpr ⟨result, frames, rfl⟩
    exact ⟨_, _, decodeInMemory_extends done [0], done⟩

/-- The decoder is safe on a received string exactly when the string can be walked:
behind the first header lie frames back to back, up to one that is final or empty
at the end, or one whose declared length the loop refuses. -/
theorem decode_safe_iff_walk (c : WebsocketClient) (b0 b1 : Byte) (rest : Bytes) :
    DecodesSafely (c.loaded b0 b1 rest) ↔
      ∃ visited ending, Walk (rest.length + 2) 0 (.ofBytes b0 b1) rest visited ending := by
  rw [decodesSafely_iff, loaded_markStreaming]
  constructor
  · rintro ⟨result, frames⟩
    obtain ⟨visited, ending, walk⟩ := decodeFrames_inv _ b0 b1 rest nothing_near frames
    exact ⟨visited, ending, walksTo_nil.mp walk⟩
  · rintro ⟨visited, ending, walk⟩
    obtain ⟨st, frames, _⟩ := decodeFrames_walk _ b0 b1 rest nothing_near (walksTo_nil.mpr walk)
    exact ⟨_, frames⟩

/-- A masked text frame that ends behind its two header bytes passes every check,
and the masking key is then read behind the end of the string. -/
theorem masked_header_leaves_buffer :
    decodeInMemory [] ((WebsocketClient.new 7).loaded 0x81 0x80 []) = .error (.outside 2) ∧
    decodeWebsocketDataFrame ((WebsocketClient.new 7).loaded 0x81 0x80 []) = .error (.outside 3) ∧
    ¬ DecodesSafely ((WebsocketClient.new 7).loaded 0x81 0x80 []) := by
  have outside : decodeInMemory [] ((WebsocketClient.new 7).loaded 0x81 0x80 []) =
      .error (.outside 2) := by decide
  refine ⟨outside, by decide, ?_⟩
  rintro ⟨flag, after, _, done⟩
  rw [outside] at done
  contradiction

end WebsocketProto
