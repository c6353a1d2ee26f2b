import WebsocketProto.Unmasking

/-! The decoder loop as a walk over the layout of the memory. A walk only speaks of the bytes that
are there: which frames lie back to back behind the first header, and how their declared lengths
compare with the string. Its last bytes may lie behind the string. -/
namespace WebsocketProto
open Rfc6455 (Key)
open Outcome

variable {behind : Nat}

def WebsocketHeader.extendedWidth (h : WebsocketHeader) : Nat :=
  if h.payload.payloadLen = PAYLOAD_2_FLAG then 2
  else if h.payload.payloadLen = PAYLOAD_8_FLAG then 8
  else 0

/-- The buffer size below which an extended length is refused unread. -/
def WebsocketHeader.minimumSize (h : WebsocketHeader) : Nat :=
  if h.payload.payloadLen = PAYLOAD_2_FLAG then sizeofHeader + 2
  else if h.payload.payloadLen = PAYLOAD_8_FLAG then sizeofHeader + 6
  else 0

/-- The payload length that signed characters make of the length bytes. -/
def WebsocketHeader.declared (h : WebsocketHeader) : Bytes → UInt64
  | [] => h.payload.payloadLen.toUInt64
  | [hi, lo] => payloadLen16 hi lo
  | extended => extended.foldl shiftIn 0

/-- One frame as it lies in the buffer; the payload is still masked. -/
structure Visited where
  header : WebsocketHeader
  key : Option Key
  raw : Bytes
  deriving DecidableEq, Repr

def Visited.keyBytes (v : Visited) : Bytes := (v.key.map Key.bytes).getD []

def Visited.payload (v : Visited) : Bytes :=
  match v.key with
  | none => v.raw
  | some key => Bytes.mask key.bytes v.raw

@[simp] theorem Visited.payload_length (v : Visited) : v.payload.length = v.raw.length := by
  unfold Visited.payload; split <;> simp

/-- A frame under `v.header` lies at the front of `bytes`, with `rest` behind it, and the checks of
the loop let it pass. The string has `size` bytes; `behind` more may be read, but not changed. -/
structure Visit (size behind : Nat) (v : Visited) (bytes rest : Bytes) : Prop where
  layout : ∃ extended, bytes = extended ++ (v.keyBytes ++ (v.raw ++ rest)) ∧
    extended.length = v.header.extendedWidth ∧
    v.raw.length = (v.header.declared extended).toNat ∧
    (v.header.declared extended + sizeofHeader.toUInt64).toNat ≤ size
  checked : v.header.minimumSize ≤ size
  keyed : v.header.payload.mask = v.key.isSome
  unmaskable : ∀ key, v.key = some key →
    UnmaskFits (size + behind - rest.length - v.raw.length) v.raw.length ∧
    Spares size (size + behind - rest.length - v.raw.length) v.raw.length key

/-- The declared length is refused before any payload byte is touched. -/
def Refused (size : Nat) (header : WebsocketHeader) (bytes : Bytes) : Prop :=
  size < header.minimumSize ∨
  ∃ extended rest, bytes = extended ++ rest ∧ extended.length = header.extendedWidth ∧
    size < (header.declared extended + sizeofHeader.toUInt64).toNat

/-- The frame is final, or its payload begins no earlier than the string ends. -/
def Visited.Ends (v : Visited) (behind : Nat) (rest : Bytes) : Prop :=
  v.header.opcode.fin = true ∨ (v.raw ++ rest).length ≤ behind

inductive Ending where
  | refused | ended
  deriving DecidableEq, Repr

/-- The frames visited from a header on, `bytes` being what lies behind it. -/
inductive Walk (size behind : Nat) :
    WebsocketHeader → Bytes → List Visited → Ending → Prop where
  | refused : Refused size header bytes → Walk size behind header bytes [] .refused
  | last : Visit size behind v bytes rest → v.Ends behind rest →
      Walk size behind v.header bytes [v] .ended
  | next : Visit size behind v bytes (b0 :: b1 :: rest) → ¬ v.Ends behind (b0 :: b1 :: rest) →
      Walk size behind (.ofBytes b0 b1) rest visited ending →
      Walk size behind v.header bytes (v :: visited) ending

theorem keyBytes_length {key key' : Option Key} (same : key.isSome = key'.isSome) :
    ((key.map Key.bytes).getD []).length = ((key'.map Key.bytes).getD []).length := by
  cases key <;> cases key' <;> first | rfl | contradiction

theorem keyBytes_inj {key key' : Option Key} (same : key.isSome = key'.isSome)
    (bytes : (key.map Key.bytes).getD [] = (key'.map Key.bytes).getD []) : key = key' := by
  cases key with
  | none =>
    cases key' with
    | none => rfl
    | some k' => contradiction
  | some k =>
    cases key' with
    | none => contradiction
    | some k' =>
      cases k
      cases k'
      simpa [Key.bytes] using bytes

/-- A header and the bytes behind it are visited in one way. -/
theorem Visit.unique {size behind : Nat} {v w : Visited} {bytes rest rest' : Bytes}
    (header : v.header = w.header) (visit : Visit size behind v bytes rest)
    (visit' : Visit size behind w bytes rest') : v = w ∧ rest = rest' := by
  obtain ⟨⟨extended, layout, width, extent, _⟩, _, keyed, _⟩ := visit
  obtain ⟨⟨extended', layout', width', extent', _⟩, _, keyed', _⟩ := visit'
  rw [header] at width extent keyed
  have isSome : v.key.isSome = w.key.isSome := keyed.symm.trans keyed'
  obtain ⟨rfl, behind⟩ := List.append_inj (layout.symm.trans layout') (width.trans width'.symm)
  obtain ⟨key, raws⟩ := List.append_inj behind (keyBytes_length isSome)
  obtain ⟨raw, rest_⟩ := List.append_inj raws (extent.trans extent'.symm)
  refine ⟨?_, rest_⟩
  have keys := keyBytes_inj isSome key
  cases v
  cases w
  simp only [Visited.mk.injEq]
  exact ⟨header, keys, raw⟩

theorem Visit.not_refused {size behind : Nat} {v : Visited} {bytes rest : Bytes}
    (visit : Visit size behind v bytes rest) : ¬ Refused size v.header bytes := by
  obtain ⟨⟨extended, layout, width, _, room⟩, checked, _⟩ := visit
  rintro (short | ⟨extended', rest', layout', width', large⟩)
  · omega
  · obtain ⟨rfl, _⟩ := List.append_inj (layout.symm.trans layout') (width.trans width'.symm)
    omega

theorem Walk.unique {size behind : Nat} {header : WebsocketHeader} {bytes : Bytes}
    {visited visited' : List Visited} {ending ending' : Ending}
    (walk : Walk size behind header bytes visited ending)
    (walk' : Walk size behind header bytes visited' ending') :
    visited' = visited ∧ ending' = ending := by
  induction walk generalizing visited' with
  | refused refused =>
    cases walk' with
    | refused _ => exact ⟨rfl, rfl⟩
    | last visit _ => exact absurd refused visit.not_refused
    | next visit _ _ => exact absurd refused visit.not_refused
  | @last v bytes rest visit ends =>
    generalize same : v.header = header at walk'
    cases walk' with
    | refused refused => exact absurd (same ▸ refused) visit.not_refused
    | last visit' _ =>
      obtain ⟨rfl, _⟩ := visit.unique same visit'
      exact ⟨rfl, rfl⟩
    | next visit' goes _ =>
      obtain ⟨rfl, rfl⟩ := visit.unique same visit'
      exact absurd ends goes
  | @next v bytes b0 b1 rest visited ending visit goes walk ih =>
    generalize same : v.header = header at walk'
    cases walk' with
    | refused refused => exact absurd (same ▸ refused) visit.not_refused
    | last visit' ends =>
      obtain ⟨rfl, rfl⟩ := visit.unique same visit'
      exact absurd ends goes
    | next visit' _ walk' =>
      obtain ⟨rfl, tail⟩ := visit.unique same visit'
      cases tail
      obtain ⟨rfl, rfl⟩ := ih walk'
      exact ⟨rfl, rfl⟩

theorem readBytes_append (front bytes back : Bytes) :
    readBytes (front ++ (bytes ++ back)) bytes.length front.length = .ok bytes := by
  induction bytes generalizing front with
  | nil => rfl
  | cons b rest ih =>
    have later := ih (front ++ [b])
    simp only [List.append_assoc, List.cons_append, List.nil_append, List.length_append,
      List.length_cons, List.length_nil, Nat.zero_add] at later
    rw [List.length_cons, readBytes, List.cons_append, readAt_append, ok_bind, later]
    rfl

theorem readBytes_inv (found : readBytes (front ++ bytes) count front.length = .ok taken) :
    taken.length = count ∧ ∃ rest, bytes = taken ++ rest := by
  induction count generalizing front bytes taken with
  | zero =>
    obtain rfl := Except.ok.inj found
    exact ⟨rfl, bytes, rfl⟩
  | succ count ih =>
    simp only [readBytes, bind_eq_ok] at found
    obtain ⟨b, here, more, later, eq⟩ := found
    cases bytes with
    | nil => have := readAt_bound here; simp at this
    | cons b' rest =>
      rw [readAt_append] at here
      obtain rfl := Except.ok.inj here
      have shifted : front ++ b' :: rest = (front ++ [b']) ++ rest := by simp
      have position : front.length + 1 = (front ++ [b']).length := by simp
      rw [shifted, position] at later
      obtain ⟨length, tail, rfl⟩ := ih later
      obtain rfl := Except.ok.inj eq
      exact ⟨by simp [length], tail, rfl⟩

theorem readPayloadLen_short (short : size < header.minimumSize) :
    readPayloadLen memory size header p = .ok none := by
  unfold WebsocketHeader.minimumSize at short
  unfold readPayloadLen
  split at short
  · rename_i two
    rw [if_neg (by rw [two]; decide), if_pos two, if_pos short]
  · split at short
    · rename_i eight
      rw [if_neg (by rw [eight]; decide), if_neg (by rw [eight]; decide), if_pos eight, if_pos short]
    · exact absurd short (Nat.not_lt_zero _)

theorem readPayloadLen_declared (front extended rest : Bytes) (header : WebsocketHeader)
    (seven : header.payload.payloadLen < 128)
    (checked : header.minimumSize ≤ size) (width : extended.length = header.extendedWidth) :
    readPayloadLen (front ++ (extended ++ rest)) size header front.length =
      .ok (some (header.declared extended, front.length + extended.length)) := by
  have reads := readBytes_append front extended rest
  unfold WebsocketHeader.minimumSize at checked
  unfold WebsocketHeader.extendedWidth at width
  unfold readPayloadLen
  by_cases two : header.payload.payloadLen = PAYLOAD_2_FLAG
  · rw [if_pos two] at checked width
    rw [if_neg (by rw [two]; decide), if_pos two, if_neg (by omega)]
    match extended, width with
    | [hi, lo], _ =>
      have second := readAt_append (front ++ [hi]) lo rest
      simp only [List.append_assoc, List.cons_append, List.nil_append, List.length_append,
        List.length_cons, List.length_nil, Nat.zero_add] at second
      rw [List.cons_append, readAt_append, ok_bind, List.cons_append, List.nil_append, second]
      rfl
  · rw [if_neg two] at checked width
    by_cases eight : header.payload.payloadLen = PAYLOAD_8_FLAG
    · rw [if_pos eight] at checked width
      rw [width] at reads
      rw [if_neg (by rw [eight]; decide), if_neg two, if_pos eight, if_neg (by omega), reads, width]
      match extended, width with
      | [_, _, _, _, _, _, _, _], _ => rfl
    · rw [if_neg eight] at width
      have empty : extended = [] := List.length_eq_zero_iff.mp width
      have small : header.payload.payloadLen < PAYLOAD_2_FLAG := by
        simp only [PAYLOAD_2_FLAG, PAYLOAD_8_FLAG] at two eight ⊢; omega
      rw [if_pos small, empty]
      rfl

theorem readPayloadLen_inv
    (found : readPayloadLen (front ++ bytes) size header front.length = .ok r) :
    (size < header.minimumSize ∧ r = none) ∨
    (header.minimumSize ≤ size ∧ ∃ extended rest, bytes = extended ++ rest ∧
      extended.length = header.extendedWidth) := by
  by_cases short : size < header.minimumSize
  · rw [readPayloadLen_short short] at found
    exact Or.inl ⟨short, (Except.ok.inj found).symm⟩
  refine Or.inr ⟨Nat.le_of_not_lt short, ?_⟩
  unfold WebsocketHeader.minimumSize at short
  unfold WebsocketHeader.extendedWidth
  unfold readPayloadLen at found
  by_cases two : header.payload.payloadLen = PAYLOAD_2_FLAG
  · rw [if_pos two] at short ⊢
    rw [if_neg (by rw [two]; decide), if_pos two, if_neg short] at found
    simp only [bind_eq_ok] at found
    obtain ⟨_, _, _, there, _⟩ := found
    have bound := readAt_bound there
    have pair : 2 ≤ bytes.length := by rw [List.length_append] at bound; omega
    match bytes, pair with
    | hi :: lo :: rest, _ => exact ⟨[hi, lo], rest, rfl, rfl⟩
  · rw [if_neg two] at short ⊢
    by_cases eight : header.payload.payloadLen = PAYLOAD_8_FLAG
    · rw [if_pos eight] at short ⊢
      rw [if_neg (by rw [eight]; decide), if_neg two, if_pos eight, if_neg short] at found
      simp only [bind_eq_ok] at found
      obtain ⟨taken, there, _⟩ := found
      obtain ⟨length, rest, rfl⟩ := readBytes_inv there
      exact ⟨taken, rest, rfl, length⟩
    · rw [if_neg eight]
      exact ⟨[], bytes, rfl, rfl⟩

/-- What `append` adds for a frame: its payload, or at least as many bytes where
the 32-bit counters go astray. -/
def Visited.Yields (v : Visited) (piece : Bytes) : Prop :=
  piece.length = v.raw.length ∧ (v.key = none ∨ v.raw.length < 2 ^ 31 → piece = v.payload)

theorem readMasked_visit (st : DecodeState) (v : Visited) (payloadLen : UInt64)
    (front rest : Bytes) (memory : st.memory = front ++ (v.keyBytes ++ (v.raw ++ rest)))
    (near : st.memory.length ≤ st.size + 1)
    (keyed : st.header.payload.mask = v.key.isSome)
    (extent : v.raw.length = payloadLen.toNat)
    (unmaskable : ∀ key, v.key = some key → UnmaskFits (front.length + 4) v.raw.length ∧
      Spares st.size (front.length + 4) v.raw.length key) :
    ∃ front' piece, readMasked payloadLen st front.length =
        .ok (front' ++ (piece ++ rest), front'.length) ∧
      front'.length = front.length + v.keyBytes.length ∧ v.Yields piece := by
  cases hk : v.key with
  | none =>
    have plain : st.header.payload.mask = false := by rw [keyed, hk]; rfl
    refine ⟨front, v.raw, ?_, by simp [Visited.keyBytes, hk], rfl, ?_⟩
    · simp [readMasked, plain, memory, Visited.keyBytes, hk]
    · intro _; simp [Visited.payload, hk]
  | some key =>
    have masked : st.header.payload.mask = true := by rw [keyed, hk]; rfl
    have keyBytes : v.keyBytes = key.bytes := by simp [Visited.keyBytes, hk]
    have reads := readBytes_append front key.bytes (v.raw ++ rest)
    rw [keyBytes] at memory ⊢
    rw [Key.bytes_length, ← memory] at reads
    have whole : st.memory = (front ++ key.bytes) ++ (v.raw ++ rest) := by
      rw [memory, List.append_assoc]
    have length : (front ++ key.bytes).length = front.length + 4 := by simp
    have inside : front.length + 4 + payloadLen.toNat ≤ st.memory.length := by
      rw [whole, List.length_append, length, List.length_append]; omega
    obtain ⟨fits, spares⟩ := unmaskable key hk
    rw [extent] at fits spares
    obtain ⟨after, done⟩ := unmask_defined .little key (front.length + 4) payloadLen st.memory
      inside fits
    have kept := (unmask_spares_iff done inside near).mpr spares
    have returns : readMasked payloadLen st front.length = .ok (after, front.length + 4) := by
      rw [readMasked, if_pos masked, reads, ok_bind, done, ok_bind, if_pos kept]
      rfl
    by_cases small : payloadLen.toNat < 2 ^ 31
    · have regular := unmask_mask .little key payloadLen (front ++ key.bytes) v.raw rest extent
        (by omega) (Or.inl small)
      rw [length, ← whole] at regular
      obtain rfl := Except.ok.inj (done.symm.trans regular)
      refine ⟨front ++ key.bytes, Bytes.mask key.bytes v.raw, by rw [returns, length], by simp,
        by simp, ?_⟩
      intro _; simp [Visited.payload, hk]
    · have keeps := (unmask_keeps done).1
      have tail : after.drop (front.length + 4 + payloadLen.toNat) = rest := by
        rw [keeps.2, whole, ← length, ← extent, ← List.length_append, ← List.append_assoc,
          List.drop_left]
      have total : after.length = front.length + 4 + v.raw.length + rest.length := by
        rw [keeps.1, whole, List.length_append, length, List.length_append]; omega
      refine ⟨after.take (front.length + 4),
        (after.drop (front.length + 4)).take payloadLen.toNat, ?_, ?_, ?_, ?_⟩
      · have pieces : after = after.take (front.length + 4) ++
            ((after.drop (front.length + 4)).take payloadLen.toNat ++ rest) := by
          rw [← tail, ← List.drop_drop (i := payloadLen.toNat) (j := front.length + 4),
            List.take_append_drop, List.take_append_drop]
        rw [returns, ← pieces]
        simp [total]
        omega
      · simp [total]; omega
      · rw [List.length_take, List.length_drop]; omega
      · rintro (none_ | low)
        · rw [hk] at none_; contradiction
        · omega

theorem readMasked_inv (st : DecodeState) (payloadLen : UInt64) (front bytes : Bytes)
    (memory : st.memory = front ++ bytes) (near : st.memory.length ≤ st.size + 1)
    (done : readMasked payloadLen st front.length = .ok (after, p))
    (inside : p + payloadLen.toNat ≤ after.length) :
    ∃ (key : Option Key) (raw rest : Bytes), bytes = (key.map Key.bytes).getD [] ++ (raw ++ rest) ∧
      st.header.payload.mask = key.isSome ∧ raw.length = payloadLen.toNat ∧
      ∀ k, key = some k → UnmaskFits (front.length + 4) raw.length ∧
        Spares st.size (front.length + 4) raw.length k := by
  unfold readMasked at done
  split at done
  · rename_i masked
    simp only [bind_eq_ok] at done
    obtain ⟨taken, reads, middle, unmasked, done⟩ := done
    split at done
    · rename_i kept
      rw [memory] at reads
      obtain ⟨length, tail, rfl⟩ := readBytes_inv reads
      match taken, length with
      | [k0, k1, k2, k3], _ =>
        simp only [pure_ok, Except.ok.injEq, Prod.mk.injEq] at done
        obtain ⟨rfl, rfl⟩ := done
        obtain ⟨keeps, fits⟩ := unmask_keeps unmasked
        have extent : front.length + 4 + payloadLen.toNat ≤ st.memory.length := by
          rw [← keeps.1]; exact inside
        obtain ⟨key, spelled⟩ : ∃ key : Key, key.bytes = [k0, k1, k2, k3] := ⟨⟨k0, k1, k2, k3⟩, rfl⟩
        rw [← spelled] at unmasked
        have spares := (unmask_spares_iff unmasked extent near).mp kept
        have within : payloadLen.toNat ≤ tail.length := by
          rw [memory] at extent; simp at extent; omega
        refine ⟨some key, tail.take payloadLen.toNat, tail.drop payloadLen.toNat, ?_, masked, ?_, ?_⟩
        · simp [spelled]
        · rw [List.length_take]; omega
        · rintro k same
          obtain rfl := Option.some.inj same
          rw [List.length_take, Nat.min_eq_left within]
          exact ⟨fits extent, spares⟩
    · contradiction
  · rename_i plain
    obtain ⟨rfl, rfl⟩ := Prod.mk.inj (Except.ok.inj done)
    rw [memory, List.length_append] at inside
    refine ⟨none, bytes.take payloadLen.toNat, bytes.drop payloadLen.toNat, ?_, ?_, ?_, ?_⟩
    · simp
    · simpa using plain
    · rw [List.length_take]; omega
    · simp

/-- The loop stands in front of `bytes`, the last `behind` of which lie behind the string. -/
structure DecodeState.At (st : DecodeState) (behind : Nat) (front bytes : Bytes) : Prop where
  memory : st.memory = front ++ bytes
  position : st.p = front.length
  extent : st.memory.length = st.size + behind
  near : behind ≤ 1
  seven : st.header.payload.payloadLen < 128

/-- The state behind a frame, before the next header is read. -/
def DecodeState.appended (st : DecodeState) (front piece rest : Bytes) : DecodeState :=
  { st with
    memory := front ++ (piece ++ rest)
    decodeBuffer := st.decodeBuffer ++ piece
    p := front.length }

/-- What an iteration does once the frame is known to lie in the memory. -/
def finishFrame (st : DecodeState) (front piece rest : Bytes) :
    Except MemoryFault (Jump × DecodeState) :=
  if st.header.opcode.fin || front.length ≥ st.size then
    .ok (.leave, st.appended front piece rest)
  else match rest with
    | [] => .error (.outside (front.length + piece.length))
    | [_] => .error (.outside (front.length + piece.length + 1))
    | b0 :: b1 :: _ =>
      .ok (.again, { st.appended front piece rest with
        header := .ofBytes b0 b1, p := front.length + piece.length + 2 })

theorem appendPayload_append (payloadLen : UInt64) (st : DecodeState) (front piece rest : Bytes)
    (extent : piece.length = payloadLen.toNat) :
    appendPayload payloadLen st (front ++ (piece ++ rest)) front.length =
      finishFrame st front piece rest := by
  have inside : ¬ (front ++ (piece ++ rest)).length < front.length + payloadLen.toNat := by
    simp only [List.length_append]; omega
  have chunk : ((front ++ (piece ++ rest)).drop front.length).take payloadLen.toNat = piece := by
    rw [List.drop_left, ← extent, List.take_left]
  have whole : front ++ (piece ++ rest) = (front ++ piece) ++ rest := by simp
  have beyond : front.length + payloadLen.toNat = (front ++ piece).length := by simp [extent]
  rw [appendPayload, if_neg inside]
  unfold finishFrame
  simp only [chunk]
  split
  · rfl
  · rw [beyond, whole]
    match rest with
    | [] => rw [readAt_beyond _ _ (by simp), error_bind]; simp
    | [b0] =>
      rw [readAt_append, ok_bind, readAt_beyond _ _ (by simp; omega), error_bind]
      simp
    | b0 :: b1 :: rest =>
      have second := readAt_append (front ++ piece ++ [b0]) b1 rest
      simp only [List.append_assoc, List.cons_append, List.nil_append, List.length_append,
        List.length_cons, List.length_nil, Nat.zero_add, ← Nat.add_assoc] at second
      rw [readAt_append, ok_bind]
      simp only [List.append_assoc, List.length_append, second, ok_bind, pure_ok,
        DecodeState.appended]

theorem decodeStep_refused {st : DecodeState} (stands : st.At behind front bytes)
    (refused : Refused st.size st.header bytes) :
    decodeStep st = .ok (.returns .protocolError, st) := by
  by_cases short : st.size < st.header.minimumSize
  · rw [decodeStep, readPayloadLen_short short]
    rfl
  rcases refused with tooShort | ⟨extended, rest, rfl, width, large⟩
  · exact absurd tooShort short
  · rw [decodeStep, stands.position, stands.memory, readPayloadLen_declared front extended rest
      st.header stands.seven (Nat.le_of_not_lt short) width, ok_bind]
    simp only [gt_iff_lt, large, ↓reduceIte, pure_ok]

theorem decodeStep_visit {st : DecodeState} (stands : st.At behind front bytes) (v : Visited)
    (header : v.header = st.header) (visit : Visit st.size behind v bytes rest) :
    ∃ front' piece, decodeStep st = finishFrame st front' piece rest ∧ v.Yields piece ∧
      (front' ++ (piece ++ rest)).length = st.memory.length := by
  obtain ⟨⟨extended, rfl, width, extent, admitted⟩, checked, keyed, unmaskable⟩ := visit
  have total := stands.extent
  have near := stands.near
  have whole : st.memory = (front ++ extended) ++ (v.keyBytes ++ (v.raw ++ rest)) := by
    rw [stands.memory, List.append_assoc]
  have length := readPayloadLen_declared front extended (v.keyBytes ++ (v.raw ++ rest)) st.header
    stands.seven (header ▸ checked) (by rw [width, header])
  have fits : ∀ key, v.key = some key →
      UnmaskFits ((front ++ extended).length + 4) v.raw.length ∧
      Spares st.size ((front ++ extended).length + 4) v.raw.length key := by
    intro key hk
    have keyBytes : v.keyBytes.length = 4 := by simp [Visited.keyBytes, hk]
    have start : st.size + behind - rest.length - v.raw.length = (front ++ extended).length + 4 := by
      rw [whole] at total
      simp only [List.length_append, keyBytes] at total ⊢
      omega
    exact start ▸ unmaskable key hk
  rw [header] at extent admitted
  obtain ⟨front', piece, masked, length', yields⟩ := readMasked_visit st v
    (st.header.declared extended) (front ++ extended) rest whole (by omega) (header ▸ keyed) extent
    fits
  refine ⟨front', piece, ?_, yields, ?_⟩
  · rw [decodeStep, stands.position, stands.memory, length, ok_bind]
    simp only [gt_iff_lt, Nat.not_lt.mpr admitted, ↓reduceIte]
    rw [← List.length_append, masked, ok_bind]
    exact appendPayload_append _ st front' piece rest (yields.1.trans extent)
  · rw [whole]
    simp only [List.length_append] at length' ⊢
    have := yields.1
    omega

/-- Every frame the decoder gets past is refused or lies in the memory. -/
theorem decodeStep_inv {st : DecodeState} (stands : st.At behind front bytes)
    (done : decodeStep st = .ok result) :
    Refused st.size st.header bytes ∨
    ∃ v rest, v.header = st.header ∧ Visit st.size behind v bytes rest := by
  have memory := stands.memory
  have total := stands.extent
  have near := stands.near
  simp only [decodeStep, bind_eq_ok] at done
  obtain ⟨field, length, done⟩ := done
  rw [memory, stands.position] at length
  rcases readPayloadLen_inv length with ⟨short, _⟩ | ⟨checked, extended, tail, rfl, width⟩
  · exact Or.inl (Or.inl short)
  rw [readPayloadLen_declared front extended tail st.header stands.seven checked width] at length
  obtain rfl := Except.ok.inj length
  simp only [gt_iff_lt] at done
  by_cases large : st.size < (st.header.declared extended + sizeofHeader.toUInt64).toNat
  · exact Or.inl (Or.inr ⟨extended, tail, rfl, width, large⟩)
  rw [if_neg large] at done
  simp only [bind_eq_ok] at done
  obtain ⟨⟨after, p⟩, masked, appended⟩ := done
  have inside : p + (st.header.declared extended).toNat ≤ after.length := by
    unfold appendPayload at appended
    split at appended
    · contradiction
    · rename_i inside
      exact Nat.le_of_not_lt inside
  rw [← List.length_append] at masked
  obtain ⟨key, raw, rest, rfl, keyed, extent, fits⟩ := readMasked_inv st
    (st.header.declared extended) (front ++ extended) tail (by rw [memory, List.append_assoc])
    (by omega) masked inside
  refine Or.inr ⟨⟨st.header, key, raw⟩, rest, rfl, ⟨extended, rfl, width, extent,
    Nat.le_of_not_lt large⟩, checked, keyed, ?_⟩
  rintro k rfl
  have start : st.size + behind - rest.length - raw.length = (front ++ extended).length + 4 := by
    rw [memory] at total
    simp at total ⊢
    omega
  exact start ▸ fits k rfl

def Ending.jump : Ending → Jump
  | .refused => .returns .protocolError
  | .ended => .leave

/-- One piece for each visited frame, in order. -/
def Collected (visited : List Visited) (bytes : Bytes) : Prop :=
  ∃ pieces : List Bytes, bytes = pieces.flatten ∧ List.Forall₂ Visited.Yields visited pieces

theorem Collected.nil : Collected [] [] := ⟨[], rfl, .nil⟩

theorem Collected.cons (yields : v.Yields piece) (collected : Collected visited bytes) :
    Collected (v :: visited) (piece ++ bytes) := by
  obtain ⟨pieces, rfl, all⟩ := collected
  exact ⟨piece :: pieces, rfl, .cons yields all⟩

/-- The loop's result, as far as the walk determines it. -/
structure Follows (st : DecodeState) (visited : List Visited) (ending : Ending)
    (st' : DecodeState) : Prop where
  collected : ∃ bytes, st'.decodeBuffer = st.decodeBuffer ++ bytes ∧ Collected visited bytes
  header : ending = .ended → visited.getLast?.map Visited.header = some st'.header

theorem ends_iff {st : DecodeState} {v : Visited} (front' piece rest : Bytes)
    (stands : st.At behind front bytes) (header : v.header = st.header) (yields : v.Yields piece)
    (length : (front' ++ (piece ++ rest)).length = st.memory.length) :
    (st.header.opcode.fin || decide (front'.length ≥ st.size)) = true ↔ v.Ends behind rest := by
  have total := stands.extent
  have same := yields.1
  rw [Visited.Ends, header, Bool.or_eq_true, decide_eq_true_eq]
  simp only [List.length_append] at length ⊢
  refine or_congr_right ?_
  omega

theorem decodeStep_ended {st : DecodeState} (stands : st.At behind front bytes) (v : Visited)
    (header : v.header = st.header) (visit : Visit st.size behind v bytes rest)
    (ends : v.Ends behind rest) :
    ∃ st', decodeStep st = .ok (.leave, st') ∧ Follows st [v] .ended st' := by
  obtain ⟨front', piece, step, yields, length⟩ := decodeStep_visit stands v header visit
  have stop := (ends_iff front' piece rest stands header yields length).mpr ends
  refine ⟨st.appended front' piece rest, ?_, ?_, ?_⟩
  · rw [step, finishFrame.eq_def, if_pos stop]
  · exact ⟨piece, rfl, by simpa using Collected.nil.cons yields⟩
  · intro _
    simp [DecodeState.appended, header]

theorem ofBytes_seven (b0 b1 : Byte) :
    (WebsocketHeader.ofBytes b0 b1).payload.payloadLen < 128 :=
  PayloadMask.ofByte_payloadLen_lt b1

theorem decodeStep_again {st : DecodeState} (stands : st.At behind front bytes) (v : Visited)
    (b0 b1 : Byte) (rest : Bytes) (header : v.header = st.header)
    (visit : Visit st.size behind v bytes (b0 :: b1 :: rest))
    (goes : ¬ v.Ends behind (b0 :: b1 :: rest)) :
    ∃ front' piece st', decodeStep st = .ok (.again, st') ∧ st'.At behind front' rest ∧
      st'.size = st.size ∧ st'.header = .ofBytes b0 b1 ∧
      st'.decodeBuffer = st.decodeBuffer ++ piece ∧ v.Yields piece := by
  obtain ⟨front', piece, step, yields, length⟩ := decodeStep_visit stands v header visit
  have going := mt (ends_iff front' piece _ stands header yields length).mp goes
  rw [finishFrame.eq_def, if_neg going] at step
  refine ⟨front' ++ (piece ++ [b0, b1]), piece, _, step,
    ⟨?_, ?_, length.trans stands.extent, stands.near, ofBytes_seven b0 b1⟩, rfl, rfl, rfl, yields⟩
  · simp [DecodeState.appended]
  · simp; omega

/-- The loop follows every walk: it collects the visited payloads in order and
stops the way the walk ends. The induction is on the walk; the memory in front of
`p` may have been rewritten, what lies behind it is still as received. -/
theorem decodeLoop_walk (walk : Walk size behind header bytes visited ending) (fuel : Nat)
    (st : DecodeState) (stands : st.At behind front bytes) (current : st.header = header)
    (extent : st.size = size) (enough : bytes.length < fuel) :
    ∃ st', decodeLoop fuel st = .ok (ending.jump, st') ∧ Follows st visited ending st' := by
  induction walk generalizing fuel st front with
  | refused refused =>
    subst current extent
    cases fuel with
    | zero => exact absurd enough (Nat.not_lt_zero _)
    | succ fuel =>
      refine ⟨st, ?_, ⟨[], by simp, .nil⟩, fun h => by contradiction⟩
      rw [decodeLoop, decodeStep_refused stands refused]
      rfl
  | @last v bytes rest visit ends =>
    subst extent
    cases fuel with
    | zero => exact absurd enough (Nat.not_lt_zero _)
    | succ fuel =>
      obtain ⟨st', step, follows⟩ := decodeStep_ended stands v current.symm visit ends
      exact ⟨st', by rw [decodeLoop, step]; rfl, follows⟩
  | @next v bytes b0 b1 rest visited ending visit goes walk ih =>
    subst extent
    cases fuel with
    | zero => exact absurd enough (Nat.not_lt_zero _)
    | succ fuel =>
      obtain ⟨front', piece, st₁, step, stands₁, size₁, header₁, decode₁, yields⟩ :=
        decodeStep_again stands v b0 b1 rest current.symm visit goes
      have shorter : rest.length < fuel := by
        obtain ⟨extended, rfl, _⟩ := visit.layout
        simp only [List.length_append, List.length_cons] at enough
        omega
      obtain ⟨st', loop, ⟨joined, decode', collected⟩, last⟩ :=
        ih fuel st₁ stands₁ header₁ size₁ shorter
      refine ⟨st', by rw [decodeLoop, step]; exact loop,
        ⟨piece ++ joined, ?_, collected.cons yields⟩, ?_⟩
      · rw [decode', decode₁, List.append_assoc]
      · intro ended
        have found := last ended
        cases hv : visited.getLast? with
        | none => rw [hv] at found; contradiction
        | some w => rw [List.getLast?_cons, hv, ← found, hv]; rfl

/-- A loop that comes back has walked the memory. -/
theorem decodeLoop_inv (fuel : Nat) (st : DecodeState) (stands : st.At behind front bytes)
    (done : decodeLoop fuel st = .ok result) :
    ∃ visited ending, Walk st.size behind st.header bytes visited ending := by
  induction fuel generalizing st front bytes with
  | zero => contradiction
  | succ fuel ih =>
    rw [decodeLoop] at done
    cases step : decodeStep st with
    | error e => rw [step] at done; contradiction
    | ok stepped =>
      rcases decodeStep_inv stands step with refused | ⟨v, rest, header, visit⟩
      · exact ⟨[], .refused, .refused refused⟩
      by_cases ends : v.Ends behind rest
      · exact ⟨[v], .ended, header ▸ .last visit ends⟩
      obtain ⟨front', piece, finished, yields, length⟩ := decodeStep_visit stands v header visit
      have going := mt (ends_iff front' piece rest stands header yields length).mp ends
      rw [finishFrame.eq_def, if_neg going, step] at finished
      match rest with
      | [] => contradiction
      | [_] => contradiction
      | b0 :: b1 :: rest =>
        obtain ⟨_, _, st₁, again, stands₁, size₁, header₁, _⟩ :=
          decodeStep_again stands v b0 b1 rest header visit ends
        rw [again] at step done
        obtain ⟨visited, ending, walk⟩ := ih st₁ stands₁ done
        rw [size₁, header₁] at walk
        exact ⟨v :: visited, ending, header ▸ .next visit ends walk⟩

theorem loaded_markStreaming (c : WebsocketClient) (b0 b1 : Byte) (rest : Bytes) :
    (c.loaded b0 b1 rest).markStreaming = WebsocketClient.loaded
      { c with isStreaming := !(OpcodeBit.ofByte b0).fin || c.isStreaming } b0 b1 rest := by
  cases fin : (OpcodeBit.ofByte b0).fin <;>
    simp [WebsocketClient.markStreaming, WebsocketClient.loaded, WebsocketHeader.ofBytes, fin]

/-- The walk over a received string and what may be read behind it. -/
def WalksTo (behind : Bytes) (b0 b1 : Byte) (rest : Bytes) (visited : List Visited)
    (ending : Ending) : Prop :=
  Walk (rest.length + 2) behind.length (.ofBytes b0 b1) (rest ++ behind) visited ending

theorem walksTo_nil : WalksTo [] b0 b1 rest visited ending ↔
    Walk (rest.length + 2) 0 (.ofBytes b0 b1) rest visited ending := by
  rw [WalksTo, List.append_nil, List.length_nil]

theorem nothing_near : ([] : Bytes).length ≤ 1 := Nat.zero_le 1

theorem nul_near : ([0] : Bytes).length ≤ 1 := Nat.le_refl 1

theorem entered (c : WebsocketClient) (b0 b1 : Byte) (rest : Bytes) {behind : Bytes}
    (near : behind.length ≤ 1) :
    DecodeState.At ⟨b0 :: b1 :: rest ++ behind, rest.length + 2, c.decodeBuffer, .ofBytes b0 b1,
      sizeofHeader⟩ behind.length [b0, b1] (rest ++ behind) :=
  ⟨rfl, rfl, by simp; omega, near, ofBytes_seven b0 b1⟩

theorem decodeFrames_walk (c : WebsocketClient) (b0 b1 : Byte) (rest : Bytes) {behind : Bytes}
    (near : behind.length ≤ 1) (walk : WalksTo behind b0 b1 rest visited ending) :
    ∃ st, decodeFrames behind (c.loaded b0 b1 rest) = .ok (ending.jump, st) ∧
      (∃ bytes, st.decodeBuffer = c.decodeBuffer ++ bytes ∧ Collected visited bytes) ∧
      (ending = .ended → visited.getLast?.map Visited.header = some st.header) := by
  obtain ⟨st, loop, collected, last⟩ := decodeLoop_walk walk
    (rest.length + 2 + behind.length + 1) _ (entered c b0 b1 rest near) rfl rfl
    (by rw [List.length_append]; omega)
  exact ⟨st, loop, collected, last⟩

theorem decodeFrames_inv (c : WebsocketClient) (b0 b1 : Byte) (rest : Bytes) {behind : Bytes}
    (near : behind.length ≤ 1)
    (done : decodeFrames behind (c.loaded b0 b1 rest) = .ok result) :
    ∃ visited ending, WalksTo behind b0 b1 rest visited ending :=
  decodeLoop_inv _ _ (entered c b0 b1 rest near) done

/-- More fuel never lets a loop come back that did not come back before. -/
theorem decodeLoop_fuel_enough (fuel more : Nat) (st : DecodeState)
    (stands : st.At behind front bytes) (enough : bytes.length < fuel)
    (done : decodeLoop more st = .ok result) : ∃ result', decodeLoop fuel st = .ok result' := by
  obtain ⟨visited, ending, walk⟩ := decodeLoop_inv more st stands done
  obtain ⟨st', loop, _⟩ := decodeLoop_walk walk fuel st stands rfl rfl enough
  exact ⟨_, loop⟩

end WebsocketProto
