import WebsocketProto.Decoder
import WebsocketProto.Outcome

/-! The two unmasking loops. Below 2^31 bytes they compute the repeating-key mask
of the payload and touch nothing else, on either byte order. The 32-bit tail
offset is also followed beyond that, where it only matters which bytes it hits. -/
namespace WebsocketProto
open Rfc6455 (Key)
open Outcome

theorem storeWord_xor (order : ByteOrder) (b0 b1 b2 b3 m0 m1 m2 m3 : Byte) :
    storeWord order (loadWord order b0 b1 b2 b3 ^^^ loadWord order m0 m1 m2 m3) =
      (b0 ^^^ m0, b1 ^^^ m1, b2 ^^^ m2, b3 ^^^ m3) := by
  cases order <;> simp only [storeWord, loadWord, Prod.mk.injEq] <;> refine ⟨?_, ?_, ?_, ?_⟩
  all_goals apply UInt8.eq_of_toBitVec_eq
  all_goals ext i bound
  all_goals simp [BitVec.getElem_setWidth, BitVec.getLsbD_or]
  all_goals grind

theorem readAt_append (front : Bytes) (b : Byte) (back : Bytes) :
    readAt (front ++ b :: back) front.length = .ok b := by
  simp [readAt]

theorem readAt_ok (buffer : Bytes) (index : Nat) (bound : index < buffer.length) :
    readAt buffer index = .ok buffer[index] := by
  simp [readAt, bound]

theorem readAt_beyond (buffer : Bytes) (index : Nat) (outside : buffer.length ≤ index) :
    readAt buffer index = .error (.outside index) := by
  simp [readAt, outside]

theorem readAt_bound (found : readAt buffer index = .ok b) : index < buffer.length := by
  unfold readAt at found
  split at found
  · rename_i here
    exact (List.getElem?_eq_some_iff.mp here).1
  · contradiction

theorem xorWord_append (order : ByteOrder) (key : Key) (front back : Bytes) (b0 b1 b2 b3 : Byte) :
    xorWord order (loadWord order key.k0 key.k1 key.k2 key.k3)
        (front ++ ([b0, b1, b2, b3] ++ back)) front.length =
      .ok (front ++ ([b0 ^^^ key.k0, b1 ^^^ key.k1, b2 ^^^ key.k2, b3 ^^^ key.k3] ++ back)) := by
  simp [xorWord, readAt, writeAt, storeWord_xor, bind, Except.bind]

theorem mask_word (key : Key) (b0 b1 b2 b3 : Byte) (rest : Bytes) :
    Bytes.mask key.bytes (b0 :: b1 :: b2 :: b3 :: rest) =
      [b0 ^^^ key.k0, b1 ^^^ key.k1, b2 ^^^ key.k2, b3 ^^^ key.k3] ++
        Bytes.mask key.bytes rest := by
  simp [Bytes.mask, Bytes.keyAt, Key.bytes, List.mapIdx_cons, Nat.add_assoc]

theorem unmaskWords_mask (order : ByteOrder) (key : Key) (p count i : Nat)
    (front body back : Bytes) (start : front.length = p + 4 * i)
    (extent : body.length = 4 * count) (noWrap : i + count < 2 ^ 31) :
    unmaskWords order (loadWord order key.k0 key.k1 key.k2 key.k3) p count i
        (front ++ (body ++ back)) =
      .ok (front ++ (Bytes.mask key.bytes body ++ back)) := by
  induction count generalizing i front body with
  | zero =>
    have empty : body = [] := List.length_eq_zero_iff.mp extent
    simp [empty, unmaskWords]
  | succ count ih =>
    match body, extent with
    | b0 :: b1 :: b2 :: b3 :: rest, extent =>
      have word := xorWord_append order key front (rest ++ back) b0 b1 b2 b3
      have later := ih (i + 1)
        (front ++ [b0 ^^^ key.k0, b1 ^^^ key.k1, b2 ^^^ key.k2, b3 ^^^ key.k3]) rest
        (by simp [start]; omega) (by simp at extent; omega) (by omega)
      rw [start] at word
      simp only [List.cons_append, List.nil_append, List.append_assoc] at word later
      simp only [List.cons_append, unmaskWords, word, bind, Except.bind, mask_word,
        if_neg (show ¬ (i + 1 = 2 ^ 31) by omega)]
      simpa using later

theorem xorTail_append (key : Key) (p i : Nat) (front back : Bytes) (b : Byte)
    (start : front.length = p + i) :
    xorTail key.bytes p (front ++ b :: back) i =
      .ok (front ++ (b ^^^ Bytes.keyAt key.bytes i) :: back) := by
  have nonneg : 0 ≤ (i : Int).tmod 4 := Int.tmod_nonneg _ (by omega)
  have index : ((i : Int).tmod 4).toNat = i % 4 := by
    rw [Int.tmod_eq_emod_of_nonneg] <;> omega
  have position : ((p : Int) + (i : Int)).toNat = front.length := by omega
  have small : i % 4 < key.bytes.length := Nat.mod_lt _ (by decide)
  have inMask : readAt key.bytes (i % 4) = .ok (Bytes.keyAt key.bytes i) := by
    simp only [readAt, Bytes.keyAt, List.getElem?_eq_getElem small, Key.bytes_length,
      List.getD_eq_getElem?_getD, Option.getD_some]
  rw [xorTail, if_neg (by omega), if_neg (by omega), index, position, inMask]
  simp [readAt, writeAt, bind, Except.bind]

theorem unmaskTail_mask (key : Key) (p i : Nat) (front body back : Bytes)
    (start : front.length = p + i) :
    unmaskTail key.bytes p body.length i (front ++ (body ++ back)) =
      .ok (front ++ (body.mapIdx (fun j b => b ^^^ Bytes.keyAt key.bytes (j + i)) ++ back)) := by
  induction body generalizing i front with
  | nil => simp [unmaskTail]
  | cons b rest ih =>
    have head := xorTail_append key p i front (rest ++ back) b start
    have later := ih (i + 1) (front ++ [b ^^^ Bytes.keyAt key.bytes i]) (by simp [start]; omega)
    simp only [List.append_assoc, List.cons_append, List.nil_append, Int.natCast_add,
      Int.natCast_one] at head later
    simp only [List.length_cons, unmaskTail, List.cons_append, head, bind, Except.bind, later,
      List.mapIdx_cons, Nat.zero_add]
    simp only [Nat.add_assoc, Nat.add_comm 1 i]

theorem tailOffset_eq (payloadLen : UInt64) :
    tailOffset payloadLen =
      if payloadLen.toNat % 2 ^ 32 < 2 ^ 31 then ((payloadLen.toNat / 4 * 4 % 2 ^ 32 : Nat) : Int)
      else (payloadLen.toNat / 4 * 4 % 2 ^ 32 : Nat) - 2 ^ 32 := by
  have bound := payloadLen.toNat_lt
  have product : (payloadLen / 4 * 4).toNat = payloadLen.toNat / 4 * 4 := by
    rw [UInt64.toNat_mul, UInt64.toNat_div]
    simp
    omega
  have low : (payloadLen / 4 * 4).toUInt32.toInt32.toBitVec.toNat =
      payloadLen.toNat / 4 * 4 % 2 ^ 32 := by
    rw [← product]
    exact UInt64.toNat_toUInt32 _
  rw [tailOffset, Int32.toInt, BitVec.toInt, low]
  split <;> split <;> omega

theorem words_toNat (payloadLen : UInt64) : (payloadLen / 4).toNat = payloadLen.toNat / 4 := by
  simp

theorem tail_toNat (payloadLen : UInt64) : (payloadLen % 4).toNat = payloadLen.toNat % 4 := by
  simp

theorem mask_append (key : Key) (words tail : Bytes) (count : Nat)
    (extent : words.length = 4 * count) :
    Bytes.mask key.bytes (words ++ tail) =
      Bytes.mask key.bytes words ++
        tail.mapIdx (fun j b => b ^^^ Bytes.keyAt key.bytes (j + 4 * count)) := by
  simp only [Bytes.mask, List.mapIdx_append, extent]

theorem tailOffset_small (payloadLen : UInt64) (small : payloadLen.toNat < 2 ^ 31) :
    tailOffset payloadLen = ((4 * (payloadLen.toNat / 4) : Nat) : Int) := by
  rw [tailOffset_eq, if_pos (by omega), Nat.mul_comm 4]
  omega

/-- The key is read once, as bytes and as a word. -/
theorem unmask_key (order : ByteOrder) (key : Key) (p : Nat) (payloadLen : UInt64)
    (buffer : Bytes) :
    unmask order key.bytes p payloadLen buffer =
      unmaskWords order (loadWord order key.k0 key.k1 key.k2 key.k3) p (payloadLen.toNat / 4) 0
        buffer >>= unmaskTail key.bytes p (payloadLen.toNat % 4) (tailOffset payloadLen) := by
  have m0 : readAt key.bytes 0 = .ok key.k0 := rfl
  have m1 : readAt key.bytes 1 = .ok key.k1 := rfl
  have m2 : readAt key.bytes 2 = .ok key.k2 := rfl
  have m3 : readAt key.bytes 3 = .ok key.k3 := rfl
  simp only [unmask, m0, m1, m2, m3, ok_bind, words_toNat, tail_toNat]

/-- Both loops together are the mask of the protocol, unless the 32-bit offset of a tail wraps. -/
theorem unmask_mask (order : ByteOrder) (key : Key) (payloadLen : UInt64)
    (front body back : Bytes) (extent : body.length = payloadLen.toNat)
    (counted : payloadLen.toNat < 2 ^ 33)
    (even : payloadLen.toNat < 2 ^ 31 ∨ payloadLen.toNat % 4 = 0) :
    unmask order key.bytes front.length payloadLen (front ++ (body ++ back)) =
      .ok (front ++ (Bytes.mask key.bytes body ++ back)) := by
  obtain ⟨words, tail, rfl, wordBytes⟩ :
      ∃ words tail, body = words ++ tail ∧ words.length = 4 * (payloadLen.toNat / 4) :=
    ⟨body.take (4 * (payloadLen.toNat / 4)), body.drop (4 * (payloadLen.toNat / 4)),
      (List.take_append_drop _ _).symm, by rw [List.length_take]; omega⟩
  have tailBytes : tail.length = payloadLen.toNat % 4 := by
    rw [List.length_append, wordBytes] at extent; omega
  have first := unmaskWords_mask order key front.length (payloadLen.toNat / 4) 0 front
    words (tail ++ back) (by simp) wordBytes (by omega)
  rw [unmask_key, mask_append key words tail _ wordBytes]
  simp only [List.append_assoc]
  rw [first, ok_bind]
  rcases even with small | none_
  · have second := unmaskTail_mask key front.length (4 * (payloadLen.toNat / 4))
      (front ++ Bytes.mask key.bytes words) tail back
      (by rw [List.length_append, Bytes.mask_length, wordBytes])
    rw [tailBytes] at second
    rw [tailOffset_small payloadLen small]
    simp only [List.append_assoc] at second ⊢
    exact second
  · rw [none_] at tailBytes ⊢
    rw [List.length_eq_zero_iff.mp tailBytes]
    rfl

/-- Same length, and the same bytes from `k` on. -/
def KeepsFrom (k : Nat) (before after : Bytes) : Prop :=
  after.length = before.length ∧ after.drop k = before.drop k

theorem KeepsFrom.refl (k : Nat) (buffer : Bytes) : KeepsFrom k buffer buffer := ⟨rfl, rfl⟩

theorem KeepsFrom.trans (first : KeepsFrom k a b) (second : KeepsFrom k b c) : KeepsFrom k a c :=
  ⟨second.1.trans first.1, second.2.trans first.2⟩

theorem KeepsFrom.mono (keeps : KeepsFrom k a b) (later : k ≤ m) : KeepsFrom m a b := by
  obtain ⟨more, rfl⟩ := Nat.exists_eq_add_of_le later
  exact ⟨keeps.1, by rw [← List.drop_drop, keeps.2, List.drop_drop]⟩

theorem writeAt_iff : writeAt buffer index b = .ok after ↔
    index < buffer.length ∧ after = buffer.set index b := by
  unfold writeAt
  split
  · rename_i inside
    simp [inside, eq_comm]
  · rename_i outside
    simp [outside]

theorem writeAt_keeps (written : writeAt buffer index b = .ok after) (before : index < k) :
    KeepsFrom k buffer after := by
  obtain ⟨_, rfl⟩ := writeAt_iff.mp written
  exact ⟨List.length_set, List.drop_set_of_lt before⟩

theorem xorWord_keeps (done : xorWord order m buffer at_ = .ok after) (before : at_ + 4 ≤ k) :
    at_ + 4 ≤ buffer.length ∧ KeepsFrom k buffer after := by
  simp only [xorWord, bind_eq_ok] at done
  obtain ⟨_, _, _, _, _, _, _, _, _, w0, _, w1, _, w2, w3⟩ := done
  have last := (writeAt_iff.mp w3).1
  have keeps := ((writeAt_keeps w0 (k := k) (by omega)).trans
    (writeAt_keeps w1 (k := k) (by omega))).trans (writeAt_keeps w2 (k := k) (by omega))
  refine ⟨by rw [keeps.1] at last; omega, keeps.trans (writeAt_keeps w3 (by omega))⟩

theorem xorWord_defined (order : ByteOrder) (m : UInt32) (buffer : Bytes) (at_ : Nat)
    (inside : at_ + 4 ≤ buffer.length) : ∃ after, xorWord order m buffer at_ = .ok after := by
  simp only [xorWord, readAt_ok buffer at_ (by omega), readAt_ok buffer (at_ + 1) (by omega),
    readAt_ok buffer (at_ + 2) (by omega), readAt_ok buffer (at_ + 3) (by omega), ok_bind]
  simp [writeAt, show at_ < buffer.length by omega, show at_ + 1 < buffer.length by omega,
    show at_ + 2 < buffer.length by omega, show at_ + 3 < buffer.length by omega]

theorem unmaskWords_keeps (done : unmaskWords order m p count i buffer = .ok after)
    (before : p + 4 * (i + count) ≤ k) (started : i < 2 ^ 31) :
    (count = 0 ∨ p + 4 * (i + count) ≤ buffer.length ∧ i + count < 2 ^ 31) ∧
    KeepsFrom k buffer after := by
  induction count generalizing i buffer with
  | zero =>
    obtain rfl := Except.ok.inj done
    exact ⟨Or.inl rfl, .refl _ _⟩
  | succ count ih =>
    obtain ⟨middle, word, rest⟩ := bind_eq_ok.mp done
    obtain ⟨inside, keeps⟩ := xorWord_keeps word (k := k) (by omega)
    split at rest
    · contradiction
    · rename_i noWrap
      obtain ⟨bounds, later⟩ := ih rest (by omega) (by omega)
      rw [keeps.1] at bounds
      exact ⟨by omega, keeps.trans later⟩

theorem unmaskWords_defined (order : ByteOrder) (m : UInt32) (p count i : Nat) (buffer : Bytes)
    (inside : p + 4 * (i + count) ≤ buffer.length) (noWrap : i + count < 2 ^ 31) :
    ∃ after, unmaskWords order m p count i buffer = .ok after := by
  induction count generalizing i buffer with
  | zero => exact ⟨buffer, rfl⟩
  | succ count ih =>
    obtain ⟨middle, word⟩ := xorWord_defined order m buffer (p + 4 * i) (by omega)
    have keeps := (xorWord_keeps word (Nat.le_refl _)).2
    rw [unmaskWords, word, ok_bind, if_neg (by omega)]
    exact ih (i + 1) middle (by rw [keeps.1]; omega) (by omega)

/-- The index and mask subscript that one round of the tail loop needs. -/
def TailRound (p extent : Nat) (i : Int) : Prop :=
  0 ≤ i.tmod 4 ∧ 0 ≤ (p : Int) + i ∧ (p : Int) + i < extent

theorem xorTail_keeps {k : Nat} (done : xorTail mask p buffer i = .ok after)
    (before : (p : Int) + i < k) :
    TailRound p buffer.length i ∧ KeepsFrom k buffer after := by
  unfold xorTail at done
  split at done
  · contradiction
  · split at done
    · contradiction
    · simp only [bind_eq_ok] at done
      obtain ⟨_, _, b, _, written⟩ := done
      have inside := (writeAt_iff.mp written).1
      exact ⟨⟨by omega, by omega, by omega⟩, writeAt_keeps written (by omega)⟩

theorem xorTail_defined (key : Key) (round : TailRound p buffer.length i) :
    ∃ after, xorTail key.bytes p buffer i = .ok after := by
  obtain ⟨subscript, lower, upper⟩ := round
  have small : i.tmod 4 < 4 := Int.tmod_lt_of_pos i (by omega)
  have inMask : (i.tmod 4).toNat < key.bytes.length := by rw [Key.bytes_length]; omega
  have inside : ((p : Int) + i).toNat < buffer.length := by omega
  rw [xorTail, if_neg (by omega), if_neg (by omega), readAt_ok _ _ inMask, ok_bind,
    readAt_ok _ _ inside, ok_bind, writeAt, if_pos inside]
  exact ⟨_, rfl⟩

theorem unmaskTail_keeps {k : Nat} (done : unmaskTail mask p count i buffer = .ok after)
    (before : (p : Int) + i + count ≤ k) :
    (∀ j < count, TailRound p buffer.length (i + (j : Nat))) ∧ KeepsFrom k buffer after := by
  induction count generalizing i buffer with
  | zero =>
    obtain rfl := Except.ok.inj done
    exact ⟨fun _ h => absurd h (Nat.not_lt_zero _), .refl _ _⟩
  | succ count ih =>
    obtain ⟨middle, head, rest⟩ := bind_eq_ok.mp done
    obtain ⟨round, keeps⟩ := xorTail_keeps head (k := k) (by omega)
    obtain ⟨rounds, later⟩ := ih rest (by omega)
    refine ⟨?_, keeps.trans later⟩
    intro j bound
    cases j with
    | zero => simpa using round
    | succ j =>
      have next := rounds j (by omega)
      rw [keeps.1] at next
      simpa [Int.add_assoc, Int.add_comm 1] using next

theorem unmaskTail_defined (key : Key) (p count : Nat) (i : Int) (buffer : Bytes)
    (rounds : ∀ j < count, TailRound p buffer.length (i + (j : Nat))) :
    ∃ after, unmaskTail key.bytes p count i buffer = .ok after := by
  induction count generalizing i buffer with
  | zero => exact ⟨buffer, rfl⟩
  | succ count ih =>
    have round : TailRound p buffer.length i := by simpa using rounds 0 (by omega)
    obtain ⟨middle, head⟩ := xorTail_defined key round
    have keeps := (xorTail_keeps head (k := ((p : Int) + i).toNat + 1)
      (by have := round.2.1; omega)).2
    rw [unmaskTail, head, ok_bind]
    apply ih
    intro j bound
    have next := rounds (j + 1) (by omega)
    rw [keeps.1]
    simpa [Int.add_assoc, Int.add_comm 1] using next

/-- Where the `int` counters of both loops stay meaningful: fewer than 2^31 words,
and a tail that is empty, or starts at a nonnegative offset, or is one byte at a
negative offset that still lies in the buffer. -/
def UnmaskFits (p payloadLen : Nat) : Prop :=
  payloadLen < 2 ^ 33 ∧
  (payloadLen % 4 = 0 ∨ payloadLen % 2 ^ 32 < 2 ^ 31 ∨
    payloadLen % 4 = 1 ∧ 2 ^ 32 < p + payloadLen % 2 ^ 32)

theorem UnmaskFits.of_small (small : payloadLen < 2 ^ 31) : UnmaskFits p payloadLen :=
  ⟨by omega, Or.inr (Or.inl (by omega))⟩

theorem tail_rounds_iff (payloadLen : UInt64) (p extent : Nat)
    (inside : p + payloadLen.toNat ≤ extent) :
    (∀ j < payloadLen.toNat % 4, TailRound p extent (tailOffset payloadLen + (j : Nat))) ↔
      payloadLen.toNat % 4 = 0 ∨ payloadLen.toNat % 2 ^ 32 < 2 ^ 31 ∨
        payloadLen.toNat % 4 = 1 ∧ 2 ^ 32 < p + payloadLen.toNat % 2 ^ 32 := by
  rw [tailOffset_eq]
  by_cases low : payloadLen.toNat % 2 ^ 32 < 2 ^ 31
  · rw [if_pos low]
    refine ⟨fun _ => Or.inr (Or.inl low), ?_⟩
    intro _ j bound
    exact ⟨Int.tmod_nonneg _ (by omega), by omega, by omega⟩
  · rw [if_neg low]
    constructor
    · intro rounds
      by_cases empty : payloadLen.toNat % 4 = 0
      · exact Or.inl empty
      have first := (rounds 0 (by omega)).2.1
      by_cases single : payloadLen.toNat % 4 = 1
      · exact Or.inr (Or.inr ⟨single, by omega⟩)
      -- the second round would read `mask` at a negative subscript
      have second := (rounds 1 (by omega)).1
      generalize offset : ((payloadLen.toNat / 4 * 4 % 2 ^ 32 : Nat) : Int) - 2 ^ 32 = off at second
      have quotient : off + ((1 : Nat) : Int) = -(2 ^ 32 - 1 -
          ((payloadLen.toNat / 4 * 4 % 2 ^ 32 : Nat) : Int)) := by omega
      rw [quotient, Int.neg_tmod, Int.tmod_eq_emod_of_nonneg (by omega)] at second
      omega
    · rintro (empty | high | ⟨single, behind⟩) j bound
      · omega
      · exact absurd high low
      · obtain rfl : j = 0 := by omega
        refine ⟨?_, by omega, by omega⟩
        have quotient : ((payloadLen.toNat / 4 * 4 % 2 ^ 32 : Nat) : Int) - 2 ^ 32 + ((0 : Nat) : Int) =
            4 * (((payloadLen.toNat / 4 * 4 % 2 ^ 32 / 4 : Nat) : Int) - 2 ^ 30) := by omega
        exact Int.le_of_eq (by rw [quotient, Int.mul_tmod_right])

theorem unmask_keeps (done : unmask order mask p payloadLen buffer = .ok after) :
    KeepsFrom (p + payloadLen.toNat) buffer after ∧
    (p + payloadLen.toNat ≤ buffer.length → UnmaskFits p payloadLen.toNat) := by
  simp only [unmask, bind_eq_ok, words_toNat, tail_toNat] at done
  obtain ⟨_, _, _, _, _, _, _, _, middle, words, tail⟩ := done
  obtain ⟨bounds, keeps⟩ := unmaskWords_keeps words (k := p + payloadLen.toNat) (by omega) (by omega)
  have offset : tailOffset payloadLen ≤ ((payloadLen.toNat / 4 * 4 : Nat) : Int) := by
    rw [tailOffset_eq]; split <;> omega
  obtain ⟨rounds, later⟩ := unmaskTail_keeps tail (k := p + payloadLen.toNat) (by omega)
  rw [keeps.1] at rounds
  refine ⟨keeps.trans later, ?_⟩
  intro inside
  exact ⟨by omega, (tail_rounds_iff payloadLen p _ inside).mp rounds⟩

theorem unmask_defined (order : ByteOrder) (key : Key) (p : Nat) (payloadLen : UInt64)
    (buffer : Bytes) (inside : p + payloadLen.toNat ≤ buffer.length)
    (fits : UnmaskFits p payloadLen.toNat) :
    ∃ after, unmask order key.bytes p payloadLen buffer = .ok after := by
  obtain ⟨counted, ends⟩ := fits
  obtain ⟨middle, words⟩ := unmaskWords_defined order
    (loadWord order key.k0 key.k1 key.k2 key.k3) p (payloadLen.toNat / 4) 0 buffer
    (by omega) (by omega)
  have keeps := (unmaskWords_keeps words (Nat.le_refl _) (by omega)).2
  obtain ⟨after, tail⟩ := unmaskTail_defined key p (payloadLen.toNat % 4)
    (tailOffset payloadLen) middle
    (by rw [keeps.1]; exact (tail_rounds_iff payloadLen p _ inside).mpr ends)
  refine ⟨after, ?_⟩
  rw [unmask_key, words, ok_bind, tail]

theorem slice_at (buffer : Bytes) (p count : Nat) (inside : p + count ≤ buffer.length) :
    ∃ front body back, buffer = front ++ (body ++ back) ∧ front.length = p ∧
      body.length = count := by
  have room : count ≤ (buffer.drop p).length := by rw [List.length_drop]; omega
  refine ⟨buffer.take p, (buffer.drop p).take count, (buffer.drop p).drop count, ?_, ?_, ?_⟩
  · simp only [List.take_append_drop]
  · exact List.length_take_of_le (by omega)
  · exact List.length_take_of_le room

theorem xor_keeps_iff (b k : Byte) : b ^^^ k = b ↔ k = 0 := by
  have cancel : b ^^^ k = b ^^^ 0 ↔ k = 0 := UInt8.xor_right_inj b
  rwa [UInt8.xor_zero] at cancel

/-- A mask leaves a position as it is exactly under a zero of the key. -/
theorem mask_drop_iff (key : Key) (front body back : Bytes) (size : Nat) :
    (front ++ (Bytes.mask key.bytes body ++ back)).drop size = (front ++ (body ++ back)).drop size ↔
      ∀ i < body.length, size ≤ front.length + i → Bytes.keyAt key.bytes i = 0 := by
  have masked := Bytes.mask_length key.bytes body
  have inside (i : Nat) (bound : i < body.length) :
      (front ++ (Bytes.mask key.bytes body ++ back))[front.length + i]? =
          some (body[i] ^^^ Bytes.keyAt key.bytes i) ∧
        (front ++ (body ++ back))[front.length + i]? = some body[i] := by
    rw [List.getElem?_append_right (Nat.le_add_right _ _), Nat.add_sub_cancel_left,
      List.getElem?_append_left (by omega), List.getElem?_append_right (Nat.le_add_right _ _),
      Nat.add_sub_cancel_left, List.getElem?_append_left bound]
    simp [Bytes.mask, bound]
  constructor
  · intro same i bound behind
    have here := congrArg (fun bytes => bytes[front.length + i - size]?) same
    simp only [List.getElem?_drop, Nat.add_sub_cancel' behind] at here
    rw [(inside i bound).1, (inside i bound).2] at here
    exact (xor_keeps_iff _ _).mp (Option.some.inj here)
  · intro zero
    apply List.ext_getElem?
    intro j
    simp only [List.getElem?_drop]
    by_cases before : size + j < front.length
    · simp only [List.getElem?_append_left before]
    by_cases within : size + j < front.length + body.length
    · obtain ⟨left, right⟩ := inside (size + j - front.length) (by omega)
      rw [Nat.add_sub_cancel' (by omega)] at left right
      rw [left, right, zero _ (by omega) (by omega), UInt8.xor_zero]
    · rw [List.getElem?_append_right (by omega), List.getElem?_append_right (by omega),
        List.getElem?_append_right (by omega), List.getElem?_append_right (by omega), masked]

/-- Behind a string of `size` bytes the key has a zero for every byte of the payload. A tail at a
wrapped offset does not reach that far. -/
def Spares (size p n : Nat) (key : Key) : Prop :=
  n < 2 ^ 31 ∨ n % 4 = 0 → ∀ i < n, size ≤ p + i → Bytes.keyAt key.bytes i = 0

theorem Spares.of_inside (inside : p + n ≤ size) (key : Key) : Spares size p n key :=
  fun _ i bound behind => absurd behind (by omega)

/-- The words in front of a tail at a wrapped offset are the last bytes that change. -/
theorem unmask_wrapped (done : unmask order mask p payloadLen buffer = .ok after)
    (large : 2 ^ 31 ≤ payloadLen.toNat) :
    KeepsFrom (p + 4 * (payloadLen.toNat / 4)) buffer after := by
  simp only [unmask, bind_eq_ok, words_toNat, tail_toNat] at done
  obtain ⟨_, _, _, _, _, _, _, _, middle, words, tail⟩ := done
  have first := (unmaskWords_keeps words (k := p + 4 * (payloadLen.toNat / 4)) (by omega)
    (by omega)).2
  have offset : tailOffset payloadLen + 2 ^ 31 ≤ ((payloadLen.toNat / 4 * 4 : Nat) : Int) := by
    rw [tailOffset_eq]
    split <;> omega
  exact first.trans (unmaskTail_keeps tail (k := p + 4 * (payloadLen.toNat / 4)) (by omega)).2

/-- Nothing changes behind a string exactly when the key spares what lies there. -/
theorem unmask_spares_iff {order : ByteOrder} {key : Key} {p : Nat} {payloadLen : UInt64}
    {buffer after : Bytes} {size : Nat}
    (done : unmask order key.bytes p payloadLen buffer = .ok after)
    (inside : p + payloadLen.toNat ≤ buffer.length) (near : buffer.length ≤ size + 1) :
    after.drop size = buffer.drop size ↔ Spares size p payloadLen.toNat key := by
  have counted := ((unmask_keeps done).2 inside).1
  by_cases even : payloadLen.toNat < 2 ^ 31 ∨ payloadLen.toNat % 4 = 0
  · obtain ⟨front, body, back, rfl, rfl, extent⟩ := slice_at buffer p payloadLen.toNat inside
    rw [unmask_mask order key payloadLen front body back extent counted even] at done
    rw [← Except.ok.inj done, mask_drop_iff, extent]
    exact ⟨fun spares _ => spares, fun spares => spares even⟩
  · refine iff_of_true ?_ fun other => absurd other even
    exact ((unmask_wrapped done (by omega)).mono (by omega)).2

theorem key_of_bytes (mask : Bytes) (width : mask.length = 4) : ∃ key : Key, mask = key.bytes := by
  match mask, width with
  | [k0, k1, k2, k3], _ => exact ⟨⟨k0, k1, k2, k3⟩, rfl⟩

theorem keyAt_eq (mask : Bytes) (width : mask.length = 4) (i : Nat) :
    Bytes.keyAt mask i = mask[i % 4] := by
  have bound : i % 4 < mask.length := by omega
  simp only [Bytes.keyAt, width, List.getD_eq_getElem?_getD, List.getElem?_eq_getElem bound,
    Option.getD_some]

/-- The words and the tail together are one pass of byte-wise `^`, and it stays
inside the payload. -/
theorem unmask_xors (order : ByteOrder) (mask : Bytes) (width : mask.length = 4) (p : Nat)
    (payloadLen : UInt64) (buffer : Bytes) (inside : p + payloadLen.toNat ≤ buffer.length)
    (small : payloadLen.toNat < 2 ^ 31) :
    ∃ after, unmask order mask p payloadLen buffer = .ok after ∧
      after.length = buffer.length ∧
      (∀ i (bound : i < payloadLen.toNat), after[p + i]? = some (buffer[p + i] ^^^ mask[i % 4])) ∧
      ∀ j, j < p ∨ p + payloadLen.toNat ≤ j → after[j]? = buffer[j]? := by
  obtain ⟨front, body, back, rfl, rfl, extent⟩ := slice_at buffer p payloadLen.toNat inside
  obtain ⟨key, rfl⟩ := key_of_bytes mask width
  have masked := Bytes.mask_length key.bytes body
  refine ⟨_, unmask_mask order key payloadLen front body back extent (by omega) (Or.inl small),
    ?_, ?_, ?_⟩
  · simp only [List.length_append, masked]
  · intro i bound
    have inBody : i < body.length := by omega
    rw [List.getElem?_append_right (Nat.le_add_right _ _), Nat.add_sub_cancel_left,
      List.getElem?_append_left (by omega)]
    simp [Bytes.mask, inBody, keyAt_eq key.bytes rfl]
  · rintro j (before | behind)
    · simp only [List.getElem?_append_left before]
    · rw [List.getElem?_append_right (by omega), List.getElem?_append_right (by omega),
        List.getElem?_append_right (by omega), List.getElem?_append_right (by omega), masked]

/-- Seven masked bytes, a word and a tail of three, in front of the next header. -/
theorem unmask_xors_seven : ∃ after,
    unmask .little [0x37, 0xfa, 0x21, 0x3d] 2 7
      [0x82, 0x87, 0x7f, 0x9f, 0x4d, 0x51, 0x58, 0xda, 0x56, 0x81, 0x00] = .ok after ∧
    after.length = 11 ∧ after[8]? = some (0x56 ^^^ 0x21) ∧ after[9]? = some 0x81 := by
  obtain ⟨after, done, length, inside, outside⟩ := unmask_xors .little [0x37, 0xfa, 0x21, 0x3d] rfl
    2 7 [0x82, 0x87, 0x7f, 0x9f, 0x4d, 0x51, 0x58, 0xda, 0x56, 0x81, 0x00] (by decide) (by decide)
  exact ⟨after, done, length, inside 6 (by decide), outside 9 (by decide)⟩

end WebsocketProto
