import WebsocketProto.Bytes

/-! The byte sequences of UTF-8. A sequence is a lead byte with the continuation bytes that it
announces; some of these are forbidden, and the others are the encoded characters. -/
namespace WebsocketProto.Utf8

def Continuation (b : Byte) : Prop := b.toNat / 64 = 2

instance : DecidablePred Continuation := fun b => inferInstanceAs (Decidable (b.toNat / 64 = 2))

/-- The number of continuation bytes behind a lead byte. -/
def announced (a : Byte) : Option Nat :=
  if a.toNat / 128 = 0 then some 0
  else if a.toNat / 32 = 6 then some 1
  else if a.toNat / 16 = 14 then some 2
  else if a.toNat / 8 = 30 then some 3
  else none

def Sequence : Bytes → Prop
  | [] => False
  | a :: tail => announced a = some tail.length ∧ ∀ b ∈ tail, Continuation b

instance : DecidablePred Sequence
  | [] => inferInstanceAs (Decidable False)
  | a :: tail =>
    inferInstanceAs (Decidable (announced a = some tail.length ∧ ∀ b ∈ tail, Continuation b))

/-- The values that the lead byte of a sequence with so many continuation bytes contributes. -/
def leadValues : Nat → Nat
  | 0 => 128
  | 1 => 32
  | 2 => 16
  | _ => 8

def codePoint : Bytes → Nat
  | [] => 0
  | a :: tail =>
    tail.foldl (fun n b => 64 * n + b.toNat % 64) (a.toNat % leadValues tail.length)

/-- The least code point that needs a sequence of this length. -/
def leastCodePoint : Nat → Nat
  | 0 | 1 => 0
  | 2 => 0x80
  | 3 => 0x800
  | _ => 0x10000

/-- Overlong, a surrogate, or above U+10FFFF. -/
def Forbidden (q : Bytes) : Prop :=
  codePoint q < leastCodePoint q.length ∨ (0xD800 ≤ codePoint q ∧ codePoint q ≤ 0xDFFF) ∨
    0x10FFFF < codePoint q

instance : DecidablePred Forbidden := fun q =>
  inferInstanceAs (Decidable (codePoint q < leastCodePoint q.length ∨
    (0xD800 ≤ codePoint q ∧ codePoint q ≤ 0xDFFF) ∨ 0x10FFFF < codePoint q))

section Leads
variable {a : Byte}

theorem announced_zero (lead : a.toNat / 128 = 0) : announced a = some 0 := if_pos lead

theorem announced_one (lead : a.toNat / 32 = 6) : announced a = some 1 := by
  unfold announced
  rw [if_neg (by omega), if_pos lead]

theorem announced_two (lead : a.toNat / 16 = 14) : announced a = some 2 := by
  unfold announced
  rw [if_neg (by omega), if_neg (by omega), if_pos lead]

theorem announced_three (lead : a.toNat / 8 = 30) : announced a = some 3 := by
  unfold announced
  rw [if_neg (by omega), if_neg (by omega), if_neg (by omega), if_pos lead]

theorem announced_some {k : Nat} (lead : announced a = some k) :
    k = 0 ∧ a.toNat / 128 = 0 ∨ k = 1 ∧ a.toNat / 32 = 6 ∨ k = 2 ∧ a.toNat / 16 = 14 ∨
      k = 3 ∧ a.toNat / 8 = 30 := by
  unfold announced at lead
  grind

end Leads

/-- No sequence is the beginning of another one. -/
theorem Sequence.append_inj {q q' rest rest' : Bytes} (first : Sequence q) (second : Sequence q')
    (same : q ++ rest = q' ++ rest') : q = q' ∧ rest = rest' := by
  match q, q', first, second with
  | a :: tail, a' :: tail', ⟨lead, _⟩, ⟨lead', _⟩ =>
    obtain ⟨rfl, tails⟩ := List.cons.inj same
    have length : tail.length = tail'.length := Option.some.inj (lead.symm.trans lead')
    obtain ⟨rfl, rest⟩ := List.append_inj tails length
    exact ⟨rfl, rest⟩

theorem Sequence.ne_nil {q : Bytes} (sequence : Sequence q) : q ≠ [] := by
  rintro rfl
  exact sequence

/-- A byte string falls into sequences in one way at most. -/
theorem flatten_sequences_inj {qs qs' : List Bytes} (first : ∀ q ∈ qs, Sequence q)
    (second : ∀ q ∈ qs', Sequence q) (same : qs.flatten = qs'.flatten) : qs = qs' := by
  induction qs generalizing qs' with
  | nil =>
    cases qs' with
    | nil => rfl
    | cons q' rest' =>
      have empty : q' = [] := (List.append_eq_nil_iff.mp same.symm).1
      exact absurd empty (second q' List.mem_cons_self).ne_nil
  | cons q rest ih =>
    cases qs' with
    | nil =>
      have empty : q = [] := (List.append_eq_nil_iff.mp same).1
      exact absurd empty (first q List.mem_cons_self).ne_nil
    | cons q' rest' =>
      obtain ⟨rfl, rests⟩ :=
        (first q List.mem_cons_self).append_inj (second q' List.mem_cons_self) same
      rw [ih (fun r member => first r (List.mem_cons_of_mem q member))
        (fun r member => second r (List.mem_cons_of_mem q member)) rests]

theorem ofNat_toNat {n : Nat} (small : n < 256) : (UInt8.ofNat n).toNat = n := by
  simpa using small

theorem char_bound (c : Char) :
    c.val.toNat < 0xD800 ∨ 0xDFFF < c.val.toNat ∧ c.val.toNat < 0x110000 := c.valid

/-- An encoded character is a sequence, and its code point is read back. -/
theorem encodeChar_sequence (c : Char) : Sequence (String.utf8EncodeChar c) ∧
    ¬ Forbidden (String.utf8EncodeChar c) := by
  have bound := char_bound c
  unfold String.utf8EncodeChar
  generalize c.val.toNat = v at bound
  dsimp only
  split
  · have lead := ofNat_toNat (n := v) (by omega)
    generalize UInt8.ofNat v = a at lead
    refine ⟨⟨announced_zero (by omega), List.forall_mem_nil _⟩, ?_⟩
    simp [Forbidden, codePoint, leadValues, leastCodePoint, lead]
    omega
  have last := ofNat_toNat (n := v % 64 + 128) (by omega)
  generalize UInt8.ofNat (v % 64 + 128) = z at last
  split
  · have lead := ofNat_toNat (n := v / 64 % 32 + 192) (by omega)
    generalize UInt8.ofNat (v / 64 % 32 + 192) = a at lead
    refine ⟨⟨announced_one (by omega), by simp [Continuation]; omega⟩, ?_⟩
    simp [Forbidden, codePoint, leadValues, leastCodePoint, lead, last]
    omega
  have middle := ofNat_toNat (n := v / 64 % 64 + 128) (by omega)
  generalize UInt8.ofNat (v / 64 % 64 + 128) = y at middle
  split
  · have lead := ofNat_toNat (n := v / 4096 % 16 + 224) (by omega)
    generalize UInt8.ofNat (v / 4096 % 16 + 224) = a at lead
    refine ⟨⟨announced_two (by omega), by simp [Continuation]; omega⟩, ?_⟩
    simp [Forbidden, codePoint, leadValues, leastCodePoint, lead, middle, last]
    omega
  · have lead := ofNat_toNat (n := v / 262144 % 8 + 240) (by omega)
    generalize UInt8.ofNat (v / 262144 % 8 + 240) = a at lead
    have second := ofNat_toNat (n := v / 4096 % 64 + 128) (by omega)
    generalize UInt8.ofNat (v / 4096 % 64 + 128) = x at second
    refine ⟨⟨announced_three (by omega), by simp [Continuation]; omega⟩, ?_⟩
    simp [Forbidden, codePoint, leadValues, leastCodePoint, lead, second, middle, last]
    omega

theorem byte_eq {b : Byte} {n : Nat} (value : b.toNat = n) : b = UInt8.ofNat n := by
  rw [← value, UInt8.ofNat_toNat]

/-- Every other sequence is an encoded character. -/
theorem Sequence.encodes {q : Bytes} (sequence : Sequence q) (allowed : ¬ Forbidden q) :
    ∃ c : Char, q = String.utf8EncodeChar c := by
  have valid : (codePoint q).isValidChar := by
    simp only [Forbidden, not_or, not_and, not_lt] at allowed
    simp only [Nat.isValidChar]
    omega
  refine ⟨Char.ofNatAux (codePoint q) valid, ?_⟩
  have value : (Char.ofNatAux (codePoint q) valid).val.toNat = codePoint q := rfl
  unfold String.utf8EncodeChar
  rw [value]
  have least := (not_or.mp allowed).1
  match q, sequence with
  | a :: tail, ⟨lead, continues⟩ =>
    rcases announced_some lead with ⟨size, first⟩ | ⟨size, first⟩ | ⟨size, first⟩ | ⟨size, first⟩
    · obtain rfl := List.length_eq_zero_iff.mp size
      have point : codePoint [a] = a.toNat % 128 := rfl
      rw [point, if_pos (by omega), Nat.mod_eq_of_lt (by omega), UInt8.ofNat_toNat]
    · obtain ⟨z, rfl⟩ := List.length_eq_one_iff.mp size
      have last : z.toNat / 64 = 2 := continues z List.mem_cons_self
      have point : codePoint [a, z] = 64 * (a.toNat % 32) + z.toNat % 64 := rfl
      have needed : leastCodePoint [a, z].length = 0x80 := rfl
      rw [point, needed] at least
      rw [point, if_neg (by omega), if_pos (by omega), ← byte_eq (b := a) (by omega),
        ← byte_eq (b := z) (by omega)]
    · obtain ⟨y, z, rfl⟩ := List.length_eq_two.mp size
      have middle : y.toNat / 64 = 2 := continues y (by simp)
      have last : z.toNat / 64 = 2 := continues z (by simp)
      have point : codePoint [a, y, z] =
          64 * (64 * (a.toNat % 16) + y.toNat % 64) + z.toNat % 64 := rfl
      have needed : leastCodePoint [a, y, z].length = 0x800 := rfl
      rw [point, needed] at least
      rw [point, if_neg (by omega), if_neg (by omega), if_pos (by omega),
        ← byte_eq (b := a) (by omega), ← byte_eq (b := y) (by omega),
        ← byte_eq (b := z) (by omega)]
    · obtain ⟨x, y, z, rfl⟩ := List.length_eq_three.mp size
      have second : x.toNat / 64 = 2 := continues x (by simp)
      have middle : y.toNat / 64 = 2 := continues y (by simp)
      have last : z.toNat / 64 = 2 := continues z (by simp)
      have point : codePoint [a, x, y, z] =
          64 * (64 * (64 * (a.toNat % 8) + x.toNat % 64) + y.toNat % 64) + z.toNat % 64 := rfl
      have needed : leastCodePoint [a, x, y, z].length = 0x10000 := rfl
      rw [point, needed] at least
      rw [point, if_neg (by omega), if_neg (by omega), if_neg (by omega),
        ← byte_eq (b := a) (by omega), ← byte_eq (b := x) (by omega),
        ← byte_eq (b := y) (by omega), ← byte_eq (b := z) (by omega)]

end WebsocketProto.Utf8
