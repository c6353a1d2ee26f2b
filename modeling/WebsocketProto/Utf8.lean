import WebsocketProto.Decoder
import WebsocketProto.Utf8Sequences

/-! `validate_utf8` accepts every encoded text. It also accepts surrogates, overlong forms and code
points above U+10FFFF, which only concern strings that are no encoded text. -/
namespace WebsocketProto
open Utf8

/-- The encoding of a sequence of Unicode scalar values. -/
def Utf8Text (bytes : Bytes) : Prop := ∃ chars : List Char, bytes = chars.flatMap String.utf8EncodeChar

theorem shiftRight_eq_iff (b k v : Byte) (few : k.toNat < 8) :
    b >>> k = v ↔ b.toNat / 2 ^ k.toNat = v.toNat := by
  rw [← UInt8.toNat_inj, UInt8.toNat_shiftRight, Nat.mod_eq_of_lt few, Nat.shiftRight_eq_div_pow]

theorem validate_lead (a : Byte) (s : Bytes) : validateUtf8 (a :: s) = true ↔
    ∃ k, announced a = some k ∧ validateUtf8From k s = true := by
  have seven := shiftRight_eq_iff a 7 0b0 (by decide)
  have five := shiftRight_eq_iff a 5 0b110 (by decide)
  have four := shiftRight_eq_iff a 4 0b1110 (by decide)
  have three := shiftRight_eq_iff a 3 0b11110 (by decide)
  simp only [validateUtf8, validateUtf8From, beq_iff_eq, seven, five, four, three, announced]
  simp only [UInt8.reduceToNat, Nat.reducePow]
  grind

theorem validate_continuation (remaining : Nat) (b : Byte) (s : Bytes) :
    validateUtf8From (remaining + 1) (b :: s) = true ↔
      Continuation b ∧ validateUtf8From remaining s = true := by
  have six := shiftRight_eq_iff b 6 0b10 (by decide)
  simp only [UInt8.reduceToNat, Nat.reducePow] at six
  simp [validateUtf8From, six, Continuation]

/-- The bytes that are still expected, and a string that is accepted from its beginning. -/
theorem validateFrom_iff (remaining : Nat) (s : Bytes) : validateUtf8From remaining s = true ↔
    ∃ tail rest, s = tail ++ rest ∧ tail.length = remaining ∧ (∀ b ∈ tail, Continuation b) ∧
      validateUtf8 rest = true := by
  induction remaining generalizing s with
  | zero =>
    constructor
    · exact fun accepted => ⟨[], s, rfl, rfl, List.forall_mem_nil _, accepted⟩
    · rintro ⟨tail, rest, rfl, none_, _, accepted⟩
      obtain rfl := List.length_eq_zero_iff.mp none_
      exact accepted
  | succ remaining ih =>
    cases s with
    | nil => simp [validateUtf8From]
    | cons b s =>
      rw [validate_continuation, ih]
      constructor
      · rintro ⟨continues, tail, rest, rfl, rfl, more, accepted⟩
        exact ⟨b :: tail, rest, rfl, rfl, List.forall_mem_cons.mpr ⟨continues, more⟩, accepted⟩
      · rintro ⟨tail, rest, same, size, more, accepted⟩
        obtain ⟨c, tail, rfl⟩ := List.exists_cons_of_length_eq_add_one size
        obtain ⟨rfl, rfl⟩ := List.cons.inj same
        obtain ⟨continues, more⟩ := List.forall_mem_cons.mp more
        exact ⟨continues, tail, rest, rfl, Nat.succ.inj size, more, accepted⟩

theorem validate_sequence {q : Bytes} (sequence : Sequence q) (rest : Bytes)
    (accepted : validateUtf8 rest = true) : validateUtf8 (q ++ rest) = true := by
  match q, sequence with
  | a :: tail, ⟨lead, continues⟩ =>
    have more := (validateFrom_iff tail.length (tail ++ rest)).mpr
      ⟨tail, rest, rfl, rfl, continues, accepted⟩
    exact (validate_lead a (tail ++ rest)).mpr ⟨tail.length, lead, more⟩

/-- Exactly the strings that consist of complete sequences, forbidden or not. -/
theorem validate_iff (s : Bytes) : validateUtf8 s = true ↔
    ∃ qs : List Bytes, s = qs.flatten ∧ ∀ q ∈ qs, Sequence q := by
  constructor
  · intro accepted
    induction size : s.length using Nat.strong_induction_on generalizing s with
    | _ size ih =>
      cases s with
      | nil => exact ⟨[], rfl, List.forall_mem_nil _⟩
      | cons a s =>
        obtain ⟨k, lead, more⟩ := (validate_lead a s).mp accepted
        obtain ⟨tail, rest, rfl, rfl, continues, later⟩ := (validateFrom_iff k s).mp more
        simp only [List.length_cons, List.length_append] at size
        obtain ⟨qs, rfl, sequences⟩ := ih rest.length (by omega) rest later rfl
        exact ⟨(a :: tail) :: qs, rfl, List.forall_mem_cons.mpr ⟨⟨lead, continues⟩, sequences⟩⟩
  · rintro ⟨qs, rfl, sequences⟩
    induction qs with
    | nil => rfl
    | cons q qs ih =>
      obtain ⟨first, later⟩ := List.forall_mem_cons.mp sequences
      exact validate_sequence first qs.flatten (ih later)

theorem text_iff (s : Bytes) : Utf8Text s ↔
    ∃ qs : List Bytes, s = qs.flatten ∧ ∀ q ∈ qs, Sequence q ∧ ¬ Forbidden q := by
  constructor
  · rintro ⟨chars, rfl⟩
    refine ⟨chars.map String.utf8EncodeChar, List.flatMap_def, fun q member => ?_⟩
    obtain ⟨c, _, rfl⟩ := List.mem_map.mp member
    exact encodeChar_sequence c
  · rintro ⟨qs, rfl, allowed⟩
    induction qs with
    | nil => exact ⟨[], rfl⟩
    | cons q qs ih =>
      obtain ⟨⟨sequence, lawful⟩, later⟩ := List.forall_mem_cons.mp allowed
      obtain ⟨c, rfl⟩ := sequence.encodes lawful
      obtain ⟨chars, rest⟩ := ih later
      exact ⟨c :: chars, by simp [rest]⟩

theorem validate_text {bytes : Bytes} (text : Utf8Text bytes) : validateUtf8 bytes = true := by
  obtain ⟨qs, rfl, allowed⟩ := (text_iff bytes).mp text
  exact (validate_iff qs.flatten).mpr ⟨qs, rfl, fun q member => (allowed q member).1⟩

/-- A string of complete sequences, one of which is overlong, a surrogate or above U+10FFFF. -/
def ForbiddenText (s : Bytes) : Prop :=
  ∃ qs : List Bytes, s = qs.flatten ∧ (∀ q ∈ qs, Sequence q) ∧ ∃ q ∈ qs, Forbidden q

theorem ForbiddenText.not_text {s : Bytes} (forbidden : ForbiddenText s) : ¬ Utf8Text s := by
  obtain ⟨qs, rfl, sequences, q, member, against⟩ := forbidden
  intro text
  obtain ⟨qs', same, allowed⟩ := (text_iff qs.flatten).mp text
  obtain rfl := flatten_sequences_inj sequences (fun q inside => (allowed q inside).1) same
  exact (allowed q member).2 against

/-- The verdict is right on every string but those with a forbidden sequence. -/
theorem validate_exact_iff (s : Bytes) :
    (validateUtf8 s = true ↔ Utf8Text s) ↔ ¬ ForbiddenText s := by
  constructor
  · intro precise forbidden
    obtain ⟨qs, whole, sequences, _⟩ := id forbidden
    exact forbidden.not_text (precise.mp ((validate_iff s).mpr ⟨qs, whole, sequences⟩))
  · refine fun lawful => ⟨fun accepted => ?_, validate_text⟩
    obtain ⟨qs, whole, sequences⟩ := (validate_iff s).mp accepted
    refine (text_iff s).mpr ⟨qs, whole, fun q member => ⟨sequences q member, fun against => ?_⟩⟩
    exact lawful ⟨qs, whole, sequences, q, member, against⟩

/-- The surrogate U+D800. -/
theorem surrogate_accepted :
    validateUtf8 [0xED, 0xA0, 0x80] = true ∧ ¬ Utf8Text [0xED, 0xA0, 0x80] :=
  ⟨by decide, ForbiddenText.not_text ⟨[[0xED, 0xA0, 0x80]], rfl, by decide, by decide⟩⟩

end WebsocketProto
