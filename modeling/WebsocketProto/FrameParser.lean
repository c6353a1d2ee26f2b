import WebsocketProto.Rfc6455

/-! A reference parser for the frames of RFC 6455. It refuses reserved bits, reserved opcodes and
control frames that are fragmented or long, and it reports the form in which a length came. -/
namespace WebsocketProto.Rfc6455

/-- The forms of the payload length: in the 7-bit field, or behind it in 16 or 64 bits. -/
inductive LengthForm where
  | seven | sixteen | sixtyFour
  deriving DecidableEq, Repr

namespace LengthForm

/-- The bytes behind the 7-bit field. -/
def width : LengthForm → Nat
  | .seven => 0
  | .sixteen => 2
  | .sixtyFour => 8

/-- The largest length of the form; 126 and 127 are no lengths in the 7-bit field. -/
def capacity : LengthForm → Nat
  | .seven => 125
  | .sixteen => 65535
  | .sixtyFour => 2 ^ 64 - 1

/-- The form that the 7-bit field announces. -/
def announced (code : Nat) : LengthForm :=
  if code < 126 then .seven else if code = 126 then .sixteen else .sixtyFour

/-- No other form that has room for the length is shorter. -/
def Shortest (form : LengthForm) (n : Nat) : Prop :=
  n ≤ form.capacity ∧ ∀ other : LengthForm, n ≤ other.capacity → form.width ≤ other.width

theorem announced_shortest {n : Nat} (bound : n < 2 ^ 64) :
    (announced (lengthCode n)).Shortest n := by
  unfold lengthCode announced
  by_cases short : n < 126
  · simp only [short, ↓reduceIte]
    exact ⟨Nat.le_of_lt_succ short, fun other _ => Nat.zero_le _⟩
  by_cases medium : n < 65536
  · simp only [short, medium, Nat.lt_irrefl, ↓reduceIte]
    refine ⟨Nat.le_of_lt_succ medium, fun other room => ?_⟩
    cases other <;> simp only [capacity, width] at room ⊢ <;> omega
  · simp only [short, medium, ↓reduceIte, Nat.reduceLT, Nat.reduceEqDiff]
    refine ⟨Nat.le_of_lt_succ bound, fun other room => ?_⟩
    cases other <;> simp only [capacity, width] at room ⊢ <;> omega

end LengthForm

/-- The first `n` bytes and the bytes behind them. -/
def cut (n : Nat) (bytes : Bytes) : Option (Bytes × Bytes) :=
  if n ≤ bytes.length then some (bytes.take n, bytes.drop n) else none

@[simp] theorem cut_append (front back : Bytes) :
    cut front.length (front ++ back) = some (front, back) := by simp [cut]

theorem cut_some {n : Nat} {bytes front back : Bytes} (found : cut n bytes = some (front, back)) :
    bytes = front ++ back ∧ front.length = n := by
  unfold cut at found
  split at found
  · rename_i room
    obtain ⟨rfl, rfl⟩ := Prod.mk.inj (Option.some.inj found)
    exact ⟨(List.take_append_drop n bytes).symm, List.length_take_of_le room⟩
  · contradiction

def Opcode.ofCode : Nat → Option Opcode
  | 0 => some .continuation
  | 1 => some .text
  | 2 => some .binary
  | 8 => some .close
  | 9 => some .ping
  | 10 => some .pong
  | _ => none

@[simp] theorem Opcode.ofCode_code (opcode : Opcode) : ofCode opcode.code = some opcode := by
  cases opcode <;> rfl

/-- The masking key when there is one. -/
def parseKey (masked : Bool) : Bytes → Option (Option Key × Bytes)
  | k0 :: k1 :: k2 :: k3 :: rest =>
    if masked then some (some ⟨k0, k1, k2, k3⟩, rest) else some (none, k0 :: k1 :: k2 :: k3 :: rest)
  | rest => if masked then none else some (none, rest)

theorem parseKey_none (bytes : Bytes) : parseKey false bytes = some (none, bytes) := by
  unfold parseKey
  split <;> rfl

theorem parseKey_some {masked : Bool} {bytes rest : Bytes} {key : Option Key}
    (found : parseKey masked bytes = some (key, rest)) :
    bytes = (key.map Key.bytes).getD [] ++ rest := by
  cases masked with
  | false =>
    rw [parseKey_none] at found
    obtain ⟨rfl, rfl⟩ := Prod.mk.inj (Option.some.inj found)
    rfl
  | true =>
    unfold parseKey at found
    split at found
    · obtain ⟨rfl, rfl⟩ := Prod.mk.inj (Option.some.inj found)
      rfl
    · contradiction

theorem parseKey_append (f : Frame) (rest : Bytes) :
    parseKey f.key.isSome (f.keyBytes ++ rest) = some (f.key, rest) := by
  cases f with
  | mk fin opcode key payload =>
    cases key with
    | none => exact parseKey_none rest
    | some key => rfl

/-- Under the key again, the payload of a frame comes back. -/
theorem wirePayload_wirePayload (f : Frame) :
    Frame.wirePayload { f with payload := f.wirePayload } = f.payload := by
  cases f with
  | mk fin opcode key payload =>
    cases key with
    | none => rfl
    | some key => exact Bytes.mask_mask key.bytes payload

/-- A control frame is final and short. -/
def Frame.ControlLegal (f : Frame) : Prop :=
  f.opcode.isControl = true → f.fin = true ∧ f.payload.length ≤ 125

instance (f : Frame) : Decidable f.ControlLegal :=
  inferInstanceAs (Decidable (f.opcode.isControl = true → f.fin = true ∧ f.payload.length ≤ 125))

structure Parsed where
  frame : Frame
  form : LengthForm
  deriving DecidableEq, Repr

/-- The frame at the front and the bytes behind it. -/
def parseFrame : Bytes → Option (Parsed × Bytes)
  | b0 :: b1 :: rest => do
    guard (b0.toNat / 16 % 8 = 0)
    let opcode ← Opcode.ofCode (b0.toNat % 16)
    let form := LengthForm.announced (b1.toNat % 128)
    let (extended, rest) ← cut form.width rest
    let n := if form = .seven then b1.toNat % 128 else Bytes.ofBigEndian extended
    let (key, rest) ← parseKey (decide (128 ≤ b1.toNat)) rest
    let (wire, rest) ← cut n rest
    let frame : Frame := ⟨decide (128 ≤ b0.toNat), opcode, key, wire⟩
    let frame := { frame with payload := frame.wirePayload }
    guard frame.ControlLegal
    return (⟨frame, form⟩, rest)
  | _ => none

/-- A whole stream, without remainder. Every frame has two bytes, so the length is fuel enough. -/
def parseFramesFrom : Nat → Bytes → Option (List Parsed)
  | _, [] => some []
  | 0, _ :: _ => none
  | fuel + 1, b :: bytes => do
    let (parsed, rest) ← parseFrame (b :: bytes)
    return parsed :: (← parseFramesFrom fuel rest)

def parseFrames (bytes : Bytes) : Option (List Parsed) := parseFramesFrom bytes.length bytes

theorem byte0_toNat (f : Frame) : f.byte0.toNat = f.opcode.code + 128 * f.fin.toNat := by
  cases f with
  | mk fin opcode key payload => cases opcode <;> cases fin <;> rfl

theorem byte1_toNat (f : Frame) :
    f.byte1.toNat = lengthCode f.payload.length + 128 * f.key.isSome.toNat := by
  have bound := lengthCode_lt f.payload.length
  unfold Frame.byte1
  cases f.key <;> simp [Nat.toUInt8] <;> omega

theorem announced_width (n : Nat) :
    (LengthForm.announced (lengthCode n)).width = (lengthBytes n).length := by
  unfold lengthCode lengthBytes LengthForm.announced
  by_cases short : n < 126
  · simp [short, LengthForm.width]
  · by_cases medium : n < 65536 <;> simp [short, medium, LengthForm.width]

/-- The length that the parser reads. -/
theorem parsed_length {n : Nat} (bound : n < 2 ^ 64) :
    (if LengthForm.announced (lengthCode n) = .seven then lengthCode n
      else Bytes.ofBigEndian (lengthBytes n)) = n := by
  unfold lengthCode lengthBytes LengthForm.announced
  by_cases short : n < 126
  · simp [short]
  by_cases medium : n < 65536
  · simp [short, medium, Bytes.ofBigEndian_bigEndian 2 n (by omega)]
  · simp [short, medium, Bytes.ofBigEndian_bigEndian 8 n (by omega)]

/-- What the parser reports of an encoded frame. -/
def Frame.parsed (f : Frame) : Parsed := ⟨f, .announced (lengthCode f.payload.length)⟩

theorem parseFrame_encode (f : Frame) (bound : f.payload.length < 2 ^ 64) (legal : f.ControlLegal)
    (rest : Bytes) : parseFrame (f.encode ++ rest) = some (f.parsed, rest) := by
  have code := lengthCode_lt f.payload.length
  have opcode : f.opcode.code < 16 := by cases f.opcode <;> decide
  have fin : decide (128 ≤ f.byte0.toNat) = f.fin := by
    rw [byte0_toNat]
    cases f.fin <;> simp
    omega
  have masked : decide (128 ≤ f.byte1.toNat) = f.key.isSome := by
    rw [byte1_toNat]
    cases f.key.isSome <;> simp
    omega
  have reserved : f.byte0.toNat / 16 % 8 = 0 := by
    rw [byte0_toNat]
    cases f.fin <;> simp <;> omega
  have named : f.byte0.toNat % 16 = f.opcode.code := by
    rw [byte0_toNat]
    omega
  have seven : f.byte1.toNat % 128 = lengthCode f.payload.length := by
    rw [byte1_toNat]
    omega
  have extended := cut_append (lengthBytes f.payload.length) (f.keyBytes ++ (f.wirePayload ++ rest))
  have payload := cut_append f.wirePayload rest
  rw [← announced_width] at extended
  rw [Frame.wirePayload_length] at payload
  simp only [Frame.encode, Frame.body, List.cons_append, List.append_assoc, parseFrame, reserved,
    named, seven, fin, masked, extended, parsed_length bound, parseKey_append, payload,
    Opcode.ofCode_code, guard_true, Option.pure_def, Option.bind_eq_bind, Option.bind_some]
  have unmasked : (⟨f.fin, f.opcode, f.key, f.wirePayload⟩ : Frame).wirePayload = f.payload :=
    wirePayload_wirePayload f
  simp only [unmasked]
  have allowed : guard f.ControlLegal = some () := if_pos legal
  rw [show (⟨f.fin, f.opcode, f.key, f.payload⟩ : Frame) = f from rfl, allowed]
  rfl

theorem parseFramesFrom_encodeAll (frames : List Frame)
    (bound : ∀ f ∈ frames, f.payload.length < 2 ^ 64) (legal : ∀ f ∈ frames, f.ControlLegal)
    (fuel : Nat) (enough : (encodeAll frames).length ≤ fuel) :
    parseFramesFrom fuel (encodeAll frames) = some (frames.map Frame.parsed) := by
  induction frames generalizing fuel with
  | nil => simp [parseFramesFrom]
  | cons f rest ih =>
    have first := parseFrame_encode f (bound f List.mem_cons_self) (legal f List.mem_cons_self)
      (encodeAll rest)
    rw [encodeAll_cons] at enough ⊢
    simp only [Frame.encode, List.cons_append, List.length_cons, List.length_append] at enough first ⊢
    obtain ⟨more, rfl⟩ : ∃ more, fuel = more + 1 := ⟨fuel - 1, by omega⟩
    have later := ih (fun g member => bound g (List.mem_cons_of_mem f member))
      (fun g member => legal g (List.mem_cons_of_mem f member)) more (by omega)
    simp [parseFramesFrom, first, later]

/-- A stream of encoded frames is parsed into these frames, each with its own form of length. -/
theorem parseFrames_encodeAll (frames : List Frame)
    (bound : ∀ f ∈ frames, f.payload.length < 2 ^ 64) (legal : ∀ f ∈ frames, f.ControlLegal) :
    parseFrames (encodeAll frames) = some (frames.map Frame.parsed) :=
  parseFramesFrom_encodeAll frames bound legal _ (Nat.le_refl _)

/-- The frames that are complete at the front of a stream, of which more may follow. -/
def leadingFrom : Nat → Bytes → List Parsed
  | 0, _ => []
  | fuel + 1, bytes =>
    match parseFrame bytes with
    | none => []
    | some (parsed, rest) => parsed :: leadingFrom fuel rest

def leading (bytes : Bytes) : List Parsed := leadingFrom bytes.length bytes

theorem cut_extends {n : Nat} {bytes front back : Bytes} (found : cut n bytes = some (front, back))
    (more : Bytes) : cut n (bytes ++ more) = some (front, back ++ more) := by
  obtain ⟨rfl, rfl⟩ := cut_some found
  rw [List.append_assoc]
  exact cut_append front (back ++ more)

theorem parseKey_extends {masked : Bool} {bytes rest : Bytes} {key : Option Key}
    (found : parseKey masked bytes = some (key, rest)) (more : Bytes) :
    parseKey masked (bytes ++ more) = some (key, rest ++ more) := by
  cases masked with
  | false =>
    rw [parseKey_none] at found ⊢
    obtain ⟨rfl, rfl⟩ := Prod.mk.inj (Option.some.inj found)
    rfl
  | true =>
    unfold parseKey at found
    split at found
    · obtain ⟨rfl, rfl⟩ := Prod.mk.inj (Option.some.inj found)
      rfl
    · contradiction

/-- What follows a frame does not change it. -/
theorem parseFrame_extends {bytes rest : Bytes} {parsed : Parsed}
    (found : parseFrame bytes = some (parsed, rest)) (more : Bytes) :
    parseFrame (bytes ++ more) = some (parsed, rest ++ more) := by
  match bytes with
  | b0 :: b1 :: bytes =>
    simp only [parseFrame, Option.pure_def, Option.bind_eq_bind, Option.bind_eq_some_iff,
      List.cons_append, Prod.exists] at found ⊢
    obtain ⟨unreserved, allowed, opcode, named, extended, tail, first, key, tail', middle, wire, tail'',
      last, legal, admitted, same⟩ := found
    cases same
    exact ⟨unreserved, allowed, opcode, named, extended, tail ++ more, cut_extends first more, key,
      tail' ++ more, parseKey_extends middle more, wire, rest ++ more, cut_extends last more, legal,
      admitted, rfl⟩

theorem leadingFrom_prefix {fuel fuel' : Nat} (enough : fuel ≤ fuel') (bytes more : Bytes) :
    leadingFrom fuel bytes <+: leadingFrom fuel' (bytes ++ more) := by
  induction fuel generalizing fuel' bytes with
  | zero => exact List.nil_prefix
  | succ fuel ih =>
    obtain ⟨fuel', rfl⟩ : ∃ n, fuel' = n + 1 := ⟨fuel' - 1, by omega⟩
    rw [leadingFrom]
    cases found : parseFrame bytes with
    | none => exact List.nil_prefix
    | some both =>
      rw [leadingFrom, parseFrame_extends found more]
      exact (List.prefix_cons_inj both.1).mpr (ih (by omega) both.2)

/-- The first bytes of a stream hold its first frames. -/
theorem leading_prefix {front whole : Bytes} (begins : front <+: whole) :
    leading front <+: leading whole := by
  obtain ⟨more, rfl⟩ := begins
  exact leadingFrom_prefix (by simp) front more

theorem leading_parseFrames {bytes : Bytes} {parsed : List Parsed}
    (found : parseFrames bytes = some parsed) : leading bytes = parsed := by
  have every (fuel : Nat) (bytes : Bytes) (parsed : List Parsed)
      (found : parseFramesFrom fuel bytes = some parsed) : leadingFrom fuel bytes = parsed := by
    induction fuel generalizing bytes parsed with
    | zero =>
      cases bytes with
      | nil => exact Option.some.inj found
      | cons b rest => contradiction
    | succ fuel ih =>
      cases bytes with
      | nil => exact Option.some.inj found
      | cons b rest =>
        simp only [parseFramesFrom, Option.bind_eq_bind, Option.pure_def, Option.bind_eq_some_iff,
          Option.some.injEq, Prod.exists] at found
        obtain ⟨first, tail, here, later, onward, rfl⟩ := found
        rw [leadingFrom, here]
        exact congrArg (first :: ·) (ih tail later onward)
  exact every _ bytes parsed found

end WebsocketProto.Rfc6455
