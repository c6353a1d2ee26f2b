import WebsocketProto.Bytes

/-! The frame layer of RFC 6455 as an abstract format: what one frame is, the
bytes it stands for, and the data messages that a sequence of frames carries.
Only the base protocol is described, so the reserved bits are always zero. -/
namespace WebsocketProto.Rfc6455

inductive Opcode where
  | continuation | text | binary | close | ping | pong
  deriving DecidableEq, Repr

def Opcode.code : Opcode → Nat
  | .continuation => 0
  | .text => 1
  | .binary => 2
  | .close => 8
  | .ping => 9
  | .pong => 10

def Opcode.isControl : Opcode → Bool
  | .close | .ping | .pong => true
  | _ => false

structure Key where
  k0 : Byte
  k1 : Byte
  k2 : Byte
  k3 : Byte
  deriving DecidableEq, Repr

def Key.bytes (key : Key) : Bytes := [key.k0, key.k1, key.k2, key.k3]

@[simp] theorem Key.bytes_length (key : Key) : key.bytes.length = 4 := rfl

structure Frame where
  fin : Bool
  opcode : Opcode
  key : Option Key
  payload : Bytes
  deriving DecidableEq, Repr

/-- The 7-bit length field; 126 and 127 announce an extended length. -/
def lengthCode (n : Nat) : Nat := if n < 126 then n else if n < 65536 then 126 else 127

/-- The extended length in its shortest form. -/
def lengthBytes (n : Nat) : Bytes :=
  if n < 126 then [] else if n < 65536 then Bytes.bigEndian 2 n else Bytes.bigEndian 8 n

theorem lengthCode_lt (n : Nat) : lengthCode n < 128 := by
  unfold lengthCode; split <;> (try split) <;> omega

def Frame.keyBytes (f : Frame) : Bytes := (f.key.map Key.bytes).getD []

/-- The payload as it travels, under the masking key when there is one. -/
def Frame.wirePayload (f : Frame) : Bytes :=
  match f.key with
  | none => f.payload
  | some key => Bytes.mask key.bytes f.payload

@[simp] theorem Frame.wirePayload_length (f : Frame) :
    f.wirePayload.length = f.payload.length := by
  unfold Frame.wirePayload; split <;> simp

def Frame.byte0 (f : Frame) : Byte := (f.opcode.code + 128 * f.fin.toNat).toUInt8

def Frame.byte1 (f : Frame) : Byte :=
  (lengthCode f.payload.length + 128 * f.key.isSome.toNat).toUInt8

/-- Everything after the two header bytes. -/
def Frame.body (f : Frame) : Bytes :=
  lengthBytes f.payload.length ++ (f.keyBytes ++ f.wirePayload)

def Frame.encode (f : Frame) : Bytes := f.byte0 :: f.byte1 :: f.body

def encodeAll (frames : List Frame) : Bytes := frames.flatMap Frame.encode

@[simp] theorem encodeAll_nil : encodeAll [] = [] := rfl

@[simp] theorem encodeAll_cons (f : Frame) (frames : List Frame) :
    encodeAll (f :: frames) = f.encode ++ encodeAll frames := rfl

@[simp] theorem encodeAll_append (front back : List Frame) :
    encodeAll (front ++ back) = encodeAll front ++ encodeAll back :=
  List.flatMap_append

/-- The data messages completed by a sequence of frames, when `part` has been
received of a message that is still open. Control frames carry no message data. -/
def messages (part : Bytes) : List Frame → List Bytes
  | [] => []
  | f :: rest =>
    if f.opcode.isControl then messages part rest
    else if f.fin then (part ++ f.payload) :: messages [] rest
    else messages (part ++ f.payload) rest

/-- What remains of an open message after a sequence of frames. -/
def remainder (part : Bytes) : List Frame → Bytes
  | [] => part
  | f :: rest =>
    if f.opcode.isControl then remainder part rest
    else if f.fin then remainder [] rest
    else remainder (part ++ f.payload) rest

theorem messages_append (part : Bytes) (front back : List Frame) :
    messages part (front ++ back) =
      messages part front ++ messages (remainder part front) back := by
  induction front generalizing part with
  | nil => rfl
  | cons f rest ih =>
    simp only [List.cons_append, messages, remainder]
    split
    · exact ih part
    · split
      · simp [ih]
      · exact ih _

theorem remainder_append (part : Bytes) (front back : List Frame) :
    remainder part (front ++ back) = remainder (remainder part front) back := by
  induction front generalizing part with
  | nil => rfl
  | cons f rest ih =>
    simp only [List.cons_append, remainder]
    split
    · exact ih part
    · split <;> exact ih _

theorem messages_control (part : Bytes) (frames : List Frame)
    (control : ∀ f ∈ frames, f.opcode.isControl = true) : messages part frames = [] := by
  induction frames with
  | nil => rfl
  | cons f rest ih =>
    rw [messages, if_pos (control f (by simp))]
    exact ih fun g member => control g (by simp [member])

theorem remainder_control (part : Bytes) (frames : List Frame)
    (control : ∀ f ∈ frames, f.opcode.isControl = true) : remainder part frames = part := by
  induction frames with
  | nil => rfl
  | cons f rest ih =>
    rw [remainder, if_pos (control f (by simp))]
    exact ih fun g member => control g (by simp [member])

/-- Fragmentation is legal: `open_` says whether a data message is open before
the first frame, and control frames may stand anywhere between fragments. -/
def Legal (open_ : Bool) : List Frame → Prop
  | [] => True
  | f :: rest =>
    if f.opcode.isControl then f.fin = true ∧ f.payload.length ≤ 125 ∧ Legal open_ rest
    else ((f.opcode = .continuation ↔ open_ = true) ∧ Legal (!f.fin) rest)

/-- Whether a data message is open behind the frames. -/
def opened (open_ : Bool) : List Frame → Bool
  | [] => open_
  | f :: rest => if f.opcode.isControl then opened open_ rest else opened (!f.fin) rest

theorem legal_append (open_ : Bool) (front back : List Frame) :
    Legal open_ (front ++ back) ↔ Legal open_ front ∧ Legal (opened open_ front) back := by
  induction front generalizing open_ with
  | nil => simp [Legal, opened]
  | cons f rest ih =>
    simp only [List.cons_append, Legal, opened]
    split
    · rw [ih]
      exact ⟨fun ⟨fin, small, legal, later⟩ => ⟨⟨fin, small, legal⟩, later⟩,
        fun ⟨⟨fin, small, legal⟩, later⟩ => ⟨fin, small, legal, later⟩⟩
    · rw [ih, and_assoc]

/-- Nothing is left of a message when none is open. -/
theorem remainder_closed (part : Bytes) (open_ : Bool) (frames : List Frame)
    (settled : open_ = false → part = []) (closed : opened open_ frames = false) :
    remainder part frames = [] := by
  induction frames generalizing part open_ with
  | nil => exact settled closed
  | cons f rest ih =>
    rw [opened] at closed
    rw [remainder]
    split
    · rename_i control
      rw [if_pos control] at closed
      exact ih part open_ settled closed
    · rename_i data
      rw [if_neg data] at closed
      split
      · rename_i fin
        rw [fin] at closed
        exact ih [] (!true) (fun _ => rfl) closed
      · rename_i unfinished
        have still : f.fin = false := by simpa using unfinished
        rw [still] at closed
        exact ih (part ++ f.payload) (!false) nofun closed

end WebsocketProto.Rfc6455
