import Mathlib.Data.List.TakeWhile
import WebsocketProto.Client

/-! The strings that the server puts on `send_buffer_queue_`. A Close is built by
appending the header as a C string and the status code as one `char`, so its bytes
depend on the memory behind a local variable. -/
namespace WebsocketProto

/-- `htobe16` on a little-endian machine. -/
def htobe16 (v : UInt16) : UInt16 := v <<< 8 ||| v >>> 8

/-- A `const char *` operand: everything up to the first NUL. -/
def cString (memory : Bytes) : Bytes := memory.takeWhile fun b => b != 0

def closeHeader : WebsocketHeader :=
  ⟨⟨.close, false, false, false, true⟩, ⟨2, false⟩⟩

/-- `send_buffer` of `close_websocket_client`; `stack` is the memory behind `header`.
`std::string::operator+=` takes the 16-bit code as a single character. -/
def closeFrame (stack : Bytes) (flag : CloseFlag) : Bytes :=
  cString (closeHeader.toBytes ++ stack) ++ [(htobe16 flag.code).toUInt8]

def generateWebsocketPongRes : Bytes :=
  WebsocketHeader.toBytes ⟨⟨.pong, false, false, false, true⟩, ⟨0, false⟩⟩

def generateWebsocketPingRes : Bytes :=
  WebsocketHeader.toBytes ⟨⟨.ping, false, false, false, true⟩, ⟨0, false⟩⟩

def textHeader (payloadLen : Nat) : WebsocketHeader :=
  ⟨⟨.textFrame, false, false, false, true⟩, ⟨payloadLen, false⟩⟩

/-- The string that `websocket_client::send` queues: the part of the 10-byte buffer
up to `p`, and the payload. -/
def sendFrame (payload : Bytes) : Bytes :=
  let size := payload.length
  if size < PAYLOAD_2_FLAG then (textHeader size).toBytes ++ payload
  else if size ≤ 65535 then
    (textHeader PAYLOAD_2_FLAG).toBytes ++ (Bytes.bigEndian 2 size ++ payload)
  else (textHeader PAYLOAD_8_FLAG).toBytes ++ (Bytes.bigEndian 8 size ++ payload)

/-- The operations that queue something for an accepted client. A Close is queued by
`websocket_client::close` with `SERVER_ERROR` and by every other path with its flag. -/
inductive ServerOp where
  | send (payload : StdString)
  | close (stack : Bytes)
  | heartbeatPing
  | pongReply
  | closeWebsocketClient (stack : Bytes) (flag : CloseFlag)
  deriving DecidableEq

def ServerOp.frame : ServerOp → Bytes
  | .send payload => sendFrame payload.bytes
  | .close stack => closeFrame stack .serverError
  | .heartbeatPing => generateWebsocketPingRes
  | .pongReply => generateWebsocketPongRes
  | .closeWebsocketClient stack flag => closeFrame stack flag

def ServerOp.closeFlag : ServerOp → Option CloseFlag
  | .close _ => some .serverError
  | .closeWebsocketClient _ flag => some flag
  | _ => none

/-- A run of operations: each pushes its string, and the pushes are logged. -/
def ServerOp.runAll (c : WebsocketClient) : List ServerOp →
    WebsocketClient × List (ServerOp × Bytes)
  | [] => (c, [])
  | op :: rest =>
    let (final, log) :=
      ServerOp.runAll { c with sendBufferQueue := c.sendBufferQueue ++ [op.frame] } rest
    (final, (op, op.frame) :: log)

theorem runAll_queue (c : WebsocketClient) (ops : List ServerOp) :
    (ServerOp.runAll c ops).1.sendBufferQueue =
      c.sendBufferQueue ++ (ServerOp.runAll c ops).2.map Prod.snd := by
  induction ops generalizing c with
  | nil => simp [ServerOp.runAll]
  | cons op rest ih => simp [ServerOp.runAll, ih]

theorem runAll_log (c : WebsocketClient) (ops : List ServerOp) :
    (ServerOp.runAll c ops).2 = ops.map fun op => (op, op.frame) := by
  induction ops generalizing c with
  | nil => rfl
  | cons op rest ih => simp [ServerOp.runAll, ih]

/-- One complete server-to-client frame: final, unmasked, in the shortest length
form, and for a Close the two bytes of its status code as payload. -/
def WellFormedFor (op : ServerOp) (s : Bytes) : Prop :=
  ∃ f : Rfc6455.Frame, f.fin = true ∧ f.key = none ∧ f.payload.length < 2 ^ 63 ∧
    (f.opcode.isControl = true → f.payload.length ≤ 125) ∧ f.encode = s ∧
    ∀ flag, op.closeFlag = some flag →
      f.opcode = .close ∧ f.payload = Bytes.bigEndian 2 flag.code.toNat

/-- A Close comes out right only by accident: the two bytes of the code are equal and
not zero, and the stack behind the header holds that byte and then a NUL. -/
def LuckyClose (stack : Bytes) (flag : CloseFlag) : Prop :=
  cString stack = [(htobe16 flag.code).toUInt8] ∧
  Bytes.bigEndian 2 flag.code.toNat = [(htobe16 flag.code).toUInt8, (htobe16 flag.code).toUInt8]

def ServerOp.Emits : ServerOp → Prop
  | .close stack => LuckyClose stack .serverError
  | .closeWebsocketClient stack flag => LuckyClose stack flag
  | _ => True

theorem closeFrame_eq (stack : Bytes) (flag : CloseFlag) :
    closeFrame stack flag = 0x88 :: 0x02 :: (cString stack ++ [(htobe16 flag.code).toUInt8]) := by
  have header : closeHeader.toBytes = [0x88, 0x02] := by decide
  simp [closeFrame, header, cString]

theorem sendFrame_encode (payload : Bytes) :
    (Rfc6455.Frame.mk true .text none payload).encode = sendFrame payload := by
  have header := WebsocketHeader.toBytes_ofFrame ⟨true, .text, none, payload⟩
  simp only [WebsocketHeader.ofFrame, OpcodeFlag.ofRfc, Option.isSome_none] at header
  simp only [Rfc6455.Frame.encode, Rfc6455.Frame.body, Rfc6455.Frame.keyBytes,
    Rfc6455.Frame.wirePayload, Option.map_none, Option.getD_none, List.nil_append, sendFrame,
    textHeader, PAYLOAD_2_FLAG, PAYLOAD_8_FLAG, Rfc6455.lengthBytes]
  simp only [Rfc6455.lengthCode] at header
  by_cases short : payload.length < 126
  · simp only [short, ↓reduceIte] at header ⊢
    rw [header]; rfl
  · by_cases medium : payload.length < 65536
    · have fits : payload.length ≤ 65535 := by omega
      simp only [short, medium, fits, ↓reduceIte] at header ⊢
      rw [header]; rfl
    · have long : ¬ payload.length ≤ 65535 := by omega
      simp only [short, medium, long, ↓reduceIte] at header ⊢
      rw [header]; rfl

theorem htobe16_char (v : UInt16) : (htobe16 v).toUInt8 = (v.toNat / 256).toUInt8 := by
  apply UInt8.eq_of_toBitVec_eq
  apply BitVec.eq_of_toNat_eq
  have bound := v.toNat_lt
  have low : (v.toNat <<< 8 % 65536 ||| v.toNat >>> 8) % 256 = v.toNat / 256 := by
    have swap : v.toNat <<< 8 % 65536 = (v.toNat % 256) <<< 8 := by
      simp only [Nat.shiftLeft_eq]; omega
    rw [swap, Nat.shiftRight_eq_div_pow, ← Nat.shiftLeft_add_eq_or_of_lt (by omega)]
    simp only [Nat.shiftLeft_eq]; omega
  simp [htobe16, Nat.toUInt8]
  omega

/-- The character that `+=` appends is the first byte of the code. -/
theorem bigEndian_code (flag : CloseFlag) :
    Bytes.bigEndian 2 flag.code.toNat =
      [(htobe16 flag.code).toUInt8, flag.code.toNat.toUInt8] := by
  rw [htobe16_char]; rfl

theorem closeFrame_wellFormed_iff (op : ServerOp) (stack : Bytes) (flag : CloseFlag)
    (closes : op.closeFlag = some flag) :
    WellFormedFor op (closeFrame stack flag) ↔ LuckyClose stack flag := by
  constructor
  · rintro ⟨f, fin, key, _, _, encoded, status⟩
    obtain ⟨opcode, payload⟩ := status flag closes
    have bytes : f.encode = 0x88 :: 0x02 :: Bytes.bigEndian 2 flag.code.toNat := by
      cases f with
      | mk fin_ opcode_ key_ payload_ =>
        simp only at fin key opcode payload
        subst fin key opcode payload
        rfl
    rw [bytes, closeFrame_eq] at encoded
    have tail := (List.cons.inj (List.cons.inj encoded).2).2
    -- two bytes on the left, so one byte of garbage stands before the character
    have single : (cString stack).length = 1 := by
      have length := congrArg List.length tail
      rw [Bytes.bigEndian_length, List.length_append, List.length_singleton] at length
      omega
    obtain ⟨garbage, only⟩ := List.length_eq_one_iff.mp single
    rw [bigEndian_code, only] at tail
    obtain ⟨first, second⟩ := List.cons.inj tail
    refine ⟨by rw [only, first], ?_⟩
    rw [bigEndian_code, (List.cons.inj second).1]
  · rintro ⟨garbage, code⟩
    refine ⟨⟨true, .close, none, Bytes.bigEndian 2 flag.code.toNat⟩, rfl, rfl, ?_, ?_, ?_, ?_⟩
    · rw [Bytes.bigEndian_length]; decide
    · intro _; rw [Bytes.bigEndian_length]; decide
    · rw [closeFrame_eq, garbage, ← List.singleton_append, code]
      rfl
    · intro other same
      rw [closes] at same
      obtain rfl := Option.some.inj same
      exact ⟨rfl, rfl⟩

theorem sendFrame_wellFormed (payload : StdString) :
    WellFormedFor (.send payload) (sendFrame payload.bytes) :=
  ⟨⟨true, .text, none, payload.bytes⟩, rfl, rfl, payload.bound, nofun,
    sendFrame_encode payload.bytes, nofun⟩

theorem emptyControl_wellFormed (op : ServerOp) (opcode : Rfc6455.Opcode)
    (plain : op.closeFlag = none) (frame : (Rfc6455.Frame.mk true opcode none []).encode = s) :
    WellFormedFor op s := by
  refine ⟨⟨true, opcode, none, []⟩, rfl, rfl, by simp, fun _ => by simp, frame, ?_⟩
  intro flag some_
  rw [plain] at some_
  contradiction

theorem frame_wellFormed_iff (op : ServerOp) : WellFormedFor op op.frame ↔ op.Emits := by
  cases op with
  | send payload => exact iff_of_true (sendFrame_wellFormed payload) trivial
  | close stack => exact closeFrame_wellFormed_iff _ stack _ rfl
  | heartbeatPing =>
    exact iff_of_true (emptyControl_wellFormed _ .ping rfl (by decide)) trivial
  | pongReply =>
    exact iff_of_true (emptyControl_wellFormed _ .pong rfl (by decide)) trivial
  | closeWebsocketClient stack flag => exact closeFrame_wellFormed_iff _ stack flag rfl

/-- None of the status codes that the server names has two equal bytes other than zero. -/
theorem not_luckyClose (stack : Bytes) (flag : CloseFlag) (named : ∀ code, flag ≠ .unnamed code) :
    ¬ LuckyClose stack flag := by
  rintro ⟨garbage, twins⟩
  cases flag with
  | unnamed code => exact named code rfl
  | success =>
    have zero : (0 : Byte) ∈ cString stack := by rw [garbage]; decide
    have nonzero := List.mem_takeWhile_imp zero
    exact absurd nonzero (by decide)
  | _ => revert twins; decide

/-- In a sequence of operations every queued string is a well-formed frame exactly
when no operation queues a Close, accidents of memory apart. -/
theorem runAll_wellFormed_iff (c : WebsocketClient) (ops : List ServerOp) :
    (∀ entry ∈ (ServerOp.runAll c ops).2, WellFormedFor entry.1 entry.2) ↔
      ∀ op ∈ ops, op.Emits := by
  rw [runAll_log]
  constructor
  · intro formed op member
    exact (frame_wellFormed_iff op).mp (formed (op, op.frame) (List.mem_map_of_mem member))
  · intro emits entry member
    obtain ⟨op, inside, rfl⟩ := List.mem_map.mp member
    exact (frame_wellFormed_iff op).mpr (emits op inside)

/-- A normal closure with a NUL behind the header on the stack: three bytes where the
header announces two bytes of payload. -/
theorem normal_close_malformed :
    closeFrame [0] .normalClose = [0x88, 0x02, 0x03] ∧
    ¬ ∀ entry ∈ (ServerOp.runAll (.new 7) [.closeWebsocketClient [0] .normalClose]).2,
      WellFormedFor entry.1 entry.2 := by
  refine ⟨by decide, ?_⟩
  intro formed
  have malformed := formed (.closeWebsocketClient [0] .normalClose, _) (List.mem_singleton.mpr rfl)
  exact not_luckyClose _ _ (fun _ same => by contradiction) ((closeFrame_wellFormed_iff _ _ _ rfl).mp malformed)

end WebsocketProto
