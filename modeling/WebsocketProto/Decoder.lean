import WebsocketProto.Client

/-! `decode_websocket_data_frame` over an indexed memory: `recv_buffer_` and the terminating
NUL behind it. Plain `char` is signed, `payload_len` is a wrapping 64-bit number and `int` has
32 bits, as on x86-64 Linux. An access outside this memory has no meaning in the source and ends
the computation with a fault. -/
namespace WebsocketProto

inductive MemoryFault where
  | outside (index : Int)
  | appendPast (length : UInt64)
  | maskIndex (index : Int)
  | intOverflow
  | nulChanged
  | outOfFuel
  deriving DecidableEq, Repr

def validateUtf8From : Nat → Bytes → Bool
  | remaining, [] => remaining == 0
  | 0, c :: s =>
    if c >>> 7 == 0b0 then validateUtf8From 0 s
    else if c >>> 5 == 0b110 then validateUtf8From 1 s
    else if c >>> 4 == 0b1110 then validateUtf8From 2 s
    else if c >>> 3 == 0b11110 then validateUtf8From 3 s
    else false
  | remaining + 1, c :: s =>
    if c >>> 6 != 0b10 then false else validateUtf8From remaining s

def validateUtf8 (s : Bytes) : Bool := validateUtf8From 0 s

/-- `*(p + i)`; the index is relative to the first byte of the memory. -/
def readAt (buffer : Bytes) (index : Nat) : Except MemoryFault Byte :=
  match buffer[index]? with
  | some b => .ok b
  | none => .error (.outside index)

def writeAt (buffer : Bytes) (index : Nat) (b : Byte) : Except MemoryFault Bytes :=
  if index < buffer.length then .ok (buffer.set index b) else .error (.outside index)

def readBytes (buffer : Bytes) : Nat → Nat → Except MemoryFault Bytes
  | 0, _ => .ok []
  | count + 1, index => do
    let b ← readAt buffer index
    let bytes ← readBytes buffer count (index + 1)
    return b :: bytes

/-- `payload_len = *p << 8 | *(p + 1)`: both characters are promoted to `int`
before the result is widened. -/
def payloadLen16 (hi lo : Byte) : UInt64 :=
  (hi.toInt8.toInt32 <<< 8 ||| lo.toInt8.toInt32).toInt64.toUInt64

def shiftIn (payloadLen : UInt64) (b : Byte) : UInt64 :=
  payloadLen <<< 8 ||| b.toInt8.toInt64.toUInt64

/-- The length of a frame and where `p` stands behind it; `none` is
`return close_flag::PROTOCOL_ERROR`. -/
def readPayloadLen (memory : Bytes) (size : Nat) (header : WebsocketHeader) (p : Nat) :
    Except MemoryFault (Option (UInt64 × Nat)) :=
  if header.payload.payloadLen < PAYLOAD_2_FLAG then
    .ok (some (header.payload.payloadLen.toUInt64, p))
  else if header.payload.payloadLen = PAYLOAD_2_FLAG then
    if size < sizeofHeader + 2 then .ok none
    else do
      let hi ← readAt memory p
      let lo ← readAt memory (p + 1)
      return some (payloadLen16 hi lo, p + 2)
  else if header.payload.payloadLen = PAYLOAD_8_FLAG then
    if size < sizeofHeader + 6 then .ok none
    else do
      let bytes ← readBytes memory 8 p
      return some (bytes.foldl shiftIn 0, p + 8)
  else .ok none

inductive ByteOrder where
  | little | big
  deriving DecidableEq, Repr

def loadWord : ByteOrder → Byte → Byte → Byte → Byte → UInt32
  | .little, b0, b1, b2, b3 =>
    b0.toUInt32 ||| b1.toUInt32 <<< 8 ||| b2.toUInt32 <<< 16 ||| b3.toUInt32 <<< 24
  | .big, b0, b1, b2, b3 =>
    b3.toUInt32 ||| b2.toUInt32 <<< 8 ||| b1.toUInt32 <<< 16 ||| b0.toUInt32 <<< 24

def storeWord : ByteOrder → UInt32 → Byte × Byte × Byte × Byte
  | .little, w => (w.toUInt8, (w >>> 8).toUInt8, (w >>> 16).toUInt8, (w >>> 24).toUInt8)
  | .big, w => ((w >>> 24).toUInt8, (w >>> 16).toUInt8, (w >>> 8).toUInt8, w.toUInt8)

def xorWord (order : ByteOrder) (m : UInt32) (buffer : Bytes) (at_ : Nat) :
    Except MemoryFault Bytes := do
  let b0 ← readAt buffer at_
  let b1 ← readAt buffer (at_ + 1)
  let b2 ← readAt buffer (at_ + 2)
  let b3 ← readAt buffer (at_ + 3)
  let (c0, c1, c2, c3) := storeWord order (loadWord order b0 b1 b2 b3 ^^^ m)
  let buffer ← writeAt buffer at_ c0
  let buffer ← writeAt buffer (at_ + 1) c1
  let buffer ← writeAt buffer (at_ + 2) c2
  writeAt buffer (at_ + 3) c3

/-- `for (int i = 0; i < payload_len / 4; ++i) pt[i] ^= m`, from round `i` on with
`count` rounds to go. The increment behind `INT_MAX` is undefined. -/
def unmaskWords (order : ByteOrder) (m : UInt32) (p : Nat) :
    Nat → Nat → Bytes → Except MemoryFault Bytes
  | 0, _, buffer => .ok buffer
  | count + 1, i, buffer => do
    let buffer ← xorWord order m buffer (p + 4 * i)
    if i + 1 = 2 ^ 31 then .error .intOverflow
    else unmaskWords order m p count (i + 1) buffer

/-- `p[i] ^= mask[i % 4]` for an `int` index that may be negative. -/
def xorTail (mask : Bytes) (p : Nat) (buffer : Bytes) (i : Int) : Except MemoryFault Bytes :=
  if i.tmod 4 < 0 then .error (.maskIndex (i.tmod 4))
  else if (p : Int) + i < 0 then .error (.outside (p + i))
  else do
    let m ← readAt mask (i.tmod 4).toNat
    let b ← readAt buffer ((p : Int) + i).toNat
    writeAt buffer ((p : Int) + i).toNat (b ^^^ m)

def unmaskTail (mask : Bytes) (p : Nat) : Nat → Int → Bytes → Except MemoryFault Bytes
  | 0, _, buffer => .ok buffer
  | count + 1, i, buffer => do
    let buffer ← xorTail mask p buffer i
    unmaskTail mask p count (i + 1) buffer

/-- `int offset = payload_len / 4 * sizeof(uint32_t)`, truncated to 32 bits. -/
def tailOffset (payloadLen : UInt64) : Int := (payloadLen / 4 * 4).toUInt32.toInt32.toInt

/-- The two unmasking loops. The second runs `payload_len % 4` rounds: its bound is
an unsigned sum that cannot wrap, because a negative offset is at most -4. -/
def unmask (order : ByteOrder) (mask : Bytes) (p : Nat) (payloadLen : UInt64)
    (buffer : Bytes) : Except MemoryFault Bytes := do
  let m0 ← readAt mask 0
  let m1 ← readAt mask 1
  let m2 ← readAt mask 2
  let m3 ← readAt mask 3
  let buffer ← unmaskWords order (loadWord order m0 m1 m2 m3) p (payloadLen / 4).toNat 0 buffer
  unmaskTail mask p (payloadLen % 4).toNat (tailOffset payloadLen) buffer

/-- The locals of the loop and the two client buffers it writes. `memory` is `recv_buffer_` with
the bytes behind it that may still be read, `size` is `recv_buffer_.size()`. -/
structure DecodeState where
  memory : Bytes
  size : Nat
  decodeBuffer : Bytes
  header : WebsocketHeader
  p : Nat
  deriving DecidableEq, Repr

inductive Jump where
  | again | leave
  | returns (flag : CloseFlag)
  deriving DecidableEq, Repr

/-- `if (header.payload.mask) { … }`: the memory and `p` behind the masking key. Behind the string
nothing may be stored but the value that is there. -/
def readMasked (payloadLen : UInt64) (st : DecodeState) (p : Nat) :
    Except MemoryFault (Bytes × Nat) :=
  if st.header.payload.mask then do
    let mask ← readBytes st.memory 4 p
    let memory ← unmask .little mask (p + 4) payloadLen st.memory
    if memory.drop st.size = st.memory.drop st.size then return (memory, p + 4)
    else .error .nulChanged
  else .ok (st.memory, p)

def appendPayload (payloadLen : UInt64) (st : DecodeState) (memory : Bytes) (p : Nat) :
    Except MemoryFault (Jump × DecodeState) :=
  if memory.length < p + payloadLen.toNat then .error (.appendPast payloadLen)
  else
    let st := { st with
      memory := memory
      decodeBuffer := st.decodeBuffer ++ (memory.drop p).take payloadLen.toNat
      p := p }
    if st.header.opcode.fin || p ≥ st.size then .ok (.leave, st)
    else do
      let b0 ← readAt memory (p + payloadLen.toNat)
      let b1 ← readAt memory (p + payloadLen.toNat + 1)
      return (.again, { st with header := .ofBytes b0 b1, p := p + payloadLen.toNat + 2 })

def decodeStep (st : DecodeState) : Except MemoryFault (Jump × DecodeState) := do
  match ← readPayloadLen st.memory st.size st.header st.p with
  | none => return (.returns .protocolError, st)
  | some (payloadLen, p) =>
    if (payloadLen + sizeofHeader.toUInt64).toNat > st.size then
      return (.returns .protocolError, st)
    let (memory, p) ← readMasked payloadLen st p
    appendPayload payloadLen st memory p

def decodeLoop : Nat → DecodeState → Except MemoryFault (Jump × DecodeState)
  | 0, _ => .error .outOfFuel
  | fuel + 1, st =>
    match decodeStep st with
    | .ok (.again, st) => decodeLoop fuel st
    | result => result

/-- The loop as it is entered: `p` stands behind the header of the first frame. Every
further iteration moves `p` forward inside the memory, so the fuel cannot run out. -/
def decodeFrames (behind : Bytes) (c : WebsocketClient) : Except MemoryFault (Jump × DecodeState) :=
  decodeLoop (c.recvBuffer.length + behind.length + 1)
    ⟨c.recvBuffer ++ behind, c.recvBuffer.length, c.decodeBuffer, c.wbHeader, sizeofHeader⟩

def WebsocketClient.loaded (c : WebsocketClient) (b0 b1 : Byte) (rest : Bytes) : WebsocketClient :=
  { c with recvBuffer := b0 :: b1 :: rest, wbHeader := .ofBytes b0 b1 }

def WebsocketClient.markStreaming (c : WebsocketClient) : WebsocketClient :=
  if !c.wbHeader.opcode.fin then { c with isStreaming := true } else c

/-- Behind the loop: a single text frame is checked, and `wb_header_` becomes the
header of the last frame. A `return` from inside the loop skips both. -/
def finishDecode (c : WebsocketClient) (jump : Jump) (st : DecodeState) :
    CloseFlag × WebsocketClient :=
  let c := { c with recvBuffer := st.memory.take st.size, decodeBuffer := st.decodeBuffer }
  match jump with
  | .returns flag => (flag, c)
  | _ =>
    if c.wbHeader.opcode.opcode = .textFrame ∧ c.wbHeader.opcode.fin = true ∧
        validateUtf8 c.decodeBuffer = false then (.internalUtf8, c)
    else (.success, { c with wbHeader := st.header })

def decodeInMemory (behind : Bytes) (c : WebsocketClient) :
    Except MemoryFault (CloseFlag × WebsocketClient) := do
  let (jump, st) ← decodeFrames behind c.markStreaming
  return finishDecode c.markStreaming jump st

/-- `data()[size()]` is a NUL that may be read; nothing behind it may. -/
def decodeWebsocketDataFrame (c : WebsocketClient) :
    Except MemoryFault (CloseFlag × WebsocketClient) := decodeInMemory [0] c

end WebsocketProto
