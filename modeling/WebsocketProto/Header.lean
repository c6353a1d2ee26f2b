import WebsocketProto.Rfc6455

/-! The two header bytes as the bit fields of `websocket_header`, and the two
flag enumerations. Both byte orders of the declaration give the same bits. -/
namespace WebsocketProto

/-- `opcode_flag`; the 4-bit field also holds codes that have no enumerator. -/
inductive OpcodeFlag where
  | continuationFrame | textFrame | binaryFrame | close | ping | pong
  | unnamed (bits : Nat)
  deriving DecidableEq, Repr

def OpcodeFlag.bits : OpcodeFlag → Nat
  | .continuationFrame => 0
  | .textFrame => 1
  | .binaryFrame => 2
  | .close => 8
  | .ping => 9
  | .pong => 10
  | .unnamed bits => bits

def OpcodeFlag.ofBits : Nat → OpcodeFlag
  | 0 => .continuationFrame
  | 1 => .textFrame
  | 2 => .binaryFrame
  | 8 => .close
  | 9 => .ping
  | 10 => .pong
  | bits => .unnamed bits

/-- The opcodes that `decode_proto_data` hands to the data frame decoder. -/
def OpcodeFlag.isData : OpcodeFlag → Bool
  | .textFrame | .binaryFrame | .continuationFrame => true
  | _ => false

/-- `close_flag`; a scoped enumeration over `uint16_t` may hold any 16-bit value. -/
inductive CloseFlag where
  | success | normalClose | goingAway | protocolError | unsupportedData
  | internalUtf8 | serverError
  | unnamed (code : UInt16)
  deriving DecidableEq, Repr

def CloseFlag.code : CloseFlag → UInt16
  | .success => 0
  | .normalClose => 1000
  | .goingAway => 1001
  | .protocolError => 1002
  | .unsupportedData => 1003
  | .internalUtf8 => 1007
  | .serverError => 1011
  | .unnamed code => code

def PAYLOAD_2_FLAG : Nat := 0x7e
def PAYLOAD_8_FLAG : Nat := 0x7f

structure OpcodeBit where
  opcode : OpcodeFlag
  rsv3 : Bool
  rsv2 : Bool
  rsv1 : Bool
  fin : Bool
  deriving DecidableEq, Repr

structure PayloadMask where
  payloadLen : Nat
  mask : Bool
  deriving DecidableEq, Repr

structure WebsocketHeader where
  opcode : OpcodeBit
  payload : PayloadMask
  deriving DecidableEq, Repr

/-- `websocket_header header {}`. -/
def WebsocketHeader.zero : WebsocketHeader :=
  ⟨⟨.continuationFrame, false, false, false, false⟩, ⟨0, false⟩⟩

def OpcodeBit.ofByte (b : Byte) : OpcodeBit where
  opcode := .ofBits (b.toNat % 16)
  rsv3 := b.toNat.testBit 4
  rsv2 := b.toNat.testBit 5
  rsv1 := b.toNat.testBit 6
  fin := b.toNat.testBit 7

def PayloadMask.ofByte (b : Byte) : PayloadMask where
  payloadLen := b.toNat % 128
  mask := b.toNat.testBit 7

def OpcodeBit.toByte (o : OpcodeBit) : Byte :=
  (o.opcode.bits % 16 + 16 * o.rsv3.toNat + 32 * o.rsv2.toNat + 64 * o.rsv1.toNat +
    128 * o.fin.toNat).toUInt8

def PayloadMask.toByte (m : PayloadMask) : Byte :=
  (m.payloadLen % 128 + 128 * m.mask.toNat).toUInt8

/-- `*reinterpret_cast<websocket_header *>(p)` over two bytes. -/
def WebsocketHeader.ofBytes (b0 b1 : Byte) : WebsocketHeader := ⟨.ofByte b0, .ofByte b1⟩

def WebsocketHeader.toBytes (h : WebsocketHeader) : Bytes := [h.opcode.toByte, h.payload.toByte]

/-- `sizeof(websocket_header)`: the structure is packed. -/
def sizeofHeader : Nat := 2

theorem PayloadMask.ofByte_payloadLen_lt (b : Byte) : (PayloadMask.ofByte b).payloadLen < 128 :=
  Nat.mod_lt _ (by decide)

theorem PayloadMask.ofByte_ofNat (n : Nat) (masked : Bool) (small : n < 128) :
    PayloadMask.ofByte (n + 128 * masked.toNat).toUInt8 = ⟨n, masked⟩ := by
  have wide : (n + 128 * masked.toNat) % 256 = n + 128 * masked.toNat := by
    cases masked <;> simp <;> omega
  have low : (n + 128 * masked.toNat) % 128 = n := by cases masked <;> simp <;> omega
  have high : (n + 128 * masked.toNat).testBit 7 = masked := by
    rw [Nat.testBit_eq_decide_div_mod_eq]
    cases masked <;> simp <;> omega
  simp only [PayloadMask.ofByte, Nat.toUInt8, UInt8.toNat_ofNat', Nat.reducePow]
  rw [wide, low, high]

/-- The code's name of an opcode of the protocol. -/
def OpcodeFlag.ofRfc : Rfc6455.Opcode → OpcodeFlag
  | .continuation => .continuationFrame
  | .text => .textFrame
  | .binary => .binaryFrame
  | .close => .close
  | .ping => .ping
  | .pong => .pong

@[simp] theorem OpcodeFlag.bits_ofRfc (op : Rfc6455.Opcode) :
    (OpcodeFlag.ofRfc op).bits = op.code := by
  cases op <;> rfl

@[simp] theorem OpcodeFlag.isData_ofRfc (op : Rfc6455.Opcode) :
    (OpcodeFlag.ofRfc op).isData = !op.isControl := by
  cases op <;> rfl

/-- The header that the server reads off the first two bytes of a frame. -/
def WebsocketHeader.ofFrame (f : Rfc6455.Frame) : WebsocketHeader where
  opcode := ⟨.ofRfc f.opcode, false, false, false, f.fin⟩
  payload := ⟨Rfc6455.lengthCode f.payload.length, f.key.isSome⟩

theorem OpcodeBit.ofByte_byte0 (f : Rfc6455.Frame) :
    OpcodeBit.ofByte f.byte0 = ⟨.ofRfc f.opcode, false, false, false, f.fin⟩ := by
  cases f with
  | mk fin opcode key payload =>
    cases opcode <;> cases fin <;>
      simp only [Rfc6455.Frame.byte0, Rfc6455.Opcode.code, OpcodeFlag.ofRfc] <;> decide

theorem PayloadMask.ofByte_byte1 (f : Rfc6455.Frame) :
    PayloadMask.ofByte f.byte1 = ⟨Rfc6455.lengthCode f.payload.length, f.key.isSome⟩ :=
  PayloadMask.ofByte_ofNat _ f.key.isSome (Rfc6455.lengthCode_lt f.payload.length)

theorem WebsocketHeader.ofBytes_frame (f : Rfc6455.Frame) :
    WebsocketHeader.ofBytes f.byte0 f.byte1 = .ofFrame f := by
  simp only [WebsocketHeader.ofBytes, OpcodeBit.ofByte_byte0, PayloadMask.ofByte_byte1,
    WebsocketHeader.ofFrame]

/-- A named opcode with clear reserved bits and a 7-bit length is written as the
protocol writes it. -/
theorem WebsocketHeader.toBytes_ofFrame (f : Rfc6455.Frame) :
    (WebsocketHeader.ofFrame f).toBytes = [f.byte0, f.byte1] := by
  have code := Nat.mod_eq_of_lt (Rfc6455.lengthCode_lt f.payload.length)
  have first : (⟨.ofRfc f.opcode, false, false, false, f.fin⟩ : OpcodeBit).toByte = f.byte0 := by
    cases f with
    | mk fin opcode key payload =>
      cases opcode <;> cases fin <;>
        simp only [Rfc6455.Frame.byte0, Rfc6455.Opcode.code, OpcodeFlag.ofRfc] <;> decide
  have second : (⟨Rfc6455.lengthCode f.payload.length, f.key.isSome⟩ : PayloadMask).toByte =
      f.byte1 := by
    simp only [PayloadMask.toByte, Rfc6455.Frame.byte1, code]
  simp only [WebsocketHeader.toBytes, WebsocketHeader.ofFrame, first, second]

end WebsocketProto
