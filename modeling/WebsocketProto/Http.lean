import WebsocketProto.Decoder
import WebsocketProto.Outcome

/-! `decode_http_header`: the request line and the header lines of a handshake, read
through two pointers into the received string. The byte behind the string is its
terminating NUL; a read behind that has no meaning. -/
namespace WebsocketProto

/-- `*m` for a pointer into `data`. -/
def charAt (data : Bytes) (m : Nat) : Except MemoryFault Byte :=
  if m = data.length then .ok 0 else readAt data m

def CR : Byte := 13
def LF : Byte := 10
def SP : Byte := 32
def COLON : Byte := 58

/-- The negation of `*m != '\\r' && *(m + 1) != '\\n'`, which reads the second byte
only when the first is no carriage return. -/
def atLineEnd (data : Bytes) (m : Nat) : Except MemoryFault Bool := do
  if (← charAt data m) = CR then return true
  else return (← charAt data (m + 1)) = LF

/-- The bytes from `n` up to `m`. -/
def slice (data : Bytes) (n m : Nat) : Bytes := (data.drop n).take (m - n)

/-- `http_header_.emplace(key, value)`: an entry that exists is kept. -/
def emplace (header : List (Bytes × Bytes)) (key value : Bytes) : List (Bytes × Bytes) :=
  if (header.lookup key).isSome then header else header ++ [(key, value)]

/-- The loop over the request line; `i` counts the spaces seen. -/
def readRequestLine (data : Bytes) : Nat → Nat → Nat → Nat → List (Bytes × Bytes) →
    Except MemoryFault (Nat × List (Bytes × Bytes))
  | 0, _, _, _, _ => .error .outOfFuel
  | fuel + 1, m, n, i, header => do
    if ← atLineEnd data m then return (m, header)
    else if (← charAt data m) = SP then
      let header :=
        if i = 0 then emplace header (ascii "method") (slice data n m)
        else if i = 1 then emplace header (ascii "path") (slice data n m)
        else header
      readRequestLine data fuel (m + 1) (m + 1) (i + 1) header
    else readRequestLine data fuel (m + 1) n i header

/-- `while (*m != ':') ++m`. -/
def skipToColon (data : Bytes) : Nat → Nat → Except MemoryFault Nat
  | 0, _ => .error .outOfFuel
  | fuel + 1, m => do
    if (← charAt data m) = COLON then return m
    else skipToColon data fuel (m + 1)

def skipToLineEnd (data : Bytes) : Nat → Nat → Except MemoryFault Nat
  | 0, _ => .error .outOfFuel
  | fuel + 1, m => do
    if ← atLineEnd data m then return m
    else skipToLineEnd data fuel (m + 1)

/-- `*m == '\\r' && *(m + 1) == '\\n'`. -/
def atBlankLine (data : Bytes) (m : Nat) : Except MemoryFault Bool := do
  if (← charAt data m) = CR then return (← charAt data (m + 1)) = LF
  else return false

/-- The loop over the header lines, `m` and `n` standing at the start of a line.
Headers emplaced before a failure stay in the map. -/
def readHeaderLines (data : Bytes) : Nat → Nat → List (Bytes × Bytes) →
    Except MemoryFault (Bool × List (Bytes × Bytes))
  | 0, _, _ => .error .outOfFuel
  | fuel + 1, n, header => do
    let m ← skipToColon data (data.length + 2) n
    let key := slice data n m
    if key.isEmpty then return (false, header)
    else
      let n := m + 2
      let m ← skipToLineEnd data (data.length + 2) n
      let value := slice data n m
      if value.isEmpty then return (false, header)
      else
        let header := emplace header key value
        if ← atBlankLine data (m + 2) then return (true, header)
        else readHeaderLines data fuel (m + 2) header

def decodeHttpHeader (header : List (Bytes × Bytes)) (data : Bytes) :
    Except MemoryFault (Bool × List (Bytes × Bytes)) := do
  let (m, header) ← readRequestLine data (data.length + 2) 0 0 0 header
  readHeaderLines data (data.length + 2) (m + 2) header

end WebsocketProto
