import WebsocketProto.Emitters
import WebsocketProto.Http

/-! `decode_proto_data` of one client. The fields it writes are changed in place; what it
does to the rest of the server is returned as calls, in the order in which they are made. -/
namespace WebsocketProto

/-- A string that goes to `send_buffer_queue_`. -/
inductive Output where
  | handshake (response : Bytes)
  | frame (op : ServerOp)
  deriving DecidableEq

def Output.bytes : Output → Bytes
  | .handshake response => response
  | .frame op => op.frame

inductive Call where
  | sendWithoutFrame (output : Output)
  | closeWebsocketClient (flag : CloseFlag)
  | addToTimeWheelExpire (flag : CloseFlag)
  | addToTimeWheelHeartbeat
  | removeFromTimeWheel
  | closeClient
  deriving DecidableEq

/-- What does not change while the server runs. `digest` stands for the SHA-1 and Base64
functions of the cryptographic library. -/
structure Protocol where
  heartbeat : Bool
  digest : Bytes → Bytes

namespace Protocol

def guid : Bytes := ascii "258EAFA5-E914-47DA-95CA-C5AB0DC85B11"

def websocketAcceptKey (proto : Protocol) (wbKey : Bytes) : Bytes := proto.digest (wbKey ++ guid)

def generateWebsocketShakeHandsRes (acceptKey : Bytes) : Bytes :=
  ascii "HTTP/1.1 101 Switching Protocols\r\n" ++
    (ascii "Upgrade: websocket\r\n" ++
      (ascii "Connection: Upgrade\r\n" ++
        (ascii "Sec-WebSocket-Accept: " ++ (acceptKey ++ ascii "\r\n\r\n"))))

def websocketShakeHands (proto : Protocol) (c : WebsocketClient) :
    Bool × WebsocketClient × List Call :=
  let refused := (false, c, [.closeWebsocketClient .protocolError])
  if c.httpHeader.lookup (ascii "Upgrade") = some (ascii "websocket") ∧
      c.httpHeader.lookup (ascii "Connection") = some (ascii "Upgrade") then
    match c.httpHeader.lookup (ascii "Sec-WebSocket-Key") with
    | some wbKey =>
      (true, { c with isConnected := .waitShake }, [.sendWithoutFrame
        (.handshake (generateWebsocketShakeHandsRes (proto.websocketAcceptKey wbKey)))])
    | none => refused
  else refused

/-- The branch for `connection_state::NONE`, which never returns true. -/
def decodeHandshake (proto : Protocol) (c : WebsocketClient) (data : Bytes) :
    Except MemoryFault (WebsocketClient × List Call) := do
  let (decoded, httpHeader) ← decodeHttpHeader c.httpHeader data
  let c := { c with recvBuffer := data, httpHeader := httpHeader }
  if decoded = false then return (c, [])
  let (accepted, c, calls) := proto.websocketShakeHands c
  return (c, if accepted && proto.heartbeat then calls ++ [.addToTimeWheelHeartbeat] else calls)

/-- `case CLOSE`: a client that has not announced the end is closed at once. -/
def decodeClose (c : WebsocketClient) : List Call :=
  if c.waitClose = false then
    (if c.timeWheelId ≠ 0 then [.removeFromTimeWheel] else []) ++
      [.closeWebsocketClient .normalClose, .closeClient]
  else [.addToTimeWheelExpire .normalClose]

/-- The branches behind the header, for a client whose handshake is under way or done. -/
def decodeFrame (c : WebsocketClient) :
    Except MemoryFault (Bool × WebsocketClient × List Call) := do
  match c.wbHeader.opcode.opcode with
  | .close => return (false, c, decodeClose c)
  | .pong => return (false, c, if c.timeWheelId ≠ 0 then [.removeFromTimeWheel] else [])
  | .ping => return (false, c, [.sendWithoutFrame (.frame .pongReply)])
  | .textFrame | .binaryFrame | .continuationFrame =>
    let (ret, c) ← decodeWebsocketDataFrame c
    if ret ≠ .success then return (false, c, [.closeWebsocketClient ret])
    return (c.wbHeader.opcode.fin, c, [])
  | .unnamed _ => return (c.wbHeader.opcode.fin, c, [])

def decodeProtoData (proto : Protocol) (c : WebsocketClient) (data : Bytes) :
    Except MemoryFault (Bool × WebsocketClient × List Call) :=
  if c.isConnected = .none then do
    let (c, calls) ← proto.decodeHandshake c data
    return (false, c, calls)
  else match data with
  | b0 :: b1 :: rest => decodeFrame (c.loaded b0 b1 rest)
  | _ => return (false, { c with recvBuffer := data, waitClose := true },
      [.closeWebsocketClient .protocolError])

end Protocol
end WebsocketProto
