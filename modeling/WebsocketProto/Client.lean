import WebsocketProto.Header

/-! The per-connection objects: the fields of `tcp_client`, `http_client` and
`websocket_client` that the server reads or writes. -/
namespace WebsocketProto

/-- `std::string` stays below `max_size`, which is 2^63 - 1 on a 64-bit target. -/
structure StdString where
  bytes : Bytes
  bound : bytes.length < 2 ^ 63
  deriving DecidableEq

inductive ConnectionState where
  | none | waitShake | connected
  deriving DecidableEq, Repr

structure WebsocketClient where
  sendBufferQueue : List Bytes
  recvBuffer : Bytes
  sockfd : Nat
  httpHeader : List (Bytes × Bytes)
  isStreaming : Bool
  isConnected : ConnectionState
  waitClose : Bool
  timeWheelId : Nat
  timeWheelHeartbeatId : Nat
  decodeBuffer : Bytes
  wbHeader : WebsocketHeader
  deriving DecidableEq, Repr

/-- What `allocate_client` and `decode_remote_client` leave for a new descriptor.
`wb_header_` has no initializer; it is written before it is ever read. -/
def WebsocketClient.new (sockfd : Nat) : WebsocketClient where
  sendBufferQueue := []
  recvBuffer := []
  sockfd := sockfd
  httpHeader := []
  isStreaming := false
  isConnected := .none
  waitClose := false
  timeWheelId := 0
  timeWheelHeartbeatId := 0
  decodeBuffer := []
  wbHeader := .zero

end WebsocketProto
