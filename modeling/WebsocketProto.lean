import WebsocketProto.Broadcast
import WebsocketProto.Bytes
import WebsocketProto.ChatEcho
import WebsocketProto.ChatServer
import WebsocketProto.ChatStream
import WebsocketProto.Client
import WebsocketProto.ConnectorFrames
import WebsocketProto.Connectors
import WebsocketProto.ControlFrames
import WebsocketProto.Decoder
import WebsocketProto.DecoderSafety
import WebsocketProto.DecoderWalk
import WebsocketProto.Draining
import WebsocketProto.Emitters
import WebsocketProto.EncodedFrames
import WebsocketProto.Epoll
import WebsocketProto.FrameDecoding
import WebsocketProto.FrameParser
import WebsocketProto.Handlers
import WebsocketProto.Handshakes
import WebsocketProto.Header
import WebsocketProto.Http
import WebsocketProto.HttpMessage
import WebsocketProto.HttpRequests
import WebsocketProto.HttpSafety
import WebsocketProto.HttpScan
import WebsocketProto.Isolation
import WebsocketProto.LoopRefinement
import WebsocketProto.OpeningHandshakes
import WebsocketProto.Outcome
import WebsocketProto.Receiver
import WebsocketProto.Rfc6455
import WebsocketProto.Segmentation
import WebsocketProto.SendQueue
import WebsocketProto.SentMessages
import WebsocketProto.Server
import WebsocketProto.ServerCalls
import WebsocketProto.ServerClosing
import WebsocketProto.ServerDeadline
import WebsocketProto.ServerFrames
import WebsocketProto.ServerHandshake
import WebsocketProto.ServerHeartbeats
import WebsocketProto.ServerHistory
import WebsocketProto.ServerInvariant
import WebsocketProto.ServerLife
import WebsocketProto.ServerMoves
import WebsocketProto.ServerProgress
import WebsocketProto.ServerQuiet
import WebsocketProto.ServerReceiving
import WebsocketProto.ServerRounds
import WebsocketProto.ServerRuns
import WebsocketProto.ServerSending
import WebsocketProto.ServerStaying
import WebsocketProto.ServerSteps
import WebsocketProto.Simulation
import WebsocketProto.SingleFrames
import WebsocketProto.SpinLock
import WebsocketProto.TcpBatches
import WebsocketProto.TcpConnections
import WebsocketProto.TcpInvariant
import WebsocketProto.TcpServer
import WebsocketProto.TcpWakeups
import WebsocketProto.TimeWheel
import WebsocketProto.TimeWheelBounds
import WebsocketProto.TimeWheelCalls
import WebsocketProto.TimeWheelCounts
import WebsocketProto.TimeWheelDeadlines
import WebsocketProto.TimeWheelDueTicks
import WebsocketProto.TimeWheelErasure
import WebsocketProto.TimeWheelMisfiling
import WebsocketProto.TimeWheelPlacement
import WebsocketProto.TimeWheelSchedule
import WebsocketProto.TimeWheelSteps
import WebsocketProto.TimeWheelTasks
import WebsocketProto.Unmasking
import WebsocketProto.Utf8
import WebsocketProto.Utf8Sequences
import WebsocketProto.WebsocketLoop
import WebsocketProto.WheelLifetime
import WebsocketProto.WheelLocking
import WebsocketProto.WheelThreads
