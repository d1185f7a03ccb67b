import Switchboard.Word
import Switchboard.Trace
import Switchboard.Text.Utf8
import Switchboard.Text.Ascii
import Switchboard.Buffer
import Switchboard.Http.Error
import Switchboard.Http.Method
import Switchboard.Http.Status
import Switchboard.Http.Fields
import Switchboard.Http.Cookie
import Switchboard.Http.Wire
import Switchboard.Http.StartLine
import Switchboard.Http.HeaderLines
import Switchboard.Http.Message
import Switchboard.Http.Request
import Switchboard.Http.Response
import Switchboard.Report
import Switchboard.Buffer.Report
import Switchboard.Http.Report
import Switchboard.Crypto
import Switchboard.Entropy
import Switchboard.WebSocket.Opcode
import Switchboard.WebSocket.Frame
import Switchboard.WebSocket.Engine
import Switchboard.WebSocket.Handshake
import Switchboard.WebSocket.Report
import Switchboard.Peer.Message
import Switchboard.Peer.Codec
import Switchboard.Peer.FrameReader
import Switchboard.Peer.Pending
import Switchboard.Peer.Transport
import Switchboard.Peer.Client
import Switchboard.Peer.Report
import Switchboard.Config.Client
import Switchboard.Server.Admission
import Switchboard.Stats
import Switchboard.Server.Report
import Switchboard.Web.Path
import Switchboard.Web.Router
import Switchboard.Web.StaticContent
import Switchboard.Toml.Value
import Switchboard.Toml.Scan
import Switchboard.Toml.Number
import Switchboard.Toml.Parse
import Switchboard.Config.Settings
import Switchboard.Text.WhiteSpace
import Switchboard.Config.Report
import Switchboard.OsError
import Switchboard.FileSystem
import Switchboard.Server.Session
import Switchboard.Server.Operations
import Switchboard.Server.Fiber
import Switchboard.Web.Controller
import Switchboard.Tls.Config
import Switchboard.Tls.Report
import Switchboard.Net.Replay
import Switchboard.Http.Client
import Switchboard.WebSocket.Client
import Switchboard.Net.Address
import Switchboard.Net.Binding
import Switchboard.Server.Launch
import Switchboard.Server.HttpConnection
import Switchboard.Proofs.Http.SplitReading
import Switchboard.Proofs.WebSocket.Receiving
import Switchboard.Proofs.WebSocket.Encoding
import Switchboard.Proofs.WebSocket.RoundTrip
import Switchboard.Proofs.Peer.Service
import Switchboard.Proofs.Peer.Bench
import Switchboard.Proofs.Peer.Callbacks
import Switchboard.Proofs.Peer.Handover
import Switchboard.Proofs.Server.ConcurrentAdmission
import Switchboard.Proofs.Peer.Schedule
import Switchboard.Proofs.Text.Utf8
import Switchboard.Proofs.Http.HeaderReading
import Switchboard.Proofs.Http.Composing
import Switchboard.Proofs.Http.ReadingBack
import Switchboard.Proofs.Http.CookieAttributes
import Switchboard.Proofs.Http.ResponseReadingBack
import Switchboard.Proofs.Peer.FrameRoundTrip
import Switchboard.Proofs.Peer.Reassembly
import Switchboard.Proofs.Http.WholeMessage
import Switchboard.Proofs.Http.WholeRequest
import Switchboard.Proofs.Server.Pipelining
import Switchboard.Proofs.WebSocket.HandshakeKeys
import Switchboard.Proofs.Server.RefusalAndUpgrade
import Switchboard.Proofs.WebSocket.SizeLimit
import Switchboard.Proofs.Server.OperationAnswers
import Switchboard.Proofs.WebSocket.OpeningHandshake
import Switchboard.Proofs.Server.WebAnswerOrder
import Switchboard.Proofs.Server.Delivery
import Switchboard.Proofs.Http.FailedHeaderBlock
import Switchboard.Proofs.WebSocket.UpgradeDecision
import Switchboard.Proofs.WebSocket.CarryingOn
import Switchboard.Proofs.WebSocket.ClientUpgrade
import Switchboard.Proofs.WebSocket.ClientSession
import Switchboard.Proofs.Server.ClosingReads
import Switchboard.Proofs.Server.RateWindows
import Switchboard.Proofs.Web.RouteResolution
import Switchboard.Proofs.Peer.FrameErrors
import Switchboard.Proofs.Buffer.Contents
import Switchboard.Proofs.Http.Clearing
import Switchboard.Proofs.Http.ContentLength
import Switchboard.Proofs.Buffer.Invariants
import Switchboard.Proofs.Tls.Alpn
import Switchboard.Proofs.Tls.Configuration
import Switchboard.Proofs.Server.GroupStart
import Switchboard.Proofs.Peer.RoundTrips
import Switchboard.Proofs.Http.TerminatorScan
