import Foctet.Lib.Transducer
import Foctet.Lib.Framing
import Foctet.Lib.BigEndian
import Foctet.Lib.Table
import Foctet.Lib.Machine
import Foctet.Lib.Outcome
import Foctet.Lib.Logged
import Foctet.Lib.Lists
import Foctet.Lib.Channel
import Foctet.Lib.LengthDelimited
import Foctet.Lib.Filling
import Foctet.Lib.Loop
import Foctet.Lib.DigitText
import Foctet.Lib.Simulation
import Foctet.Lib.TableSize
import Foctet.Lib.Format
import Foctet.Lib.Bincode
import Foctet.Lib.Tally
import Foctet.Core.Ip
import Foctet.Core.Key
import Foctet.Core.Addr
import Foctet.Core.Stream
import Foctet.Core.Frame
import Foctet.Core.Codec
import Foctet.Core.CodecStream
import Foctet.Core.CodecInverse
import Foctet.Core.FramedRead
import Foctet.Core.LengthField
import Foctet.Core.BuiltFrame
import Foctet.Core.Uuid
import Foctet.Core.Hash
import Foctet.Core.Ticket
import Foctet.Mux.Link
import Foctet.Mux.Stream
import Foctet.Mux.Split
import Foctet.Mux.LifeCycle
import Foctet.Mux.Session
import Foctet.Mux.SessionSteps
import Foctet.Mux.Routing
import Foctet.Mux.EndOfTransport
import Foctet.Mux.AfterShutdown
import Foctet.Mux.Peer
import Foctet.Mux.PeerSteps
import Foctet.Mux.ByteStream
import Foctet.Mux.OpenCalls
import Foctet.Mux.OpenReplies
import Foctet.Mux.OwnerLoop
import Foctet.Mux.Ledger
import Foctet.Mux.Net
import Foctet.Mux.Allocation
import Foctet.Mux.Freshness
import Foctet.Mux.Handles
import Foctet.Mux.OpenHandshake
import Foctet.Mux.Outgoing
import Foctet.Mux.Incoming
import Foctet.Mux.Delivery
import Foctet.Mux.Closing
import Foctet.Mux.Channels
import Foctet.Mux.Bounds
import Foctet.Mux.WithinReach
import Foctet.Mux.Load
import Foctet.Mux.Flushing
import Foctet.Net.Certificate
import Foctet.Net.Parsing
import Foctet.Net.Verifier
import Foctet.Net.Device
import Foctet.Net.Transport
import Foctet.Net.Endpoint
import Foctet.Net.Dialling
import Foctet.Net.Authentication
import Foctet.Net.Listening
import Foctet.Net.Accepting
import Foctet.Net.Draining
import Foctet.Net.Generated
import Foctet.Net.Advertised
import Foctet.Net.TryingOrder
import Foctet.Net.FileReceive
import Foctet.Net.SendLoops
import Foctet.Net.Messages
import Foctet.Net.StreamNames
import Foctet.Net.FileTransfer
import Foctet.Net.SessionTransfer
import Foctet.Net.Sending
import Foctet.Net.Reachability
