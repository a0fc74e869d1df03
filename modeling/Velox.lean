import Velox.Foundation.Bytes
import Velox.Foundation.OnesComplement
import Velox.Foundation.Pieces
import Velox.Foundation.Runs
import Velox.Foundation.FirstBest
import Velox.Foundation.SeqWindow
import Velox.Foundation.LowestFree
import Velox.Foundation.Allocation
import Velox.Foundation.Snapshot
import Velox.Foundation.Insertion
import Velox.Foundation.FirstArrivals
import Velox.Foundation.Loops
import Velox.Foundation.Mirror
import Velox.Foundation.Rotation
import Velox.Foundation.Simulation
import Velox.Foundation.Race
import Velox.Foundation.Line
import Velox.Foundation.Fields
import Velox.Foundation.Base128
import Velox.Base.Csum16
import Velox.Frame.FrameBuf
import Velox.Frame.Headers
import Velox.Ip.Tx
import Velox.Ip.Reassembler
import Velox.Ip.FragGroups
import Velox.Ip.Reassembly
import Velox.Ip.Isolation
import Velox.Ip.Insertion
import Velox.Session
import Velox.Sessions
import Velox.Tcp.TcpSession
import Velox.Tcp.Layout
import Velox.Tcp.Checksum
import Velox.Tcp.Sequence
import Velox.Tcp.Stream
import Velox.Tcp.Handshake
import Velox.Tcp.Window
import Velox.Udp.UdpSession
import Velox.Rpc
import Velox.Rpc.Runtime
import Velox.Rpc.WireFormat
import Velox.Rpc.RequestWire
import Velox.Arbiter.Endpoint
import Velox.Tcp.Acknowledge
import Velox.Arbiter.RpcDispatch
import Velox.Ip.Rx
import Velox.Ip.RoundTrip
import Velox.Arbiter.Sendto
import Velox.Ip.Accesses
import Velox.Ip.Bounds
import Velox.Ip.Chains
import Velox.Ip.Duplicates
import Velox.Ip.Round
import Velox.Tcp.Advance
import Velox.Tcp.Threads
import Velox.Tcp.Overlap
import Velox.Tcp.Linearization
import Velox.Tcp.ThreadNumbers
import Velox.Arbiter.Ports
import Velox.Ip.Identification
import Velox.Arbiter.Search
import Velox.Arbiter.Names
import Velox.Network.Host
import Velox.Network.Mailboxes
import Velox.Network.Integrity
import Velox.Network.Isolation
import Velox.Arbiter.Connect
import Velox.Network.Segments
import Velox.Network.Conversation
import Velox.Network.Agreement
import Velox.Network.Reading
import Velox.Arbiter.WellFormed
import Velox.Arbiter.Channel
import Velox.Arbiter.Handling
import Velox.Arbiter.ChannelSteps
import Velox.Arbiter.Wakeup
import Velox.Arbiter.Replies
import Velox.Arbiter.Debts
import Velox.Arbiter.Matching
import Velox.Arbiter.Completion
import Velox.Arbiter.Delivery
import Velox.Arbiter.Daemon
import Velox.Arbiter.Linkage
import Velox.Arbiter.Descriptors
import Velox.Arbiter.DeliveryRace
import Velox.Arbiter.DaemonStack
import Velox.Arbiter.Unbound
import Velox.Arbiter.Reactor
import Velox.Arbiter.Dispatch
import Velox.Arbiter.Callbacks
import Velox.Arbiter.Registration
import Velox.Interceptor.FdPool
import Velox.Interceptor.FdMap
import Velox.Interceptor.Inert
import Velox.Interceptor.Kernel
import Velox.Interceptor.Poll
import Velox.Interceptor.Select
import Velox.Interceptor.Requests
import Velox.Interceptor.ChanRecv
import Velox.Rpc.ResponseWire
import Velox.Interceptor.Recvfrom
import Velox.Interceptor.Buffers
