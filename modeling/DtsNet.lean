import DtsNet.Library.Machine
import DtsNet.Library.Channel
import DtsNet.Library.Circular
import DtsNet.Dblk
import DtsNet.Ip
import DtsNet.Tcp.Segment
import DtsNet.Tcp.Tcb
import DtsNet.Tcp.Output
import DtsNet.Tcp.Input
import DtsNet.Tcp.Events
import DtsNet.Tcp.Spec
import DtsNet.Library.History
import DtsNet.Tcp.Frame
import DtsNet.Tcp.Handlers
import DtsNet.Tcp.Sending
import DtsNet.Tcp.SendSequence
import DtsNet.Tcp.Retransmission
import DtsNet.Tcp.Queue
import DtsNet.Tcp.Reading
import DtsNet.Tcp.Window
import DtsNet.Tcp.Handshake
import DtsNet.Tcp.Accepting
import DtsNet.Tcp.Binding
import DtsNet.Tcp.Table
import DtsNet.Tcp.Demux
import DtsNet.Tcp.Emission
import DtsNet.Tcp.Acknowledging
import DtsNet.Tcp.Endpoint
import DtsNet.Tcp.Pair
import DtsNet.Library.StopAndWait
import DtsNet.Tcp.Blocks
import DtsNet.Tcp.Tandem
import DtsNet.Tcp.Clock
import DtsNet.Tcp.Ready
import DtsNet.Tcp.Recovery
import DtsNet.Tcp.Opening
import DtsNet.Tcp.Closing
import DtsNet.Tcp.Outgoing
import DtsNet.Tcp.Incoming
import DtsNet.Tcp.Graceful
import DtsNet.Tcp.Teardown
import DtsNet.Tcp.MissingSegment
import DtsNet.Socket.Api
import DtsNet.Socket.Host
import DtsNet.Socket.Listening
import DtsNet.Checksum
import DtsNet.Dblk.Fragment
import DtsNet.Ip.Header
import DtsNet.Library.Tiling
import DtsNet.Ip.Output
import DtsNet.Dblk.Copy
import DtsNet.Ether
import DtsNet.Arp
import DtsNet.Ether.Arp
import DtsNet.Ip.Input
import DtsNet.Udp.Datagram
import DtsNet.Stack
import DtsNet.Udp.Travel
import DtsNet.Ether.Resolution
import DtsNet.Ether.Table
import DtsNet.Dhcp.Message
import DtsNet.Dhcp.Client
import DtsNet.Dhcp.Run
import DtsNet.Dhcp.Lease
import DtsNet.Dhcp.Timers
import DtsNet.Dhcp.Foreign
import DtsNet.Tcp.Comparison
import DtsNet.Tcp.Unsynchronized
import DtsNet.Tcp.Allocation
import DtsNet.Tcp.Accounting
import DtsNet.Tcp.RepeatedFin
import DtsNet.Tcp.Wire
import DtsNet.Tcp.Pending
import DtsNet.Release.Path
import DtsNet.Release.Once
import DtsNet.Socket.Reuse
import DtsNet.Ip.Bounds
import DtsNet.Udp.Acceptance
import DtsNet.Ip.Codec
import DtsNet.Tcp.Codec
import DtsNet.Tcp.Travel
import DtsNet.Icmp
import DtsNet.Library.Decay
import DtsNet.Dblk.Cutting
import DtsNet.Ether.Reaction
import DtsNet.Ether.Silence
import DtsNet.Ether.Eviction
import DtsNet.Ether.Sending
import DtsNet.Dblk.Flatten
import DtsNet.Dblk.Bounded
import DtsNet.Dblk.Transfer
import DtsNet.Dblk.Cursor
import DtsNet.Dhcp.Codec
import DtsNet.Dhcp.Options
import DtsNet.Dhcp.Inside
import DtsNet.Dhcp.Rejected
import DtsNet.Socket.Descriptors
import DtsNet.Socket.Projection
import DtsNet.Socket.Streams
import DtsNet.Checksum.Reference
import DtsNet.Checksum.Pieces
import DtsNet.Library.Chain
import DtsNet.Dblk.Merge
import DtsNet.Mem.Pools
import DtsNet.Inet
import DtsNet.Sys
