import ToyIP.Net.Arp
import ToyIP.Net.ArpReply
import ToyIP.Net.Datagrams
import ToyIP.Net.Echo
import ToyIP.Net.Neighbours
import ToyIP.Net.Resend
import ToyIP.Net.RoundTrip
import ToyIP.Net.Routing
import ToyIP.Net.UdpLengths
import ToyIP.Net.UdpReceive
import ToyIP.Net.Wakeups
import ToyIP.Net.Wire
import ToyIP.Stack.AcceptQueue
import ToyIP.Stack.Bind
import ToyIP.Stack.Bounds
import ToyIP.Stack.Connections
import ToyIP.Stack.Corruption
import ToyIP.Stack.Expiry
import ToyIP.Stack.Ipc
import ToyIP.Stack.IpcResults
import ToyIP.Stack.Lives
import ToyIP.Stack.Locks
import ToyIP.Stack.Lvlip
import ToyIP.Stack.Ports
import ToyIP.Stack.Positions
import ToyIP.Stack.Resets
import ToyIP.Stack.SkbQueues
import ToyIP.Stack.Sockets
import ToyIP.Stack.Timers
import ToyIP.Stack.UdpSocks
import ToyIP.Tcp.Agreement
import ToyIP.Tcp.DelayedAck
import ToyIP.Tcp.Delivery
import ToyIP.Tcp.Durations
import ToyIP.Tcp.EndOfFile
import ToyIP.Tcp.Handshake
import ToyIP.Tcp.InOrder
import ToyIP.Tcp.Integrity
import ToyIP.Tcp.Numbers
import ToyIP.Tcp.OneWay
import ToyIP.Tcp.PartialAck
import ToyIP.Tcp.Reassembly
import ToyIP.Tcp.Retransmit
import ToyIP.Tcp.Segmentation
import ToyIP.Tcp.StreamEnd
import ToyIP.Tcp.SynAck
import ToyIP.Tcp.SynCheck
import ToyIP.Tcp.Teardown
import ToyIP.Tcp.Ticks
import ToyIP.Tcp.Wrap
