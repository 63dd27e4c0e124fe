import Mathlib.Data.Nat.Notation

/-! # TCP: headers, buffers, timers and the sock

The data of `tcp.h`, `sock.h`, `skbuff.h` and `timer.h` as the TCP code uses it. Sequence numbers
are machine words, so every sum of them wraps modulo `2^32` as in C. A `TcpSock` is a
`struct tcp_sock` with its `struct sock` and its `struct tcb` inlined, together with what its code
reaches outside: the state of its parent, the timers it has added and the segments it has handed to
`ip_output`.

Fields that no function reads (`snd_wnd`, `snd_up`, `snd_wl1`, `snd_wl2`, `rcv_up`, `fd`,
`tcp_header_len`) are left out; `keepalive` is never set, so cancelling it does nothing. -/

namespace ToyIP.Tcp.Types

/-- `enum tcp_states`. -/
inductive TcpState
  | listen | synSent | synReceived | established | finWait1 | finWait2 | close | closeWait
  | closing | lastAck | timeWait
  deriving DecidableEq, Repr

/-- `struct tcphdr` in host byte order, without checksum and urgent pointer; `hl` is the header
length in words and `opts` are the option bytes behind the fixed part. -/
structure TcpHdr where
  sport : UInt16 := 0
  dport : UInt16 := 0
  seq : UInt32 := 0
  ackSeq : UInt32 := 0
  hl : UInt8 := 0
  fin : Bool := false
  syn : Bool := false
  rst : Bool := false
  psh : Bool := false
  ack : Bool := false
  urg : Bool := false
  ece : Bool := false
  cwr : Bool := false
  win : UInt16 := 0
  opts : List UInt8 := []
  deriving DecidableEq, Repr

/-- A segment on its way: the addresses of its IP header, its TCP header, and its text. `dlen` is
the length the headers announce; on a well-formed segment it is the length of `payload`. -/
structure Seg where
  saddr : UInt32 := 0
  daddr : UInt32 := 0
  th : TcpHdr
  dlen : UInt32 := 0
  payload : List UInt8 := []
  deriving DecidableEq, Repr

/-- `struct sk_buff`: the TCP header in its buffer, the range of sequence numbers recorded for it,
the text from `payload` on, and the reference count. -/
structure Skb where
  th : TcpHdr := {}
  dlen : UInt32 := 0
  seq : UInt32 := 0
  endSeq : UInt32 := 0
  payload : List UInt8 := []
  refcnt : Int := 0
  deriving DecidableEq, Repr

/-- The timer callbacks of the TCP code. -/
inductive Handler
  | tcpConnectRto | tcpRetransmissionTimeout | tcpSendDelack | tcpLinger
  deriving DecidableEq, Repr

/-- `struct timer`, with the delay it was added with; its `arg` is the sock that added it. -/
structure Timer where
  handler : Handler
  expire : UInt32
  refcnt : Int := 1
  cancelled : Bool := false
  deriving DecidableEq, Repr

/-- The lookup list the `link` node of a sock is on. -/
inductive SockList
  | connectingOrListening | establishedOrSynRecvd
  deriving DecidableEq, Repr

/-- A sock and what its code reaches. A timer is named by its place in `timers`. -/
structure TcpSock where
  -- struct sock
  state : TcpState := .close
  err : Int := 0
  sport : UInt16 := 0
  dport : UInt16 := 0
  saddr : UInt32 := 0
  daddr : UInt32 := 0
  link : Option SockList := none
  receiveQueue : List Skb := []
  writeQueue : List Skb := []
  recvSleeping : Bool := false
  -- struct tcb
  sndUna : UInt32 := 0
  sndNxt : UInt32 := 0
  isn : UInt32 := 0
  rcvNxt : UInt32 := 0
  rcvWnd : UInt32 := 0
  irs : UInt32 := 0
  -- struct tcp_sock
  flagPsh : Bool := false
  flagFin : Bool := false
  backoff : UInt8 := 0
  sleeping : Bool := false
  retransmit : Option ℕ := none
  delack : Option ℕ := none
  linger : Option ℕ := none
  delacks : UInt8 := 0
  rmss : UInt16 := 1460
  smss : UInt16 := 1460
  ofoQueue : List Skb := []
  -- outside: `tsk->parent->sk.state`, the accept queue of the parent, the timers, `ip_output`
  parent : Option TcpState := none
  accepted : Bool := false
  timers : List Timer := []
  out : List Seg := []
  freed : Bool := false
  deriving DecidableEq, Repr

/-- Undefined behaviour the code can run into: a `NULL` parent, and a sock that was just freed. -/
inductive Fault
  | nullParent | freedSock
  deriving DecidableEq, Repr

/-- `tcp_alloc_sock`. -/
def tcpAllocSock : TcpSock := {}

/-- `__tcp_set_state`. -/
def tcpSetState (sk : TcpSock) (state : TcpState) : TcpSock := { sk with state := state }

/-- `tcp_init_segment`: the buffer of a received segment. -/
def tcpInitSegment (seg : Seg) : Skb :=
  { th := seg.th, dlen := seg.dlen, seq := seg.th.seq, endSeq := seg.th.seq + seg.dlen,
    payload := seg.payload }

end ToyIP.Tcp.Types
