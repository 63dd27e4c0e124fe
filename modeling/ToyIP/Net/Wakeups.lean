import ToyIP.Lib.WaitFlag
import ToyIP.Net.Packets
import ToyIP.Tcp.Receive

/-! # Network: the blocking calls

`tcp_receive`, `udp_recvfrom`, `tcp_accept` and `tcp_v4_connect` sleep on the flag of a `struct
wait_lock`, and the thread that processes the segments clears it. `wait_sleep` sets the flag on
entry, after the check and outside of its lock, so the four calls are instances of `Lib.WaitFlag`
and lose a wakeup in the same way: `early_wakeup_lost`. They lose none if no wakeup comes early
(`no_lost_wakeup`). -/

namespace ToyIP.Net.Wakeups

open ToyIP.Tcp
open ToyIP.Net.Packets (Datagram)
open ToyIP.Lib.Run ToyIP.Lib.WaitFlag ToyIP.Tcp.Types ToyIP.Tcp.Output
  ToyIP.Tcp.Data ToyIP.Tcp.Input ToyIP.Tcp.Sides ToyIP.Tcp.Effects ToyIP.Tcp.Receive

/-! ### `tcp_receive` -/

/-- What `tcp_process` does before each of its calls of `recv_notify`: the text is queued, the FIN
is taken, and the state is set. -/
inductive TcpChange
  | text (th : TcpHdr) (skb : Skb)
  | fin
  | closeWait
  deriving DecidableEq, Repr

def TcpChange.apply (sk : TcpSock) : TcpChange → TcpSock
  | .text th skb => tcpDataQueue sk th skb
  | .fin => tcpSendAck { sk with rcvNxt := sk.rcvNxt + 1, flagFin := true }
  | .closeWait => tcpSetState sk .closeWait

/-- Step 7 of `tcp_process` is a change and a wakeup. -/
theorem segmentText_change {sk : TcpSock} (th : TcpHdr) {skb : Skb} (hst : sk.state = .established)
    (hlen : skb.dlen > 0) :
    segmentText sk th skb = tcpRecvNotify (TcpChange.apply sk (.text th skb)) := by
  unfold segmentText
  rw [hst]
  simp [hlen, TcpChange.apply]

/-- Step 8 is two of each. -/
theorem finCheck_changes {sk : TcpSock} {th : TcpHdr} {skb : Skb} (hst : sk.state = .established)
    (hfin : th.fin = true) (hseq : sk.rcvNxt - skb.dlen = skb.seq) :
    finCheck sk th skb =
      tcpRecvNotify (TcpChange.apply (tcpRecvNotify (TcpChange.apply sk .fin)) .closeWait) := by
  rw [finCheck_of_fin hfin hseq, if_neg (by rw [hst]; simp), afterFin, hst]
  rfl

/-- `tcp_receive`, which `tcp_read` calls; it waits for text or for the FIN. Its `len` is an `int`,
and its loop is not entered if that is not positive. -/
def tcpReceive : Blocking (TcpSock × Receiving) UInt32 TcpChange where
  call len d := if 0 < len ∧ len < 0x80000000 then some (d.1, { len := len }) else none
  check d :=
    let r := receiveDequeue d.1 d.2
    let t := receiveTest r.1 r.2
    ((t.1, r.2), !t.2)
  again := true
  change c d := (TcpChange.apply d.1 c, d.2)
  ready d := d.1.receiveQueue ≠ [] ∨ d.1.flagFin = true
  skips _ := False
  not_ready d _ hsleep := by
    have hfalse : (receiveTest (receiveDequeue d.1 d.2).1 (receiveDequeue d.1 d.2).2).2 = false := by
      simpa using hsleep
    obtain ⟨hempty, hfin⟩ := not_ready_of_sleep hfalse
    rw [(receiveTest_of_sleep hfalse).1, hempty, hfin]
    simp

/-! ### `udp_recvfrom` and `udp_read` -/

/-- The receive queue of a UDP sock, the room in the buffer of the reader, and what he has got. -/
structure UdpReader where
  queue : List Datagram := []
  len : UInt32 := 0
  buf : List UInt8 := []
  deriving DecidableEq, Repr

/-- `rlen` in `udp_data_dequeue`. -/
def udpRlen (d : Datagram) (userlen : UInt32) : UInt32 := if d.dlen > userlen then userlen else d.dlen

/-- `udp_data_dequeue`; the result is `none` for `-1`, also if no byte of a datagram was copied. -/
def udpDataDequeue (queue : List Datagram) (userlen : UInt32) : List Datagram × Option (List UInt8) :=
  match queue with
  | [] => ([], none)
  | d :: rest =>
    let rlen := udpRlen d userlen
    (rest, if rlen = 0 then none else some (d.payload.take rlen.toNat))

/-- `udp_recvfrom` and `udp_read`, which wait for a datagram. A datagram without a byte to copy is
taken from the queue, and the call goes to sleep whatever is behind it. -/
def udpRecvfrom : Blocking UdpReader UInt32 Datagram where
  call len r := some { r with len := len, buf := [] }
  check r :=
    let d := udpDataDequeue r.queue r.len
    ({ r with queue := d.1, buf := d.2.getD [] }, d.2.isNone)
  again := true
  change d r := { r with queue := r.queue ++ [d] }
  ready r := r.queue ≠ []
  skips r := ∃ d rest, r.queue = d :: rest ∧ rest ≠ [] ∧ udpRlen d r.len = 0
  not_ready r hskip hsleep := by
    cases hq : r.queue with
    | nil => simp [udpDataDequeue]
    | cons d rest =>
      have hlast : rest = [] ∨ udpRlen d r.len ≠ 0 := by
        by_contra hno
        rw [not_or, not_not] at hno
        exact hskip ⟨d, rest, hq, hno.1, hno.2⟩
      simp only [udpDataDequeue, hq] at hsleep ⊢
      split_ifs at hsleep with hz
      · rw [hlast.resolve_right (not_not.mpr hz)]
        simp
      · simp at hsleep

/-! ### `tcp_accept` -/

/-- The accept queue of a listener, whose socks go by numbers, and the sock that was taken from it.
-/
structure Listener where
  acceptQueue : List ℕ := []
  newsk : Option ℕ := none
  deriving DecidableEq, Repr

/-- `tcp_accept_enqueue`: a sock that is on a list already is taken off first. -/
def tcpAcceptEnqueue (queue : List ℕ) (sk : ℕ) : List ℕ := sk :: queue.filter (· ≠ sk)

/-- `tcp_accept`, which waits for a sock on the queue. -/
def tcpAccept : Blocking Listener Unit ℕ where
  call _ l := some { l with newsk := none }
  check l :=
    match l.acceptQueue with
    | [] => (l, true)
    | sk :: rest => ({ acceptQueue := rest, newsk := some sk }, false)
  again := true
  change sk l := { l with acceptQueue := tcpAcceptEnqueue l.acceptQueue sk }
  ready l := l.acceptQueue ≠ []
  skips _ := False
  not_ready l _ hsleep := by
    cases hq : l.acceptQueue with
    | nil => simp [hq]
    | cons sk rest => simp [hq] at hsleep

/-! ### `tcp_v4_connect` -/

/-- The arguments of a call, with the results of `tcp_generate_port` and `tcp_generate_isn`. -/
structure Target where
  daddr : UInt32
  dport : UInt16
  saddr : UInt32
  port : UInt16
  isn : UInt32
  deriving DecidableEq, Repr

theorem tcpBeginConnect_state {sk : TcpSock} (h : sk.state ≠ .established) (isn : UInt32) :
    (tcpBeginConnect sk isn).state ≠ .established := by
  unfold tcpBeginConnect tcpSendSyn
  split_ifs
  · obtain ⟨timers, retransmit, heq⟩ := tcpQueueTransmitSkb_eq
      { sk with
        isn := isn, sndUna := isn, sndNxt := isn, rcvNxt := 0, rcvWnd := 44477, state := .synSent }
      { tcpAllocSkb 0 with th := tcpSynHeader { sk with
        isn := isn, sndUna := isn, sndNxt := isn, rcvNxt := 0, rcvWnd := 44477 } }
    rw [heq]
    simp
  · exact h

/-- `inet_connect` and `tcp_v4_connect`, which waits for `ESTABLISHED`. It checks nothing: it sends
its SYN and goes to sleep, and it returns once it was woken. -/
def tcpV4Connect : Blocking (TcpSock × UInt32) Target TcpHdr where
  call a d :=
    if d.1.sport ≠ 0 then none
    else some ({ d.1 with
      dport := a.dport, sport := a.port, daddr := a.daddr, saddr := a.saddr
      link := some .connectingOrListening }, a.isn)
  check d := ((tcpBeginConnect d.1 d.2, d.2), true)
  again := false
  change th d :=
    if d.1.state = .synSent then ({ tcpSynsent d.1 th with sleeping := d.1.sleeping }, d.2) else d
  ready d := d.1.state = .established
  skips d := d.1.state = .established
  not_ready d hskip _ := tcpBeginConnect_state hskip d.2

/-! ### Lost wakeups -/

/-- The calls that sleep. -/
inductive Call
  | tcpReceive | udpRecvfrom | tcpAccept | tcpV4Connect
  deriving DecidableEq, Repr

/-- What a call works on. -/
abbrev Call.Data : Call → Type
  | .tcpReceive => TcpSock × Receiving
  | .udpRecvfrom => UdpReader
  | .tcpAccept => Listener
  | .tcpV4Connect => TcpSock × UInt32

/-- What the other thread does before it wakes the caller. -/
abbrev Call.Change : Call → Type
  | .tcpReceive => TcpChange
  | .udpRecvfrom => Datagram
  | .tcpAccept => ℕ
  | .tcpV4Connect => TcpHdr

end ToyIP.Net.Wakeups
