import ToyIP.Tcp.Data

/-! # TCP: input

The functions of `tcp_input.c`. `tcp_process` is cut at its numbered comments: the window filter,
the SYN check, the acknowledgement, the text and the FIN. Undefined behaviour ends the run with a
`Fault`. -/

namespace ToyIP.Tcp.Input

open ToyIP.Tcp.Types ToyIP.Tcp.Timer ToyIP.Tcp.Output ToyIP.Tcp.Data

/-- `tcp_clean_retransmission_queue`. -/
def tcpCleanRetransmissionQueue (sk : TcpSock) (una : UInt32) : TcpSock :=
  let queue := sk.writeQueue.dropWhile fun skb => skb.endSeq ≤ una
  let sk := { sk with writeQueue := queue }
  if queue = [] then tcpStopRetransmissionTimer sk else sk

/-- `tcp_packet_filter`. -/
def tcpPacketFilter (sk : TcpSock) (th : TcpHdr) (skb : Skb) : Bool :=
  !(decide (skb.dlen > 0) && decide (sk.rcvWnd = 0)) &&
    !(decide (th.seq < sk.rcvNxt) || decide (th.seq > sk.rcvNxt + sk.rcvWnd))

/-- `tcp_recv_notify`. -/
def tcpRecvNotify (sk : TcpSock) : TcpSock := { sk with recvSleeping := false }

/-- `tcp_listen_child_sock`, with the addresses of the IP header of the segment. -/
def tcpListenChildSock (sk : TcpSock) (seg : Seg) : TcpSock :=
  { tcpAllocSock with
    saddr := seg.daddr, daddr := seg.saddr, sport := seg.th.dport, dport := seg.th.sport
    parent := some sk.state }

/-- `tcp_handle_listen`: the listening sock afterwards, and the new sock if a SYN made one. `isn` is
the result of `tcp_generate_isn`. -/
def tcpHandleListen (sk : TcpSock) (seg : Seg) (isn : UInt32) : TcpSock × Option TcpSock :=
  if seg.th.rst then (sk, none)
  else if seg.th.ack then (tcpSendReset sk, none)
  else if !seg.th.syn then (sk, none)
  else
    let new := tcpSetState (tcpListenChildSock sk seg) .synReceived
    let new := { new with
      irs := seg.th.seq, isn := isn, sndNxt := isn, rcvNxt := seg.th.seq + 1 }
    let new := { tcpSendSynack new with link := some .establishedOrSynRecvd }
    (sk, some { new with sndNxt := isn + 1, sndUna := isn })

/-- The acknowledgement tests of `tcp_synsent`; both failures drop the segment. -/
def synsentAckOk (sk : TcpSock) (th : TcpHdr) : Bool :=
  !(decide (th.ackSeq < sk.isn) || decide (th.ackSeq > sk.sndNxt)) &&
    !(decide (th.ackSeq < sk.sndUna) || decide (th.ackSeq > sk.sndNxt))

/-- `tcp_synsent`. -/
def tcpSynsent (sk : TcpSock) (th : TcpHdr) : TcpSock :=
  if th.ack && !synsentAckOk sk th then sk
  else if th.rst then sk
  else if !th.syn then sk
  else
    let sk := { sk with rcvNxt := th.seq + 1, irs := th.seq }
    let sk := if th.ack then
        tcpCleanRetransmissionQueue { sk with sndUna := th.ackSeq } th.ackSeq
      else sk
    if sk.sndUna > sk.isn then
      let sk := tcpSetState sk .established
      let sk := tcpSendAck { sk with sndUna := sk.sndNxt }
      { sk with sleeping := false }
    else
      let sk := tcpSetState sk .synReceived
      tcpSendSynack { sk with sndUna := sk.isn }

/-- `tcp_closed`. -/
def tcpClosed (sk : TcpSock) (th : TcpHdr) : TcpSock :=
  if th.rst then sk else tcpSendReset sk

/-- `tcp_enter_time_wait`. -/
def tcpEnterTimeWait (sk : TcpSock) : TcpSock :=
  let sk := tcpClearTimers (tcpSetState sk .timeWait)
  let t := timerAdd (timerCancel sk sk.linger) 3000 .tcpLinger
  { t.1 with linger := some t.2 }

/-- Step 4 of `tcp_process`, for a segment with SYN: a reset is sent, and a `SYN_RECEIVED` sock
with a parent is unlinked and freed. -/
def synCheck (sk : TcpSock) : TcpSock :=
  let sk := tcpSendReset sk
  if sk.state = .synReceived ∧ sk.parent ≠ none then tcpFreeSock { sk with link := none } else sk

/-- Step 5 of `tcp_process`. The flag tells whether the segment is processed further. -/
def ackCheck (sk : TcpSock) (th : TcpHdr) : Except Fault (TcpSock × Bool) :=
  match sk.state with
  | .synReceived =>
    if sk.sndUna ≤ th.ackSeq ∧ th.ackSeq ≤ sk.sndNxt then
      -- `tcp_synrecv_ack` reads the state of the parent before anything else
      match sk.parent with
      | none => .error .nullParent
      | some .listen =>
        .ok (tcpSetState { sk with accepted := true, sndUna := th.ackSeq } .established, true)
      | some _ => .ok (sk, false)
    else .ok (tcpSendReset sk, false)
  | .established | .finWait1 | .finWait2 | .closeWait | .closing | .lastAck =>
    let sk :=
      if sk.sndUna < th.ackSeq ∧ th.ackSeq ≤ sk.sndNxt then
        tcpCleanRetransmissionQueue { sk with sndUna := th.ackSeq } th.ackSeq
      else sk
    .ok (sk, !(decide (th.ackSeq > sk.sndNxt) || decide (th.ackSeq < sk.sndUna)))
  | _ => .ok (sk, true)

/-- Step 7 of `tcp_process`: the segment text. -/
def segmentText (sk : TcpSock) (th : TcpHdr) (skb : Skb) : TcpSock :=
  match sk.state with
  | .established | .finWait1 | .finWait2 =>
    if skb.dlen > 0 then tcpRecvNotify (tcpDataQueue sk th skb) else sk
  | _ => sk

/-- Step 8 of `tcp_process`: the FIN bit. -/
def finCheck (sk : TcpSock) (th : TcpHdr) (skb : Skb) : TcpSock :=
  if th.fin ∧ sk.rcvNxt - skb.dlen = skb.seq then
    match sk.state with
    | .close | .listen | .synSent => sk
    | _ =>
      let sk := { sk with rcvNxt := sk.rcvNxt + 1, flagFin := true }
      let sk := tcpRecvNotify (tcpSendAck sk)
      match sk.state with
      | .synReceived | .established => tcpRecvNotify (tcpSetState sk .closeWait)
      | .finWait1 => tcpSetState sk .closing
      | .finWait2 => tcpEnterTimeWait sk
      | _ => sk
  else sk

/-- `tcp_process` behind the window filter. A sock that the SYN check has freed is read again if the
segment has ACK. -/
def processInWindow (sk : TcpSock) (th : TcpHdr) (skb : Skb) : Except Fault TcpSock :=
  let sk := if th.syn then synCheck sk else sk
  if !th.ack then .ok sk
  else if th.syn && sk.freed then .error .freedSock
  else match ackCheck sk th with
    | .error f => .error f
    | .ok (sk, false) => .ok sk
    | .ok (sk, true) => .ok (finCheck (segmentText sk th skb) th skb)

/-- `tcp_process` on a sock that is not in `LISTEN`; a segment for a listening sock goes to
`tcpHandleListen`, which can also make a new sock. -/
def tcpProcess (sk : TcpSock) (seg : Seg) : Except Fault TcpSock :=
  let th := seg.th
  let skb := tcpInitSegment seg
  match sk.state with
  | .close => .ok (tcpClosed sk th)
  | .listen => .ok (tcpHandleListen sk seg 0).1
  | .synSent => .ok (tcpSynsent sk th)
  | _ =>
    if tcpPacketFilter sk th skb then processInWindow sk th skb
    else .ok (if th.rst then sk else tcpSendAck sk)

end ToyIP.Tcp.Input
