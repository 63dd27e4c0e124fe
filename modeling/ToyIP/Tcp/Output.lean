import ToyIP.Tcp.Timer

/-! # TCP: output

The functions of `tcp_output.c`. Every segment handed to `ip_output` is appended to `out`; whether
it is then lost below is the network's affair, and no function looks at the result. -/

namespace ToyIP.Tcp.Output

open ToyIP.Tcp.Types ToyIP.Tcp.Timer

/-- `tcp_alloc_skb`: a zeroed buffer with room for `size` bytes of text. -/
def tcpAllocSkb (size : ℕ) : Skb :=
  { dlen := UInt32.ofNat size, payload := List.replicate size 0 }

/-- The header `tcp_transmit_skb` writes; the flags and the options are already in the buffer. -/
def fillHeader (sk : TcpSock) (th : TcpHdr) (seq : UInt32) : TcpHdr :=
  { th with
    hl := if th.hl = 0 then 5 else th.hl
    sport := sk.sport
    dport := sk.dport
    seq := seq
    ackSeq := sk.rcvNxt
    win := sk.rcvWnd.toUInt16 }

/-- `tcp_transmit_skb`: the segment leaves with `seq` in its header, the buffer records `snd_una`
and `snd_una + dlen` as its range. -/
def tcpTransmitSkb (sk : TcpSock) (skb : Skb) (seq : UInt32) : TcpSock × Skb :=
  let th := fillHeader sk skb.th seq
  ({ sk with out := sk.out ++
      [{ saddr := sk.saddr, daddr := sk.daddr, th := th, dlen := skb.dlen,
         payload := skb.payload }] },
   { skb with th := th, seq := sk.sndUna, endSeq := sk.sndUna + skb.dlen })

/-- `tcp_queue_transmit_skb`. -/
def tcpQueueTransmitSkb (sk : TcpSock) (skb : Skb) : TcpSock :=
  let sk := if sk.writeQueue.isEmpty then tcpResetRetransmissionTimer sk else sk
  let t := tcpTransmitSkb sk skb sk.sndNxt
  { t.1 with writeQueue := sk.writeQueue ++ [t.2], sndNxt := sk.sndNxt + skb.dlen }

/-- `tcp_send_synack`. -/
def tcpSendSynack (sk : TcpSock) : TcpSock :=
  if sk.state = .synReceived then
    (tcpTransmitSkb sk { tcpAllocSkb 0 with th := { syn := true, ack := true } } sk.sndNxt).1
  else sk

/-- `tcp_send_ack`. -/
def tcpSendAck (sk : TcpSock) : TcpSock :=
  if sk.state = .close then sk
  else (tcpTransmitSkb sk { tcpAllocSkb 0 with th := { ack := true } } sk.sndNxt).1

/-- `tcp_send_delack`, a timer callback. -/
def tcpSendDelack (sk : TcpSock) : TcpSock :=
  tcpSendAck (tcpReleaseDelackTimer { sk with delacks := 0 })

/-- `tcp_syn_options` and `tcp_write_options`: the MSS option, which makes the header six words. -/
def tcpSynHeader (sk : TcpSock) : TcpHdr :=
  { syn := true, hl := 6, opts := [2, 4, (sk.rmss >>> 8).toUInt8, sk.rmss.toUInt8] }

/-- `tcp_send_syn`. -/
def tcpSendSyn (sk : TcpSock) : TcpSock :=
  if sk.state = .synSent ∨ sk.state = .close ∨ sk.state = .listen then
    tcpQueueTransmitSkb { sk with state := .synSent }
      { tcpAllocSkb 0 with th := tcpSynHeader sk }
  else sk

/-- `tcp_notify_user`. -/
def tcpNotifyUser (sk : TcpSock) : TcpSock :=
  if sk.state = .closeWait then { sk with sleeping := false } else sk

/-- `tcp_handle_fin_state`. -/
def tcpHandleFinState (sk : TcpSock) : TcpSock :=
  match sk.state with
  | .closeWait => tcpSetState sk .lastAck
  | .established => tcpSetState sk .finWait1
  | _ => sk

/-- `tcp_free_sock`: the timers are cancelled and all queues freed. The lookup lists still hold the
sock if they did before. -/
def tcpFreeSock (sk : TcpSock) : TcpSock :=
  { tcpClearTimers (tcpSetState sk .close) with
    ofoQueue := [], receiveQueue := [], writeQueue := [], freed := true }

/-- `tcp_connect_rto`, a timer callback. -/
def tcpConnectRto (sk : TcpSock) : TcpSock :=
  let sk := tcpReleaseRetransmissionTimer sk
  if sk.state = .established then sk
  else if sk.backoff > 3 then tcpFreeSock { sk with err := -110 }
  else match sk.writeQueue with
    | [] => sk
    | skb :: rest =>
      let t := tcpTransmitSkb sk skb sk.sndUna
      tcpResetRetransmissionTimer
        { t.1 with writeQueue := t.2 :: rest, backoff := sk.backoff + 1 }

/-- `tcp_retransmission_timeout`, a timer callback: the head of the write queue leaves again, with
`snd_una` as its sequence number. -/
def tcpRetransmissionTimeout (sk : TcpSock) : TcpSock :=
  let sk := tcpReleaseRetransmissionTimer sk
  match sk.writeQueue with
  | [] => tcpNotifyUser sk
  | skb :: rest =>
    let t := tcpTransmitSkb sk skb sk.sndUna
    let a := timerAdd { t.1 with writeQueue := t.2 :: rest } 500 .tcpRetransmissionTimeout
    let sk := { a.1 with retransmit := some a.2 }
    if skb.th.fin then tcpHandleFinState sk else sk

/-- `tcp_begin_connect`, with `isn` the result of `tcp_generate_isn`. -/
def tcpBeginConnect (sk : TcpSock) (isn : UInt32) : TcpSock :=
  let sk := tcpSendSyn { sk with
    isn := isn, sndUna := isn, sndNxt := isn, rcvNxt := 0, rcvWnd := 44477 }
  { sk with sndNxt := sk.sndNxt + 1 }

/-- The loop of `tcp_send`: one segment of at most `mss` bytes a round. -/
def tcpSendLoop (sk : TcpSock) (mss : ℕ) : ℕ → List UInt8 → TcpSock
  | 0, _ => sk
  | fuel + 1, buf =>
    if buf = [] then sk
    else
      let dlen := min buf.length mss
      let skb := { tcpAllocSkb dlen with
        payload := buf.take dlen, th := { ack := true, psh := buf.length - dlen = 0 } }
      tcpSendLoop (tcpQueueTransmitSkb sk skb) mss fuel (buf.drop dlen)

/-- `tcp_send`. With a positive `smss` every round takes a byte, so the loop ends within
`buf.length` rounds. -/
def tcpSend (sk : TcpSock) (buf : List UInt8) : TcpSock :=
  tcpSendLoop sk sk.smss.toNat buf.length buf

/-- `tcp_send_reset`. -/
def tcpSendReset (sk : TcpSock) : TcpSock :=
  let sk := { sk with sndUna := sk.sndNxt }
  (tcpTransmitSkb sk { tcpAllocSkb 0 with th := { rst := true } } sk.sndNxt).1

/-- `tcp_queue_fin`. -/
def tcpQueueFin (sk : TcpSock) : TcpSock :=
  let sk := tcpQueueTransmitSkb sk { tcpAllocSkb 0 with th := { fin := true, ack := true } }
  { sk with sndNxt := sk.sndNxt + 1 }

end ToyIP.Tcp.Output
