import ToyIP.Tcp.Output

/-! # TCP: the receive queue and the out-of-order queue

The functions of `tcp_data.c`. -/

namespace ToyIP.Tcp.Data

open ToyIP.Tcp.Types ToyIP.Tcp.Timer ToyIP.Tcp.Output

/-- What the loop of `tcp_data_insert_ordered` does at one queued buffer. -/
inductive Visit
  | insert | duplicate | next
  deriving DecidableEq, Repr

/-- The tests of `tcp_data_insert_ordered` at the queued buffer `item`. An overlap with `item` is
only reported, and the walk goes on. -/
def visit (skb item : Skb) : Visit :=
  if skb.seq < item.seq then
    if skb.endSeq > item.seq then .next else .insert
  else if skb.seq = item.seq then .duplicate
  else .next

/-- `tcp_data_insert_ordered`. `skb_queue_add` links the new buffer behind `item`, since `list_add`
inserts after the node it is given. -/
def tcpDataInsertOrdered : List Skb → Skb → List Skb
  | [], skb => [{ skb with refcnt := skb.refcnt + 1 }]
  | item :: rest, skb =>
    match visit skb item with
    | .insert => item :: { skb with refcnt := skb.refcnt + 1 } :: rest
    | .duplicate => item :: rest
    | .next => item :: tcpDataInsertOrdered rest skb

/-- The loop of `tcp_consume_ofo_queue` on `rcv_nxt`, the out-of-order queue and the receive
queue. -/
def consume : UInt32 → List Skb → List Skb → UInt32 × List Skb × List Skb
  | rcvNxt, [], receive => (rcvNxt, [], receive)
  | rcvNxt, skb :: ofo, receive =>
    if rcvNxt = skb.seq then consume (rcvNxt + skb.dlen) ofo (receive ++ [skb])
    else (rcvNxt, skb :: ofo, receive)

/-- `tcp_consume_ofo_queue`. -/
def tcpConsumeOfoQueue (sk : TcpSock) : TcpSock :=
  let c := consume sk.rcvNxt sk.ofoQueue sk.receiveQueue
  { sk with rcvNxt := c.1, ofoQueue := c.2.1, receiveQueue := c.2.2 }

/-- `delacks` after the test of `tcp_data_queue`, which counts the segments of full size without
`PSH`. -/
def countDelacks (sk : TcpSock) (th : TcpHdr) (skb : Skb) : UInt8 :=
  if !th.psh && skb.dlen = sk.rmss.toUInt32 then sk.delacks + 1 else sk.delacks

/-- The acknowledgement of in-order text in `tcp_data_queue`: at once on `PSH` and on every second
segment of full size, else by a timer. -/
def tcpAckData (sk : TcpSock) (th : TcpHdr) (skb : Skb) : TcpSock :=
  if th.psh || (skb.dlen = sk.rmss.toUInt32 && countDelacks sk th skb > 1) then
    tcpSendAck { sk with delacks := 0 }
  else
    let t := timerAdd { sk with delacks := countDelacks sk th skb } 200 .tcpSendDelack
    { t.1 with delack := some t.2 }

/-- `tcp_data_queue`. -/
def tcpDataQueue (sk : TcpSock) (th : TcpHdr) (skb : Skb) : TcpSock :=
  if sk.rcvWnd = 0 then sk
  else if skb.seq = sk.rcvNxt then
    let sk := { sk with
      rcvNxt := sk.rcvNxt + skb.dlen
      receiveQueue := sk.receiveQueue ++ [{ skb with refcnt := skb.refcnt + 1 }] }
    tcpAckData (tcpStopDelackTimer (tcpConsumeOfoQueue sk)) th skb
  else
    tcpSendAck { sk with ofoQueue := tcpDataInsertOrdered sk.ofoQueue skb }

/-- The loop of `tcp_data_dequeue` on the receive queue: the bytes copied, the queue left, and
whether a buffer with `PSH` was used up. `rlen` counts the bytes copied before. -/
def dequeue (userlen : UInt32) : UInt32 → List Skb → List UInt8 × List Skb × Bool
  | _, [] => ([], [], false)
  | rlen, skb :: rest =>
    if rlen < userlen then
      let dlen := if rlen + skb.dlen > userlen then userlen - rlen else skb.dlen
      let got := skb.payload.take dlen.toNat
      let left := { skb with dlen := skb.dlen - dlen, payload := skb.payload.drop dlen.toNat }
      if left.dlen = 0 then
        let d := dequeue userlen (rlen + dlen) rest
        (got ++ d.1, d.2.1, skb.th.psh || d.2.2)
      else
        -- a buffer that is not used up has filled the reader's buffer, so the loop ends here
        (got, left :: rest, false)
    else ([], skb :: rest, false)

/-- `tcp_data_dequeue`: the sock afterwards and the bytes copied. -/
def tcpDataDequeue (sk : TcpSock) (userlen : UInt32) : TcpSock × List UInt8 :=
  let d := dequeue userlen 0 sk.receiveQueue
  ({ sk with receiveQueue := d.2.1, flagPsh := sk.flagPsh || d.2.2 }, d.1)

end ToyIP.Tcp.Data
