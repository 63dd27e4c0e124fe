import ToyIP.Lib.Circle
import ToyIP.Tcp.Sides

/-! # TCP: moving the sequence numbers of a sock

`shift cs cr` adds `cs` to every number of the send side of a sock and `cr` to every number of the
receive side, modulo `2^32`, and `shiftSeg` does so for a segment. Whatever a function does without
comparing numbers by `<` and `≤` it does in the same way behind a shift; here is a lemma for each.
What does compare them is left to `Tcp.Wrap`. -/

namespace ToyIP.Tcp.Shift

open ToyIP.Lib.Circle ToyIP.Tcp.Types ToyIP.Tcp.Timer ToyIP.Tcp.Output ToyIP.Tcp.Data
  ToyIP.Tcp.Input ToyIP.Tcp.Sides

/-- A header whose own number moves by `c` and whose acknowledgement moves by `d`. -/
def shiftHdr (c d : UInt32) (th : TcpHdr) : TcpHdr :=
  { th with seq := th.seq + c, ackSeq := th.ackSeq + d }

def shiftSeg (c d : UInt32) (seg : Seg) : Seg := { seg with th := shiftHdr c d seg.th }

def shiftSkb (c d : UInt32) (skb : Skb) : Skb :=
  { skb with th := shiftHdr c d skb.th, seq := skb.seq + c, endSeq := skb.endSeq + c }

/-- A sock whose send side moves by `cs` and whose receive side moves by `cr`. -/
def shift (cs cr : UInt32) (sk : TcpSock) : TcpSock :=
  { sk with
    isn := sk.isn + cs
    sndUna := sk.sndUna + cs
    sndNxt := sk.sndNxt + cs
    writeQueue := sk.writeQueue.map (shiftSkb cs cr)
    out := sk.out.map (shiftSeg cs cr)
    irs := sk.irs + cr
    rcvNxt := sk.rcvNxt + cr
    receiveQueue := sk.receiveQueue.map (shiftSkb cr cs)
    ofoQueue := sk.ofoQueue.map (shiftSkb cr cs) }

variable (cs cr : UInt32) (sk : TcpSock)

@[simp] theorem state_shift : (shift cs cr sk).state = sk.state := rfl
@[simp] theorem parent_shift : (shift cs cr sk).parent = sk.parent := rfl
@[simp] theorem freed_shift : (shift cs cr sk).freed = sk.freed := rfl
@[simp] theorem rcvWnd_shift : (shift cs cr sk).rcvWnd = sk.rcvWnd := rfl
@[simp] theorem isn_shift : (shift cs cr sk).isn = sk.isn + cs := rfl
@[simp] theorem sndUna_shift : (shift cs cr sk).sndUna = sk.sndUna + cs := rfl
@[simp] theorem sndNxt_shift : (shift cs cr sk).sndNxt = sk.sndNxt + cs := rfl
@[simp] theorem rcvNxt_shift : (shift cs cr sk).rcvNxt = sk.rcvNxt + cr := rfl

theorem tcpInitSegment_shiftSeg (seg : Seg) :
    tcpInitSegment (shiftSeg cr cs seg) = shiftSkb cr cs (tcpInitSegment seg) := by
  have hend : seg.th.seq + cr + seg.dlen = seg.th.seq + seg.dlen + cr := by grind
  unfold tcpInitSegment shiftSkb shiftSeg shiftHdr
  simp only [hend]

/-! ### Output -/

/-- A sock that has handed one more segment to `ip_output`. -/
def emit (sk : TcpSock) (s : Seg) : TcpSock := { sk with out := sk.out ++ [s] }

theorem emit_shift (s : Seg) :
    emit (shift cs cr sk) (shiftSeg cs cr s) = shift cs cr (emit sk s) := by
  unfold emit shift
  simp only [List.map_append, List.map_cons, List.map_nil]

@[simp] theorem tcpSendAck_shift : tcpSendAck (shift cs cr sk) = shift cs cr (tcpSendAck sk) := by
  unfold tcpSendAck
  rw [state_shift]
  split_ifs
  · rfl
  · exact emit_shift cs cr sk (ackSeg sk)

@[simp] theorem tcpSendReset_shift :
    tcpSendReset (shift cs cr sk) = shift cs cr (tcpSendReset sk) :=
  emit_shift cs cr { sk with sndUna := sk.sndNxt } (resetSeg sk)

@[simp] theorem tcpSendSynack_shift :
    tcpSendSynack (shift cs cr sk) = shift cs cr (tcpSendSynack sk) := by
  unfold tcpSendSynack
  rw [state_shift]
  split_ifs
  · exact emit_shift cs cr sk
      { saddr := sk.saddr, daddr := sk.daddr
        th := fillHeader sk { syn := true, ack := true } sk.sndNxt }
  · rfl

@[simp] theorem synCheck_shift : synCheck (shift cs cr sk) = shift cs cr (synCheck sk) := by
  unfold synCheck
  simp only [tcpSendReset_shift, state_shift, parent_shift]
  split_ifs <;> rfl

theorem tcpClosed_shift (th : TcpHdr) :
    tcpClosed (shift cs cr sk) (shiftHdr cr cs th) = shift cs cr (tcpClosed sk th) := by
  have hrst : (shiftHdr cr cs th).rst = th.rst := rfl
  unfold tcpClosed
  rw [hrst, tcpSendReset_shift]
  split_ifs <;> rfl

/-! ### Text -/

/-- The loop of `tcp_consume_ofo_queue` only tests for equality. -/
theorem consume_shift : ∀ (ofo receive : List Skb) (r : UInt32),
    consume (r + cr) (ofo.map (shiftSkb cr cs)) (receive.map (shiftSkb cr cs)) =
      ((consume r ofo receive).1 + cr, (consume r ofo receive).2.1.map (shiftSkb cr cs),
        (consume r ofo receive).2.2.map (shiftSkb cr cs))
  | [], receive, r => rfl
  | skb :: ofo, receive, r => by
    have hiff : r + cr = (shiftSkb cr cs skb).seq ↔ r = skb.seq := add_eq_add_iff cr r skb.seq
    have hadd : r + cr + (shiftSkb cr cs skb).dlen = r + skb.dlen + cr := by
      show r + cr + skb.dlen = _
      grind
    have happ : receive.map (shiftSkb cr cs) ++ [shiftSkb cr cs skb] =
        (receive ++ [skb]).map (shiftSkb cr cs) := by simp
    rw [List.map_cons]
    unfold consume
    by_cases h : r = skb.seq
    · rw [if_pos (hiff.mpr h), if_pos h, hadd, happ, consume_shift ofo (receive ++ [skb])]
    · rw [if_neg (fun h' => h (hiff.mp h')), if_neg h]
      rfl

@[simp] theorem tcpConsumeOfoQueue_shift :
    tcpConsumeOfoQueue (shift cs cr sk) = shift cs cr (tcpConsumeOfoQueue sk) :=
  congrArg (fun c : UInt32 × List Skb × List Skb =>
    { shift cs cr sk with rcvNxt := c.1, ofoQueue := c.2.1, receiveQueue := c.2.2 })
    (consume_shift cs cr sk.ofoQueue sk.receiveQueue sk.rcvNxt)

theorem tcpAckData_shift (th : TcpHdr) (skb : Skb) :
    tcpAckData (shift cs cr sk) (shiftHdr cr cs th) (shiftSkb cr cs skb) =
      shift cs cr (tcpAckData sk th skb) := by
  have hack : tcpSendAck (shift cs cr { sk with delacks := 0 }) = _ := tcpSendAck_shift cs cr _
  show (if th.psh || (skb.dlen = sk.rmss.toUInt32 && countDelacks sk th skb > 1) then
    tcpSendAck (shift cs cr { sk with delacks := 0 }) else _) = _
  unfold tcpAckData
  rw [hack]
  split_ifs <;> rfl

/-- In-order text, and a segment that only adds to the out-of-order queue. -/
theorem tcpDataQueue_shift (th : TcpHdr) (skb : Skb)
    (hofo : sk.rcvWnd ≠ 0 → skb.seq ≠ sk.rcvNxt →
      tcpDataInsertOrdered (sk.ofoQueue.map (shiftSkb cr cs)) (shiftSkb cr cs skb) =
        (tcpDataInsertOrdered sk.ofoQueue skb).map (shiftSkb cr cs)) :
    tcpDataQueue (shift cs cr sk) (shiftHdr cr cs th) (shiftSkb cr cs skb) =
      shift cs cr (tcpDataQueue sk th skb) := by
  have hiff : (shiftSkb cr cs skb).seq = (shift cs cr sk).rcvNxt ↔ skb.seq = sk.rcvNxt :=
    add_eq_add_iff cr skb.seq sk.rcvNxt
  unfold tcpDataQueue
  rw [rcvWnd_shift]
  by_cases hw : sk.rcvWnd = 0
  · rw [if_pos hw, if_pos hw]
  rw [if_neg hw, if_neg hw]
  by_cases hseq : skb.seq = sk.rcvNxt
  · rw [if_pos (hiff.mpr hseq), if_pos hseq]
    have hstart : { shift cs cr sk with
        rcvNxt := (shift cs cr sk).rcvNxt + (shiftSkb cr cs skb).dlen
        receiveQueue := (shift cs cr sk).receiveQueue ++
          [{ shiftSkb cr cs skb with refcnt := (shiftSkb cr cs skb).refcnt + 1 }] } =
        shift cs cr { sk with
          rcvNxt := sk.rcvNxt + skb.dlen
          receiveQueue := sk.receiveQueue ++ [{ skb with refcnt := skb.refcnt + 1 }] } := by
      have hadd : sk.rcvNxt + cr + skb.dlen = sk.rcvNxt + skb.dlen + cr := by grind
      unfold shift
      simp only [List.map_append, List.map_cons, List.map_nil, shiftSkb, hadd]
    have hstop : ∀ sk, tcpStopDelackTimer (shift cs cr sk) =
        shift cs cr (tcpStopDelackTimer sk) := fun _ => rfl
    refine (congrArg (fun sk' => tcpAckData (tcpStopDelackTimer (tcpConsumeOfoQueue sk'))
      (shiftHdr cr cs th) (shiftSkb cr cs skb)) hstart).trans ?_
    simp only [tcpConsumeOfoQueue_shift, hstop, tcpAckData_shift]
  · rw [if_neg (fun h => hseq (hiff.mp h)), if_neg hseq]
    rw [show (shift cs cr sk).ofoQueue = sk.ofoQueue.map (shiftSkb cr cs) from rfl, hofo hw hseq]
    exact tcpSendAck_shift cs cr { sk with ofoQueue := tcpDataInsertOrdered sk.ofoQueue skb }

/-! ### FIN -/

theorem takeFin_shift : takeFin (shift cs cr sk) = shift cs cr (takeFin sk) := by
  have hadd : sk.rcvNxt + cr + 1 = sk.rcvNxt + 1 + cr := by grind
  have hstart : { shift cs cr sk with rcvNxt := (shift cs cr sk).rcvNxt + 1, flagFin := true } =
      shift cs cr { sk with rcvNxt := sk.rcvNxt + 1, flagFin := true } := by
    unfold shift
    simp only [hadd]
  unfold takeFin
  rw [hstart, tcpSendAck_shift]
  rfl

theorem afterFin_shift : afterFin (shift cs cr sk) = shift cs cr (afterFin sk) := by
  unfold afterFin
  rw [state_shift, takeFin_shift]
  cases sk.state <;> rfl

theorem finCheck_shift (th : TcpHdr) (skb : Skb) :
    finCheck (shift cs cr sk) (shiftHdr cr cs th) (shiftSkb cr cs skb) =
      shift cs cr (finCheck sk th skb) := by
  have hiff : (shift cs cr sk).rcvNxt - (shiftSkb cr cs skb).dlen = (shiftSkb cr cs skb).seq ↔
      sk.rcvNxt - skb.dlen = skb.seq := by
    show sk.rcvNxt + cr - skb.dlen = skb.seq + cr ↔ _
    rw [← add_eq_add_iff cr (sk.rcvNxt - skb.dlen) skb.seq]
    have : sk.rcvNxt + cr - skb.dlen = sk.rcvNxt - skb.dlen + cr := by grind
    rw [this]
  by_cases h : th.fin = true ∧ sk.rcvNxt - skb.dlen = skb.seq
  · have hfin : (shiftHdr cr cs th).fin = true := h.1
    rw [finCheck_of_fin hfin (hiff.mpr h.2), finCheck_of_fin h.1 h.2, state_shift, afterFin_shift]
    split_ifs <;> rfl
  · have h' : ¬ ((shiftHdr cr cs th).fin = true ∧ (shift cs cr sk).rcvNxt -
        (shiftSkb cr cs skb).dlen = (shiftSkb cr cs skb).seq) := fun h' => h ⟨h'.1, hiff.mp h'.2⟩
    unfold finCheck
    rw [if_neg h, if_neg h']

end ToyIP.Tcp.Shift
