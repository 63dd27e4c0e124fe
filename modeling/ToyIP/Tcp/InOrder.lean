import ToyIP.Tcp.Opening

/-! # TCP: text in order

The text of a segment with `seq = rcv_nxt` passes three tests before it is queued: the window
filter, the acknowledgement and the state. A sock that connected has its window all life long
(`opening_life`), so the acknowledgement decides: `in_order_taken`. `tcp_process` drops a segment
whose `ack_seq` is below `snd_una` as a whole, with its text.

For a child of a listening sock nobody selects a window, and it takes no text at all
(`child_drops_text`). -/

namespace ToyIP.Tcp.InOrder

open ToyIP.Lib ToyIP.Lib.Run ToyIP.Tcp.Types ToyIP.Tcp.Output ToyIP.Tcp.Data ToyIP.Tcp.Input
  ToyIP.Tcp.Sock ToyIP.Tcp.Sides ToyIP.Tcp.Network ToyIP.Tcp.Life ToyIP.Tcp.Opening

/-- The next text for an open connection, with nothing else, and with an acknowledgement that is not
beyond `snd_nxt`. The window does not wrap. -/
structure NextText (sk : TcpSock) (seg : Seg) : Prop where
  state : sk.state = .established
  syn : seg.th.syn = false
  rst : seg.th.rst = false
  fin : seg.th.fin = false
  ack : seg.th.ack = true
  ackSeq : seg.th.ackSeq ≤ sk.sndNxt
  seq : seg.th.seq = sk.rcvNxt
  nonempty : 1 ≤ seg.dlen.toNat
  small : seg.dlen.toNat ≤ 1460
  wrap : sk.rcvNxt.toNat + sk.rcvWnd.toNat < 4294967296

/-- The length of the text in a list of buffers. -/
def textLength (l : List Skb) : ℕ := (l.map fun skb => skb.dlen.toNat).sum

/-- **The text is on `receive_queue`**, with what came out of order behind it, and `rcv_nxt` is
behind all of it. -/
structure Taken (sk : TcpSock) (seg : Seg) (sk' : TcpSock) : Prop where
  queue : ∃ moved, moved <+: sk.ofoQueue ∧
    sk'.receiveQueue = sk.receiveQueue ++ queued (tcpInitSegment seg) :: moved ∧
    sk'.rcvNxt = sk.rcvNxt + seg.dlen + UInt32.ofNat (textLength moved)
  advanced : sk.rcvNxt.toNat + seg.dlen.toNat + textLength sk.ofoQueue < 4294967296 →
    sk.rcvNxt.toNat + seg.dlen.toNat ≤ sk'.rcvNxt.toNat

variable {sk sk' : TcpSock} {seg : Seg}

/-! ### The out-of-order queue -/

@[simp] theorem textLength_cons (skb : Skb) (l : List Skb) :
    textLength (skb :: l) = skb.dlen.toNat + textLength l := by
  simp [textLength]

theorem textLength_le {l l' : List Skb} (h : l <+: l') : textLength l ≤ textLength l' := by
  obtain ⟨m, rfl⟩ := h
  simp [textLength]

/-- The loop of `tcp_consume_ofo_queue` moves a part of the queue from its head on. -/
theorem consume_moves : ∀ (q receive : List Skb) (rcvNxt : UInt32), ∃ moved, moved <+: q ∧
    (consume rcvNxt q receive).1 = rcvNxt + UInt32.ofNat (textLength moved) ∧
    (consume rcvNxt q receive).2.2 = receive ++ moved
  | [], receive, rcvNxt => ⟨[], List.nil_prefix, (UInt32.add_zero rcvNxt).symm, by simp [consume]⟩
  | skb :: q, receive, rcvNxt => by
    unfold consume
    split_ifs with h
    · obtain ⟨moved, hpre, hnxt, hrecv⟩ := consume_moves q (receive ++ [skb]) (rcvNxt + skb.dlen)
      refine ⟨skb :: moved, List.prefix_cons_inj skb |>.mpr hpre, ?_, ?_⟩
      · rw [hnxt, textLength_cons, UInt32.ofNat_add, UInt32.ofNat_toNat, UInt32.add_assoc]
      · rw [hrecv, List.append_assoc, List.singleton_append]
    · exact ⟨[], List.nil_prefix, (UInt32.add_zero rcvNxt).symm, by simp⟩

/-- Text in order is taken as soon as there is a window. -/
theorem taken_tcpDataQueue (hw : sk.rcvWnd ≠ 0) (hseq : seg.th.seq = sk.rcvNxt) (th : TcpHdr) :
    Taken sk seg (tcpDataQueue sk th (tcpInitSegment seg)) := by
  have hrecv := recvSide_tcpDataQueue hw th (tcpInitSegment seg)
  have htake : takeText sk.rcvNxt sk.ofoQueue sk.receiveQueue (tcpInitSegment seg) =
      consume (sk.rcvNxt + seg.dlen) sk.ofoQueue
        (sk.receiveQueue ++ [queued (tcpInitSegment seg)]) := if_pos hseq
  rw [htake] at hrecv
  obtain ⟨moved, hpre, hnxt, hqueue⟩ := consume_moves sk.ofoQueue
    (sk.receiveQueue ++ [queued (tcpInitSegment seg)]) (sk.rcvNxt + seg.dlen)
  have hnxt' := (congrArg RecvSide.rcvNxt hrecv).trans hnxt
  have hqueue' := (congrArg RecvSide.receiveQueue hrecv).trans hqueue
  refine ⟨⟨moved, hpre, ?_, hnxt'⟩, fun hlt => ?_⟩
  · rw [List.append_assoc, List.singleton_append] at hqueue'
    exact hqueue'
  · have hle := textLength_le hpre
    have hadd : (sk.rcvNxt + seg.dlen).toNat = sk.rcvNxt.toNat + seg.dlen.toNat :=
      Word32.toNat_add_of_lt (by omega)
    have hmoved : (UInt32.ofNat (textLength moved)).toNat = textLength moved :=
      Word32.toNat_ofNat (by omega)
    have hsum : (sk.rcvNxt + seg.dlen + UInt32.ofNat (textLength moved)).toNat =
        sk.rcvNxt.toNat + seg.dlen.toNat + textLength moved := by
      rw [Word32.toNat_add_of_lt (by omega), hadd, hmoved]
    show _ ≤ (tcpDataQueue sk th (tcpInitSegment seg)).rcvNxt.toNat
    rw [show (tcpDataQueue sk th (tcpInitSegment seg)).rcvNxt = _ from hnxt', hsum]
    omega

/-! ### The three tests -/

/-- The filter lets the next text through, if there is a window that does not wrap. -/
theorem NextText.filter (h : NextText sk seg) (hw : sk.rcvWnd ≠ 0) :
    tcpPacketFilter sk seg.th (tcpInitSegment seg) = true := by
  have hle : ¬ sk.rcvNxt > sk.rcvNxt + sk.rcvWnd := by
    rw [gt_iff_lt, Word32.lt_iff, Word32.toNat_add_of_lt h.wrap]
    omega
  unfold tcpPacketFilter
  simp [hw, h.seq, hle]

/-- What passes the filter is dropped or queued. -/
theorem NextText.processed_eq (h : NextText sk seg) (hw : sk.rcvWnd ≠ 0) : processed sk seg =
    if seg.th.ackSeq < sk.sndUna then sk
    else tcpRecvNotify (tcpDataQueue (takeAck sk seg.th) seg.th (tcpInitSegment seg)) := by
  have hsyn : afterSyn sk seg.th = sk := by
    unfold afterSyn
    rw [h.syn]
    rfl
  have hst : (takeAck sk seg.th).state = .established :=
    (congrArg Core.state (core_takeAck sk seg.th)).trans h.state
  unfold processed
  rw [if_pos (h.filter hw), if_pos h.ack, hsyn]
  by_cases hold : seg.th.ackSeq < sk.sndUna
  · have htake : takeAck sk seg.th = sk :=
      takeAck_of_not_taken fun htake => UInt32.lt_irrefl _ (UInt32.lt_trans htake.1 hold)
    have hno : ¬ ackOk (takeAck sk seg.th) seg.th = true := fun hok =>
      UInt32.not_le.mpr hold ((ackOk_takeAck sk seg.th).mp hok).1
    rw [if_neg hno, htake, if_pos hold]
  · have hok : ackOk (takeAck sk seg.th) seg.th = true :=
      (ackOk_takeAck sk seg.th).mpr ⟨UInt32.not_lt.mp hold, h.ackSeq⟩
    have hpos : 0 < (tcpInitSegment seg).dlen := Word32.pos_iff.mpr h.nonempty
    rw [if_pos hok, if_neg hold, segmentText_of_pos (.inl hst) hpos, finCheck_of_not_fin h.fin]

/-- **In every reachable state of a sock that connected, the next text is taken, unless it comes
with an old acknowledgement; then nothing happens.** -/
theorem in_order_taken {sk₀ sk : TcpSock} {es : List LifeEvent} {seg : Seg} (hborn : Born sk₀)
    (hrun : run lifeStep sk₀ es = some sk) (hopener : sk.parent = none) (h : NextText sk seg) :
    (sk.sndUna ≤ seg.th.ackSeq → ∃ sk', tcpProcess sk seg = .ok sk' ∧ Taken sk seg sk') ∧
      (seg.th.ackSeq < sk.sndUna → tcpProcess sk seg = .ok sk) := by
  have hopen := (opening_life hborn hrun).2
  have hsync : Synchronized sk.state := by rw [h.state]; trivial
  obtain ⟨-, hold⟩ := ne_of_synchronized hsync
  have hw : sk.rcvWnd ≠ 0 := by
    rw [hopen.opener hopener hold.1 hold.2]
    decide
  have hproc := tcpProcess_eq hsync (hopen.live hold.1) seg
  rw [h.processed_eq hw] at hproc
  refine ⟨fun hle => ?_, fun hlt => ?_⟩
  · rw [if_neg (UInt32.not_lt.mpr hle)] at hproc
    refine ⟨_, hproc, ?_⟩
    have hrecv := recvSide_takeAck sk seg.th
    have hnxt : (takeAck sk seg.th).rcvNxt = sk.rcvNxt := congrArg RecvSide.rcvNxt hrecv
    have hwnd : (takeAck sk seg.th).rcvWnd = sk.rcvWnd := congrArg RecvSide.rcvWnd hrecv
    have hrq : (takeAck sk seg.th).receiveQueue = sk.receiveQueue :=
      congrArg RecvSide.receiveQueue hrecv
    have hofo : (takeAck sk seg.th).ofoQueue = sk.ofoQueue := congrArg RecvSide.ofoQueue hrecv
    have htaken : Taken (takeAck sk seg.th) seg _ :=
      taken_tcpDataQueue (by rwa [hwnd]) (h.seq.trans hnxt.symm) seg.th
    obtain ⟨hqueue, hadv⟩ := htaken
    rw [hnxt, hrq, hofo] at hqueue
    rw [hnxt, hofo] at hadv
    exact ⟨hqueue, hadv⟩
  · rwa [if_pos hlt] at hproc

/-- A sock in `SYN_SENT` with number 100 gets the answer, and one byte of text. -/
def answer : Seg :=
  { otherSyn with th := { otherSyn.th with ack := true, ackSeq := 101 } }

def oneByte (ackSeq : UInt32) : Seg :=
  { otherAck with th := { otherAck.th with ackSeq := ackSeq }, dlen := 1, payload := [65] }

theorem in_order_taken_byte : ∃ sk,
    run lifeStep tcpAllocSock [.connect 1 2 3 4 100, .sock (.segment answer)] = some sk ∧
      NextText sk (oneByte 101) ∧
      ∃ sk', tcpProcess sk (oneByte 101) = .ok sk' ∧ Taken sk (oneByte 101) sk' := by
  obtain ⟨sk, hrun, hnext, hle, hopener⟩ : ∃ sk,
      run lifeStep tcpAllocSock [.connect 1 2 3 4 100, .sock (.segment answer)] = some sk ∧
        NextText sk (oneByte 101) ∧ sk.sndUna ≤ (oneByte 101).th.ackSeq ∧ sk.parent = none :=
    ⟨_, rfl, ⟨rfl, rfl, rfl, rfl, rfl, by decide, rfl, by decide, by decide, by decide⟩,
      by decide, rfl⟩
  exact ⟨sk, hrun, hnext, (in_order_taken .alloc hrun hopener hnext).1 hle⟩

/-- The byte that comes with the acknowledgement of nothing, after that of the SYN, is dropped. -/
theorem not_always_taken :
    ¬ ∀ (sk₀ sk : TcpSock) (es : List LifeEvent) (seg : Seg), Born sk₀ →
      run lifeStep sk₀ es = some sk → NextText sk seg →
      ∃ sk', tcpProcess sk seg = .ok sk' ∧ Taken sk seg sk' := by
  intro h
  obtain ⟨sk', hrun, htaken⟩ := h _ _ [.connect 1 2 3 4 100, .sock (.segment answer)] (oneByte 100)
    .alloc rfl ⟨rfl, rfl, rfl, rfl, rfl, by decide, rfl, by decide, by decide, by decide⟩
  obtain rfl := Except.ok.inj hrun
  exact absurd (htaken.advanced (by decide)) (by decide)

/-! ### Children -/

/-- A child of a listening sock has no window, and takes no text in any state. -/
theorem child_drops_text {sk₀ sk : TcpSock} {es : List LifeEvent} {seg : Seg} (hborn : Born sk₀)
    (hrun : run lifeStep sk₀ es = some sk) (hchild : sk.parent ≠ none)
    (hst : sk.state = .synReceived ∨ Synchronized sk.state) (hd : 0 < seg.dlen) :
    tcpProcess sk seg = .ok (if seg.th.rst then sk else tcpSendAck sk) := by
  have hw : sk.rcvWnd = 0 := (opening_life hborn hrun).2.child hchild
  have hf : tcpPacketFilter sk seg.th (tcpInitSegment seg) = false := by
    have hd' : (tcpInitSegment seg).dlen > 0 := hd
    unfold tcpPacketFilter
    simp [hd', hw]
  have hlater : sk.state ≠ .synSent ∧ sk.state ≠ .close ∧ sk.state ≠ .listen := by
    rcases hst with hst | hst
    · simp [hst]
    · exact ⟨(ne_of_synchronized hst).1.1, (ne_of_synchronized hst).2⟩
  rw [tcpProcess_filter hlater.2.1 hlater.2.2 hlater.1, hf]
  rfl

end ToyIP.Tcp.InOrder
