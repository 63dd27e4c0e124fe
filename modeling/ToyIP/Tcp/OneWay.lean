import ToyIP.Tcp.SynAck
import ToyIP.Tcp.Turn

/-! # TCP: a client that has written

The window of a child is closed for all its life, as `tcp_listen_child_sock` leaves `rcv_wnd` at 0.
So the child drops what the client writes. But `tcp_packet_filter` then also drops every segment
that does not start at `rcv_nxt`, and the acknowledgements of a client that has written start behind
its text. The child hears nothing of it any more: what it sends from now on is never acknowledged
(`write_deafens`), and since only the head of its write queue leaves again, what the network loses
behind the head is lost (`loss_is_final`). -/

namespace ToyIP.Tcp.OneWay

open ToyIP.Lib ToyIP.Lib.Run ToyIP.Tcp.Types ToyIP.Tcp.Timer ToyIP.Tcp.Output ToyIP.Tcp.Data
  ToyIP.Tcp.Input ToyIP.Tcp.Sock ToyIP.Tcp.Sides ToyIP.Tcp.Effects ToyIP.Tcp.Network ToyIP.Tcp.Life
  ToyIP.Tcp.History ToyIP.Tcp.Flows ToyIP.Tcp.Agreement ToyIP.Tcp.Turn

variable {X X' c c' sk sk' : TcpSock} {seg : Seg} {P : Seg → Prop} {r u v B iss : UInt32}

/-! ### What leaves -/

/-- From `sk₀` to `sk` nothing was sent but at `snd_nxt`. -/
structure AtNxt (sk₀ sk : TcpSock) : Prop where
  nxt : sk.sndNxt = sk₀.sndNxt
  out : Emits (fun s => s.th.seq = sk₀.sndNxt) sk₀ sk

theorem AtNxt.refl (sk : TcpSock) : AtNxt sk sk := ⟨rfl, Emits.refl sk⟩

theorem AtNxt.same (h : AtNxt X sk) (hnxt : sk'.sndNxt = sk.sndNxt) (hout : sk'.out = sk.out) :
    AtNxt X sk' := ⟨hnxt.trans h.nxt, h.out.trans (Emits.of_out hout)⟩

/-- One segment leaves at `snd_nxt`. -/
theorem AtNxt.more (h : AtNxt X sk) (hnxt : sk'.sndNxt = sk.sndNxt)
    (hout : sk'.out = sk.out ++ [seg]) (hseq : seg.th.seq = sk.sndNxt) : AtNxt X sk' := by
  refine ⟨hnxt.trans h.nxt, h.out.trans ⟨[seg], hout, fun s hs => ?_⟩⟩
  obtain rfl := List.mem_singleton.mp hs
  exact hseq.trans h.nxt

theorem AtNxt.tcpSendAck (h : AtNxt X sk) : AtNxt X (tcpSendAck sk) := by
  rw [tcpSendAck_eq]
  split_ifs
  · exact h.same rfl (List.append_nil _)
  · exact h.more rfl rfl rfl

theorem AtNxt.tcpAckData (h : AtNxt X sk) (th : TcpHdr) (skb : Skb) :
    AtNxt X (tcpAckData sk th skb) := by
  have h' : AtNxt X { sk with delacks := 0 } := h.same rfl rfl
  unfold Data.tcpAckData
  split_ifs
  · exact h'.tcpSendAck
  · exact h.same rfl rfl

theorem AtNxt.tcpDataQueue (h : AtNxt X sk) (th : TcpHdr) (skb : Skb) :
    AtNxt X (tcpDataQueue sk th skb) := by
  unfold Data.tcpDataQueue
  split_ifs
  · exact h
  · have h' : AtNxt X (tcpStopDelackTimer (tcpConsumeOfoQueue { sk with
        rcvNxt := sk.rcvNxt + skb.dlen
        receiveQueue := sk.receiveQueue ++ [{ skb with refcnt := skb.refcnt + 1 }] })) :=
      h.same rfl rfl
    exact h'.tcpAckData th skb
  · have h' : AtNxt X { sk with ofoQueue := tcpDataInsertOrdered sk.ofoQueue skb } :=
      h.same rfl rfl
    exact h'.tcpSendAck

theorem AtNxt.afterFin (h : AtNxt X sk) : AtNxt X (afterFin sk) := by
  have h' : AtNxt X { sk with rcvNxt := sk.rcvNxt + 1, flagFin := true } := h.same rfl rfl
  have htake : AtNxt X (takeFin sk) := h'.tcpSendAck.same rfl rfl
  unfold Sides.afterFin
  split <;> exact htake.same rfl rfl

theorem atNxt_segmentRule (seg : Seg) : SegmentRule seg (AtNxt X) where
  ack _ h := h.tcpSendAck
  reset _ h := h.more rfl rfl rfl
  free _ h _ := h.same rfl rfl
  accept _ h _ _ _ _ := h.same rfl rfl
  take sk h _ _ _ := by
    obtain ⟨timers, retransmit, heq⟩ :=
      tcpCleanRetransmissionQueue_eq { sk with sndUna := seg.th.ackSeq } seg.th.ackSeq
    rw [heq]
    exact h.same rfl rfl
  text _ h _ := (h.tcpDataQueue seg.th (tcpInitSegment seg)).same rfl rfl
  fin _ h _ _ _ _ := h.afterFin

/-- A segment leaves at `snd_nxt` or behind it; or it is the head of the write queue, again. -/
def Leaves (X : TcpSock) (s : Seg) : Prop :=
  X.sndNxt ≤ s.th.seq ∨
    ∃ skb q, X.writeQueue = skb :: q ∧ s.dlen = skb.dlen ∧ s.th.seq = X.sndUna

/-- What leaves in one step. -/
structure LeavesOn (X X' : TcpSock) : Prop where
  nxt : X.sndNxt ≤ X'.sndNxt
  out : Emits (Leaves X) X X'

theorem AtNxt.leavesOn (h : AtNxt X X') : LeavesOn X X' :=
  ⟨h.nxt ▸ UInt32.le_refl _, h.out.mono fun s hs =>
    have hs : s.th.seq = X.sndNxt := hs
    .inl (hs ▸ UInt32.le_refl _)⟩

theorem leavesOn_of_out (hnxt : X'.sndNxt = X.sndNxt) (hout : X'.out = X.out) : LeavesOn X X' :=
  ((AtNxt.refl X).same hnxt hout).leavesOn

/-- A buffer leaves at `snd_nxt`. -/
theorem LeavesOn.tcpQueueTransmitSkb (h : LeavesOn X sk) (skb : Skb)
    (hw : sk.sndNxt.toNat + skb.dlen.toNat < 4294967296) :
    LeavesOn X (tcpQueueTransmitSkb sk skb) := by
  obtain ⟨timers, retransmit, heq⟩ := tcpQueueTransmitSkb_eq sk skb
  rw [heq]
  refine ⟨UInt32.le_trans h.nxt ?_, h.out.trans ⟨[sentSeg sk skb sk.sndNxt], rfl, fun s hs => ?_⟩⟩
  · rw [Word32.le_iff, Word32.toNat_add_of_lt hw]
    exact Nat.le_add_right _ _
  · rw [List.mem_singleton.mp hs]
    exact .inl h.nxt

theorem leavesOn_tcpWrite (hmss : 0 < X.smss) {buf : List UInt8}
    (hw : X.sndNxt.toNat + buf.length < 4294967296) : LeavesOn X (tcpWrite X buf).1 := by
  by_cases hopen : X.state = .established ∨ X.state = .closeWait
  swap
  · rw [not_or] at hopen
    rw [tcpWrite_not_open hopen.1 hopen.2]
    exact leavesOn_of_out rfl rfl
  rw [tcpWrite_open hopen]
  refine (tcpSend_ind (P := fun sk rest =>
    LeavesOn X sk ∧ sk.sndNxt.toNat + rest.length < 4294967296) ?_ hmss
    ⟨leavesOn_of_out rfl rfl, hw⟩).1
  rintro sk chunk rest psh - hlen ⟨h, hroom⟩
  have hd : (dataSkb chunk psh).dlen.toNat = chunk.length := Word32.toNat_ofNat (by omega)
  rw [List.length_append] at hroom
  have hroom' : sk.sndNxt.toNat + (dataSkb chunk psh).dlen.toNat < 4294967296 := by omega
  refine ⟨h.tcpQueueTransmitSkb _ hroom', ?_⟩
  obtain ⟨timers, retransmit, heq⟩ := tcpQueueTransmitSkb_eq sk (dataSkb chunk psh)
  rw [heq]
  show (sk.sndNxt + (dataSkb chunk psh).dlen).toNat + rest.length < 4294967296
  rw [Word32.toNat_add_of_lt hroom', hd]
  omega

theorem leavesOn_tcpClose (hw : X.sndNxt.toNat + 1 < 4294967296) : LeavesOn X (tcpClose X).1 := by
  have hskb := (leavesOn_of_out rfl rfl : LeavesOn X X).tcpQueueTransmitSkb
    { tcpAllocSkb 0 with th := { fin := true, ack := true } } (by
      show X.sndNxt.toNat + 0 < 4294967296
      omega)
  have hfin : LeavesOn X (tcpQueueFin X) := by
    refine ⟨?_, hskb.out.trans (Emits.of_out rfl)⟩
    obtain ⟨timers, retransmit, heq⟩ :=
      tcpQueueTransmitSkb_eq X { tcpAllocSkb 0 with th := { fin := true, ack := true } }
    unfold tcpQueueFin
    rw [heq]
    show X.sndNxt ≤ X.sndNxt + 0 + 1
    rw [UInt32.add_zero, Word32.le_iff, Word32.toNat_add_of_lt hw]
    exact Nat.le_add_right _ _
  unfold Sock.tcpClose
  split
  case h_8 | h_9 | h_10 | h_11 => exact ⟨hfin.nxt, hfin.out.trans (Emits.of_out rfl)⟩
  all_goals exact leavesOn_of_out rfl rfl

/-- The head of the write queue leaves again. -/
theorem leavesOn_again {skb : Skb} {q : List Skb} (hq : X.writeQueue = skb :: q)
    (hnxt : X'.sndNxt = X.sndNxt) (hout : X'.out = X.out ++ [sentSeg X skb X.sndUna]) :
    LeavesOn X X' := by
  refine ⟨hnxt ▸ UInt32.le_refl _, [sentSeg X skb X.sndUna], hout, fun s hs => ?_⟩
  rw [List.mem_singleton.mp hs]
  exact .inr ⟨skb, q, hq, rfl, rfl⟩

theorem leavesOn_tcpConnectRto (X : TcpSock) : LeavesOn X (tcpConnectRto X) := by
  obtain ⟨timers, hr⟩ := tcpReleaseRetransmissionTimer_eq X
  by_cases hst : X.state = .established
  · rw [tcpConnectRto_established hst, hr]
    exact leavesOn_of_out rfl rfl
  by_cases hb : X.backoff > 3
  · rw [tcpConnectRto_free hst hb]
    exact leavesOn_of_out rfl rfl
  cases hq : X.writeQueue with
  | nil =>
    rw [tcpConnectRto_nil hst hb hq, hr]
    exact leavesOn_of_out rfl rfl
  | cons skb q =>
    obtain ⟨timers', retransmit, heq⟩ := tcpConnectRto_resend hst hb hq
    rw [heq]
    exact leavesOn_again hq rfl rfl

theorem leavesOn_tcpRetransmissionTimeout (X : TcpSock) :
    LeavesOn X (tcpRetransmissionTimeout X) := by
  cases hq : X.writeQueue with
  | nil =>
    obtain ⟨sleeping, timers, heq⟩ := tcpRetransmissionTimeout_nil hq
    rw [heq]
    exact leavesOn_of_out rfl rfl
  | cons skb q =>
    obtain ⟨timers, retransmit, heq⟩ := tcpRetransmissionTimeout_cons hq
    rw [heq]
    exact leavesOn_again hq rfl rfl

theorem leavesOn_fireTimer {i : ℕ} (h : fireTimer X i = some X') : LeavesOn X X' := by
  obtain ⟨t, -, -, rfl⟩ := fireTimer_runs h
  have hrun : ∀ sk : TcpSock, LeavesOn sk (runHandler sk t.handler) := by
    intro sk
    cases t.handler with
    | tcpConnectRto => exact leavesOn_tcpConnectRto sk
    | tcpRetransmissionTimeout => exact leavesOn_tcpRetransmissionTimeout sk
    | tcpSendDelack =>
      have h' : AtNxt sk (tcpReleaseDelackTimer { sk with delacks := 0 }) :=
        (AtNxt.refl sk).same rfl rfl
      exact h'.tcpSendAck.leavesOn
    | tcpLinger => exact leavesOn_of_out rfl rfl
  have h' := hrun { X with timers := X.timers.modify i fun t => { t with cancelled := true } }
  exact ⟨h'.nxt, h'.out⟩

/-- Whatever an end does. -/
theorem leavesOn_step (hmss : 0 < X.smss) (hst : X.state ≠ .synSent) (hstep : EndStep P X X') :
    LeavesOn X X' := by
  cases hstep with
  | write buf hw => exact leavesOn_tcpWrite hmss hw
  | close hw => exact leavesOn_tcpClose hw
  | timer i h => exact leavesOn_fireTimer h
  | segment seg _ h => exact ((atNxt_segmentRule seg).tcpProcess (.refl X) hst h).leavesOn
  | reader => exact leavesOn_of_out rfl rfl

end ToyIP.Tcp.OneWay
