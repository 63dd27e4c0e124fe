import ToyIP.Tcp.Network
import ToyIP.Tcp.Teardown

/-! # TCP: the life of one sock

A sock from its creation on, under every order of calls, segments and timers. It is made by the
socket call, to be connected once or to listen, or by `tcp_handle_listen`. No segment is excluded,
and the listening sock that a child points to may be in any state. A step that the code cannot take,
because the sock is freed or because a `NULL` parent would be read, ends the life.

`SegmentRule` is what an invariant has to stand: it lists the parts of `tcp_process`, each with what
has been tested before it. -/

namespace ToyIP.Tcp.Life

open ToyIP.Lib.Run ToyIP.Tcp.Types ToyIP.Tcp.Timer ToyIP.Tcp.Output ToyIP.Tcp.Data ToyIP.Tcp.Input
  ToyIP.Tcp.Sock ToyIP.Tcp.Sides ToyIP.Tcp.Effects ToyIP.Tcp.Network ToyIP.Tcp.Teardown

/-- What happens to a sock: it is connected, its listener accepts it or changes its state, or one of
the events of an open sock. -/
inductive LifeEvent
  | connect (saddr daddr : UInt32) (sport dport : UInt16) (isn : UInt32)
  | accept
  | parent (state : TcpState)
  | sock (e : SockEvent)
  deriving DecidableEq, Repr

/-- `tcp_v4_connect` up to its `wait_sleep`, with `isn` the result of `tcp_generate_isn`. -/
def tcpV4Connect (sk : TcpSock) (saddr daddr : UInt32) (sport dport : UInt16) (isn : UInt32) :
    TcpSock :=
  tcpBeginConnect { sk with
    saddr := saddr, daddr := daddr, sport := sport, dport := dport
    link := some .connectingOrListening } isn

/-- One event. A sock that is not freed is in `CLOSE` only before it is connected. -/
def lifeStep (sk : TcpSock) (e : LifeEvent) : Option TcpSock :=
  if sk.freed then none
  else match e with
    | .connect saddr daddr sport dport isn =>
      if sk.state = .close then some (tcpV4Connect sk saddr daddr sport dport isn) else none
    | .accept => some { sk with accepted := false }
    | .parent state => some { sk with parent := sk.parent.map fun _ => state }
    | .sock e => sockStep sk e

/-- A sock at its creation. -/
inductive Born : TcpSock → Prop
  | alloc : Born tcpAllocSock
  | listening (sport : UInt16) : Born (listenSock sport)
  | child (listener : TcpSock) (seg : Seg) (isn : UInt32) (sk : TcpSock)
      (h : (tcpHandleListen listener seg isn).2 = some sk) : Born sk

/-- What a predicate has to stand to survive a segment in a state other than `SYN_SENT`. -/
structure SegmentRule (seg : Seg) (P : TcpSock → Prop) : Prop where
  ack : ∀ sk, P sk → P (tcpSendAck sk)
  reset : ∀ sk, P sk → P (tcpSendReset sk)
  free : ∀ sk, P sk → sk.state = .synReceived → P (tcpFreeSock { sk with link := none })
  accept : ∀ sk, P sk → sk.state = .synReceived → sk.parent = some .listen →
    sk.sndUna ≤ seg.th.ackSeq → seg.th.ackSeq ≤ sk.sndNxt → P (accept sk seg.th.ackSeq)
  take : ∀ sk, P sk → Synchronized sk.state → sk.sndUna < seg.th.ackSeq →
    seg.th.ackSeq ≤ sk.sndNxt →
    P (tcpCleanRetransmissionQueue { sk with sndUna := seg.th.ackSeq } seg.th.ackSeq)
  text : ∀ sk, P sk → sk.state = .established ∨ sk.state = .finWait1 ∨ sk.state = .finWait2 →
    P (tcpRecvNotify (tcpDataQueue sk seg.th (tcpInitSegment seg)))
  fin : ∀ sk, P sk → sk.state ≠ .close → sk.state ≠ .listen → sk.state ≠ .synSent →
    sk.state ≠ .synReceived → P (afterFin sk)

variable {P : TcpSock → Prop} {sk sk' : TcpSock} {seg : Seg}

/-! ### The rule for a segment -/

theorem SegmentRule.synCheck (h : SegmentRule seg P) (hsk : P sk) : P (synCheck sk) := by
  have hreset := h.reset sk hsk
  by_cases hst : (tcpSendReset sk).state = .synReceived ∧ (tcpSendReset sk).parent ≠ none
  · have hfree := h.free _ hreset hst.1
    unfold Input.synCheck
    rwa [if_pos hst]
  · unfold Input.synCheck
    rwa [if_neg hst]

theorem SegmentRule.ackCheck (h : SegmentRule seg P) (hsk : P sk) {b : Bool}
    (hrun : ackCheck sk seg.th = .ok (sk', b)) : P sk' := by
  by_cases hsync : Synchronized sk.state
  · rw [ackCheck_eq hsync] at hrun
    obtain ⟨rfl, -⟩ := Prod.mk.inj (Except.ok.inj hrun)
    unfold takeAck
    split_ifs with hack
    · exact h.take sk hsk hsync hack.1 hack.2
    · exact hsk
  cases hst : sk.state
  case synReceived =>
    unfold Input.ackCheck at hrun
    rw [hst] at hrun
    simp only at hrun
    split_ifs at hrun with hack
    · cases hp : sk.parent with
      | none => rw [hp] at hrun; simp at hrun
      | some st =>
        rw [hp] at hrun
        cases st
        case listen =>
          obtain ⟨rfl, -⟩ := Prod.mk.inj (Except.ok.inj hrun)
          have hacc := h.accept sk hsk hst hp hack.1 hack.2
          unfold Sides.accept at hacc
          rwa [hp] at hacc
        all_goals
          obtain ⟨rfl, -⟩ := Prod.mk.inj (Except.ok.inj hrun)
          exact hsk
    · obtain ⟨rfl, -⟩ := Prod.mk.inj (Except.ok.inj hrun)
      exact h.reset sk hsk
  case established | finWait1 | finWait2 | closeWait | closing | lastAck =>
    exact absurd (by rw [hst]; trivial) hsync
  all_goals
    unfold Input.ackCheck at hrun
    rw [hst] at hrun
    obtain ⟨rfl, -⟩ := Prod.mk.inj (Except.ok.inj hrun)
    exact hsk

/-- A segment that is processed further is not one for `SYN_RECEIVED` any more. -/
theorem state_ackCheck {th : TcpHdr} (hrun : ackCheck sk th = .ok (sk', true)) :
    sk'.state ≠ .synReceived := by
  cases hst : sk.state
  case synReceived =>
    unfold Input.ackCheck at hrun
    rw [hst] at hrun
    simp only at hrun
    split_ifs at hrun
    · split at hrun
      · simp at hrun
      · obtain ⟨rfl, -⟩ := Prod.mk.inj (Except.ok.inj hrun)
        exact TcpState.noConfusion
      · simp at hrun
    · simp at hrun
  case established | finWait1 | finWait2 | closeWait | closing | lastAck =>
    rw [ackCheck_eq (by rw [hst]; trivial)] at hrun
    obtain ⟨rfl, -⟩ := Prod.mk.inj (Except.ok.inj hrun)
    have hcore : (takeAck sk th).state = sk.state := congrArg Core.state (core_takeAck sk th)
    rw [hcore, hst]
    exact TcpState.noConfusion
  all_goals
    unfold Input.ackCheck at hrun
    rw [hst] at hrun
    obtain ⟨rfl, -⟩ := Prod.mk.inj (Except.ok.inj hrun)
    rw [hst]
    exact TcpState.noConfusion

theorem SegmentRule.segmentText (h : SegmentRule seg P) (hsk : P sk) :
    P (segmentText sk seg.th (tcpInitSegment seg)) := by
  unfold Input.segmentText
  split
  case h_4 => exact hsk
  all_goals
    split_ifs
    · exact h.text sk hsk (by simp [*])
    · exact hsk

theorem SegmentRule.finCheck (h : SegmentRule seg P) (hsk : P sk) (hrecv : sk.state ≠ .synReceived) :
    P (finCheck sk seg.th (tcpInitSegment seg)) := by
  by_cases hfin : seg.th.fin = true ∧ sk.rcvNxt - (tcpInitSegment seg).dlen =
      (tcpInitSegment seg).seq
  · rw [finCheck_of_fin hfin.1 hfin.2]
    split_ifs with hst
    · exact hsk
    · push Not at hst
      exact h.fin sk hsk hst.1 hst.2.1 hst.2.2 hrecv
  · unfold Input.finCheck
    rwa [if_neg hfin]

/-- Behind the window filter. -/
theorem SegmentRule.inWindow (h : SegmentRule seg P) (hsk : P sk)
    (hrun : processInWindow sk seg.th (tcpInitSegment seg) = .ok sk') : P sk' := by
  have hsyn : P (if seg.th.syn then Input.synCheck sk else sk) := by
    split_ifs
    · exact h.synCheck hsk
    · exact hsk
  unfold processInWindow at hrun
  generalize (if seg.th.syn then Input.synCheck sk else sk) = sk₁ at hsyn hrun
  simp only at hrun
  split_ifs at hrun
  · exact Except.ok.inj hrun ▸ hsyn
  · split at hrun
    · simp at hrun
    · rename_i sk₂ hack
      exact Except.ok.inj hrun ▸ h.ackCheck hsyn hack
    · rename_i sk₂ hack
      have hst : (Input.segmentText sk₂ seg.th (tcpInitSegment seg)).state = sk₂.state :=
        congrArg Core.state (core_segmentText _ _ _)
      exact Except.ok.inj hrun ▸ h.finCheck (h.segmentText (h.ackCheck hsyn hack))
        (hst ▸ state_ackCheck hack)

/-- **The rule for a segment.** -/
theorem SegmentRule.tcpProcess (h : SegmentRule seg P) (hsk : P sk) (hst : sk.state ≠ .synSent)
    (hrun : tcpProcess sk seg = .ok sk') : P sk' := by
  unfold Input.tcpProcess at hrun
  cases hs : sk.state <;> rw [hs] at hrun <;> simp only at hrun
  case close =>
    obtain rfl := Except.ok.inj hrun
    unfold tcpClosed
    split_ifs
    · exact hsk
    · exact h.reset sk hsk
  case listen =>
    obtain rfl := Except.ok.inj hrun
    rcases tcpHandleListen_cases sk seg 0 with heq | heq | ⟨-, heq, -⟩
    · rw [heq]; exact hsk
    · rw [heq]; exact h.reset sk hsk
    · rw [heq]; exact hsk
  case synSent => exact absurd hs hst
  all_goals
    split_ifs at hrun
    · exact h.inWindow hsk hrun
    all_goals
      obtain rfl := Except.ok.inj hrun
      first | exact hsk | exact h.ack sk hsk

/-! ### A segment in `SYN_SENT` -/

/-- The sock that a SYN has given its receive side. -/
def synAnswered (sk : TcpSock) (th : TcpHdr) : TcpSock := { sk with rcvNxt := th.seq + 1, irs := th.seq }

/-- `tcp_synsent` does nothing; or the SYN is taken, with an acceptable acknowledgement or without
one, and then the sock is established if more than `isn` is acknowledged. -/
theorem tcpSynsent_cases (sk : TcpSock) (th : TcpHdr) : tcpSynsent sk th = sk ∨
    ∃ sk₁, (sk₁ = synAnswered sk th ∨ synsentAckOk sk th = true ∧
        sk₁ = tcpCleanRetransmissionQueue { synAnswered sk th with sndUna := th.ackSeq } th.ackSeq) ∧
      (sk₁.sndUna > sk₁.isn ∧ tcpSynsent sk th =
          { tcpSendAck { tcpSetState sk₁ .established with sndUna := sk₁.sndNxt } with
            sleeping := false } ∨
        ¬ sk₁.sndUna > sk₁.isn ∧ tcpSynsent sk th =
          tcpSendSynack { tcpSetState sk₁ .synReceived with sndUna := sk₁.isn }) := by
  unfold tcpSynsent
  by_cases hack : (th.ack && !synsentAckOk sk th) = true
  · rw [if_pos hack]; exact Or.inl rfl
  rw [if_neg hack]
  by_cases hrst : th.rst = true
  · rw [if_pos hrst]; exact Or.inl rfl
  rw [if_neg hrst]
  by_cases hsyn : (!th.syn) = true
  · rw [if_pos hsyn]; exact Or.inl rfl
  rw [if_neg hsyn]
  right
  generalize hsk₁ : (if th.ack = true then
      tcpCleanRetransmissionQueue { synAnswered sk th with sndUna := th.ackSeq } th.ackSeq
    else synAnswered sk th) = sk₁
  refine ⟨sk₁, ?_, ?_⟩
  · rw [← hsk₁]
    split_ifs with ha
    · refine Or.inr ⟨?_, rfl⟩
      simpa [ha] using hack
    · exact Or.inl rfl
  · unfold synAnswered at hsk₁
    simp only at hsk₁ ⊢
    rw [hsk₁]
    by_cases hgt : sk₁.sndUna > sk₁.isn
    · rw [if_pos hgt]; exact Or.inl ⟨hgt, rfl⟩
    · rw [if_neg hgt]; exact Or.inr ⟨hgt, rfl⟩

/-- The segment `tcp_send_synack` hands to `ip_output`. -/
def synackSeg (sk : TcpSock) : Seg :=
  { saddr := sk.saddr, daddr := sk.daddr
    th := fillHeader sk { syn := true, ack := true } sk.sndNxt }

theorem tcpSendSynack_eq (h : sk.state = .synReceived) :
    tcpSendSynack sk = { sk with out := sk.out ++ [synackSeg sk] } := by
  unfold tcpSendSynack
  rw [if_pos h]
  rfl

/-- Of what tells an open sock from a freed one only the state changes. -/
theorem core_tcpSynsent (sk : TcpSock) (th : TcpHdr) :
    core (tcpSynsent sk th) = { core sk with state := (tcpSynsent sk th).state } := by
  rcases tcpSynsent_cases sk th with heq | ⟨sk₁, hsk₁, hend⟩
  · rw [heq]
    rfl
  have hcore : core sk₁ = core sk := by
    rcases hsk₁ with rfl | ⟨-, rfl⟩
    · rfl
    · obtain ⟨timers, retransmit, heq⟩ :=
        tcpCleanRetransmissionQueue_eq { synAnswered sk th with sndUna := th.ackSeq } th.ackSeq
      rw [heq]
      rfl
  have hstate : ∀ st, { core sk₁ with state := st } = { core sk with state := st } := by
    rw [hcore]
    exact fun _ => rfl
  rcases hend with ⟨-, heq⟩ | ⟨-, heq⟩ <;> rw [heq]
  · rw [tcpSendAck_eq]
    exact hstate .established
  · rw [tcpSendSynack_eq rfl]
    exact hstate .synReceived

/-! ### One event -/

/-- What one event can do. -/
inductive LifeStep (sk : TcpSock) : TcpSock → Prop
  | connect (hst : sk.state = .close) (saddr daddr : UInt32) (sport dport : UInt16) (isn : UInt32) :
    LifeStep sk (tcpV4Connect sk saddr daddr sport dport isn)
  | accept : LifeStep sk { sk with accepted := false }
  | parent (st : TcpState) : LifeStep sk { sk with parent := sk.parent.map fun _ => st }
  | write (buf : List UInt8) : LifeStep sk (tcpWrite sk buf).1
  | close : LifeStep sk (tcpClose sk).1
  | read (len : ℕ) : LifeStep sk (tcpReadStart sk len).1
  | receive (len rlen : ℕ) : LifeStep sk (tcpReceiveRound sk len rlen).1
  | timer (i : ℕ) (sk' : TcpSock) (h : fireTimer sk i = some sk') : LifeStep sk sk'
  | segment (seg : Seg) (sk' : TcpSock) (h : Input.tcpProcess sk seg = .ok sk') : LifeStep sk sk'

theorem lifeStep_some {e : LifeEvent} (h : lifeStep sk e = some sk') :
    sk.freed = false ∧ LifeStep sk sk' := by
  unfold lifeStep at h
  by_cases hf : sk.freed = true
  · rw [if_pos hf] at h
    simp at h
  rw [if_neg hf] at h
  have hf : sk.freed = false := Bool.eq_false_iff.mpr hf
  refine ⟨hf, ?_⟩
  cases e with
  | connect saddr daddr sport dport isn =>
    simp only at h
    split_ifs at h with hst
    exact Option.some.inj h ▸ .connect hst saddr daddr sport dport isn
  | accept => exact Option.some.inj h ▸ .accept
  | parent st => exact Option.some.inj h ▸ .parent st
  | sock e =>
    simp only [sockStep, hf, Bool.false_eq_true, if_false] at h
    cases e with
    | write buf => exact Option.some.inj h ▸ .write buf
    | close => exact Option.some.inj h ▸ .close
    | read len => exact Option.some.inj h ▸ .read len
    | receive len rlen => exact Option.some.inj h ▸ .receive len rlen
    | timer i => exact .timer i sk' h
    | segment seg =>
      simp only at h
      split at h
      · rename_i sk₁ heq
        exact .segment seg sk' (Option.some.inj h ▸ heq)
      · simp at h

/-- What every step keeps, unless it frees the sock, holds all life long. -/
theorem live_run {sk₀ : TcpSock} {es : List LifeEvent}
    (hstep : ∀ sk sk', P sk → LifeStep sk sk' → sk'.freed = true ∨ P sk') (h₀ : P sk₀)
    (hrun : run lifeStep sk₀ es = some sk) : sk.freed = true ∨ P sk := by
  refine run_inv (P := fun sk => sk.freed = true ∨ P sk) (C := fun _ _ => True)
    (fun s e s' hs _ he => ?_) (.inr h₀) (Along.of_forall fun _ _ _ => trivial) hrun
  obtain ⟨hf, he⟩ := lifeStep_some he
  exact hstep s s' (hs.resolve_left (by rw [hf]; simp)) he

end ToyIP.Tcp.Life
