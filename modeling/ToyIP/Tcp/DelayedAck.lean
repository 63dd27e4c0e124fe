import ToyIP.Tcp.RetransmitTimer

/-! # TCP: received data is acknowledged or about to be

Every segment a sock sends acknowledges `rcv_nxt`, so what is left to show is that each move of
`rcv_nxt` is followed, in the same step, by a segment or by the timer of a delayed acknowledgement,
and that this timer is only called off where a segment takes its place. -/

namespace ToyIP.Tcp.DelayedAck

open ToyIP.Lib ToyIP.Lib.Run ToyIP.Tcp.Types ToyIP.Tcp.Timer ToyIP.Tcp.Output ToyIP.Tcp.Data
  ToyIP.Tcp.Input ToyIP.Tcp.Sock ToyIP.Tcp.Sides ToyIP.Tcp.Effects ToyIP.Tcp.Network
  ToyIP.Tcp.Teardown ToyIP.Tcp.Life ToyIP.Tcp.Clock ToyIP.Tcp.RetransmitTimer

/-- The states from the answer to the SYN on. -/
def Past (s : TcpState) : Prop := s ≠ .close ∧ s ≠ .listen ∧ s ≠ .synSent

/-- The acknowledgement number of the last segment handed to `ip_output`. -/
def lastAck (sk : TcpSock) : Option UInt32 := sk.out.getLast?.map (·.th.ackSeq)

/-- What was received is acknowledged, or a delayed acknowledgement is due; and at most one is. -/
structure AckedOrDue (sk : TcpSock) : Prop where
  ack : lastAck sk = some sk.rcvNxt ∨ ∃ i t, sk.delack = some i ∧ sk.timers[i]? = some t ∧
    t.cancelled = false ∧ t.handler = .tcpSendDelack
  one : ∀ (i j : ℕ) (t u : Timer), sk.timers[i]? = some t → sk.timers[j]? = some u →
    t.cancelled = false ∧ t.handler = .tcpSendDelack →
    u.cancelled = false ∧ u.handler = .tcpSendDelack → i = j

/-- The part of it that is about `rcv_nxt`. -/
def Acked (sk : TcpSock) : Prop := lastAck sk = some sk.rcvNxt ∨ sk.delack ≠ none

variable {sk sk' : TcpSock} {seg : Seg}

theorem ackedOrDue_of_acked (h : Armed sk) (hack : Acked sk) : AckedOrDue sk where
  ack := by
    refine hack.imp_right fun hd => ?_
    obtain ⟨i, hi⟩ := Option.ne_none_iff_exists'.mp hd
    obtain ⟨t, ht, hc, hh⟩ := (h.clocked.delack i).mp hi
    exact ⟨i, t, hi, ht, hc, hh⟩
  one i j t u ht hu hpt hpu := by
    have hi := (h.clocked.delack i).mpr ⟨t, ht, hpt⟩
    have hj := (h.clocked.delack j).mpr ⟨u, hu, hpu⟩
    exact Option.some.inj (hi.symm.trans hj)

/-- A segment that acknowledges `rcv_nxt` has just left. -/
theorem acked_of_out {l : List Seg} {s : Seg} (hout : sk.out = l ++ [s])
    (hs : s.th.ackSeq = sk.rcvNxt) : Acked sk := by
  left
  unfold lastAck
  rw [hout, List.getLast?_append_of_ne_nil _ (by simp)]
  simp [hs]

theorem Acked.congr (h : Acked sk) (hout : sk'.out = sk.out) (hnxt : sk'.rcvNxt = sk.rcvNxt)
    (hd : sk'.delack = sk.delack) : Acked sk' := by
  unfold Acked lastAck at h ⊢
  rwa [hout, hnxt, hd]

/-! ### Segments that leave -/

theorem acked_tcpSendAck (h : sk.state ≠ .close) : Acked (tcpSendAck sk) := by
  rw [tcpSendAck_eq, if_neg h]
  exact acked_of_out rfl rfl

theorem acked_tcpSendReset (sk : TcpSock) : Acked (tcpSendReset sk) := acked_of_out rfl rfl

theorem acked_tcpQueueTransmitSkb (sk : TcpSock) (skb : Skb) :
    Acked (tcpQueueTransmitSkb sk skb) := by
  obtain ⟨timers, retransmit, heq⟩ := tcpQueueTransmitSkb_eq sk skb
  rw [heq]
  exact acked_of_out rfl rfl

theorem Acked.tcpWrite (h : Acked sk) (hmss : 0 < sk.smss) (buf : List UInt8) :
    Acked (tcpWrite sk buf).1 := by
  by_cases hopen : sk.state = .established ∨ sk.state = .closeWait
  · rw [tcpWrite_open hopen]
    exact tcpSend_ind (P := fun s _ => Acked s)
      (fun s _ _ _ _ _ _ => acked_tcpQueueTransmitSkb s _) hmss h
  · rw [not_or] at hopen
    rw [tcpWrite_not_open hopen.1 hopen.2]
    exact h

theorem acked_tcpSetState_tcpQueueFin (st : TcpState) : Acked (tcpSetState (tcpQueueFin sk) st) :=
  Acked.congr (acked_tcpQueueTransmitSkb sk
    { tcpAllocSkb 0 with th := { fin := true, ack := true } }) rfl rfl rfl

theorem Acked.tcpClose (h : Past sk.state → Acked sk) :
    Past (tcpClose sk).1.state → Acked (tcpClose sk).1 := by
  intro hpast
  cases hst : sk.state
  case listen =>
    unfold Sock.tcpClose at hpast
    rw [hst] at hpast
    exact absurd rfl hpast.1
  case close =>
    rw [tcpClose_close hst] at hpast
    exact absurd hst hpast.1
  case synSent | synReceived | established =>
    rw [tcpClose_open (by rw [hst]; simp)]
    exact acked_tcpSetState_tcpQueueFin _
  case closeWait =>
    rw [tcpClose_closeWait hst]
    exact acked_tcpSetState_tcpQueueFin _
  all_goals
    rw [tcpClose_closing (by rw [hst]; simp)]
    refine Acked.congr (h ?_) rfl rfl rfl
    rw [hst]
    exact ⟨by simp, by simp, by simp⟩

/-! ### Segments that come in -/

theorem acked_tcpAckData (hst : sk.state ≠ .close) (th : TcpHdr) (skb : Skb) :
    Acked (tcpAckData sk th skb) := by
  unfold tcpAckData
  split_ifs
  · exact acked_tcpSendAck hst
  · exact Or.inr (Option.some_ne_none _)

theorem Acked.tcpDataQueue (h : Acked sk) (hst : sk.state ≠ .close) (th : TcpHdr) (skb : Skb) :
    Acked (tcpDataQueue sk th skb) := by
  unfold Data.tcpDataQueue
  split_ifs
  · exact h
  · refine acked_tcpAckData ?_ th skb
    exact hst
  · exact acked_tcpSendAck hst

theorem acked_afterFin (hst : sk.state ≠ .close) (hfw : sk.state ≠ .finWait2) :
    Acked (afterFin sk) := by
  have htake : Acked (takeFin sk) := by
    refine Acked.congr (acked_tcpSendAck ?_) rfl rfl rfl
    exact hst
  unfold afterFin
  cases hs : sk.state
  case finWait2 => exact absurd hs hfw
  case synReceived | established | finWait1 => exact htake.congr rfl rfl rfl
  all_goals exact htake

theorem finState_ne_finWait2 {st : TcpState} (h : st ≠ .finWait2) : finState st ≠ .finWait2 := by
  cases st <;> simp_all [finState]

/-- A segment for a sock that is not in `SYN_SENT`. -/
theorem acked_segmentRule (seg : Seg) : SegmentRule seg fun sk => sk.freed = true ∨
    sk.state ≠ .synSent ∧ sk.state ≠ .finWait2 ∧ (Past sk.state → Acked sk) where
  ack sk h := by
    have hst : (tcpSendAck sk).state = sk.state := congrArg Core.state (core_tcpSendAck sk)
    refine h.imp (fun hf => ?_) fun ⟨h₁, h₂, _⟩ => ⟨hst ▸ h₁, hst ▸ h₂, fun hpast => ?_⟩
    · exact (congrArg Core.freed (core_tcpSendAck sk)).trans hf
    · rw [hst] at hpast
      exact acked_tcpSendAck hpast.1
  reset sk h := h.imp id fun ⟨h₁, h₂, _⟩ => ⟨h₁, h₂, fun _ => acked_tcpSendReset sk⟩
  free sk _ _ := Or.inl rfl
  accept sk h hst _ _ _ := h.imp id fun ⟨_, _, hack⟩ =>
    ⟨TcpState.noConfusion, TcpState.noConfusion, fun _ =>
      (hack (by rw [hst]; exact ⟨by simp, by simp, by simp⟩)).congr rfl rfl rfl⟩
  take sk h hsync _ _ := by
    obtain ⟨timers, retransmit, heq⟩ :=
      tcpCleanRetransmissionQueue_eq { sk with sndUna := seg.th.ackSeq } seg.th.ackSeq
    rw [heq]
    exact h.imp id fun ⟨h₁, h₂, hack⟩ => ⟨h₁, h₂, fun hpast => (hack hpast).congr rfl rfl rfl⟩
  text sk h hopen := by
    have hcore := core_tcpDataQueue sk seg.th (tcpInitSegment seg)
    have hst : (tcpDataQueue sk seg.th (tcpInitSegment seg)).state = sk.state :=
      congrArg Core.state hcore
    refine h.imp (fun hf => ?_) fun ⟨h₁, h₂, hack⟩ => ⟨?_, ?_, fun hpast => ?_⟩
    · exact (congrArg Core.freed hcore).trans hf
    · exact hst ▸ h₁
    · exact hst ▸ h₂
    · have hpast : Past (tcpDataQueue sk seg.th (tcpInitSegment seg)).state := hpast
      rw [hst] at hpast
      exact ((hack hpast).tcpDataQueue hpast.1 _ _).congr rfl rfl rfl
  fin sk h hclose _ _ hrecv := by
    have hcore := core_afterFin sk
    have hst : (afterFin sk).state = finState sk.state := congrArg Core.state hcore
    refine h.imp (fun hf => ?_) fun ⟨h₁, h₂, hack⟩ => ⟨?_, ?_, fun _ => acked_afterFin hclose h₂⟩
    · exact (congrArg Core.freed hcore).trans hf
    · rw [hst]
      cases hs : sk.state <;> simp [finState]
      exact h₁ hs
    · rw [hst]
      exact finState_ne_finWait2 h₂

theorem acked_tcpSynsent (hst : sk.state = .synSent) (th : TcpHdr) :
    Past (tcpSynsent sk th).state → Acked (tcpSynsent sk th) := by
  intro hpast
  rcases tcpSynsent_cases sk th with heq | ⟨sk₁, -, ⟨-, heq⟩ | ⟨-, heq⟩⟩ <;> rw [heq] at hpast ⊢
  · exact absurd hst hpast.2.2
  · refine Acked.congr (acked_tcpSendAck ?_) rfl rfl rfl
    exact TcpState.noConfusion
  · rw [tcpSendSynack_eq rfl]
    exact acked_of_out rfl rfl

theorem Acked.tcpProcess (harm : Armed sk) (h : Past sk.state → Acked sk)
    (hrun : tcpProcess sk seg = .ok sk') :
    sk'.freed = true ∨ (Past sk'.state → Acked sk') := by
  by_cases hst : sk.state = .synSent
  · rw [tcpProcess_synSent hst] at hrun
    exact Or.inr (Except.ok.inj hrun ▸ acked_tcpSynsent hst seg.th)
  · exact ((acked_segmentRule seg).tcpProcess (Or.inr ⟨hst, harm.state.1, h⟩) hst hrun).imp_right
      fun h => h.2.2

/-! ### Timers -/

theorem Acked.releaseExpired (h : Acked sk) (i : ℕ) :
    Acked (tcpReleaseRetransmissionTimer (expired sk i)) := by
  obtain ⟨timers, heq⟩ := tcpReleaseRetransmissionTimer_eq (expired sk i)
  rw [heq]
  exact h.congr rfl rfl rfl

/-- The timer of the delayed acknowledgement sends it, the others send the head of the queue. -/
theorem Acked.fireTimer (harm : Armed sk) (h : Past sk.state → Acked sk) {i : ℕ}
    (hfire : fireTimer sk i = some sk') :
    sk'.freed = true ∨ (Past sk'.state → Acked sk') := by
  rcases harm.clocked.fireTimer hfire with ⟨hi, -, rfl⟩ | ⟨hi, rfl⟩ | ⟨hi, rfl⟩
  · by_cases hst : (expired sk i).state = .established
    · right
      intro hpast
      rw [tcpConnectRto_established hst] at hpast ⊢
      exact (h hpast).releaseExpired i
    by_cases hb : (expired sk i).backoff > 3
    · rw [tcpConnectRto_free hst hb]
      exact Or.inl rfl
    right
    intro hpast
    cases hq : (expired sk i).writeQueue with
    | nil =>
      rw [tcpConnectRto_nil hst hb hq] at hpast ⊢
      exact (h hpast).releaseExpired i
    | cons skb q =>
      obtain ⟨timers, retransmit, heq⟩ := tcpConnectRto_resend hst hb hq
      rw [heq]
      exact acked_of_out rfl rfl
  · right
    intro hpast
    cases hq : (expired sk i).writeQueue with
    | nil =>
      obtain ⟨sleeping, timers, heq⟩ := tcpRetransmissionTimeout_nil hq
      rw [heq] at hpast ⊢
      exact (h hpast).congr rfl rfl rfl
    | cons skb q =>
      obtain ⟨timers, retransmit, heq⟩ := tcpRetransmissionTimeout_cons hq
      rw [heq]
      exact acked_of_out rfl rfl
  · right
    intro hpast
    have hst : (tcpSendDelack (expired sk i)).state = sk.state :=
      congrArg Core.state (core_tcpSendAck _)
    rw [hst] at hpast
    refine acked_tcpSendAck ?_
    exact hpast.1

/-! ### Runs -/

theorem acked_of_born (h : Born sk) : Past sk.state → Acked sk := by
  intro hpast
  cases h with
  | alloc => exact absurd rfl hpast.1
  | listening sport => exact absurd rfl hpast.2.1
  | child listener seg isn sk h =>
    unfold tcpHandleListen at h
    split_ifs at h
    obtain rfl := Option.some.inj h
    rw [tcpSendSynack_eq rfl]
    exact acked_of_out rfl rfl

/-- What one event preserves. -/
theorem Acked.step (harm : Armed sk) (h : Past sk.state → Acked sk) (hstep : LifeStep sk sk') :
    sk'.freed = true ∨ (Past sk'.state → Acked sk') := by
  cases hstep with
  | connect hst saddr daddr sport dport isn =>
    right
    intro hpast
    unfold tcpV4Connect tcpBeginConnect tcpSendSyn
    rw [if_pos (Or.inr (Or.inl hst))]
    exact (acked_tcpQueueTransmitSkb _ _).congr rfl rfl rfl
  | accept => exact Or.inr fun hpast => (h hpast).congr rfl rfl rfl
  | parent st => exact Or.inr fun hpast => (h hpast).congr rfl rfl rfl
  | write buf =>
    right
    intro hpast
    have hst : (Sock.tcpWrite sk buf).1.state = sk.state :=
      congrArg Core.state (core_tcpWrite harm.mss buf)
    exact (h (hst ▸ hpast)).tcpWrite harm.mss buf
  | close => exact Or.inr (Acked.tcpClose h)
  | read len =>
    right
    unfold tcpReadStart
    split
    case h_7 => split_ifs <;> exact fun hpast => (h hpast).congr rfl rfl rfl
    all_goals exact h
  | receive len rlen =>
    right
    unfold tcpReceiveRound tcpDataDequeue
    simp only
    split_ifs <;> exact fun hpast => (h hpast).congr rfl rfl rfl
  | timer i sk' hfire => exact Acked.fireTimer harm h hfire
  | segment seg sk' hrun => exact Acked.tcpProcess harm h hrun

/-- **In every state of a life past `SYN_SENT` what was received is acknowledged, or a delayed
acknowledgement is due.** -/
theorem ackedOrDue_life {sk₀ : TcpSock} {es : List LifeEvent} (hborn : Born sk₀)
    (hrun : run lifeStep sk₀ es = some sk) (hlive : sk.freed = false) (hpast : Past sk.state) :
    AckedOrDue sk := by
  have hinv := live_run (P := fun sk => Armed sk ∧ (Past sk.state → Acked sk))
    (fun s s' ⟨harm, hack⟩ hstep => by
      rcases harm.step hstep with hf | harm'
      · exact Or.inl hf
      · exact (Acked.step harm hack hstep).imp_right fun hack' => ⟨harm', hack'⟩)
    ⟨armed_of_born hborn, acked_of_born hborn⟩ hrun
  rcases hinv with hf | ⟨harm, hack⟩
  · rw [hlive] at hf
    exact absurd hf (by simp)
  · exact ackedOrDue_of_acked harm (hack hpast)

/-- A client that has got a byte without `PSH`. -/
def readerLife : List LifeEvent :=
  [.connect 1 2 3 4 100,
    .sock (.segment { th := { seq := 500, ackSeq := 101, syn := true, ack := true } }),
    .sock (.segment
      { th := { seq := 501, ackSeq := 101, ack := true }, dlen := 1, payload := [7] })]

theorem ackedOrDue_life_reader : ∃ sk, Born tcpAllocSock ∧
    run lifeStep tcpAllocSock readerLife = some sk ∧ sk.freed = false ∧ Past sk.state ∧
      AckedOrDue sk := by
  have hend : (run lifeStep tcpAllocSock readerLife).map (fun sk => (sk.freed, sk.state)) =
      some (false, .established) := by decide
  obtain ⟨sk, hrun, hsk⟩ := Option.map_eq_some_iff.mp hend
  obtain ⟨hfreed, hst⟩ := Prod.mk.inj hsk
  have hpast : Past sk.state := by
    rw [hst]
    exact ⟨by simp, by simp, by simp⟩
  exact ⟨sk, .alloc, hrun, hfreed, hpast, ackedOrDue_life .alloc hrun hfreed hpast⟩

end ToyIP.Tcp.DelayedAck
