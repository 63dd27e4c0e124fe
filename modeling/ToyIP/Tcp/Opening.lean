import ToyIP.Tcp.Handshake

/-! # TCP: the two ways to open

A sock that connects has its window from `tcp_begin_connect` and no parent; a child of a listening
sock has the parent, and nobody selects a window for it. `Handshaking` says what else the states
`SYN_SENT` and `SYN_RECEIVED` know of their numbers.

Both ways meet in `SYN_RECEIVED` when both ends connect at the same time. `tcp_send_synack` takes
`snd_nxt`, which is `isn` for a child only, and `tcp_synrecv_ack` follows the parent.
`opens_right_iff` says what is left of a simultaneous open. -/

namespace ToyIP.Tcp.Opening

open ToyIP.Lib ToyIP.Lib.Run ToyIP.Tcp.Types ToyIP.Tcp.Output ToyIP.Tcp.Data ToyIP.Tcp.Input
  ToyIP.Tcp.Sock ToyIP.Tcp.Sides ToyIP.Tcp.Effects ToyIP.Tcp.Network ToyIP.Tcp.Life
  ToyIP.Tcp.RetransmitTimer ToyIP.Tcp.History ToyIP.Tcp.Handshake

/-! ### The property and its condition -/

/-- The segment that the other side answers a SYN+ACK with. -/
structure AcksSyn (sk : TcpSock) (seg : Seg) : Prop where
  state : sk.state = .synReceived
  seq : seg.th.seq = sk.rcvNxt
  ack : seg.th.ack = true
  syn : seg.th.syn = false
  ackSeq : seg.th.ackSeq = sk.isn + 1

/-- What `tcp_process` sends as SYN+ACK has the own initial number and acknowledges the other. -/
def SynackRight (sk : TcpSock) (seg : Seg) : Prop :=
  ∀ sk', tcpProcess sk seg = .ok sk' → ∀ s ∈ sk'.out.drop sk.out.length,
    s.th.syn = true → s.th.ack = true → s.th.seq = sk.isn ∧ s.th.ackSeq = sk'.irs + 1

/-- `tcp_process` comes to an end, with the connection open. -/
def Opens (sk : TcpSock) (seg : Seg) : Prop :=
  ∃ sk', tcpProcess sk seg = .ok sk' ∧ sk'.state = .established ∧ sk'.sndUna = sk.isn + 1

/-- **A SYN, and the acknowledgement of the own one, open the connection.** -/
structure OpensRight (sk : TcpSock) (seg : Seg) : Prop where
  synack : sk.state = .synSent → seg.th.syn = true → seg.th.ack = false → SynackRight sk seg
  opened : AcksSyn sk seg → Opens sk seg

/-- The segment is no SYN for a simultaneous open; and if it acknowledges the own SYN, then the sock
is a child of a listening sock, `isn + 1` is not below `snd_una`, and text and FIN come later. -/
structure Fits (sk : TcpSock) (seg : Seg) : Prop where
  sent : ¬ (sk.state = .synSent ∧ seg.th.syn = true ∧ seg.th.ack = false ∧ seg.th.rst = false)
  received : AcksSyn sk seg → sk.parent = some .listen ∧ sk.sndUna ≤ sk.isn + 1 ∧ seg.dlen = 0 ∧
    seg.th.fin = false

/-! ### The invariant -/

/-- What a sock knows of its opening; a freed one is in `CLOSE`. -/
structure Handshaking (sk : TcpSock) : Prop where
  closed : sk.freed = true → sk.state = .close
  sndNxt : sk.state = .synSent ∨ sk.state = .synReceived → sk.sndNxt = sk.isn + 1
  sndUna : sk.state = .synReceived → sk.sndUna = sk.isn ∨ sk.sndUna = sk.isn + 1
  child : sk.parent ≠ none → sk.rcvWnd = 0
  opener : sk.parent = none → sk.state ≠ .close → sk.state ≠ .listen → sk.rcvWnd = 44477

variable {sk sk' : TcpSock} {seg : Seg}

theorem Handshaking.live (h : Handshaking sk) (hst : sk.state ≠ .close) : sk.freed = false :=
  Bool.eq_false_iff.mpr fun hf => hst (h.closed hf)

theorem Handshaking.congr (h : Handshaking sk) (hf : sk'.freed = sk.freed)
    (hst : sk'.state = sk.state) (hp : sk'.parent = none ↔ sk.parent = none)
    (hsend : sendSide sk' = sendSide sk) (hw : sk'.rcvWnd = sk.rcvWnd) : Handshaking sk' := by
  have hu : sk'.sndUna = sk.sndUna := congrArg SendSide.sndUna hsend
  have hn : sk'.sndNxt = sk.sndNxt := congrArg SendSide.sndNxt hsend
  have hi : sk'.isn = sk.isn := congrArg SendSide.isn hsend
  refine ⟨fun hs => ?_, fun hs => ?_, fun hs => ?_, fun hs => ?_, fun hs h₁ h₂ => ?_⟩
  · rw [hst]
    exact h.closed (hf ▸ hs)
  · rw [hn, hi]
    exact h.sndNxt (hst ▸ hs)
  · rw [hu, hi]
    exact h.sndUna (hst ▸ hs)
  · rw [hw]
    exact h.child (mt hp.mpr hs)
  · rw [hw]
    exact h.opener (hp.mp hs) (hst ▸ h₁) (hst ▸ h₂)

/-- Behind the handshake the window is all that counts. -/
theorem Handshaking.through (h : Handshaking sk) (hf : sk'.freed = sk.freed)
    (hst : sk'.state ≠ .synSent ∧ sk'.state ≠ .synReceived)
    (hold : sk.state ≠ .close ∧ sk.state ≠ .listen) (hp : sk'.parent = sk.parent)
    (hw : sk'.rcvWnd = sk.rcvWnd) : Handshaking sk' := by
  refine ⟨fun hs => absurd (h.closed (hf ▸ hs)) hold.1, fun hs => (hs.elim hst.1 hst.2).elim,
    fun hs => (hst.2 hs).elim, fun hs => ?_, fun hs _ _ => ?_⟩
  · rw [hw]
    exact h.child (hp ▸ hs)
  · rw [hw]
    exact h.opener (hp ▸ hs) hold.1 hold.2

theorem Handshaking.reset (h : Handshaking sk) : Handshaking (tcpSendReset sk) := by
  refine ⟨h.closed, fun hs => ?_, fun hs => ?_, h.child, h.opener⟩
  · exact h.sndNxt hs
  · exact .inr (h.sndNxt (.inr hs))

theorem rcvWnd_tcpDataQueue (sk : TcpSock) (th : TcpHdr) (skb : Skb) :
    (tcpDataQueue sk th skb).rcvWnd = sk.rcvWnd := by
  by_cases hw : sk.rcvWnd = 0
  · unfold tcpDataQueue
    rw [if_pos hw]
  · exact congrArg RecvSide.rcvWnd (recvSide_tcpDataQueue hw th skb)

/-- What `tcp_free_sock` leaves. -/
theorem Handshaking.free (h : Handshaking sk) (hst : sk'.state = .close)
    (hp : sk'.parent = sk.parent) (hw : sk'.rcvWnd = sk.rcvWnd) : Handshaking sk' := by
  refine ⟨fun _ => hst, fun hs => ?_, fun hs => ?_, fun hs => ?_, fun _ hc => absurd hst hc⟩
  · rw [hst] at hs
    simp at hs
  · rw [hst] at hs
    simp at hs
  · rw [hw]
    exact h.child (hp ▸ hs)

/-- The invariant stands a segment, outside of `SYN_SENT`. -/
theorem segmentRule_opening (seg : Seg) :
    SegmentRule seg fun sk => Handshaking sk ∧ sk.state ≠ .synSent where
  ack sk h := by
    rw [tcpSendAck_eq]
    exact ⟨h.1.congr rfl rfl Iff.rfl rfl rfl, h.2⟩
  reset sk h := ⟨h.1.reset, h.2⟩
  free sk h _ := ⟨h.1.free rfl rfl rfl, TcpState.noConfusion⟩
  accept sk h hst _ _ _ := by
    have hold : sk.state ≠ .close ∧ sk.state ≠ .listen := by rw [hst]; simp
    exact ⟨h.1.through rfl ⟨TcpState.noConfusion, TcpState.noConfusion⟩ hold rfl rfl,
      TcpState.noConfusion⟩
  take sk h hst _ _ := by
    obtain ⟨hne, hold⟩ := ne_of_synchronized hst
    obtain ⟨timers, retransmit, heq⟩ :=
      tcpCleanRetransmissionQueue_eq { sk with sndUna := seg.th.ackSeq } seg.th.ackSeq
    rw [heq]
    exact ⟨h.1.through rfl hne hold rfl rfl, h.2⟩
  text sk h hst := by
    have hsync : Synchronized sk.state := by rcases hst with h | h | h <;> rw [h] <;> trivial
    obtain ⟨hne, hold⟩ := ne_of_synchronized hsync
    have hcore := core_tcpDataQueue sk seg.th (tcpInitSegment seg)
    have hst' : (tcpDataQueue sk seg.th (tcpInitSegment seg)).state = sk.state :=
      congrArg Core.state hcore
    exact ⟨h.1.through (congrArg Core.freed hcore) ⟨hst'.trans_ne hne.1, hst'.trans_ne hne.2⟩ hold
      (congrArg Core.parent hcore) (rcvWnd_tcpDataQueue sk _ _), hst'.trans_ne h.2⟩
  fin sk h h₁ h₂ h₃ h₄ := by
    have hcore := core_afterFin sk
    have hst' : (afterFin sk).state = finState sk.state := congrArg Core.state hcore
    have hne : (afterFin sk).state ≠ .synSent ∧ (afterFin sk).state ≠ .synReceived := by
      rw [hst']
      cases hs : sk.state <;> simp_all [finState]
    exact ⟨h.1.through (congrArg Core.freed hcore) hne ⟨h₁, h₂⟩ (congrArg Core.parent hcore)
      (congrArg RecvSide.rcvWnd (recvSide_afterFin sk)), hne.1⟩

theorem Handshaking.tcpProcess (harm : Armed sk) (h : Handshaking sk)
    (hrun : Input.tcpProcess sk seg = .ok sk') : Handshaking sk' := by
  by_cases hst : sk.state = .synSent
  · obtain ⟨hu, hq⟩ := harm.synSent hst
    have hn := h.sndNxt (.inl hst)
    obtain rfl := Except.ok.inj (hrun.symm.trans (tcpProcess_synSent hst seg))
    have hne : sk.state ≠ .close ∧ sk.state ≠ .listen := by rw [hst]; simp
    have hw : sk.parent = none → sk.rcvWnd = 44477 := fun hp => h.opener hp hne.1 hne.2
    generalize hsk' : tcpSynsent sk seg.th = sk'
    have hstep : SynStep sk seg sk' :=
      hsk' ▸ synStep_tcpSynsent hst hu hn fun skb hskb => (hq skb hskb).2
    cases hstep with
    | ignored => exact h
    | both | early =>
      exact ⟨fun hf => absurd (h.closed hf) hne.1, fun _ => hn, fun _ => .inl rfl, h.child,
        fun hp _ _ => hw hp⟩
    | answered => exact h.through rfl ⟨TcpState.noConfusion, TcpState.noConfusion⟩ hne rfl rfl
  · exact ((segmentRule_opening seg).tcpProcess ⟨h, hst⟩ hst hrun).1

theorem Handshaking.close (h : Handshaking sk) : Handshaking (tcpClose sk).1 := by
  have hfin : ∀ st, st ≠ .synSent ∧ st ≠ .synReceived → sk.state ≠ .close ∧ sk.state ≠ .listen →
      Handshaking (tcpSetState (tcpQueueFin sk) st) := fun st hne hold => by
    have hq := queuesFin_tcpQueueFin sk st
    exact h.through (congrArg Core.freed hq.core) hne hold (congrArg Core.parent hq.core)
      (congrArg RecvSide.rcvWnd hq.recv)
  cases hst : sk.state
  case listen =>
    unfold tcpClose
    rw [hst]
    exact h.free rfl rfl rfl
  case close =>
    rw [tcpClose_close hst]
    exact h.congr rfl rfl Iff.rfl rfl rfl
  case finWait1 | finWait2 | closing | lastAck | timeWait =>
    rw [tcpClose_closing (by rw [hst]; simp)]
    exact h.congr rfl rfl Iff.rfl rfl rfl
  case closeWait =>
    rw [tcpClose_closeWait hst]
    exact hfin _ (by simp) (by rw [hst]; simp)
  case synSent | synReceived | established =>
    rw [tcpClose_open (by rw [hst]; simp)]
    exact hfin _ (by simp) (by rw [hst]; simp)

/-- What one event preserves. -/
theorem Handshaking.step (harm : Armed sk) (h : Handshaking sk) (hf : sk.freed = false)
    (hstep : LifeStep sk sk') : Handshaking sk' := by
  cases hstep with
  | connect hst saddr daddr sport dport isn =>
    obtain ⟨skb, timers, retransmit, out, -, heq⟩ := tcpV4Connect_eq hst saddr daddr sport dport isn
    have hp := harm.orphan (.inl hst)
    rw [heq]
    refine ⟨fun hs => ?_, fun _ => ?_, fun hs => TcpState.noConfusion hs, fun hs => absurd hp hs,
      fun _ _ _ => rfl⟩
    · rw [hf] at hs
      simp at hs
    · show isn + 0 + 1 = isn + 1
      rw [UInt32.add_zero]
  | accept => exact h.congr rfl rfl Iff.rfl rfl rfl
  | parent st => exact h.congr rfl rfl Option.map_eq_none_iff rfl rfl
  | write buf =>
    by_cases hopen : sk.state = .established ∨ sk.state = .closeWait
    · have hcore := core_tcpWrite harm.mss buf
      have hst : (tcpWrite sk buf).1.state = sk.state := congrArg Core.state hcore
      have hw : (tcpWrite sk buf).1.rcvWnd = sk.rcvWnd := by
        rw [tcpWrite_open hopen]
        exact congrArg RecvSide.rcvWnd (recvSide_tcpSend harm.mss buf)
      refine h.through (congrArg Core.freed hcore) ?_ ?_ (congrArg Core.parent hcore) hw
      · rw [hst]
        rcases hopen with h | h <;> rw [h] <;> simp
      · rcases hopen with h | h <;> rw [h] <;> simp
    · rw [not_or] at hopen
      rwa [tcpWrite_not_open hopen.1 hopen.2]
  | close => exact h.close
  | read len =>
    have hcore := Receiver.core_tcpReadStart sk len
    have hp : (tcpReadStart sk len).1.parent = sk.parent := congrArg Core.parent hcore
    exact h.congr (congrArg Core.freed hcore) (congrArg Core.state hcore) (by rw [hp])
      (sendSide_tcpReadStart sk len)
      (congrArg RecvSide.rcvWnd (Receiver.recvSide_tcpReadStart sk len))
  | receive len rlen =>
    have hcore := Receiver.core_tcpReceiveRound sk len rlen
    have hp : (tcpReceiveRound sk len rlen).1.parent = sk.parent := congrArg Core.parent hcore
    refine h.congr (congrArg Core.freed hcore) (congrArg Core.state hcore) (by rw [hp])
      (sendSide_tcpReceiveRound sk len rlen) ?_
    unfold tcpReceiveRound tcpDataDequeue
    simp only
    split_ifs <;> rfl
  | timer i sk' hfire =>
    cases expires_fireTimer hfire with
    | quiet => exact h.congr rfl rfl Iff.rfl rfl rfl
    | free => exact h.free rfl rfl rfl
    | resend skb q hq timers retransmit backoff out st hst =>
      by_cases hsame : st = sk.state
      · exact ⟨fun hs => hsame ▸ h.closed hs, fun hs => h.sndNxt (hsame ▸ hs),
          fun hs => h.sndUna (hsame ▸ hs), h.child,
          fun hp h₁ h₂ => h.opener hp (hsame ▸ h₁) (hsame ▸ h₂)⟩
      · -- only the timeout of a FIN changes the state
        have hst' := (hst.resolve_left hsame).2
        refine h.through rfl ?_ ?_ rfl rfl
        · show st ≠ .synSent ∧ st ≠ .synReceived
          cases hs : sk.state <;> rw [hs] at hst' hsame <;> simp_all [refinState]
        · cases hs : sk.state <;> rw [hs] at hst' hsame <;> simp_all [refinState]
  | segment seg sk' hrun => exact h.tcpProcess harm hrun

theorem opening_of_born (h : Born sk) : Handshaking sk := by
  cases h with
  | alloc => refine ⟨?_, ?_, ?_, ?_, ?_⟩ <;> simp [tcpAllocSock]
  | listening sport => refine ⟨?_, ?_, ?_, ?_, ?_⟩ <;> simp [listenSock, tcpAllocSock]
  | child listener seg isn sk h =>
    unfold tcpHandleListen at h
    split_ifs at h
    obtain rfl := Option.some.inj h
    rw [tcpSendSynack_eq rfl]
    exact ⟨fun hf => Bool.noConfusion hf, fun _ => rfl, fun _ => .inl rfl, fun _ => rfl,
      fun hp => absurd hp (Option.some_ne_none _)⟩

/-- **The invariant holds all life long.** -/
theorem opening_life {sk₀ : TcpSock} {es : List LifeEvent} (hborn : Born sk₀)
    (hrun : run lifeStep sk₀ es = some sk) : (sk.freed = true ∨ Armed sk) ∧ Handshaking sk := by
  refine run_inv (C := fun _ _ => True)
    (P := fun sk => (sk.freed = true ∨ Armed sk) ∧ Handshaking sk) (fun s e s' hs _ hstep => ?_)
    ⟨.inr (armed_of_born hborn), opening_of_born hborn⟩ (Along.of_forall fun _ _ _ => trivial) hrun
  obtain ⟨hf, hstep⟩ := lifeStep_some hstep
  have harm : Armed s := hs.1.resolve_left (by rw [hf]; simp)
  exact ⟨harm.step hstep, hs.2.step harm hf hstep⟩

/-! ### Simultaneous open -/

/-- The answer to a SYN without ACK. `tcp_send_synack` takes `snd_nxt`, which is behind the SYN. -/
theorem tcpProcess_both (hst : sk.state = .synSent) (hu : sk.sndUna = sk.isn)
    (hsyn : seg.th.syn = true) (hack : seg.th.ack = false) (hrst : seg.th.rst = false) :
    tcpProcess sk seg = .ok { synAnswered sk seg.th with
      state := .synReceived, sndUna := sk.isn
      out := sk.out ++ [synackSeg (synAnswered sk seg.th)] } := by
  rw [tcpProcess_synSent hst]
  unfold tcpSynsent
  simp only [hsyn, hack, hrst, Bool.false_and, Bool.not_true, Bool.false_eq_true, if_false]
  rw [if_neg (by rw [hu]; exact UInt32.lt_irrefl _), tcpSendSynack_eq rfl]
  rfl

/-- With RST nothing is sent. -/
theorem tcpProcess_synSent_rst (hst : sk.state = .synSent) (hack : seg.th.ack = false)
    (hrst : seg.th.rst = true) : tcpProcess sk seg = .ok sk := by
  rw [tcpProcess_synSent hst]
  unfold tcpSynsent
  simp only [hack, hrst, Bool.false_and, Bool.false_eq_true, if_false, if_true]

/-- Without a listening parent the acknowledgement does not lead out of `SYN_RECEIVED`. -/
theorem state_of_no_listener (hst : sk.state = .synReceived) (hp : sk.parent ≠ some .listen)
    (hsyn : seg.th.syn = false) (hack : seg.th.ack = true) (hrun : tcpProcess sk seg = .ok sk') :
    sk'.state = .synReceived := by
  have hcheck : ∀ sk₁ b, ackCheck sk seg.th = .ok (sk₁, b) →
      b = false ∧ sk₁.state = .synReceived := fun sk₁ b h => by
    unfold ackCheck at h
    rw [hst] at h
    simp only at h
    split_ifs at h
    · cases hpar : sk.parent with
      | none => simp [hpar] at h
      | some st =>
        cases st <;> rw [hpar] at h hp <;> first | exact absurd rfl hp | skip
        all_goals
          obtain ⟨rfl, rfl⟩ := Prod.mk.inj (Except.ok.inj h)
          exact ⟨rfl, hst⟩
    · obtain ⟨rfl, rfl⟩ := Prod.mk.inj (Except.ok.inj h)
      exact ⟨rfl, hst⟩
  rw [tcpProcess_filter (by simp [hst]) (by simp [hst]) (by simp [hst])] at hrun
  by_cases hf : tcpPacketFilter sk seg.th (tcpInitSegment seg) = true
  · rw [if_pos hf] at hrun
    unfold processInWindow at hrun
    simp only [hsyn, hack, Bool.false_and, Bool.not_true, Bool.false_eq_true, if_false] at hrun
    cases hc : ackCheck sk seg.th with
    | error f => rw [hc] at hrun; cases hrun
    | ok r =>
      obtain ⟨sk₁, b⟩ := r
      obtain ⟨rfl, hst₁⟩ := hcheck sk₁ b hc
      rw [hc] at hrun
      rw [← Except.ok.inj hrun]
      exact hst₁
  · rw [if_neg hf] at hrun
    rw [← Except.ok.inj hrun]
    split_ifs
    · exact hst
    · exact (congrArg Core.state (core_tcpSendAck sk)).trans hst

/-- The window that nobody selected lets no text through. -/
theorem tcpPacketFilter_child (hw : sk.rcvWnd = 0) (hseq : seg.th.seq = sk.rcvNxt) :
    tcpPacketFilter sk seg.th (tcpInitSegment seg) = true ↔ seg.dlen = 0 := by
  have hd : (tcpInitSegment seg).dlen = seg.dlen := rfl
  unfold tcpPacketFilter
  rw [hd, hw, hseq, UInt32.add_zero]
  simp

/-- A child with the acknowledgement of its SYN. -/
theorem tcpProcess_child (h : AcksSyn sk seg) (hp : sk.parent = some .listen)
    (hopen : Handshaking sk) : tcpProcess sk seg =
      if seg.dlen = 0 then
        if sk.sndUna ≤ sk.isn + 1 then
          .ok (finCheck (accept sk (sk.isn + 1)) seg.th (tcpInitSegment seg))
        else .ok (tcpSendReset sk)
      else .ok (if seg.th.rst then sk else tcpSendAck sk) := by
  have hw : sk.rcvWnd = 0 := hopen.child (by rw [hp]; exact Option.some_ne_none _)
  have hn : sk.sndNxt = sk.isn + 1 := hopen.sndNxt (.inr h.state)
  have hfreed : sk.freed = false := hopen.live (by rw [h.state]; simp)
  rw [tcpProcess_synReceived h.state hp hfreed, h.syn, h.ack, h.ackSeq, hn]
  simp only [tcpPacketFilter_child hw h.seq, Bool.false_eq_true, if_false, if_true, UInt32.le_refl,
    and_true]
  by_cases hd : seg.dlen = 0
  · have hnot : ¬ 0 < (tcpInitSegment seg).dlen := by
      show ¬ 0 < seg.dlen
      rw [hd]
      exact UInt32.lt_irrefl 0
    rw [segmentText_of_not_pos hnot]
  · rw [if_neg hd, if_neg hd]

/-- An opener in `SYN_RECEIVED` has no parent that `tcp_synrecv_ack` could read. -/
theorem tcpProcess_opener (h : AcksSyn sk seg) (hp : sk.parent = none) (hopen : Handshaking sk)
    (hf : tcpPacketFilter sk seg.th (tcpInitSegment seg) = true) (hu : sk.sndUna ≤ sk.isn + 1) :
    tcpProcess sk seg = .error .nullParent := by
  have hn : sk.sndNxt = sk.isn + 1 := hopen.sndNxt (.inr h.state)
  have hcheck : ackCheck sk seg.th = .error .nullParent := by
    unfold ackCheck
    rw [h.state, h.ackSeq, hn, hp]
    exact if_pos ⟨hu, UInt32.le_refl _⟩
  rw [tcpProcess_filter (by simp [h.state]) (by simp [h.state]) (by simp [h.state]), if_pos hf]
  unfold processInWindow
  simp only [h.syn, h.ack, hcheck, Bool.false_and, Bool.not_true, Bool.false_eq_true, if_false]

/-- Only the segment's FIN keeps an accepted child from `ESTABLISHED`. -/
theorem finCheck_accept (hd : seg.dlen = 0) (hseq : seg.th.seq = sk.rcvNxt) (ack : UInt32) :
    (finCheck (accept sk ack) seg.th (tcpInitSegment seg)).state = .established ↔
      seg.th.fin = false := by
  cases hfin : seg.th.fin
  · rw [finCheck_of_not_fin hfin]
    exact iff_of_true rfl rfl
  · have hnum : (accept sk ack).rcvNxt - (tcpInitSegment seg).dlen = (tcpInitSegment seg).seq := by
      show sk.rcvNxt - seg.dlen = seg.th.seq
      rw [hd, hseq, UInt32.sub_zero]
    rw [finCheck_of_fin hfin hnum, if_neg (by simp [accept, tcpSetState])]
    have hst : (afterFin (accept sk ack)).state = .closeWait :=
      congrArg Core.state (core_afterFin (accept sk ack))
    rw [hst]
    simp

/-- The SYN+ACK of a simultaneous open is wrong whenever it is sent. -/
theorem synack_iff (hst : sk.state = .synSent) (hu : sk.sndUna = sk.isn)
    (hn : sk.sndNxt = sk.isn + 1) (hsyn : seg.th.syn = true) (hack : seg.th.ack = false) :
    SynackRight sk seg ↔ seg.th.rst = true := by
  refine ⟨fun h => ?_, fun hrst sk' hrun s hs => ?_⟩
  · by_contra hrst
    rw [Bool.not_eq_true] at hrst
    have hseq := (h _ (tcpProcess_both hst hu hsyn hack hrst)
      (synackSeg (synAnswered sk seg.th)) (by simp) rfl rfl).1
    have hisn : sk.isn + 1 = sk.isn := hn ▸ hseq
    simp at hisn
  · rw [tcpProcess_synSent_rst hst hack hrst] at hrun
    obtain rfl := Except.ok.inj hrun
    simp at hs

/-- The acknowledgement of the SYN leads to `ESTABLISHED` under the condition. -/
theorem opened_iff (h : AcksSyn sk seg) (hopen : Handshaking sk) :
    Opens sk seg ↔ sk.parent = some .listen ∧ sk.sndUna ≤ sk.isn + 1 ∧ seg.dlen = 0 ∧
      seg.th.fin = false := by
  unfold Opens
  have hstuck : ∀ sk' : TcpSock, sk'.state = .synReceived → sk'.state ≠ .established :=
    fun sk' hs hs' => TcpState.noConfusion (hs.symm.trans hs')
  by_cases hp : sk.parent = some .listen
  · rw [tcpProcess_child h hp hopen]
    refine ⟨?_, ?_⟩
    · rintro ⟨sk', hrun, hst, -⟩
      split_ifs at hrun with hd hle hrst
      all_goals obtain rfl := Except.ok.inj hrun
      · exact ⟨hp, hle, hd, (finCheck_accept hd h.seq _).mp hst⟩
      · exact absurd hst (hstuck _ h.state)
      · exact absurd hst (hstuck _ h.state)
      · exact absurd hst (hstuck _ ((congrArg Core.state (core_tcpSendAck sk)).trans h.state))
    · rintro ⟨-, hle, hd, hfin⟩
      rw [if_pos hd, if_pos hle]
      refine ⟨_, rfl, (finCheck_accept hd h.seq _).mpr hfin, ?_⟩
      rw [finCheck_of_not_fin hfin]
      rfl
  · refine iff_of_false ?_ (mt And.left hp)
    rintro ⟨sk', hrun, hst, -⟩
    exact hstuck _ (state_of_no_listener h.state hp h.syn h.ack hrun) hst

/-- A sock opens right, at any time of its life, exactly for the segments that fit. -/
theorem opens_right_iff {sk₀ sk : TcpSock} {es : List LifeEvent} (hborn : Born sk₀)
    (hrun : run lifeStep sk₀ es = some sk) (seg : Seg) : OpensRight sk seg ↔ Fits sk seg := by
  obtain ⟨harm, hopen⟩ := opening_life hborn hrun
  have hsent : (sk.state = .synSent → seg.th.syn = true → seg.th.ack = false →
      SynackRight sk seg) ↔
      ¬ (sk.state = .synSent ∧ seg.th.syn = true ∧ seg.th.ack = false ∧ seg.th.rst = false) := by
    have hiff : sk.state = .synSent → seg.th.syn = true → seg.th.ack = false →
        (SynackRight sk seg ↔ seg.th.rst = true) := fun hst => by
      have harm : Armed sk := harm.resolve_left (by rw [hopen.live (by rw [hst]; simp)]; simp)
      exact synack_iff hst (harm.synSent hst).1 (hopen.sndNxt (.inl hst))
    refine ⟨fun h => ?_, fun h hst hsyn hack => ?_⟩
    · rintro ⟨hst, hsyn, hack, hrst⟩
      exact absurd ((hiff hst hsyn hack).mp (h hst hsyn hack)) (by simp [hrst])
    · refine (hiff hst hsyn hack).mpr ?_
      by_contra hrst
      exact h ⟨hst, hsyn, hack, by simpa using hrst⟩
  refine ⟨fun h => ⟨hsent.mp h.synack, fun hs => (opened_iff hs hopen).mp (h.opened hs)⟩,
    fun h => ⟨hsent.mpr h.sent, fun hs => (opened_iff hs hopen).mpr (h.received hs)⟩⟩

/-! ### Two runs -/

/-- A SYN, for a sock that listens on port 3 or one that connects from there to port 4. -/
def otherSyn : Seg :=
  { saddr := 2, daddr := 1, th := { sport := 4, dport := 3, seq := 500, syn := true } }

/-- The acknowledgement of a SYN with number 100. -/
def otherAck : Seg :=
  { otherSyn with th := { otherSyn.th with seq := 501, ackSeq := 101, syn := false, ack := true } }

/-- A child whose acknowledgement fits, and opens the connection. -/
theorem opens_right_child : ∃ sk, (tcpHandleListen (listenSock 3) otherSyn 100).2 = some sk ∧
    AcksSyn sk otherAck ∧ OpensRight sk otherAck := by
  refine ⟨_, rfl, ⟨rfl, rfl, rfl, rfl, rfl⟩, ?_⟩
  refine (opens_right_iff (Born.child (listenSock 3) otherSyn 100 _ rfl) (run_nil _) _).mpr ?_
  exact ⟨fun h => absurd h.1 (by decide), fun _ => ⟨rfl, by decide, rfl, rfl⟩⟩

/-- A simultaneous open ends in undefined behaviour. -/
example : (run lifeStep tcpAllocSock [.connect 1 2 3 4 100, .sock (.segment otherSyn)]).map
    (tcpProcess · otherAck) = some (.error .nullParent) := rfl

/-- The SYN+ACK of a simultaneous open carries 101, when the own number is 100. -/
theorem not_opens_right :
    ¬ ∀ (sk₀ sk : TcpSock) (es : List LifeEvent), Born sk₀ → run lifeStep sk₀ es = some sk →
      ∀ seg, OpensRight sk seg := by
  intro h
  have hright := h _ _ [.connect 1 2 3 4 100] .alloc rfl otherSyn
  have hseq := (hright.synack rfl rfl rfl _ rfl _ (List.mem_singleton.mpr rfl) rfl rfl).1
  exact absurd hseq (by decide)

end ToyIP.Tcp.Opening
