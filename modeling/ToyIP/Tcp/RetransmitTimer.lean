import Mathlib.Data.List.TakeWhile
import ToyIP.Tcp.Clock

/-! # TCP: the retransmission timer

The retransmission timer is armed exactly while `write_queue` is not empty. `Armed` is the invariant
of a life. Two of its parts are not about the timer itself: in `SYN_SENT` only buffers that end at
`isn` are queued, so an acceptable answer empties the queue; and `tcp_connect_rto` stays armed only
where `ESTABLISHED` is out of reach (`Unanswered`), so its branch that arms nothing is never taken
with a queue that is not empty. -/

namespace ToyIP.Tcp.RetransmitTimer

open ToyIP.Lib ToyIP.Lib.Run ToyIP.Lib.Owner ToyIP.Tcp.Types ToyIP.Tcp.Timer ToyIP.Tcp.Output
  ToyIP.Tcp.Data ToyIP.Tcp.Input ToyIP.Tcp.Sock ToyIP.Tcp.Sides ToyIP.Tcp.Effects ToyIP.Tcp.Network
  ToyIP.Tcp.Teardown ToyIP.Tcp.Life ToyIP.Tcp.Clock

/-- The retransmission timer is armed exactly when `write_queue` is not empty, and then it is the
only pending one of its kind. -/
structure ArmedExactly (sk : TcpSock) : Prop where
  iff : sk.retransmit ≠ none ↔ sk.writeQueue ≠ []
  points : ∀ i, sk.retransmit = some i →
    (∃ t, sk.timers[i]? = some t ∧ t.cancelled = false ∧ IsRetransmission t.handler ∧
      t.refcnt = 1) ∧
    ∀ j u, sk.timers[j]? = some u → u.cancelled = false → IsRetransmission u.handler → j = i

/-- The SYN has not been answered in a way that leads to `ESTABLISHED`. -/
def Unanswered (sk : TcpSock) : Prop :=
  sk.state = .synSent ∨ (sk.state = .synReceived ∧ sk.parent = none) ∨ sk.state = .finWait1 ∨
    sk.state = .closing

/-- The invariant of a life. -/
structure Armed (sk : TcpSock) : Prop where
  clocked : Clocked (clock sk)
  queue : sk.retransmit = none ↔ sk.writeQueue = []
  mss : 0 < sk.smss
  idle : sk.state = .close ∨ sk.state = .listen → sk.writeQueue = []
  orphan : sk.state = .close ∨ sk.state = .synSent → sk.parent = none
  synSent : sk.state = .synSent →
    sk.sndUna = sk.isn ∧ ∀ skb ∈ sk.writeQueue, skb.dlen = 0 ∧ skb.endSeq = sk.isn
  rto : ∀ t ∈ sk.timers, Pending (· = .tcpConnectRto) t → Unanswered sk
  state : sk.state ≠ .finWait2 ∧ sk.state ≠ .timeWait

variable {sk sk' : TcpSock} {seg : Seg}

theorem Armed.armedExactly (h : Armed sk) : ArmedExactly sk where
  iff := not_congr h.queue
  points i hi := by
    obtain ⟨t, ht, hc, hr⟩ := (h.clocked.retransmit i).mp hi
    refine ⟨⟨t, ht, hc, hr, h.clocked.refcnt t (List.mem_of_getElem? ht) hc⟩, ?_⟩
    intro j u hu hcu hru
    exact (Option.some.inj (hi.symm.trans ((h.clocked.retransmit j).mpr ⟨u, hu, hcu, hru⟩))).symm

/-- The invariant depends on the timers, the state and the send side only. -/
theorem Armed.congr (h : Armed sk) (hclock : clock sk' = clock sk) (hcore : core sk' = core sk)
    (hsend : sendSide sk' = sendSide sk) : Armed sk' := by
  have hst : sk'.state = sk.state := congrArg Core.state hcore
  have hp : sk'.parent = sk.parent := congrArg Core.parent hcore
  have hm : sk'.smss = sk.smss := congrArg Core.smss hcore
  have hq : sk'.writeQueue = sk.writeQueue := congrArg SendSide.writeQueue hsend
  have hu : sk'.sndUna = sk.sndUna := congrArg SendSide.sndUna hsend
  have hi : sk'.isn = sk.isn := congrArg SendSide.isn hsend
  have hr : sk'.retransmit = sk.retransmit := congrArg Timing.retransmit hclock
  have ht : sk'.timers = sk.timers := congrArg Timing.timers hclock
  refine ⟨hclock ▸ h.clocked, by rw [hr, hq]; exact h.queue, hm ▸ h.mss, ?_,
    by rw [hst, hp]; exact h.orphan, ?_, ?_, by rw [hst]; exact h.state⟩
  · rw [hst, hq]
    exact h.idle
  · rw [hst, hq, hu, hi]
    exact h.synSent
  · unfold Unanswered
    rw [ht, hst, hp]
    exact h.rto

/-- Outside of `SYN_SENT` the numbers do not matter. -/
theorem Armed.move (h : Armed sk) (hclock : clock sk' = clock sk)
    (hq : sk'.writeQueue = sk.writeQueue) (hm : sk'.smss = sk.smss)
    (hidle : sk'.state = .close ∨ sk'.state = .listen → sk.writeQueue = [])
    (horph : sk'.state = .close → sk'.parent = none) (hsyn : sk'.state ≠ .synSent)
    (hrto : Unanswered sk → Unanswered sk') (hstate : sk'.state ≠ .finWait2 ∧ sk'.state ≠ .timeWait) : Armed sk' := by
  have hr : sk'.retransmit = sk.retransmit := congrArg Timing.retransmit hclock
  have ht : sk'.timers = sk.timers := congrArg Timing.timers hclock
  refine ⟨hclock ▸ h.clocked, by rw [hr, hq]; exact h.queue, hm ▸ h.mss, ?_,
    fun hs => hs.elim horph fun hs => absurd hs hsyn, fun hs => absurd hs hsyn, ?_, hstate⟩
  · rw [hq]
    exact hidle
  · rw [ht]
    exact fun t hmem hp => hrto (h.rto t hmem hp)

/-! ### Sending -/

/-- `tcp_connect_rto` is armed in `SYN_SENT` only. -/
theorem state_of_retransmissionTimer (h : (retransmissionTimer sk).2 = .tcpConnectRto) :
    sk.state = .synSent := by
  unfold retransmissionTimer at h
  split_ifs at h with hs
  exact hs

/-- A buffer is queued and sent. -/
theorem Armed.tcpQueueTransmitSkb (h : Armed sk) (hst : sk.state ≠ .close ∧ sk.state ≠ .listen)
    (skb : Skb) (hdlen : sk.state = .synSent → skb.dlen = 0) :
    Armed (tcpQueueTransmitSkb sk skb) := by
  have hempty : (sk.writeQueue.isEmpty = true) ↔ sk.retransmit = none := by
    rw [h.queue, List.isEmpty_iff]
  have hsyn : sk.state = .synSent → sk.sndUna = sk.isn ∧
      ∀ x ∈ sk.writeQueue ++ [sentSkb sk skb sk.sndNxt], x.dlen = 0 ∧ x.endSeq = sk.isn := by
    intro hs
    obtain ⟨hu, hq⟩ := h.synSent hs
    refine ⟨hu, fun x hx => ?_⟩
    rcases List.mem_append.mp hx with hx | hx
    · exact hq x hx
    · rw [List.mem_singleton.mp hx]
      refine ⟨hdlen hs, ?_⟩
      show sk.sndUna + skb.dlen = sk.isn
      rw [hdlen hs, hu, UInt32.add_zero]
  have hne : sk.writeQueue ++ [sentSkb sk skb sk.sndNxt] ≠ [] := by simp
  by_cases hq : sk.retransmit = none
  · -- the queue was empty, and the timer is set
    have hclock := clocked_tcpResetRetransmissionTimer h.clocked hq
    unfold Output.tcpQueueTransmitSkb
    rw [if_pos (hempty.mpr hq)]
    rw [tcpResetRetransmissionTimer_none hq] at hclock ⊢
    refine ⟨hclock, ?_, h.mss, ?_, h.orphan, hsyn, ?_, h.state⟩
    · exact iff_of_false (Option.some_ne_none sk.timers.length) hne
    · intro hs
      rcases hs with hs | hs
      · exact absurd hs hst.1
      · exact absurd hs hst.2
    · intro t ht hp
      rcases List.mem_append.mp ht with ht | ht
      · exact h.rto t ht hp
      · rw [List.mem_singleton.mp ht] at hp
        exact Or.inl (state_of_retransmissionTimer hp.2)
  · unfold Output.tcpQueueTransmitSkb
    rw [if_neg fun he => hq (hempty.mp he)]
    refine ⟨h.clocked, ?_, h.mss, ?_, h.orphan, hsyn, h.rto, h.state⟩
    · exact iff_of_false hq hne
    · intro hs
      rcases hs with hs | hs
      · exact absurd hs hst.1
      · exact absurd hs hst.2

theorem Armed.tcpWrite (h : Armed sk) (buf : List UInt8) : Armed (tcpWrite sk buf).1 := by
  by_cases hopen : sk.state = .established ∨ sk.state = .closeWait
  · rw [tcpWrite_open hopen]
    have hst : sk.state ≠ .close ∧ sk.state ≠ .listen ∧ sk.state ≠ .synSent := by
      rcases hopen with hs | hs <;> rw [hs] <;> simp
    refine (tcpSend_ind (P := fun s _ => Armed s ∧ core s = core sk) ?_ h.mss ⟨h, rfl⟩).1
    rintro s chunk rest psh - - ⟨hs, hcore⟩
    have hstate : s.state = sk.state := congrArg Core.state hcore
    exact ⟨hs.tcpQueueTransmitSkb (by rw [hstate]; exact ⟨hst.1, hst.2.1⟩) _
      fun he => absurd (hstate ▸ he) hst.2.2, (core_tcpQueueTransmitSkb s _).trans hcore⟩
  · rw [not_or] at hopen
    rw [tcpWrite_not_open hopen.1 hopen.2]
    exact h

/-- The next number does not count. -/
theorem Armed.sndNxt (h : Armed sk) (nxt : UInt32) : Armed { sk with sndNxt := nxt } :=
  ⟨h.clocked, h.queue, h.mss, h.idle, h.orphan, h.synSent, h.rto, h.state⟩

theorem Armed.tcpClose (h : Armed sk) :
    (tcpClose sk).1.freed = true ∨ Armed (tcpClose sk).1 := by
  have hfin : ∀ st, sk.state ≠ .close ∧ sk.state ≠ .listen →
      (Unanswered (tcpQueueFin sk) → Unanswered (tcpSetState (tcpQueueFin sk) st)) →
      st = .finWait1 ∨ st = .lastAck → Armed (tcpSetState (tcpQueueFin sk) st) := by
    intro st hopen hrto hst
    have hq := h.tcpQueueTransmitSkb hopen
      { tcpAllocSkb 0 with th := { fin := true, ack := true } } fun _ => rfl
    have hsk : Armed (tcpSetState (Output.tcpQueueTransmitSkb sk
        { tcpAllocSkb 0 with th := { fin := true, ack := true } }) st) := by
      refine hq.move rfl rfl rfl ?_ ?_ ?_ hrto ?_ <;> rcases hst with rfl | rfl <;> simp [tcpSetState]
    exact hsk.sndNxt _
  cases hst : sk.state
  case listen =>
    left
    unfold Sock.tcpClose
    rw [hst]
    rfl
  case synSent | synReceived | established =>
    right
    rw [tcpClose_open (by rw [hst]; simp)]
    exact hfin _ (by rw [hst]; simp) (fun _ => Or.inr (Or.inr (Or.inl rfl))) (Or.inl rfl)
  case closeWait =>
    right
    rw [tcpClose_closeWait hst]
    refine hfin _ (by rw [hst]; simp) (fun hun => ?_) (Or.inr rfl)
    have hcore : (tcpQueueFin sk).state = sk.state := congrArg Core.state (core_tcpQueueFin sk)
    unfold Unanswered at hun
    rw [hcore, hst] at hun
    simp at hun
  case close =>
    right
    rw [tcpClose_close hst]
    exact h.congr rfl rfl rfl
  all_goals
    right
    rw [tcpClose_closing (by rw [hst]; simp)]
    exact h.congr rfl rfl rfl

/-- A sock that was never connected. -/
theorem Armed.connect (h : Armed sk) (hst : sk.state = .close) (saddr daddr : UInt32)
    (sport dport : UInt16) (isn : UInt32) : Armed (tcpV4Connect sk saddr daddr sport dport isn) := by
  have hq := h.idle (Or.inl hst)
  -- the SYN is queued and sent in `SYN_SENT`, with nothing queued before
  have hsyn : Armed { sk with
      saddr := saddr, daddr := daddr, sport := sport, dport := dport
      link := some .connectingOrListening, isn := isn, sndUna := isn, sndNxt := isn, rcvNxt := 0
      rcvWnd := 44477, state := .synSent } := by
    refine ⟨h.clocked, h.queue, h.mss, fun _ => hq, fun _ => h.orphan (Or.inl hst),
      fun _ => ⟨rfl, fun skb hskb => ?_⟩, fun _ _ _ => Or.inl rfl, by simp⟩
    have hskb : skb ∈ sk.writeQueue := hskb
    rw [hq] at hskb
    simp at hskb
  have hsent := hsyn.tcpQueueTransmitSkb (by simp)
    { tcpAllocSkb 0 with th := tcpSynHeader sk } fun _ => rfl
  unfold tcpV4Connect tcpBeginConnect tcpSendSyn
  rw [if_pos (Or.inr (Or.inl hst))]
  exact hsent.sndNxt _

/-! ### Segments -/

/-- The delayed acknowledgement has its own pointer; its timers do not count. -/
theorem Armed.delacked (h : Armed sk) {timers : List Timer} {delack : Option ℕ}
    (hclock : Clocked ⟨timers, sk.retransmit, delack⟩)
    (hmem : ∀ t ∈ timers, Pending (· = .tcpConnectRto) t → t ∈ sk.timers) (delacks : UInt8) :
    Armed { sk with timers := timers, delack := delack, delacks := delacks } :=
  ⟨hclock, h.queue, h.mss, h.idle, h.orphan, h.synSent, fun t ht hp => h.rto t (hmem t ht hp) hp,
    h.state⟩

theorem Armed.tcpStopDelackTimer (h : Armed sk) : Armed (tcpStopDelackTimer sk) :=
  h.delacked (clocked_tcpStopDelackTimer h.clocked) (fun _ => mem_of_pending_stopDelack) sk.delacks

theorem Armed.tcpAckData (h : Armed sk) (hd : sk.delack = none) (th : TcpHdr) (skb : Skb) :
    Armed (tcpAckData sk th skb) := by
  unfold Data.tcpAckData
  split_ifs
  · have h' : Armed { sk with delacks := 0 } := h.congr rfl rfl rfl
    exact h'.congr (clock_tcpSendAck _) (core_tcpSendAck _) (sendSide_tcpSendAck _)
  · have hc := h.clocked
    unfold clock at hc
    rw [hd] at hc
    refine ⟨hc.addDelack 200, h.queue, h.mss, h.idle, h.orphan, h.synSent, fun t ht hp => ?_, h.state⟩
    rcases List.mem_append.mp ht with ht | ht
    · exact h.rto t ht hp
    · rw [List.mem_singleton.mp ht] at hp
      exact absurd hp.2 (by simp)

theorem Armed.tcpDataQueue (h : Armed sk) (th : TcpHdr) (skb : Skb) :
    Armed (tcpDataQueue sk th skb) := by
  unfold Data.tcpDataQueue
  split_ifs
  · exact h
  · refine Armed.tcpAckData (Armed.tcpStopDelackTimer ?_) rfl th skb
    exact h.congr rfl rfl rfl
  · exact h.congr (clock_tcpSendAck _) (core_tcpSendAck _) (sendSide_tcpSendAck _)

/-- The clean-up stops the timer if it empties the queue. -/
theorem clean_spec (sk : TcpSock) (hc : Clocked (clock sk))
    (hq : sk.retransmit = none ↔ sk.writeQueue = []) (una : UInt32) :
    Clocked (clock (tcpCleanRetransmissionQueue sk una)) ∧
      ((tcpCleanRetransmissionQueue sk una).retransmit = none ↔
        (tcpCleanRetransmissionQueue sk una).writeQueue = []) ∧
      ∀ t ∈ (tcpCleanRetransmissionQueue sk una).timers, Pending (· = .tcpConnectRto) t →
        t ∈ sk.timers := by
  by_cases hempty : (sk.writeQueue.dropWhile fun skb => skb.endSeq ≤ una) = []
  · have heq : tcpCleanRetransmissionQueue sk una =
        tcpStopRetransmissionTimer { sk with writeQueue := [] } := by
      unfold tcpCleanRetransmissionQueue
      simp only [hempty, if_true]
    have hstop : Clocked (clock (tcpStopRetransmissionTimer { sk with writeQueue := [] })) :=
      clocked_tcpStopRetransmissionTimer hc
    rw [heq]
    exact ⟨hstop, iff_of_true rfl rfl, fun t ht hp => mem_of_pending_stopRetransmission ht hp⟩
  · have heq : tcpCleanRetransmissionQueue sk una =
        { sk with writeQueue := sk.writeQueue.dropWhile fun skb => skb.endSeq ≤ una } := by
      unfold tcpCleanRetransmissionQueue
      simp only [hempty, if_false]
    rw [heq]
    refine ⟨hc, ?_, fun t ht _ => ht⟩
    have hne : sk.writeQueue ≠ [] := fun h => hempty (by rw [h]; rfl)
    exact iff_of_false (fun hn => hne (hq.mp hn)) hempty

theorem Armed.afterFin (h : Armed sk) (hst : sk.state ≠ .synReceived) : Armed (afterFin sk) := by
  have htake : Armed (takeFin sk) := by
    have h' : Armed { sk with rcvNxt := sk.rcvNxt + 1, flagFin := true } := h.congr rfl rfl rfl
    exact h'.congr (clock_tcpSendAck _) (core_tcpSendAck _) (sendSide_tcpSendAck _)
  have hstate : (takeFin sk).state = sk.state := state_takeFin sk
  unfold Sides.afterFin
  cases hs : sk.state
  case synReceived => exact absurd hs hst
  case finWait2 => exact absurd hs h.state.1
  case established =>
    refine htake.move rfl rfl rfl (by simp [tcpRecvNotify, tcpSetState])
      (by simp [tcpRecvNotify, tcpSetState]) (by simp [tcpRecvNotify, tcpSetState]) (fun hun => ?_)
      (by simp [tcpRecvNotify, tcpSetState])
    unfold Unanswered at hun
    rw [hstate, hs] at hun
    simp at hun
  case finWait1 =>
    exact htake.move rfl rfl rfl (by simp [tcpSetState]) (by simp [tcpSetState]) (by simp [tcpSetState])
      (fun _ => Or.inr (Or.inr (Or.inr rfl))) (by simp [tcpSetState])
  all_goals exact htake

/-- A segment for a sock that is not in `SYN_SENT`. -/
theorem armed_segmentRule (seg : Seg) :
    SegmentRule seg fun sk => sk.freed = true ∨ Armed sk ∧ sk.state ≠ .synSent where
  ack sk h := by
    refine h.imp (fun hf => ?_) fun ⟨h, hst⟩ => ⟨?_, ?_⟩
    · exact (congrArg Core.freed (core_tcpSendAck sk)).trans hf
    · exact h.congr (clock_tcpSendAck sk) (core_tcpSendAck sk) (sendSide_tcpSendAck sk)
    · rwa [show (tcpSendAck sk).state = sk.state from congrArg Core.state (core_tcpSendAck sk)]
  reset sk h := h.imp id fun ⟨h, hst⟩ =>
    ⟨h.move rfl rfl rfl h.idle (fun hs => h.orphan (Or.inl hs)) hst id h.state, hst⟩
  free sk _ _ := Or.inl rfl
  accept sk h hst hp _ _ := h.imp id fun ⟨h, _⟩ => by
    refine ⟨h.move rfl rfl rfl ?_ ?_ ?_ ?_ ?_, ?_⟩ <;> simp [accept, tcpSetState]
    -- a child has no `tcp_connect_rto`
    unfold Unanswered
    rw [hst, hp]
    simp
  take sk h hsync _ _ := by
    obtain ⟨timers, retransmit, heq⟩ :=
      tcpCleanRetransmissionQueue_eq { sk with sndUna := seg.th.ackSeq } seg.th.ackSeq
    refine h.imp (fun hf => by rw [heq]; exact hf) fun ⟨h, hst⟩ => ?_
    obtain ⟨hclock, hq, hrto⟩ :=
      clean_spec { sk with sndUna := seg.th.ackSeq } h.clocked h.queue seg.th.ackSeq
    rw [heq] at hclock hq hrto ⊢
    refine ⟨⟨hclock, hq, h.mss, fun hs => ?_, h.orphan, fun hs => absurd hs hst,
      fun t ht hp => h.rto t (hrto t ht hp) hp, h.state⟩, hst⟩
    have hs : sk.state = .close ∨ sk.state = .listen := hs
    rcases hs with hs | hs <;> rw [hs] at hsync <;> exact hsync.elim
  text sk h hopen := by
    have hcore := core_tcpDataQueue sk seg.th (tcpInitSegment seg)
    refine h.imp (fun hf => ?_) fun ⟨h, hst⟩ => ⟨?_, ?_⟩
    · exact (congrArg Core.freed hcore).trans hf
    · exact (h.tcpDataQueue seg.th (tcpInitSegment seg)).congr rfl rfl rfl
    · have hstate : (tcpDataQueue sk seg.th (tcpInitSegment seg)).state = sk.state :=
        congrArg Core.state hcore
      exact hstate ▸ hst
  fin sk h _ _ _ hrecv := by
    have hcore := core_afterFin sk
    refine h.imp (fun hf => ?_) fun ⟨h, hst⟩ => ⟨h.afterFin hrecv, ?_⟩
    · exact (congrArg Core.freed hcore).trans hf
    · rw [show (afterFin sk).state = finState sk.state from congrArg Core.state hcore]
      cases hs : sk.state <;> simp [finState]
      exact hst hs

/-- The answer to a SYN: an acceptable acknowledgement has emptied the queue before the connection
is established. -/
theorem Armed.tcpSynsent (h : Armed sk) (hst : sk.state = .synSent) (th : TcpHdr) :
    Armed (tcpSynsent sk th) := by
  obtain ⟨huna, hend⟩ := h.synSent hst
  have hpar := h.orphan (Or.inr hst)
  rcases tcpSynsent_cases sk th with heq | ⟨sk₁, hsk₁, hcases⟩
  · rw [heq]; exact h
  -- what the two ways to get there have in common
  have hmid : Clocked (clock sk₁) ∧ (sk₁.retransmit = none ↔ sk₁.writeQueue = []) ∧
      0 < sk₁.smss ∧ sk₁.parent = none ∧ (sk₁.sndUna > sk₁.isn → sk₁.writeQueue = []) := by
    rcases hsk₁ with rfl | ⟨hok, rfl⟩
    · refine ⟨h.clocked, h.queue, h.mss, hpar, fun hgt => ?_⟩
      have hgt : sk.sndUna > sk.isn := hgt
      rw [huna] at hgt
      exact absurd hgt (UInt32.lt_irrefl _)
    · obtain ⟨timers, retransmit, heq⟩ := tcpCleanRetransmissionQueue_eq
        { synAnswered sk th with sndUna := th.ackSeq } th.ackSeq
      obtain ⟨hclock, hq, -⟩ :=
        clean_spec { synAnswered sk th with sndUna := th.ackSeq } h.clocked h.queue th.ackSeq
      refine ⟨hclock, hq, by rw [heq]; exact h.mss, by rw [heq]; exact hpar, fun _ => ?_⟩
      rw [heq]
      refine List.dropWhile_eq_nil_iff.mpr fun skb hskb => ?_
      have hisn : sk.isn ≤ th.ackSeq := by
        unfold synsentAckOk at hok
        simp only [Bool.and_eq_true, Bool.not_eq_true', Bool.or_eq_false_iff,
          decide_eq_false_iff_not, UInt32.not_lt] at hok
        exact hok.1.1
      rw [(hend skb hskb).2]
      exact decide_eq_true hisn
  obtain ⟨hclock, hq, hmss, hpar₁, hempty⟩ := hmid
  rcases hcases with ⟨hgt, heq⟩ | ⟨-, heq⟩ <;> rw [heq]
  · have hnone := hq.mpr (hempty hgt)
    have hsk₂ : Armed (tcpSetState { sk₁ with sndUna := sk₁.sndNxt } .established) := by
      refine ⟨hclock, hq, hmss, by simp [tcpSetState], by simp [tcpSetState], by simp [tcpSetState],
        fun t ht hp => ?_, by simp [tcpSetState]⟩
      obtain ⟨i, hi, rfl⟩ := List.mem_iff_getElem.mp ht
      have hown : Owns (Pending IsRetransmission) sk₁.timers none := hnone ▸ hclock.retransmit
      exact absurd ⟨hp.1, Or.inl hp.2⟩ (hown.not_live (List.getElem?_eq_getElem hi))
    have hack := hsk₂.congr (clock_tcpSendAck _) (core_tcpSendAck _) (sendSide_tcpSendAck _)
    exact hack.congr rfl rfl rfl
  · rw [tcpSendSynack_eq rfl]
    exact ⟨hclock, hq, hmss, by simp [tcpSetState], by simp [tcpSetState], by simp [tcpSetState],
      fun _ _ _ => Or.inr (Or.inl ⟨rfl, hpar₁⟩), by simp [tcpSetState]⟩

theorem Armed.tcpProcess (h : Armed sk) (hrun : tcpProcess sk seg = .ok sk') :
    sk'.freed = true ∨ Armed sk' := by
  by_cases hst : sk.state = .synSent
  · rw [tcpProcess_synSent hst] at hrun
    exact Or.inr (Except.ok.inj hrun ▸ h.tcpSynsent hst seg.th)
  · exact ((armed_segmentRule seg).tcpProcess (Or.inr ⟨h, hst⟩) hst hrun).imp_right And.left

/-! ### Timers -/

/-- The head of the queue leaves again, and the timer is set again. -/
theorem Armed.resend (h : Armed sk) {i : ℕ} (hi : sk.retransmit = some i) {skb : Skb} {q : List Skb}
    (hq : sk.writeQueue = skb :: q) {handler : Handler} (hr : IsRetransmission handler)
    (hrto : handler = .tcpConnectRto → Unanswered sk) {expire : UInt32}
    (hclock' : clock sk' = ⟨(tcpReleaseRetransmissionTimer (expired sk i)).timers ++
      [{ handler := handler, expire := expire }],
      some (tcpReleaseRetransmissionTimer (expired sk i)).timers.length, sk.delack⟩)
    (hcore : core sk' = core sk)
    (hsend : sendSide sk' = { sendSide sk with writeQueue := sentSkb sk skb sk.sndUna :: q }) :
    Armed sk' := by
  have hclock : Clocked ⟨(tcpReleaseRetransmissionTimer (expired sk i)).timers, none, sk.delack⟩ :=
    clocked_releaseRetransmission h.clocked hi
  have hst : sk'.state = sk.state := congrArg Core.state hcore
  have hp' : sk'.parent = sk.parent := congrArg Core.parent hcore
  have hw : sk'.writeQueue = sentSkb sk skb sk.sndUna :: q := congrArg SendSide.writeQueue hsend
  have hts : sk'.timers = _ := congrArg Timing.timers hclock'
  have hre : sk'.retransmit = _ := congrArg Timing.retransmit hclock'
  have hm : sk'.smss = sk.smss := congrArg Core.smss hcore
  refine ⟨hclock' ▸ hclock.addRetransmission expire hr, ?_, hm ▸ h.mss, fun hs => ?_, ?_, fun hs => ?_,
    fun t ht hp => ?_, hst ▸ h.state⟩
  · rw [hre, hw]
    exact iff_of_false (Option.some_ne_none _) (by simp)
  · rw [hst] at hs
    rw [h.idle hs] at hq
    exact absurd hq (by simp)
  · rw [hst, hp']
    exact h.orphan
  · rw [hst] at hs
    obtain ⟨huna, hend⟩ := h.synSent hs
    rw [hq] at hend
    have hisn : sk'.isn = sk.isn := congrArg SendSide.isn hsend
    have huna' : sk'.sndUna = sk.sndUna := congrArg SendSide.sndUna hsend
    rw [hw, hisn, huna']
    refine ⟨huna, fun x hx => ?_⟩
    rcases List.mem_cons.mp hx with rfl | hx
    · have hdlen := (hend skb (List.mem_cons_self ..)).1
      refine ⟨hdlen, ?_⟩
      show sk.sndUna + skb.dlen = sk.isn
      rw [hdlen, huna, UInt32.add_zero]
    · exact hend x (List.mem_cons_of_mem _ hx)
  · unfold Unanswered
    rw [hst, hp']
    rw [hts] at ht
    rcases List.mem_append.mp ht with ht | ht
    · obtain ⟨j, hj, rfl⟩ := List.mem_iff_getElem.mp ht
      exact absurd ⟨hp.1, Or.inl hp.2⟩
        (hclock.retransmit.not_live (List.getElem?_eq_getElem hj))
    · rw [List.mem_singleton.mp ht] at hp
      exact hrto hp.2

/-- What `tcp_retransmission_timeout` does when the queue is not empty. -/
theorem tcpRetransmissionTimeout_resend {skb : Skb} {q : List Skb} (hq : sk.writeQueue = skb :: q) :
    tcpRetransmissionTimeout sk = { tcpReleaseRetransmissionTimer sk with
      writeQueue := sentSkb sk skb sk.sndUna :: q
      out := sk.out ++ [sentSeg sk skb sk.sndUna]
      timers := (tcpReleaseRetransmissionTimer sk).timers ++
        [{ handler := .tcpRetransmissionTimeout, expire := 500 }]
      retransmit := some (tcpReleaseRetransmissionTimer sk).timers.length
      state := if skb.th.fin then refinState sk.state else sk.state } := by
  obtain ⟨timers, hr⟩ := tcpReleaseRetransmissionTimer_eq sk
  unfold tcpRetransmissionTimeout
  rw [hr]
  simp only [hq, tcpHandleFinState_eq]
  split_ifs <;> rfl

/-- A FIN that leaves again can change the state. -/
theorem Armed.refin (h : Armed sk) {st : TcpState} (hst : st = refinState sk.state ∨ st = sk.state) :
    Armed { sk with state := st } := by
  by_cases hsame : st = sk.state
  · exact h.congr rfl (by rw [hsame]) rfl
  have hst : st = refinState sk.state := hst.resolve_right hsame
  subst hst
  cases hs : sk.state <;> rw [hs] at hsame
  case established =>
    exact h.move rfl rfl rfl (by simp [refinState]) (by simp [refinState]) (by simp [refinState])
      (fun _ => Or.inr (Or.inr (Or.inl rfl))) (by simp [refinState])
  case closeWait =>
    refine h.move rfl rfl rfl (by simp [refinState]) (by simp [refinState]) (by simp [refinState])
      (fun hun => ?_) (by simp [refinState])
    unfold Unanswered at hun
    rw [hs] at hun
    simp at hun
  all_goals exact absurd rfl hsame

/-- A timer of the sock fires. -/
theorem Armed.fireTimer (h : Armed sk) {i : ℕ} (hfire : fireTimer sk i = some sk') :
    sk'.freed = true ∨ Armed sk' := by
  have hne : sk.retransmit = some i → ∃ skb q, sk.writeQueue = skb :: q := fun hi => by
    cases hq : sk.writeQueue with
    | nil =>
      have := h.queue.mpr hq
      rw [hi] at this
      exact absurd this (by simp)
    | cons skb q => exact ⟨skb, q, rfl⟩
  rcases h.clocked.fireTimer hfire with ⟨hi, ⟨t, ht, hh⟩, rfl⟩ | ⟨hi, rfl⟩ | ⟨hi, rfl⟩
  · -- `tcp_connect_rto`: out of reach of `ESTABLISHED`
    obtain ⟨u, hu, hc, -⟩ := (h.clocked.retransmit i).mp hi
    obtain rfl := Option.some.inj (ht.symm.trans hu)
    have hun := h.rto t (List.mem_of_getElem? ht) ⟨hc, hh⟩
    have hst : (expired sk i).state ≠ .established := by
      show sk.state ≠ .established
      rcases hun with hs | ⟨hs, -⟩ | hs | hs <;> rw [hs] <;> simp
    by_cases hb : (expired sk i).backoff > 3
    · rw [tcpConnectRto_free hst hb]
      exact Or.inl rfl
    · obtain ⟨skb, q, hq⟩ := hne hi
      obtain ⟨timers, hr⟩ := tcpReleaseRetransmissionTimer_eq (expired sk i)
      have hts : (tcpReleaseRetransmissionTimer (expired sk i)).timers = timers := by rw [hr]
      right
      rw [tcpConnectRto_cons hst hb hq, hr, tcpResetRetransmissionTimer_none rfl]
      refine h.resend hi hq ?_ ?_ (by rw [hts]; rfl) rfl rfl
      · exact isRetransmission_retransmissionTimer _
      · intro hr
        have hs := state_of_retransmissionTimer hr
        exact Or.inl hs
  · obtain ⟨skb, q, hq⟩ := hne hi
    right
    have hq' : (expired sk i).writeQueue = skb :: q := hq
    obtain ⟨timers, hr⟩ := tcpReleaseRetransmissionTimer_eq (expired sk i)
    have hts : (tcpReleaseRetransmissionTimer (expired sk i)).timers = timers := by rw [hr]
    rw [tcpRetransmissionTimeout_resend hq', hr]
    -- the state is set last
    have hsent : Armed { expired sk i with
        writeQueue := sentSkb (expired sk i) skb (expired sk i).sndUna :: q
        out := (expired sk i).out ++ [sentSeg (expired sk i) skb (expired sk i).sndUna]
        timers := timers ++ [{ handler := .tcpRetransmissionTimeout, expire := 500 }]
        retransmit := some timers.length } :=
      h.resend hi hq (Or.inr rfl) (by simp) (by rw [hts]; rfl) rfl rfl
    have hst : (if skb.th.fin then refinState sk.state else sk.state) = refinState sk.state ∨
        (if skb.th.fin then refinState sk.state else sk.state) = sk.state := by
      by_cases hfin : skb.th.fin
      · exact .inl (if_pos hfin)
      · exact .inr (if_neg hfin)
    exact (hsent.refin hst).congr rfl rfl rfl
  · right
    have hclock := clocked_releaseDelack h.clocked hi
    have hrel : Armed (tcpReleaseDelackTimer { expired sk i with delacks := 0 }) :=
      h.delacked hclock (fun _ => mem_of_pending_releaseDelack hi) 0
    exact hrel.congr (clock_tcpSendAck _) (core_tcpSendAck _) (sendSide_tcpSendAck _)

/-! ### Runs -/

theorem armed_of_born (h : Born sk) : Armed sk := by
  have hmss : (0 : UInt16) < 1460 := by decide
  cases h with
  | alloc =>
    exact ⟨clocked_nil, iff_of_true rfl rfl, hmss, fun _ => rfl, fun _ => rfl, by simp [tcpAllocSock],
      by simp [tcpAllocSock], by simp [tcpAllocSock]⟩
  | listening sport =>
    exact ⟨clocked_nil, iff_of_true rfl rfl, hmss, fun _ => rfl, fun _ => rfl, by simp [listenSock],
      by simp [listenSock, tcpAllocSock], by simp [listenSock]⟩
  | child listener seg isn sk h =>
    unfold tcpHandleListen at h
    split_ifs at h
    obtain rfl := Option.some.inj h
    rw [tcpSendSynack_eq rfl]
    exact ⟨clocked_nil, iff_of_true rfl rfl, hmss, fun _ => rfl, by simp [tcpSetState],
      by simp [tcpSetState], by simp [tcpSetState, tcpListenChildSock, tcpAllocSock],
      by simp [tcpSetState]⟩

/-- What one event preserves. -/
theorem Armed.step (h : Armed sk) (hstep : LifeStep sk sk') : sk'.freed = true ∨ Armed sk' := by
  cases hstep with
  | connect hst saddr daddr sport dport isn =>
    exact Or.inr (h.connect hst saddr daddr sport dport isn)
  | accept => exact Or.inr (h.congr rfl rfl rfl)
  | parent st =>
    right
    refine ⟨h.clocked, h.queue, h.mss, h.idle, fun hs => ?_, h.synSent, fun t ht hp => ?_, h.state⟩
    · show sk.parent.map _ = none
      rw [h.orphan hs]
      rfl
    · rcases h.rto t ht hp with hs | ⟨hs, hpar⟩ | hs | hs
      · exact Or.inl hs
      · refine Or.inr (Or.inl ⟨hs, ?_⟩)
        show sk.parent.map _ = none
        rw [hpar]
        rfl
      · exact Or.inr (Or.inr (Or.inl hs))
      · exact Or.inr (Or.inr (Or.inr hs))
  | write buf => exact Or.inr (h.tcpWrite buf)
  | close => exact h.tcpClose
  | read len =>
    right
    unfold tcpReadStart
    split
    case h_7 => split_ifs <;> exact h.congr rfl rfl rfl
    all_goals exact h
  | receive len rlen =>
    right
    unfold tcpReceiveRound tcpDataDequeue
    simp only
    split_ifs <;> exact h.congr rfl rfl rfl
  | timer i sk' hfire => exact h.fireTimer hfire
  | segment seg sk' hrun => exact h.tcpProcess hrun

/-- **In every state of a life the retransmission timer is armed exactly while something may have to
be sent again.** -/
theorem armed_life {sk₀ : TcpSock} {es : List LifeEvent} (hborn : Born sk₀)
    (hrun : run lifeStep sk₀ es = some sk) (hlive : sk.freed = false) : ArmedExactly sk := by
  rcases live_run (fun _ _ => Armed.step) (armed_of_born hborn) hrun with hf | hinv
  · rw [hlive] at hf
    exact absurd hf (by simp)
  · exact hinv.armedExactly

/-- A client that sends its SYN twice, is established, writes, and is acknowledged in part. -/
def clientLife : List LifeEvent :=
  [.connect 1 2 3 4 100, .sock (.timer 0),
    .sock (.segment { th := { seq := 500, ackSeq := 101, syn := true, ack := true } }),
    .sock (.write [1, 2]), .sock (.write [3]),
    .sock (.segment { th := { seq := 501, ackSeq := 102, ack := true } })]

theorem armed_life_client : ∃ sk, Born tcpAllocSock ∧
    run lifeStep tcpAllocSock clientLife = some sk ∧ sk.freed = false ∧ sk.writeQueue ≠ [] ∧
      ArmedExactly sk := by
  have hend : (run lifeStep tcpAllocSock clientLife).map
      (fun sk => (sk.freed, sk.writeQueue.isEmpty)) = some (false, false) := by decide
  obtain ⟨sk, hrun, hsk⟩ := Option.map_eq_some_iff.mp hend
  obtain ⟨hfreed, hq⟩ := Prod.mk.inj hsk
  refine ⟨sk, .alloc, hrun, hfreed, fun hnil => ?_, armed_life .alloc hrun hfreed⟩
  rw [hnil] at hq
  exact absurd hq (by decide)

end ToyIP.Tcp.RetransmitTimer
