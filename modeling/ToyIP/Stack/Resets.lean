import ToyIP.Net.Route
import ToyIP.Stack.TcpLookup
import ToyIP.Tcp.SynCheck

/-! # Resets

`tcp_send_reset` answers a segment that does not belong to its sock, but it is given the sock and not
the segment: the reset goes to the address and port of the sock, which a listening sock has not, and
`snd_una` is set to `snd_nxt`. `resets_right_iff` says for which socks and segments the sender gets
the reset and the sock keeps its place. -/

namespace ToyIP.Stack.Resets

open ToyIP.Lib ToyIP.Lib.CircularList ToyIP.Lib.Run ToyIP.Tcp.Types ToyIP.Tcp.Output ToyIP.Tcp.Data
  ToyIP.Tcp.Input ToyIP.Tcp.Sides ToyIP.Tcp.Life ToyIP.Tcp.Teardown ToyIP.Tcp.Places
  ToyIP.Stack.TcpSocks
open ToyIP.Tcp.SynCheck (Later Removed synCheck_kept synCheck_removed tcpProcess_later
  tcpProcess_removed)
open ToyIP.Net.Route (routeLookup routeInit)

/-! ### The property -/

/-- What was handed to `ip_output` in between. -/
def sent (sk sk' : TcpSock) : List Seg := sk'.out.drop sk.out.length

/-- The segment `r` goes to where `seg` came from, from where it was sent to. The source address is
that of the device, which `ip_output` finds with the destination in a new buffer, 0. -/
structure Addressed (r seg : Seg) : Prop where
  saddr : (routeLookup routeInit 0).map (fun rt => rt.dev.addr) = some seg.daddr
  sport : r.th.sport = seg.th.dport
  daddr : r.daddr = seg.saddr
  dport : r.th.dport = seg.th.sport

/-- **Every reset is for the sender,** and if there is one, a sock that remains in its state and its
table keeps `snd_una`. -/
structure Right (sk : TcpSock) (seg : Seg) (sk' : TcpSock) : Prop where
  addressed : ∀ r ∈ sent sk sk', r.th.rst = true → Addressed r seg
  keeps : (∃ r ∈ sent sk sk', r.th.rst = true) → sk'.freed = false → sk'.state = sk.state →
    sk'.link = sk.link → sk'.sndUna = sk.sndUna

/-! ### The condition -/

/-- The segment comes from the other side of the connection. -/
def Peer (sk : TcpSock) (seg : Seg) : Prop := sk.daddr = seg.saddr ∧ sk.dport = seg.th.sport

/-- `tcp_process` sends a reset. -/
def SendsReset (sk : TcpSock) (seg : Seg) : Prop :=
  match sk.state with
  | .close => seg.th.rst = false
  | .listen => seg.th.rst = false ∧ seg.th.ack = true
  | .synSent => False
  | .synReceived => tcpPacketFilter sk seg.th (tcpInitSegment seg) = true ∧
      (seg.th.syn = true ∨
        seg.th.ack = true ∧ ¬ (sk.sndUna ≤ seg.th.ackSeq ∧ seg.th.ackSeq ≤ sk.sndNxt))
  | _ => tcpPacketFilter sk seg.th (tcpInitSegment seg) = true ∧ seg.th.syn = true

/-- `rcv_nxt` with the text of the segment. -/
def nextWithText (sk : TcpSock) (seg : Seg) : UInt32 :=
  if 0 < seg.dlen then (takeText sk.rcvNxt sk.ofoQueue sk.receiveQueue (tcpInitSegment seg)).1
  else sk.rcvNxt

/-- The FIN of the segment takes the sock to its next state. -/
def FinMoves (sk : TcpSock) (seg : Seg) : Prop :=
  (sk.state = .established ∨ sk.state = .finWait1 ∨ sk.state = .finWait2) ∧ seg.th.ack = true ∧
    seg.th.ackSeq = sk.sndNxt ∧ seg.th.fin = true ∧ nextWithText sk seg - seg.dlen = seg.th.seq

instance (sk : TcpSock) (seg : Seg) : Decidable (Peer sk seg) := inferInstanceAs (Decidable (_ ∧ _))

instance (sk : TcpSock) (seg : Seg) : Decidable (FinMoves sk seg) :=
  inferInstanceAs (Decidable (_ ∧ _))

instance (sk : TcpSock) (seg : Seg) : Decidable (SendsReset sk seg) := by
  unfold SendsReset
  split <;> infer_instance

/-- The reset does what it should. -/
def Harmless (sk : TcpSock) (seg : Seg) : Prop :=
  Peer sk seg ∧ (sk.sndUna = sk.sndNxt ∨ seg.th.syn = true ∧ Removed sk ∨ FinMoves sk seg)

instance (sk : TcpSock) (seg : Seg) : Decidable (Harmless sk seg) :=
  inferInstanceAs (Decidable (_ ∧ _))

variable {sk sk' : TcpSock} {seg : Seg}

/-! ### Steps without a reset -/

/-- No reset was sent. -/
def Quiet (a b : TcpSock) : Prop := Emits (fun r => r.th.rst = false) a b

theorem quiet_tcpSendAck (sk : TcpSock) : Quiet sk (tcpSendAck sk) := by
  rw [tcpSendAck_eq]
  refine ⟨_, rfl, fun r hr => ?_⟩
  split_ifs at hr
  · cases hr
  · rw [List.mem_singleton.mp hr]
    rfl

theorem quiet_tcpAckData (sk : TcpSock) (th : TcpHdr) (skb : Skb) : Quiet sk (tcpAckData sk th skb) := by
  unfold tcpAckData
  split_ifs
  · exact quiet_tcpSendAck { sk with delacks := 0 }
  · exact Emits.of_out rfl

theorem quiet_segmentText (sk : TcpSock) (th : TcpHdr) (skb : Skb) :
    Quiet sk (segmentText sk th skb) := by
  have hqueue : Quiet sk (tcpDataQueue sk th skb) := by
    unfold tcpDataQueue
    split_ifs
    · exact Emits.refl sk
    · exact quiet_tcpAckData _ th skb
    · exact quiet_tcpSendAck { sk with ofoQueue := tcpDataInsertOrdered sk.ofoQueue skb }
  rcases segmentText_cases sk th skb with heq | heq <;> rw [heq]
  · exact Emits.refl sk
  · exact hqueue

theorem quiet_textFin (sk : TcpSock) (th : TcpHdr) (skb : Skb) :
    Quiet sk (finCheck (segmentText sk th skb) th skb) := by
  have hfin : ∀ s, Quiet s (afterFin s) := by
    intro s
    have htake : Quiet s (takeFin s) :=
      quiet_tcpSendAck { s with rcvNxt := s.rcvNxt + 1, flagFin := true }
    unfold afterFin
    split <;> exact htake
  refine (quiet_segmentText sk th skb).trans ?_
  rcases finCheck_cases (segmentText sk th skb) th skb with heq | ⟨-, -, heq⟩ <;> rw [heq]
  · exact Emits.refl _
  · exact hfin _

theorem quiet_tcpSynsent (sk : TcpSock) (th : TcpHdr) : Quiet sk (tcpSynsent sk th) := by
  rcases tcpSynsent_cases sk th with heq | ⟨sk₁, hsk₁, hend⟩
  · rw [heq]
    exact Emits.refl sk
  have hout : sk₁.out = sk.out := by
    rcases hsk₁ with rfl | ⟨-, rfl⟩
    · rfl
    · obtain ⟨timers, retransmit, heq⟩ := tcpCleanRetransmissionQueue_eq
        { synAnswered sk th with sndUna := th.ackSeq } th.ackSeq
      rw [heq]
      rfl
  have h₁ : ∀ {s t : TcpSock}, s.out = sk₁.out → Quiet s t → Quiet sk t := fun hs ht =>
    Emits.trans (.of_out (hs.trans hout)) ht
  rcases hend with ⟨-, heq⟩ | ⟨-, heq⟩ <;> rw [heq]
  · exact h₁ (s := { tcpSetState sk₁ .established with sndUna := sk₁.sndNxt }) rfl
      (quiet_tcpSendAck _)
  · refine h₁ (s := { tcpSetState sk₁ .synReceived with sndUna := sk₁.isn }) rfl ?_
    rw [tcpSendSynack_eq rfl]
    exact ⟨_, rfl, fun r hr => by rw [List.mem_singleton.mp hr]; rfl⟩

/-- The acknowledgement of a segment sends nothing, or it is the one of `SYN_RECEIVED` that is not
acceptable. -/
theorem ackCheck_cases {th : TcpHdr} {b : Bool} (hrun : ackCheck sk th = .ok (sk', b)) :
    sk'.out = sk.out ∨ sk.state = .synReceived ∧ b = false ∧
      ¬ (sk.sndUna ≤ th.ackSeq ∧ th.ackSeq ≤ sk.sndNxt) ∧ sk' = tcpSendReset sk := by
  by_cases hsync : Synchronized sk.state
  · rw [ackCheck_eq hsync] at hrun
    obtain ⟨rfl, -⟩ := Prod.mk.inj (Except.ok.inj hrun)
    exact .inl (out_takeAck sk th)
  unfold ackCheck at hrun
  cases hst : sk.state <;> rw [hst] at hrun hsync <;> simp only at hrun
  case synReceived =>
    split_ifs at hrun with hok
    · split at hrun
      · cases hrun
      · exact .inl ((Prod.mk.inj (Except.ok.inj hrun)).1 ▸ rfl)
      · exact .inl ((Prod.mk.inj (Except.ok.inj hrun)).1 ▸ rfl)
    · obtain ⟨rfl, rfl⟩ := Prod.mk.inj (Except.ok.inj hrun)
      exact .inr ⟨rfl, rfl, hok, rfl⟩
  case established | finWait1 | finWait2 | closeWait | closing | lastAck => exact absurd trivial hsync
  all_goals exact .inl ((Prod.mk.inj (Except.ok.inj hrun)).1 ▸ rfl)

theorem sendsReset_later (hst : Later sk.state) : SendsReset sk seg ↔
    tcpPacketFilter sk seg.th (tcpInitSegment seg) = true ∧
      (seg.th.syn = true ∨ sk.state = .synReceived ∧ seg.th.ack = true ∧
        ¬ (sk.sndUna ≤ seg.th.ackSeq ∧ seg.th.ackSeq ≤ sk.sndNxt)) := by
  unfold SendsReset
  cases h : sk.state <;> rw [h] at hst <;> first | exact absurd hst id | simp

theorem quiet_of_not_sends (hno : ¬ SendsReset sk seg) (hrun : tcpProcess sk seg = .ok sk') :
    Quiet sk sk' := by
  by_cases hst : Later sk.state
  · by_cases hf : tcpPacketFilter sk seg.th (tcpInitSegment seg) = true
    · rw [sendsReset_later hst] at hno
      have hsyn : seg.th.syn = false := Bool.eq_false_iff.mpr fun h => hno ⟨hf, .inl h⟩
      rw [tcpProcess_later hst hf, processInWindow, hsyn] at hrun
      simp only [Bool.false_eq_true, if_false, Bool.false_and] at hrun
      split_ifs at hrun with hack
      · exact Except.ok.inj hrun ▸ Emits.refl sk
      rw [Bool.not_eq_true', Bool.not_eq_false] at hack
      split at hrun
      · cases hrun
      · rename_i sk₂ heq
        obtain rfl := Except.ok.inj hrun
        rcases ackCheck_cases heq with hout | ⟨hsr, -, hout, -⟩
        · exact Emits.of_out hout
        · exact absurd ⟨hf, .inr ⟨hsr, hack, hout⟩⟩ hno
      · rename_i sk₂ heq
        obtain rfl := Except.ok.inj hrun
        rcases ackCheck_cases heq with hout | ⟨-, hb, -⟩
        · exact Emits.trans (.of_out hout) (quiet_textFin sk₂ seg.th (tcpInitSegment seg))
        · cases hb
    · rw [tcpProcess_filter, if_neg hf] at hrun
      · obtain rfl := Except.ok.inj hrun
        split_ifs
        · exact Emits.refl sk
        · exact quiet_tcpSendAck sk
      all_goals
        intro h
        rw [h] at hst
        exact hst
  · unfold tcpProcess at hrun
    unfold SendsReset at hno
    cases h : sk.state <;> rw [h] at hrun hno hst <;> simp only at hrun hno
    case close =>
      rw [Bool.not_eq_false] at hno
      rw [tcpClosed, if_pos hno] at hrun
      exact Except.ok.inj hrun ▸ Emits.refl sk
    case listen =>
      obtain rfl := Except.ok.inj hrun
      unfold tcpHandleListen
      split_ifs with hrst hack
      · exact Emits.refl sk
      · exact absurd ⟨Bool.eq_false_iff.mpr hrst, hack⟩ hno
      · exact Emits.refl sk
      · exact Emits.refl sk
    case synSent => exact Except.ok.inj hrun ▸ quiet_tcpSynsent sk seg.th
    all_goals exact absurd trivial hst

/-! ### Steps with a reset -/

/-- The sock after a segment that is answered by a reset. -/
inductive Outcome (sk : TcpSock) (seg : Seg) : TcpSock → Prop
  | reset (hkept : ¬ (seg.th.syn = true ∧ Removed sk)) (hfin : ¬ FinMoves sk seg) :
    Outcome sk seg (tcpSendReset sk)
  | twice (hkept : ¬ (seg.th.syn = true ∧ Removed sk)) (hfin : ¬ FinMoves sk seg) :
    Outcome sk seg (tcpSendReset (tcpSendReset sk))
  | removed (hsyn : seg.th.syn = true) (hrem : Removed sk) :
    Outcome sk seg (tcpFreeSock { tcpSendReset sk with link := none })
  | further (hsr : sk.state ≠ .synReceived)
    (hfilter : tcpPacketFilter sk seg.th (tcpInitSegment seg) = true) (hack : seg.th.ack = true)
    (hok : sk.state = .timeWait ∨ seg.th.ackSeq = sk.sndNxt) :
    Outcome sk seg (finCheck (segmentText (tcpSendReset sk) seg.th (tcpInitSegment seg)) seg.th
      (tcpInitSegment seg))

/-- Behind the reset of a SYN nothing is left to acknowledge. -/
theorem ackCheck_reset {th : TcpHdr} {b : Bool} (hst : Later sk.state) (hkept : ¬ Removed sk)
    (hrun : ackCheck (tcpSendReset sk) th = .ok (sk', b)) :
    sk.state = .synReceived ∧ b = false ∧ sk' = tcpSendReset (tcpSendReset sk) ∨
      sk.state ≠ .synReceived ∧ sk' = tcpSendReset sk ∧
        (b = true ↔ sk.state = .timeWait ∨ th.ackSeq = sk.sndNxt) := by
  have hcore : (tcpSendReset sk).state = sk.state := rfl
  by_cases hsync : Synchronized sk.state
  · obtain ⟨⟨-, hsr⟩, -, -⟩ := ne_of_synchronized hsync
    have htime : sk.state ≠ .timeWait := by
      intro h
      rw [h] at hsync
      exact hsync
    have hnot : ¬ ((tcpSendReset sk).sndUna < th.ackSeq ∧ th.ackSeq ≤ (tcpSendReset sk).sndNxt) :=
      fun h => absurd h.1 (UInt32.not_lt.mpr h.2)
    rw [ackCheck_eq (hcore ▸ hsync), takeAck_of_not_taken hnot] at hrun
    obtain ⟨rfl, rfl⟩ := Prod.mk.inj (Except.ok.inj hrun)
    refine .inr ⟨hsr, rfl, ?_⟩
    rw [show (tcpSendReset sk).sndUna = sk.sndNxt from rfl,
      show (tcpSendReset sk).sndNxt = sk.sndNxt from rfl]
    simp only [htime, false_or, Bool.not_eq_true', Bool.or_eq_false_iff, decide_eq_false_iff_not,
      gt_iff_lt, UInt32.not_lt]
    exact ⟨fun h => UInt32.le_antisymm h.1 h.2,
      fun h => ⟨UInt32.le_of_eq h, UInt32.le_of_eq h.symm⟩⟩
  unfold ackCheck at hrun
  rw [hcore] at hrun
  cases hs : sk.state <;> rw [hs] at hrun hst hsync <;> simp only at hrun
  case synReceived =>
    have hparent : (tcpSendReset sk).parent = none := not_not.mp fun h => hkept ⟨hs, h⟩
    rw [hparent] at hrun
    split_ifs at hrun
    obtain ⟨rfl, rfl⟩ := Prod.mk.inj (Except.ok.inj hrun)
    exact .inl ⟨rfl, rfl, rfl⟩
  case timeWait =>
    obtain ⟨rfl, rfl⟩ := Prod.mk.inj (Except.ok.inj hrun)
    exact .inr ⟨TcpState.noConfusion, rfl, by simp⟩
  case close | listen | synSent => exact absurd hst id
  all_goals exact absurd trivial hsync

theorem outcome_of_sends (hf : sk.freed = false) (hsends : SendsReset sk seg)
    (hrun : tcpProcess sk seg = .ok sk') : Outcome sk seg sk' := by
  by_cases hst : Later sk.state
  · obtain ⟨hfilter, hwhy⟩ := (sendsReset_later hst).mp hsends
    have hlater := hrun
    rw [tcpProcess_later hst hfilter, processInWindow] at hrun
    by_cases hsyn : seg.th.syn = true
    · rw [hsyn] at hrun
      simp only [if_true, Bool.true_and] at hrun
      by_cases hrem : Removed sk
      · by_cases hack : seg.th.ack = true
        · -- the freed sock is read
          rw [tcpProcess_removed hrem hsyn hack hfilter] at hlater
          cases hlater
        · rw [Bool.not_eq_true] at hack
          rw [synCheck_removed hrem, hack] at hrun
          exact Except.ok.inj hrun ▸ .removed hsyn hrem
      have hkept : ¬ (seg.th.syn = true ∧ Removed sk) := fun h => hrem h.2
      have hf' : (tcpSendReset sk).freed = false := hf
      rw [synCheck_kept hrem, hf'] at hrun
      split_ifs at hrun with hack
      · refine Except.ok.inj hrun ▸ .reset hkept fun hfin => ?_
        rw [hfin.2.1] at hack
        cases hack
      rw [Bool.not_eq_true', Bool.not_eq_false] at hack
      split at hrun
      · cases hrun
      · rename_i sk₂ heq
        obtain rfl := Except.ok.inj hrun
        rcases ackCheck_reset hst hrem heq with ⟨hsr, -, rfl⟩ | ⟨-, rfl, hok⟩
        · exact .twice hkept fun hfin => by simp [FinMoves, hsr] at hfin
        · exact .reset hkept fun hfin => absurd (hok.mpr (.inr hfin.2.2.1)) Bool.false_ne_true
      · rename_i sk₂ heq
        obtain rfl := Except.ok.inj hrun
        rcases ackCheck_reset hst hrem heq with ⟨-, hb, -⟩ | ⟨hsr, rfl, hok⟩
        · cases hb
        · exact .further hsr hfilter hack (hok.mp rfl)
    · obtain ⟨hsr, hack, hout⟩ := hwhy.resolve_left hsyn
      have hno : ackCheck sk seg.th = .ok (tcpSendReset sk, false) := by
        rw [ackCheck, hsr]
        exact if_neg hout
      simp only [hsyn, hack, Bool.false_eq_true, if_false, Bool.not_true, Bool.false_and, hno] at hrun
      exact Except.ok.inj hrun ▸
        .reset (fun h => hsyn h.1) fun hfin => by simp [FinMoves, hsr] at hfin
  · unfold tcpProcess at hrun
    unfold SendsReset at hsends
    cases h : sk.state <;> rw [h] at hrun hsends hst <;> simp only at hrun hsends
    case close =>
      rw [tcpClosed, hsends, if_neg Bool.false_ne_true] at hrun
      exact Except.ok.inj hrun ▸ .reset (fun hr => by simp [Removed, h] at hr)
        fun hfin => by simp [FinMoves, h] at hfin
    case listen =>
      obtain rfl := Except.ok.inj hrun
      rw [tcpHandleListen, hsends.1, hsends.2]
      exact .reset (fun hr => by simp [Removed, h] at hr) fun hfin => by simp [FinMoves, h] at hfin
    all_goals exact absurd trivial hst

/-- The text of the segment is counted as the condition says. -/
theorem rcvNxt_text (hst : sk.state = .established ∨ sk.state = .finWait1 ∨ sk.state = .finWait2)
    (hfilter : tcpPacketFilter sk seg.th (tcpInitSegment seg) = true) :
    (segmentText (tcpSendReset sk) seg.th (tcpInitSegment seg)).rcvNxt = nextWithText sk seg := by
  unfold nextWithText
  split_ifs with hpos
  · have hw : (tcpSendReset sk).rcvWnd ≠ 0 := by
      intro hzero
      have hzero' : sk.rcvWnd = 0 := hzero
      have hpos' : (tcpInitSegment seg).dlen > 0 := hpos
      simp [tcpPacketFilter, hzero', hpos'] at hfilter
    rw [@segmentText_of_pos (tcpSendReset sk) (tcpInitSegment seg) hst hpos seg.th]
    exact congrArg RecvSide.rcvNxt (recvSide_tcpDataQueue hw seg.th (tcpInitSegment seg))
  · rw [segmentText_of_not_pos hpos]
    rfl

/-- With an acknowledgement that is acceptable, only the FIN changes the state. -/
theorem state_further (hsr : sk.state ≠ .synReceived)
    (hfilter : tcpPacketFilter sk seg.th (tcpInitSegment seg) = true) (hack : seg.th.ack = true)
    (hok : sk.state = .timeWait ∨ seg.th.ackSeq = sk.sndNxt) :
    (finCheck (segmentText (tcpSendReset sk) seg.th (tcpInitSegment seg)) seg.th
      (tcpInitSegment seg)).state = sk.state ↔ ¬ FinMoves sk seg := by
  have htext : (segmentText (tcpSendReset sk) seg.th (tcpInitSegment seg)).state = sk.state :=
    congrArg Core.state (core_segmentText _ _ _)
  have hmoves : ∀ t : TcpSock, t.state = sk.state → ((afterFin t).state = sk.state ↔
      ¬ (sk.state = .established ∨ sk.state = .finWait1 ∨ sk.state = .finWait2)) := by
    intro t ht
    rw [show (afterFin t).state = finState t.state from congrArg Core.state (core_afterFin t), ht]
    cases hs : sk.state <;> simp [finState, hs] at hsr ⊢
  by_cases h3 : sk.state = .established ∨ sk.state = .finWait1 ∨ sk.state = .finWait2
  · have hseq : seg.th.ackSeq = sk.sndNxt := by
      refine hok.resolve_left fun h => ?_
      rw [h] at h3
      simp at h3
    have hrcv := rcvNxt_text h3 hfilter
    generalize segmentText (tcpSendReset sk) seg.th (tcpInitSegment seg) = t at htext hrcv ⊢
    by_cases hfin : seg.th.fin = true ∧ t.rcvNxt - (tcpInitSegment seg).dlen = (tcpInitSegment seg).seq
    · have hopen : ¬ (t.state = .close ∨ t.state = .listen ∨ t.state = .synSent) := by
        rw [htext]
        rcases h3 with h | h | h <;> rw [h] <;> simp
      rw [finCheck_of_fin hfin.1 hfin.2, if_neg hopen, hmoves t htext, not_iff_not]
      exact iff_of_true h3 ⟨h3, hack, hseq, hfin.1, hrcv ▸ hfin.2⟩
    · rw [finCheck, if_neg hfin, htext]
      exact iff_of_true rfl fun h => hfin ⟨h.2.2.2.1, hrcv ▸ h.2.2.2.2⟩
  · refine iff_of_true ?_ fun h => h3 h.1
    rcases finCheck_cases (segmentText (tcpSendReset sk) seg.th (tcpInitSegment seg)) seg.th
      (tcpInitSegment seg) with heq | ⟨-, -, heq⟩ <;> rw [heq]
    · exact htext
    · exact (hmoves _ htext).mpr h3

theorem place_textFin (sk : TcpSock) (th : TcpHdr) (skb : Skb) :
    place (finCheck (segmentText sk th skb) th skb) = place sk := by
  have htext : place (segmentText sk th skb) = place sk := by
    rcases segmentText_cases sk th skb with heq | heq <;> rw [heq]
    exact place_tcpDataQueue sk th skb
  rcases finCheck_cases (segmentText sk th skb) th skb with heq | ⟨-, -, heq⟩ <;> rw [heq]
  · exact htext
  · exact (place_afterFin _).trans htext

/-! ### One sock -/

theorem addressed_resetSeg (hdst : seg.daddr = stackaddr) (hport : sk.sport = seg.th.dport) :
    Addressed (resetSeg sk) seg ↔ Peer sk seg := by
  refine ⟨fun h => ⟨h.daddr, h.dport⟩, fun h => ⟨?_, hport, h.1, h.2⟩⟩
  rw [hdst]
  decide

theorem right_iff_of_sent {l : List Seg} (hdst : seg.daddr = stackaddr)
    (hport : sk.sport = seg.th.dport) (hout : sk'.out = sk.out ++ resetSeg sk :: l)
    (hl : ∀ r ∈ l, r.th.rst = true → r = resetSeg sk) : Right sk seg sk' ↔ Peer sk seg ∧
      (sk'.freed = false → sk'.state = sk.state → sk'.link = sk.link → sk'.sndUna = sk.sndUna) := by
  have hsent : sent sk sk' = resetSeg sk :: l := by
    rw [sent, hout, List.drop_left]
  have hmem : resetSeg sk ∈ sent sk sk' := hsent ▸ List.mem_cons_self ..
  constructor
  · intro h
    exact ⟨(addressed_resetSeg hdst hport).mp (h.addressed _ hmem rfl), h.keeps ⟨_, hmem, rfl⟩⟩
  · rintro ⟨hpeer, hkeeps⟩
    refine ⟨fun r hr hrst => ?_, fun _ => hkeeps⟩
    have hr' : r = resetSeg sk := by
      rcases List.mem_cons.mp (hsent ▸ hr) with heq | hr
      · exact heq
      · exact hl r hr hrst
    rw [hr']
    exact (addressed_resetSeg hdst hport).mpr hpeer

theorem right_iff_of_sends (hf : sk.freed = false) (hdst : seg.daddr = stackaddr)
    (hport : sk.sport = seg.th.dport) (hsends : SendsReset sk seg)
    (hrun : tcpProcess sk seg = .ok sk') : Right sk seg sk' ↔ Harmless sk seg := by
  unfold Harmless
  cases outcome_of_sends hf hsends hrun with
  | reset hkept hfin =>
    rw [right_iff_of_sent (l := []) hdst hport rfl (by simp)]
    simp only [hkept, hfin, or_false]
    exact and_congr_right fun _ => ⟨fun h => (h hf rfl rfl).symm, fun h _ _ _ => h.symm⟩
  | twice hkept hfin =>
    rw [right_iff_of_sent (l := [resetSeg sk]) hdst hport (List.append_assoc ..) (by simp)]
    simp only [hkept, hfin, or_false]
    exact and_congr_right fun _ => ⟨fun h => (h hf rfl rfl).symm, fun h _ _ _ => h.symm⟩
  | removed hsyn hrem =>
    rw [right_iff_of_sent (l := []) hdst hport rfl (by simp)]
    exact and_congr_right fun _ => iff_of_true (fun h => by cases h) (.inr (.inl ⟨hsyn, hrem⟩))
  | further hsr hfilter hack hok =>
    have hstate := state_further hsr hfilter hack hok
    obtain ⟨l, hout, hl⟩ := quiet_textFin (tcpSendReset sk) seg.th (tcpInitSegment seg)
    have hcore := (state_textFin (tcpSendReset sk) seg.th (tcpInitSegment seg)).1
    have hsend := sendSide_textFin (tcpSendReset sk) seg.th (tcpInitSegment seg)
    have hplace := place_textFin (tcpSendReset sk) seg.th (tcpInitSegment seg)
    generalize finCheck (segmentText (tcpSendReset sk) seg.th (tcpInitSegment seg)) seg.th
      (tcpInitSegment seg) = t at hstate hout hcore hsend hplace
    have huna : t.sndUna = sk.sndNxt := congrArg SendSide.sndUna hsend
    have hfreed : t.freed = false := (congrArg Core.freed hcore).trans hf
    have hlink : t.link = sk.link := congrArg Place.link hplace
    rw [right_iff_of_sent (l := l) hdst hport (hout.trans (List.append_assoc ..))
      fun r hr hrst => absurd (hrst.symm.trans (hl r hr)) (by simp)]
    have hkept : ¬ (seg.th.syn = true ∧ Removed sk) := fun h => hsr h.2.1
    simp only [hkept, false_or, hstate, huna, hfreed, hlink, true_implies]
    refine and_congr_right fun _ => ?_
    rw [eq_comm, ← or_iff_not_imp_left, or_comm]

theorem right_iff (hf : sk.freed = false) (hdst : seg.daddr = stackaddr)
    (hport : sk.sport = seg.th.dport) (hrun : tcpProcess sk seg = .ok sk') :
    Right sk seg sk' ↔ (SendsReset sk seg → Harmless sk seg) := by
  by_cases hsends : SendsReset sk seg
  · rw [right_iff_of_sends hf hdst hport hsends hrun]
    exact ⟨fun h _ => h, fun h => h hsends⟩
  · obtain ⟨l, hout, hl⟩ := quiet_of_not_sends hsends hrun
    have hsent : sent sk sk' = l := by
      rw [sent, hout, List.drop_left]
    refine iff_of_true ⟨fun r hr hrst => ?_, fun ⟨r, hr, hrst⟩ => ?_⟩ fun h => absurd h hsends
    all_goals exact absurd (hrst.symm.trans (hl r (hsent ▸ hr))) (by simp)

/-! ### The sock of a segment -/

/-- The test has passed at the node that a walk ends at. -/
theorem passed_of_search {s : State} {head : Node} {p : TcpSock → Bool} {k : ℕ}
    (h : search s head p = some (some (.sock k))) (hsk : s.socks k = some sk) : p sk = true := by
  have hloop : ∀ (n : ℕ) (a : Option Node),
      listFind s.links head (test s p) n a = some (some (.sock k)) → p sk = true := by
    intro n
    induction n with
    | zero => exact fun _ h => by cases h
    | succ n ih =>
      rintro (_ | a) h
      · cases h
      rw [listFind] at h
      split_ifs at h
      · cases h
      obtain ⟨found, hfound, h⟩ := Option.bind_eq_some_iff.mp h
      cases found
      · obtain ⟨b, -, h⟩ := Option.bind_eq_some_iff.mp h
        exact ih b h
      · obtain rfl := Option.some.inj (Option.some.inj h)
        simpa [test, hsk] using hfound
  obtain ⟨a, -, h⟩ := Option.bind_eq_some_iff.mp h
  exact hloop _ a h

theorem sport_of_lookup {s : State} {sa da : UInt32} {sp dp : UInt16} {k : ℕ}
    (h : tcpLookupSock sa sp da dp s = some (some (.sock k))) (hsk : s.socks k = some sk) :
    sk.sport = dp := by
  obtain ⟨found, hfound, h⟩ := Option.bind_eq_some_iff.mp h
  cases found with
  | some a =>
    obtain rfl := Option.some.inj (Option.some.inj h)
    have htuple := passed_of_search hfound hsk
    simp only [hasTuple, Bool.and_eq_true, beq_iff_eq] at htuple
    exact htuple.1.2
  | none =>
    have hlocal := passed_of_search h hsk
    simp only [hasLocal, Bool.and_eq_true, beq_iff_eq] at hlocal
    exact hlocal.2

/-! ### The socks of a run -/

/-- A sock that is in memory after a step was there before, and is not marked as freed if it was not;
or it is the new one. -/
structure Grows (s s' : State) : Prop where
  fresh : s.fresh ≤ s'.fresh
  sock : ∀ j t, s'.socks j = some t →
    (∃ sk, s.socks j = some sk ∧ (sk.freed = false → t.freed = false)) ∨
      (j = s.fresh ∧ s.fresh < s'.fresh ∧ t.freed = false)

/-- No sock in memory is marked as freed. -/
def Alive (s : State) : Prop := ∀ k sk, s.socks k = some sk → sk.freed = false

/-- The socks in memory are numbered below `fresh`. -/
def Numbered (s : State) : Prop := ∀ k sk, s.socks k = some sk → k < s.fresh

section Grows

variable {s s' : State} {k : ℕ}

theorem Grows.alive (hg : Grows s s') (h : Alive s) : Alive s' := by
  intro j t ht
  rcases hg.sock j t ht with ⟨sk, hsk, hf⟩ | ⟨-, -, hf⟩
  · exact hf (h j sk hsk)
  · exact hf

theorem Grows.numbered (hg : Grows s s') (h : Numbered s) : Numbered s' := by
  intro j t ht
  rcases hg.sock j t ht with ⟨sk, hsk, -⟩ | ⟨rfl, hlt, -⟩
  · exact Nat.lt_of_lt_of_le (h j sk hsk) hg.fresh
  · exact hlt

theorem Grows.refl (s : State) : Grows s s := ⟨Nat.le_refl _, fun _ t ht => .inl ⟨t, ht, id⟩⟩

theorem grows_write (sk' : TcpSock) (hsk : s.socks k = some sk)
    (hf : sk.freed = false → sk'.freed = false) (hs : s'.socks = (s.setSock k (some sk')).socks)
    (hfresh : s'.fresh = s.fresh) : Grows s s' := by
  refine ⟨Nat.le_of_eq hfresh.symm, fun j t ht => .inl ?_⟩
  rw [hs] at ht
  rcases TcpLookup.socks_setSock ht with ⟨rfl, hnew⟩ | ⟨-, hold⟩
  · exact ⟨sk, hsk, fun h => Option.some.inj hnew ▸ hf h⟩
  · exact ⟨t, hold, id⟩

theorem grows_free (hs : s'.socks = (s.setSock k none).socks) (hfresh : s'.fresh = s.fresh) :
    Grows s s' := by
  refine ⟨Nat.le_of_eq hfresh.symm, fun j t ht => .inl ?_⟩
  rw [hs] at ht
  rcases TcpLookup.socks_setSock ht with ⟨-, hnew⟩ | ⟨-, hold⟩
  · cases hnew
  · exact ⟨t, hold, id⟩

/-- A new sock, behind a change that leaves the number of the next one. -/
theorem grows_alloc {u : State} {sk : TcpSock} (parent : Option ℕ) (hu : Grows s u)
    (hfresh : u.fresh = s.fresh) (hf : sk.freed = false) (hs : s'.socks = (u.alloc sk parent).socks)
    (hs' : s'.fresh = u.fresh + 1) : Grows s s' := by
  refine ⟨by omega, fun j t ht => ?_⟩
  rw [hs] at ht
  rcases TcpLookup.socks_setSock ht with ⟨rfl, hnew⟩ | ⟨-, hold⟩
  · exact .inr ⟨hfresh, by omega, Option.some.inj hnew ▸ hf⟩
  · rcases hu.sock j t hold with hold | ⟨-, hlt, -⟩
    · exact .inl hold
    · omega

theorem grows_process {isn : UInt32} (hs : process k seg isn s = some s') : Grows s s' := by
  obtain ⟨sk, hsk, hs⟩ := process_some hs
  obtain ⟨hstay, hchild⟩ := stays_tcpHandleListen sk seg isn
  have h₁ : Grows s (s.setSock k (some (tcpHandleListen sk seg isn).1)) :=
    grows_write _ hsk (fun hf => hstay.freed.trans hf) rfl rfl
  cases hs with
  | listened hst hc => exact h₁
  | child hst child m hc => exact grows_alloc (some k) h₁ rfl (hchild child hc).2.2 rfl rfl
  | kept hst sk' hrun hf => exact grows_write sk' hsk (fun _ => hf) rfl rfl
  | freed hst sk' m hrun hf => exact grows_free rfl rfl

theorem grows_step {e : Event} (hs : step s e = some s') : Grows s s' := by
  cases e with
  | socket => exact Option.some.inj hs ▸ grows_alloc none (.refl s) rfl rfl rfl rfl
  | bind k addr port =>
    obtain ⟨⟨r, t⟩, ht, rfl⟩ := Option.map_eq_some_iff.mp hs
    cases inetBind_some ht with
    | same => exact .refl _
    | refused sk hsk => exact grows_write { sk with saddr := 0 } hsk id rfl rfl
    | bound sk hsk =>
      exact grows_write { sk with saddr := addr, sport := port, dport := 0, daddr := 0 } hsk id rfl rfl
  | listen k =>
    obtain ⟨⟨r, t⟩, ht, rfl⟩ := Option.map_eq_some_iff.mp hs
    obtain ⟨sk, hsk, ⟨-, rfl⟩ | ⟨-, -, m, -, rfl⟩⟩ := tcpListen_some ht
    · exact .refl _
    · exact grows_write { sk with state := .listen, link := some .connectingOrListening } hsk id rfl rfl
  | connect k daddr dport isn =>
    obtain ⟨sk, hsk, ⟨-, rfl⟩ | ⟨-, m, -, rfl⟩⟩ := inetConnect_some hs
    · exact .refl _
    · exact grows_write _ hsk (fun hf => (tcpV4Connect_state ..).2.2.2.trans hf) rfl rfl
  | sleep k =>
    obtain ⟨sk, hsk, hs⟩ := Option.bind_eq_some_iff.mp hs
    rw [Option.ite_none_right_eq_some] at hs
    exact Option.some.inj hs.2 ▸ grows_write { sk with sleeping := true } hsk id rfl rfl
  | connected k =>
    obtain ⟨sk, m, m', hsk, -, -, -, rfl⟩ := tcpV4Connected_some hs
    exact grows_write { sk with link := some .establishedOrSynRecvd } hsk id rfl rfl
  | segment seg isn =>
    obtain ⟨a, -, hs⟩ := Option.bind_eq_some_iff.mp hs
    split at hs
    · exact grows_process hs
    · exact Option.some.inj hs ▸ .refl s
  | accept k =>
    obtain ⟨sk, hsk, rfl⟩ := Option.map_eq_some_iff.mp hs
    exact grows_write { sk with accepted := false } hsk id rfl rfl
  | free k =>
    obtain ⟨sk, -, rfl⟩ := Option.map_eq_some_iff.mp hs
    exact grows_free rfl rfl
  | tick => exact Option.some.inj hs ▸ ⟨Nat.le_refl _, fun _ t ht => .inl ⟨t, ht, id⟩⟩
  | write | read | receive | close | timer =>
    obtain ⟨sk, hsk, hs⟩ := Option.bind_eq_some_iff.mp hs
    obtain ⟨sk', -, hs⟩ := Option.bind_eq_some_iff.mp hs
    rcases update_some hs with ⟨-, m, rfl⟩ | ⟨hf, rfl⟩
    · exact grows_free rfl rfl
    · exact grows_write sk' hsk (fun _ => hf) rfl rfl

/-- What holds of the socks after every run. -/
theorem sane_of_run {evs : List Event} (hreach : run step init evs = some s) :
    Alive s ∧ Numbered s :=
  run_inv (C := fun _ _ => True) (P := fun s => Alive s ∧ Numbered s)
    (fun _ _ _ h _ hs => ⟨(grows_step hs).alive h.1, (grows_step hs).numbered h.2⟩)
    ⟨fun _ _ h => (by cases h), fun _ _ h => (by cases h)⟩ (Along.of_forall fun _ _ _ => trivial) hreach

end Grows

/-- **Resets.** In every state that is reached, and for every segment that `ip_rcv` lets through, the
resets are right if and only if they are harmless. -/
theorem resets_right_iff {evs : List Event} {s : State} (hreach : run step init evs = some s)
    {seg : Seg} (hdst : seg.daddr = stackaddr) {k : ℕ}
    (hk : tcpLookupSock seg.saddr seg.th.sport seg.daddr seg.th.dport s = some (some (.sock k)))
    {sk sk' : TcpSock} (hsk : s.socks k = some sk)
    (hrun : tcpProcess (withParent s k sk) seg = .ok sk') :
    Right (withParent s k sk) seg sk' ↔
      (SendsReset (withParent s k sk) seg → Harmless (withParent s k sk) seg) := by
  have halive := (sane_of_run hreach).1
  exact @right_iff (withParent s k sk) sk' seg (halive k sk hsk) hdst (sport_of_lookup hk hsk :) hrun

/-- A sock listens. -/
def oneListens : List Event := [.socket, .bind 0 stackaddr 80, .listen 0]

/-- A segment from port 4000 of `"10.0.1.5"`. -/
def fromTap (seq ackSeq : UInt32) (syn ack : Bool) : Seg :=
  { saddr := 0x0A000105, daddr := stackaddr
    th := { sport := 4000, dport := 80, seq := seq, ackSeq := ackSeq, syn := syn, ack := ack } }

/-- The peer sends a second SYN, and the child is gone. -/
theorem resets_right_iff_child : ∃ s sk sk',
    run step init (oneListens ++ [.segment (fromTap 500 0 true false) 100]) = some s ∧
      s.socks 1 = some sk ∧ tcpProcess (withParent s 1 sk) (fromTap 501 0 true false) = .ok sk' ∧
      Right (withParent s 1 sk) (fromTap 501 0 true false) sk' := by
  have hrun : ((run step init (oneListens ++ [.segment (fromTap 500 0 true false) 100])).bind fun s =>
      (s.socks 1).map fun sk => decide (
        tcpLookupSock 0x0A000105 4000 stackaddr 80 s = some (some (.sock 1)) ∧
          (tcpProcess (withParent s 1 sk) (fromTap 501 0 true false)).isOk = true ∧
          Harmless (withParent s 1 sk) (fromTap 501 0 true false))) = some true := by decide
  obtain ⟨s, hs, hrun⟩ := Option.bind_eq_some_iff.mp hrun
  obtain ⟨sk, hsk, hrun⟩ := Option.map_eq_some_iff.mp hrun
  obtain ⟨hk, hok, hharm⟩ := of_decide_eq_true hrun
  cases hp : tcpProcess (withParent s 1 sk) (fromTap 501 0 true false) with
  | error f => rw [hp] at hok; cases hok
  | ok sk' =>
    have hiff := @resets_right_iff _ s hs (fromTap 501 0 true false) rfl 1 hk sk sk' hsk hp
    exact ⟨s, sk, sk', hs, hsk, hp, hiff.mpr fun _ => hharm⟩

/-- **The reset of a listening sock goes nowhere.** It answers an acknowledgement, and its
destination is port 0 of `"0.0.0.0"`. -/
theorem not_resets_right : ¬ ∀ (evs : List Event) (s : State) (seg : Seg) (k : ℕ) (sk sk' : TcpSock),
    run step init evs = some s → seg.daddr = stackaddr →
    tcpLookupSock seg.saddr seg.th.sport seg.daddr seg.th.dport s = some (some (.sock k)) →
    s.socks k = some sk → tcpProcess (withParent s k sk) seg = .ok sk' →
    Right (withParent s k sk) seg sk' := by
  intro hall
  have hrun : ((run step init oneListens).bind fun s => (s.socks 0).map fun sk => decide (
      tcpLookupSock 0x0A000105 4000 stackaddr 80 s = some (some (.sock 0)) ∧
        ((tcpProcess (withParent s 0 sk) (fromTap 500 101 false true)).toOption.map fun sk' =>
          (sent (withParent s 0 sk) sk').map fun r => (r.th.rst, r.daddr, r.th.dport)) =
            some [(true, 0, 0)])) = some true := by decide
  obtain ⟨s, hs, hrun⟩ := Option.bind_eq_some_iff.mp hrun
  obtain ⟨sk, hsk, hrun⟩ := Option.map_eq_some_iff.mp hrun
  obtain ⟨hk, hsent⟩ := of_decide_eq_true hrun
  cases hp : tcpProcess (withParent s 0 sk) (fromTap 500 101 false true) with
  | error f => rw [hp] at hsent; cases hsent
  | ok sk' =>
    rw [hp] at hsent
    obtain ⟨r, hr, hfields⟩ := List.map_eq_singleton_iff.mp (Option.some.inj hsent)
    have hright := hall _ s (fromTap 500 101 false true) 0 sk sk' hs rfl hk hsk hp
    have haddr := hright.addressed r (by simp [hr]) (congrArg Prod.fst hfields)
    have hzero : r.daddr = 0 := congrArg (fun x => x.2.1) hfields
    exact absurd (hzero.symm.trans haddr.daddr) (by decide)

end ToyIP.Stack.Resets
