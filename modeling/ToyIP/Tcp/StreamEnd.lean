import ToyIP.Tcp.EndOfFile
import ToyIP.Tcp.Teardown

/-! # TCP: behind the FIN of the other side

In `CLOSE_WAIT` the end of the stream is recorded twice: by the state, which stays, and by the flag
`TCP_FIN`, which `tcp_read` clears when it reports the end. The FIN branch of `tcp_process` asks for
neither. `end_final` says what follows as long as no second FIN is counted and `tcp_read` is not
called again once it has reported the end. -/

namespace ToyIP.Tcp.StreamEnd

open ToyIP.Lib ToyIP.Lib.Run ToyIP.Tcp.Types ToyIP.Tcp.Output ToyIP.Tcp.Data ToyIP.Tcp.Input
  ToyIP.Tcp.Sock ToyIP.Tcp.Sides ToyIP.Tcp.Effects ToyIP.Tcp.Receive ToyIP.Tcp.EndOfFile

/-! ### Runs -/

/-- A segment or a step of the reader, a read of no bytes, or another call or a timer. -/
inductive Event
  | reader (e : RdEvent)
  | readNone
  | write (buf : List UInt8)
  | close
  | timer (i : ℕ)
  deriving DecidableEq, Repr

/-- One event, as long as the sock is not freed. -/
def step (r : Rd) (e : Event) : Option Rd :=
  if r.sk.freed then none
  else match e with
    | .reader e => rdStep r e
    | .readNone =>
      if r.place = .idle then some { r with
        sk := (tcpReadStart r.sk 0).1
        result := some (if r.sk.state = .close ∨ r.sk.state = .closing ∨ r.sk.state = .lastAck ∨
          r.sk.state = .timeWait then -1 else 0) }
      else none
    | .write buf => some { r with sk := (tcpWrite r.sk buf).1 }
    | .close => some { r with sk := (tcpClose r.sk).1 }
    | .timer i => (fireTimer r.sk i).map fun sk => { r with sk := sk }

/-- A call of `tcp_read`. -/
def Reads : Event → Prop
  | .reader (.read _) | .readNone => True
  | _ => False

/-- The FIN of the other side was received, and the receive queue is drained. -/
def AtEnd (r : Rd) : Prop := r.sk.state = .closeWait ∧ r.sk.receiveQueue = []

instance (r : Rd) : Decidable (AtEnd r) := inferInstanceAs (Decidable (_ ∧ _))

/-- **The end is final** in a run from `r`: `rcv_nxt` stays, and a call of `tcp_read` at the end,
followed by any steps but another call, returns 0 if it has returned, and has not come to
`wait_sleep` otherwise. -/
structure Final (r : Rd) (evs : List Event) : Prop where
  rcvNxt : Always step (fun u => u.sk.freed = false → u.sk.rcvNxt = r.sk.rcvNxt) r evs
  read : ∀ es₁ e es₂ es₃ u v, evs = es₁ ++ (e :: es₂ ++ es₃) → Reads e → (∀ e' ∈ es₂, ¬ Reads e') →
    run step r es₁ = some u → AtEnd u → run step u (e :: es₂) = some v →
    (v.place = .idle → v.result = some 0) ∧ ∀ c, v.place ≠ .enter c ∧ v.place ≠ .asleep c

/-! ### The condition -/

/-- A segment with a FIN that is counted behind the first one. -/
def NewFin (sk : TcpSock) (seg : Seg) : Prop :=
  tcpPacketFilter sk seg.th (tcpInitSegment seg) = true ∧ seg.th.ack = true ∧
    ((if seg.th.syn then sk.sndNxt else sk.sndUna) ≤ seg.th.ackSeq ∧ seg.th.ackSeq ≤ sk.sndNxt) ∧
    seg.th.fin = true ∧ sk.rcvNxt - seg.dlen = seg.th.seq

instance (sk : TcpSock) (seg : Seg) : Decidable (NewFin sk seg) :=
  inferInstanceAs (Decidable (_ ∧ _))

/-- No second FIN is counted, and a call of `tcp_read` at the end finds one of the flags set. -/
def Sound (r : Rd) : Event → Prop
  | .reader (.segment seg) => ¬ NewFin r.sk seg
  | .reader (.read _) => AtEnd r → r.sk.flagFin = true ∨ r.sk.flagPsh = true
  | _ => True

instance (r : Rd) : ∀ e, Decidable (Sound r e)
  | .reader (.segment seg) => inferInstanceAs (Decidable (¬ NewFin r.sk seg))
  | .reader (.read _) => inferInstanceAs (Decidable (AtEnd r → _))
  | .reader .dequeue | .reader .test | .reader .enter | .reader .leave | .readNone | .write _ | .close
  | .timer _ => isTrue trivial

variable {sk sk' : TcpSock} {r r' : Rd}

/-! ### What leaves the end alone -/

/-- The states behind the FIN of the other side, on the way of a passive close. -/
def Ended (s : TcpState) : Prop := s = .closeWait ∨ s = .lastAck

/-- The receive side and the flags are as before, and the state is still behind the FIN. -/
structure Idle (sk sk' : TcpSock) : Prop where
  recv : recvSide sk' = recvSide sk
  flags : flags sk' = flags sk
  ended : Ended sk.state → Ended sk'.state

theorem Idle.refl (sk : TcpSock) : Idle sk sk := ⟨rfl, rfl, id⟩

theorem Idle.trans {a b c : TcpSock} (h : Idle a b) (h' : Idle b c) : Idle a c :=
  ⟨h'.recv.trans h.recv, h'.flags.trans h.flags, fun hend => h'.ended (h.ended hend)⟩

theorem Idle.of_core (hrecv : recvSide sk' = recvSide sk)
    (hflags : EndOfFile.flags sk' = EndOfFile.flags sk) (hcore : core sk' = core sk) :
    Idle sk sk' :=
  ⟨hrecv, hflags, fun h => by rwa [show sk'.state = sk.state from congrArg Core.state hcore]⟩

theorem idle_tcpSendAck (sk : TcpSock) : Idle sk (tcpSendAck sk) :=
  .of_core (recvSide_tcpSendAck sk) (flags_tcpSendAck sk) (core_tcpSendAck sk)

theorem idle_tcpQueueTransmitSkb (sk : TcpSock) (skb : Skb) : Idle sk (tcpQueueTransmitSkb sk skb) := by
  obtain ⟨timers, retransmit, heq⟩ := tcpQueueTransmitSkb_eq sk skb
  rw [heq]
  exact .of_core rfl rfl rfl

theorem idle_tcpWrite (sk : TcpSock) (buf : List UInt8) : Idle sk (tcpWrite sk buf).1 :=
  tcpWrite_keeps (fun s skb h => h.trans (idle_tcpQueueTransmitSkb s skb)) (.refl sk) buf

theorem idle_tcpClose (h : Ended sk.state) : Idle sk (tcpClose sk).1 := by
  rcases h with h | h
  · rw [tcpClose_closeWait h]
    have hfin := idle_tcpQueueTransmitSkb sk { tcpAllocSkb 0 with th := { fin := true, ack := true } }
    exact ⟨hfin.recv, hfin.flags, fun _ => .inr rfl⟩
  · rw [tcpClose_closing (.inr (.inl h))]
    exact .of_core rfl rfl rfl

theorem ended_refinState {s : TcpState} (h : Ended s) : Ended (refinState s) := by
  rcases h with rfl | rfl
  · exact .inr rfl
  · exact .inr rfl

theorem idle_tcpRetransmissionTimeout (sk : TcpSock) : Idle sk (tcpRetransmissionTimeout sk) := by
  cases hq : sk.writeQueue with
  | nil =>
    obtain ⟨sleeping, timers, heq⟩ := tcpRetransmissionTimeout_nil hq
    rw [heq]
    exact .of_core rfl rfl rfl
  | cons skb q =>
    obtain ⟨timers, retransmit, heq⟩ := tcpRetransmissionTimeout_cons hq
    rw [heq]
    refine ⟨rfl, rfl, fun hend => ?_⟩
    show Ended (if skb.th.fin then refinState sk.state else sk.state)
    split_ifs
    · exact ended_refinState hend
    · exact hend

theorem idle_tcpConnectRto (sk : TcpSock) :
    (tcpConnectRto sk).freed = true ∨ Idle sk (tcpConnectRto sk) := by
  obtain ⟨timers, hr⟩ := tcpReleaseRetransmissionTimer_eq sk
  by_cases hst : sk.state = .established
  · rw [tcpConnectRto_established hst, hr]
    exact .inr (.of_core rfl rfl rfl)
  by_cases hb : sk.backoff > 3
  · rw [tcpConnectRto_free hst hb]
    exact .inl rfl
  refine .inr ?_
  cases hq : sk.writeQueue with
  | nil =>
    rw [tcpConnectRto_nil hst hb hq, hr]
    exact .of_core rfl rfl rfl
  | cons skb q =>
    obtain ⟨timers', retransmit', heq⟩ := tcpConnectRto_resend hst hb hq
    rw [heq]
    exact .of_core rfl rfl rfl

theorem idle_fireTimer {i : ℕ} (h : fireTimer sk i = some sk') : sk'.freed = true ∨ Idle sk sk' := by
  obtain ⟨t, -, -, rfl⟩ := fireTimer_runs h
  have hstart : Idle sk { sk with timers := sk.timers.modify i fun t => { t with cancelled := true } } :=
    .of_core rfl rfl rfl
  generalize ({ sk with timers := sk.timers.modify i fun t => { t with cancelled := true } } : TcpSock)
    = s at hstart
  cases t.handler with
  | tcpLinger => exact .inl rfl
  | tcpSendDelack =>
    have hack := idle_tcpSendAck (Timer.tcpReleaseDelackTimer { s with delacks := 0 })
    exact .inr (hstart.trans ⟨hack.recv, hack.flags, hack.ended⟩)
  | tcpRetransmissionTimeout => exact .inr (hstart.trans (idle_tcpRetransmissionTimeout s))
  | tcpConnectRto => exact (idle_tcpConnectRto s).imp id hstart.trans

/-! ### Segments -/

theorem Ended.synchronized {s : TcpState} (h : Ended s) : Synchronized s := by
  rcases h with rfl | rfl <;> trivial

/-- Behind the FIN the text is ignored. -/
theorem segmentText_of_ended (h : Ended sk.state) (th : TcpHdr) (skb : Skb) :
    segmentText sk th skb = sk := by
  unfold segmentText
  rcases h with h | h <;> rw [h]

/-- The sock before the text of a segment. -/
theorem idle_takeAck (sk : TcpSock) (th : TcpHdr) : Idle sk (takeAck (afterSyn sk th) th) :=
  .of_core (by simp) ((flags_takeAck _ _).trans (flags_afterSyn sk th)) (by simp)

theorem sndUna_afterSyn (sk : TcpSock) (th : TcpHdr) :
    (afterSyn sk th).sndUna = (if th.syn then sk.sndNxt else sk.sndUna) ∧
      (afterSyn sk th).sndNxt = sk.sndNxt := by
  unfold afterSyn
  split_ifs <;> exact ⟨rfl, rfl⟩

theorem ackOk_iff (sk : TcpSock) (th : TcpHdr) : ackOk (takeAck (afterSyn sk th) th) th = true ↔
    (if th.syn then sk.sndNxt else sk.sndUna) ≤ th.ackSeq ∧ th.ackSeq ≤ sk.sndNxt := by
  obtain ⟨huna, hnxt⟩ := sndUna_afterSyn sk th
  rw [ackOk_takeAck, huna, hnxt]

/-- A segment behind the FIN. -/
theorem processed_ended (hend : Ended sk.state) (seg : Seg) :
    (¬ NewFin sk seg → Idle sk (processed sk seg)) ∧
      (NewFin sk seg → (processed sk seg).rcvNxt = sk.rcvNxt + 1) := by
  have htake := idle_takeAck sk seg.th
  have hnxt : (takeAck (afterSyn sk seg.th) seg.th).rcvNxt = sk.rcvNxt :=
    congrArg RecvSide.rcvNxt htake.recv
  unfold processed
  by_cases hf : tcpPacketFilter sk seg.th (tcpInitSegment seg) = true
  swap
  · rw [if_neg hf]
    refine ⟨fun _ => ?_, fun h => absurd h.1 hf⟩
    split_ifs
    · exact .refl sk
    · exact idle_tcpSendAck sk
  rw [if_pos hf]
  by_cases ha : seg.th.ack = true
  swap
  · rw [if_neg ha]
    exact ⟨fun _ => .of_core (by simp) (flags_afterSyn sk seg.th) (by simp), fun h => absurd h.2.1 ha⟩
  rw [if_pos ha]
  by_cases hok : ackOk (takeAck (afterSyn sk seg.th) seg.th) seg.th = true
  swap
  · rw [if_neg hok]
    exact ⟨fun _ => htake, fun h => absurd ((ackOk_iff sk seg.th).mpr h.2.2.1) hok⟩
  rw [if_pos hok, segmentText_of_ended (htake.ended hend)]
  have hok' := (ackOk_iff sk seg.th).mp hok
  generalize takeAck (afterSyn sk seg.th) seg.th = t at htake hnxt
  by_cases hfin : seg.th.fin = true ∧ t.rcvNxt - (tcpInitSegment seg).dlen = (tcpInitSegment seg).seq
  · have hopen : ¬ (t.state = .close ∨ t.state = .listen ∨ t.state = .synSent) := by
      rcases htake.ended hend with h | h <;> rw [h] <;> simp
    rw [finCheck_of_fin hfin.1 hfin.2, if_neg hopen]
    refine ⟨fun hno => absurd ⟨hf, ha, hok', hfin.1, hnxt ▸ hfin.2⟩ hno, fun _ => ?_⟩
    exact (congrArg RecvSide.rcvNxt (recvSide_afterFin t)).trans (by rw [← hnxt])
  · rw [finCheck, if_neg hfin]
    exact ⟨fun _ => htake, fun h => absurd ⟨h.2.2.2.1, hnxt ▸ h.2.2.2.2⟩ hfin⟩

/-! ### The reader -/

/-- A call that is under way at the end, on its way to the return of 0. -/
inductive Returning (r : Rd) : Prop
  | done (hplace : r.place = .idle) (hresult : r.result = some 0)
  | dequeue (c : Receiving) (hplace : r.place = .dequeue c) (hzero : c.rlen = 0)
    (hempty : r.sk.freed = false → r.sk.receiveQueue = [])
    (hflags : r.sk.freed = false → r.sk.flagFin = true ∨ r.sk.flagPsh = true)
  | test (c : Receiving) (hplace : r.place = .test c) (hzero : c.rlen = 0)
    (hflags : r.sk.freed = false → r.sk.flagFin = true ∨ r.sk.flagPsh = true)

theorem Returning.not_asleep (h : Returning r) :
    (r.place = .idle → r.result = some 0) ∧ ∀ c, r.place ≠ .enter c ∧ r.place ≠ .asleep c := by
  cases h with
  | done hplace hresult => exact ⟨fun _ => hresult, fun c => by simp [hplace]⟩
  | dequeue c hplace => exact ⟨fun h => by simp [hplace] at h, fun c => by simp [hplace]⟩
  | test c hplace => exact ⟨fun h => by simp [hplace] at h, fun c => by simp [hplace]⟩

/-- The sock of the other threads. -/
theorem Returning.idle (h : Returning r) (hf : r.sk.freed = false)
    (hidle : sk'.freed = true ∨ Idle r.sk sk') : Returning { r with sk := sk' } := by
  have hkeep : sk'.freed = false → Idle r.sk sk' := fun hf' =>
    hidle.resolve_left (by rw [hf']; exact Bool.false_ne_true)
  have hflags : (r.sk.flagFin = true ∨ r.sk.flagPsh = true) → sk'.freed = false →
      sk'.flagFin = true ∨ sk'.flagPsh = true := fun h hf' => by
    have heq := (hkeep hf').flags
    rwa [show sk'.flagFin = r.sk.flagFin from congrArg Prod.snd heq,
      show sk'.flagPsh = r.sk.flagPsh from congrArg Prod.fst heq]
  cases h with
  | done hplace hresult => exact .done hplace hresult
  | dequeue c hplace hzero hempty h =>
    refine .dequeue c hplace hzero (fun hf' => ?_) (hflags (h hf))
    exact (congrArg RecvSide.receiveQueue (hkeep hf').recv).trans (hempty hf)
  | test c hplace hzero h => exact .test c hplace hzero (hflags (h hf))

/-- Behind the FIN, with the number that is expected next. -/
def Behind (n : UInt32) (r : Rd) : Prop :=
  r.sk.freed = false → Ended r.sk.state ∧ r.sk.rcvNxt = n

theorem Behind.idle {n : UInt32} (h : Behind n r) (hf : r.sk.freed = false)
    (hidle : sk'.freed = true ∨ Idle r.sk sk') : Behind n { r with sk := sk' } := by
  intro hf'
  have hkeep := hidle.resolve_left (by rw [hf']; exact Bool.false_ne_true)
  obtain ⟨hend, hnxt⟩ := h hf
  exact ⟨hkeep.ended hend, (congrArg RecvSide.rcvNxt hkeep.recv).trans hnxt⟩

/-- The steps of the reader leave the state and `rcv_nxt` as they are. -/
theorem behind_reader {n : UInt32} {e : RdEvent} (h : Behind n r) (hseg : ∀ seg, e ≠ .segment seg)
    (hs : rdStep r e = some r') : Behind n r' := by
  have hkeep : ∀ sk' : TcpSock, core sk' = core r.sk → sk'.rcvNxt = r.sk.rcvNxt → ∀ u : Rd,
      u.sk = sk' → Behind n u := by
    rintro sk' hcore hnxt u rfl hf
    have hf' : r.sk.freed = false := (congrArg Core.freed hcore).symm.trans hf
    obtain ⟨hend, hn⟩ := h hf'
    rw [show u.sk.state = r.sk.state from congrArg Core.state hcore]
    exact ⟨hend, hnxt.trans hn⟩
  cases e with
  | segment seg => exact absurd rfl (hseg seg)
  | read len =>
    simp only [rdStep, Option.ite_none_right_eq_some, Option.some.injEq] at hs
    refine hkeep _ (Receiver.core_tcpReadStart r.sk len.toNat)
      (congrArg RecvSide.rcvNxt (Receiver.recvSide_tcpReadStart r.sk len.toNat)) r' ?_
    rw [← hs.2]
    cases (tcpReadStart r.sk len.toNat).2 <;> rfl
  | dequeue =>
    simp only [rdStep] at hs
    split at hs
    · exact Option.some.inj hs ▸ hkeep (receiveDequeue r.sk _).1 rfl rfl _ rfl
    · cases hs
  | test =>
    simp only [rdStep] at hs
    split at hs
    · rename_i c _
      obtain ⟨hr, hcore⟩ := sides_receiveTest r.sk c
      refine hkeep _ hcore (congrArg RecvSide.rcvNxt hr) r' ?_
      rw [← Option.some.inj hs]
      split_ifs <;> rfl
    · cases hs
  | enter =>
    simp only [rdStep] at hs
    split at hs
    · exact Option.some.inj hs ▸ hkeep { r.sk with recvSleeping := true } rfl rfl _ rfl
    · cases hs
  | leave =>
    simp only [rdStep] at hs
    split at hs
    · split_ifs at hs
      · exact Option.some.inj hs ▸ hkeep r.sk rfl rfl _ rfl
      · exact Option.some.inj hs ▸ hkeep r.sk rfl rfl _ rfl
    · cases hs

/-- A step is one of another thread, which leaves the end alone, or one of the reader. -/
theorem step_cases {n : UInt32} {e : Event} (h : Behind n r) (hsound : Sound r e)
    (hs : step r e = some r') : r.sk.freed = false ∧
      ((∃ sk', (sk'.freed = true ∨ Idle r.sk sk') ∧ r' = { r with sk := sk' }) ∨
        (e = .readNone ∧ r.place = .idle) ∨
        ∃ e', e = .reader e' ∧ rdStep r e' = some r' ∧ ∀ seg, e' ≠ .segment seg) := by
  unfold step at hs
  by_cases hfreed : r.sk.freed = true
  · rw [if_pos hfreed] at hs
    cases hs
  rw [if_neg hfreed] at hs
  have hf : r.sk.freed = false := Bool.eq_false_iff.mpr hfreed
  obtain ⟨hend, -⟩ := h hf
  refine ⟨hf, ?_⟩
  cases e with
  | readNone => exact .inr (.inl ⟨rfl, (Option.ite_none_right_eq_some.mp hs).1⟩)
  | write buf => exact .inl ⟨_, .inr (idle_tcpWrite r.sk buf), (Option.some.inj hs).symm⟩
  | close => exact .inl ⟨_, .inr (idle_tcpClose hend), (Option.some.inj hs).symm⟩
  | timer i =>
    obtain ⟨sk', hsk', rfl⟩ := Option.map_eq_some_iff.mp hs
    exact .inl ⟨sk', idle_fireTimer hsk', rfl⟩
  | reader e =>
    cases e with
    | segment seg =>
      simp only [rdStep, tcpProcess_eq hend.synchronized hf] at hs
      exact .inl ⟨_, .inr ((processed_ended hend seg).1 hsound), (Option.some.inj hs).symm⟩
    | read | dequeue | test | enter | leave =>
      exact .inr (.inr ⟨_, rfl, hs, fun _ => RdEvent.noConfusion⟩)

theorem behind_step {n : UInt32} {e : Event} (h : Behind n r) (hsound : Sound r e)
    (hs : step r e = some r') : Behind n r' := by
  obtain ⟨hf, ⟨sk', hidle, rfl⟩ | ⟨rfl, hplace⟩ | ⟨e', rfl, hs', hseg⟩⟩ := step_cases h hsound hs
  · exact h.idle hf hidle
  · unfold step at hs
    rw [if_neg (by rw [hf]; exact Bool.false_ne_true)] at hs
    obtain rfl := Option.some.inj (Option.ite_none_right_eq_some.mp hs).2
    obtain ⟨hend, hn⟩ := h hf
    have hcore := Receiver.core_tcpReadStart r.sk 0
    intro _
    refine ⟨?_, (congrArg RecvSide.rcvNxt (Receiver.recvSide_tcpReadStart r.sk 0)).trans hn⟩
    rwa [show (tcpReadStart r.sk 0).1.state = r.sk.state from congrArg Core.state hcore]
  · exact behind_reader h hseg hs'

/-- A call at the end finds one of the flags. -/
theorem returning_read {e : Event} (hread : Reads e) (hend : AtEnd r) (hsound : Sound r e)
    (hs : step r e = some r') : Returning r' := by
  obtain ⟨hst, hempty⟩ := hend
  unfold step at hs
  rw [Option.ite_none_left_eq_some] at hs
  obtain ⟨-, hs⟩ := hs
  cases e with
  | readNone =>
    obtain ⟨hidle, hs⟩ := Option.ite_none_right_eq_some.mp hs
    obtain rfl := Option.some.inj hs
    exact .done hidle (by simp [hst])
  | reader e =>
    cases e with
    | read len =>
      simp only [rdStep, Option.ite_none_right_eq_some, Option.some.injEq] at hs
      obtain ⟨⟨hidle, hpos, -⟩, rfl⟩ := hs
      have hlen : 0 < len.toNat := Word32.pos_iff.mp hpos
      by_cases hfin : r.sk.flagFin = true
      · have hstart : tcpReadStart r.sk len.toNat = ({ r.sk with flagFin := false }, .idle) := by
          simp [tcpReadStart, hst, hempty, hfin]
        rw [hstart]
        exact .done hidle (by simp [hst])
      · have hstart : tcpReadStart r.sk len.toNat = (r.sk, .receiving len.toNat 0) := by
          simp [tcpReadStart, hst, hempty, hfin, hlen]
        rw [hstart]
        exact .dequeue { len := len } rfl rfl (fun _ => hempty) fun _ => hsound ⟨hst, hempty⟩
    | segment | dequeue | test | enter | leave => exact hread.elim
  | write | close | timer => exact hread.elim

theorem Returning.step {n : UInt32} {e : Event} (h : Returning r) (hbehind : Behind n r)
    (hsound : Sound r e) (hread : ¬ Reads e) (hs : StreamEnd.step r e = some r') : Returning r' := by
  obtain ⟨hf, ⟨sk', hidle, rfl⟩ | ⟨rfl, -⟩ | ⟨e', rfl, hs', hseg⟩⟩ := step_cases hbehind hsound hs
  · exact h.idle hf hidle
  · exact absurd trivial hread
  cases e' with
  | segment seg => exact absurd rfl (hseg seg)
  | read len => exact absurd trivial hread
  | dequeue =>
    cases h with
    | dequeue c hplace hzero hempty hflags =>
      simp only [rdStep, hplace, Option.some.injEq] at hs'
      obtain rfl := hs'
      refine .test _ rfl ?_ fun _ => ?_
      · show c.rlen + dequeued (c.len - c.rlen) 0 r.sk.receiveQueue = 0
        rw [hempty hf, hzero]
        rfl
      · exact (hflags hf).imp id fun h => by simp [receiveDequeue, tcpDataDequeue, h]
    | done hplace => simp [rdStep, hplace] at hs'
    | test c hplace => simp [rdStep, hplace] at hs'
  | test =>
    cases h with
    | test c hplace hzero hflags =>
      have hends : (receiveTest r.sk c).2 = true := by
        unfold receiveTest
        rcases hflags hf with h | h
        · split_ifs
          · rfl
          · simp [h]
        · rw [if_pos h]
      simp only [rdStep, hplace, hends, if_true, Option.some.injEq] at hs'
      obtain rfl := hs'
      exact .done rfl (by simp [Rd.return, hzero])
    | done hplace => simp [rdStep, hplace] at hs'
    | dequeue c hplace => simp [rdStep, hplace] at hs'
  | enter => cases h <;> simp [rdStep, *] at hs'
  | leave => cases h <;> simp [rdStep, *] at hs'

/-! ### Runs -/

/-- **The end is final** in every run of sound steps from `CLOSE_WAIT`, to which the FIN of the other
side has led, wherever the reader is then. -/
theorem end_final {r : Rd} (hst : r.sk.state = .closeWait) {evs : List Event}
    (hsound : Along step Sound r evs) : Final r evs := by
  have hstart : Behind r.sk.rcvNxt r := fun _ => ⟨.inl hst, rfl⟩
  have hbehind : Always step (Behind r.sk.rcvNxt) r evs :=
    always_inv (fun _ _ _ h hc hs => behind_step h hc hs) hstart hsound
  refine ⟨fun es₁ es₂ u heq hu hf => (hbehind es₁ es₂ u heq hu hf).2, ?_⟩
  intro es₁ e es₂ es₃ u v heq hread hes₂ hu hend hv
  obtain ⟨u', hu', hv'⟩ := run_cons.mp hv
  have hbefore := hbehind es₁ (e :: es₂ ++ es₃) u heq hu
  have hafter : Along step Sound u (e :: es₂) := (Along.right (heq ▸ hsound) hu).left
  refine Returning.not_asleep (And.left (run_inv (P := fun w => Returning w ∧ Behind r.sk.rcvNxt w)
    (C := fun w e' => Sound w e' ∧ ¬ Reads e') (fun w e' w' hw hc hs => ?_) ?_ ?_ hv'))
  · exact ⟨hw.1.step hw.2 hc.1 hc.2 hs, behind_step hw.2 hc.1 hs⟩
  · exact ⟨returning_read hread hend hafter.1 hu', behind_step hbefore hafter.1 hu'⟩
  · exact (hafter.2 u' hu').and (Along.of_forall fun e' he' _ => hes₂ e' he')

/-- With no flag set a call at the end goes to sleep. -/
theorem sleeps_again (hend : AtEnd r) (hfreed : r.sk.freed = false) (hidle : r.place = .idle)
    (hfin : r.sk.flagFin = false) (hpsh : r.sk.flagPsh = false) {len : UInt32} (hpos : 0 < len)
    (hsmall : len < 0x80000000) : ∃ v c,
      run step r [.reader (.read len), .reader .dequeue, .reader .test] = some v ∧
        v.place = .enter c := by
  obtain ⟨hst, hempty⟩ := hend
  have hlen : 0 < len.toNat := Word32.pos_iff.mp hpos
  have hstart : tcpReadStart r.sk len.toNat = (r.sk, .receiving len.toNat 0) := by
    simp [tcpReadStart, hst, hempty, hfin, hlen]
  let d := receiveDequeue r.sk { len := len }
  have hread : step r (.reader (.read len)) =
      some { r with place := .dequeue { len := len }, result := none } := by
    simp [step, rdStep, hfreed, hidle, hpos, hsmall, hstart]
  have hdequeue : step { r with place := .dequeue { len := len }, result := none } (.reader .dequeue) =
      some { r with sk := d.1, place := .test d.2, result := none } := by
    simp [step, rdStep, hfreed, d]
  have hsleep : (receiveTest d.1 d.2).2 = false := by
    have hne : len ≠ 0 := by
      rintro rfl
      exact absurd hpos (UInt32.lt_irrefl 0)
    have hzero : d.2.rlen = 0 := by simp [d, receiveDequeue, hempty, dequeued]
    have hlen : d.2.len = len := rfl
    have hpsh' : d.1.flagPsh = false := by
      simp [d, receiveDequeue, tcpDataDequeue, hempty, hpsh, dequeue]
    have hfin' : d.1.flagFin = false := hfin
    simp [receiveTest, hpsh', hfin', hzero, hlen, hne.symm]
  have htest : step { r with sk := d.1, place := .test d.2, result := none } (.reader .test) =
      some { r with sk := (receiveTest d.1 d.2).1, place := .enter d.2, result := none } := by
    have hfreed' : d.1.freed = false := hfreed
    simp [step, rdStep, hfreed', hsleep]
  exact ⟨_, d.2, run_cons.mpr ⟨_, hread, run_cons.mpr ⟨_, hdequeue, run_cons.mpr ⟨_, htest, rfl⟩⟩⟩, rfl⟩

/-- The FIN of the peer of `client`. -/
def finSeg (seq : UInt32) : Seg := { th := { seq := seq, ack := true, ackSeq := 5, fin := true } }

/-- The end is reported once, and a copy of the FIN comes in. -/
theorem end_final_client : ∃ r, step { sk := Receiver.client } (.reader (.segment (finSeg 1001))) =
    some r ∧ Final r [.reader (.read 5), .reader (.segment (finSeg 1001))] := by
  have hrun : (step { sk := Receiver.client } (.reader (.segment (finSeg 1001)))).map (fun r => decide
      (r.sk.state = .closeWait ∧
        Along step Sound r [.reader (.read 5), .reader (.segment (finSeg 1001))])) = some true := by
    decide
  obtain ⟨r, hr, hrun⟩ := Option.map_eq_some_iff.mp hrun
  obtain ⟨hst, hsound⟩ := of_decide_eq_true hrun
  exact ⟨r, hr, end_final hst hsound⟩

/-- **The end is forgotten.** The second read at the end goes to sleep. -/
theorem not_end_final : ¬ ∀ (r₀ r : Rd) (seg : Seg) (evs : List Event),
    r₀.sk.state = .established → step r₀ (.reader (.segment seg)) = some r →
    r.sk.state = .closeWait → Final r evs := by
  intro hall
  let evs : List Event := [.reader (.read 5), .reader (.read 5), .reader .dequeue, .reader .test]
  have hrun : ((step { sk := Receiver.client } (.reader (.segment (finSeg 1001)))).bind fun r =>
      (run step r [.reader (.read 5)]).bind fun u =>
        (run step u [.reader (.read 5), .reader .dequeue, .reader .test]).map fun v => decide
          (r.sk.state = .closeWait ∧ AtEnd u ∧ v.place = .enter { len := 5 })) = some true := by
    decide
  obtain ⟨r, hr, hrun⟩ := Option.bind_eq_some_iff.mp hrun
  obtain ⟨u, hu, hrun⟩ := Option.bind_eq_some_iff.mp hrun
  obtain ⟨v, hv, hrun⟩ := Option.map_eq_some_iff.mp hrun
  obtain ⟨hst, hend, hplace⟩ := of_decide_eq_true hrun
  have hno : ∀ e ∈ [Event.reader .dequeue, .reader .test], ¬ Reads e :=
    List.forall_mem_cons.mpr ⟨id, List.forall_mem_singleton.mpr id⟩
  have h := (hall _ r _ evs rfl hr hst).read [.reader (.read 5)] (.reader (.read 5))
    [.reader .dequeue, .reader .test] [] u v rfl trivial hno hu hend hv
  exact (h.2 _).1 hplace

end ToyIP.Tcp.StreamEnd
