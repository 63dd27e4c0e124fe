import ToyIP.Tcp.Life

/-! # TCP: the address and the list of a sock

No call, segment or timer changes the addresses and ports of a sock or the list its `link` is on,
and none takes it into `LISTEN` or `CLOSE` or out of them, until it is freed. `Stays` says so of one
step, and `sockStep_stays` that every step is of this kind or frees the sock. -/

namespace ToyIP.Tcp.Places

open ToyIP.Tcp.Types ToyIP.Tcp.Timer ToyIP.Tcp.Output ToyIP.Tcp.Data ToyIP.Tcp.Input ToyIP.Tcp.Sock
  ToyIP.Tcp.Sides ToyIP.Tcp.Effects ToyIP.Tcp.Receiver ToyIP.Tcp.Teardown ToyIP.Tcp.Life

/-- Where a sock is found. -/
structure Place where
  saddr : UInt32
  sport : UInt16
  daddr : UInt32
  dport : UInt16
  link : Option SockList
  deriving DecidableEq, Repr

def place (sk : TcpSock) : Place := ⟨sk.saddr, sk.sport, sk.daddr, sk.dport, sk.link⟩

/-- One step that frees nothing. -/
structure Stays (sk sk' : TcpSock) : Prop where
  place : place sk' = place sk
  listen : sk'.state = .listen ↔ sk.state = .listen
  close : sk'.state = .close ↔ sk.state = .close
  freed : sk'.freed = sk.freed

/-- The sock was taken out of its list and freed. -/
def Left (sk : TcpSock) : Prop := sk.freed = true ∧ sk.link = none

variable {sk sk' : TcpSock}

theorem Stays.refl (sk : TcpSock) : Stays sk sk := ⟨rfl, Iff.rfl, Iff.rfl, rfl⟩

theorem Stays.trans {a b c : TcpSock} (h : Stays a b) (h' : Stays b c) : Stays a c :=
  ⟨h'.place.trans h.place, h'.listen.trans h.listen, h'.close.trans h.close, h'.freed.trans h.freed⟩

theorem Stays.of_state (hplace : Places.place sk' = Places.place sk) (hst : sk'.state = sk.state)
    (hf : sk'.freed = sk.freed) : Stays sk sk' :=
  ⟨hplace, by rw [hst], by rw [hst], hf⟩

/-- From one state of a connection to another. -/
theorem Stays.of_open (hplace : Places.place sk' = Places.place sk) (hf : sk'.freed = sk.freed)
    (hl : sk.state ≠ .listen) (hc : sk.state ≠ .close) (hl' : sk'.state ≠ .listen)
    (hc' : sk'.state ≠ .close) : Stays sk sk' :=
  ⟨hplace, iff_of_false hl' hl, iff_of_false hc' hc, hf⟩

/-! ### The functions of a sock -/

theorem place_tcpSendAck (sk : TcpSock) : place (tcpSendAck sk) = place sk := by
  rw [tcpSendAck_eq]; rfl

theorem place_tcpAckData (sk : TcpSock) (th : TcpHdr) (skb : Skb) :
    place (tcpAckData sk th skb) = place sk := by
  unfold tcpAckData
  split_ifs
  · exact place_tcpSendAck _
  · rfl

theorem place_tcpDataQueue (sk : TcpSock) (th : TcpHdr) (skb : Skb) :
    place (tcpDataQueue sk th skb) = place sk := by
  unfold tcpDataQueue
  split_ifs
  · rfl
  · exact place_tcpAckData _ th skb
  · exact place_tcpSendAck _

theorem place_afterFin (sk : TcpSock) : place (afterFin sk) = place sk := by
  have h : place (takeFin sk) = place sk := place_tcpSendAck _
  unfold afterFin
  split <;> exact h

theorem place_tcpQueueTransmitSkb (sk : TcpSock) (skb : Skb) :
    place (tcpQueueTransmitSkb sk skb) = place sk := by
  obtain ⟨timers, retransmit, heq⟩ := tcpQueueTransmitSkb_eq sk skb
  rw [heq]; rfl

theorem stays_tcpQueueTransmitSkb (sk : TcpSock) (skb : Skb) :
    Stays sk (tcpQueueTransmitSkb sk skb) := by
  have hcore := core_tcpQueueTransmitSkb sk skb
  exact .of_state (place_tcpQueueTransmitSkb sk skb) (congrArg Core.state hcore)
    (congrArg Core.freed hcore)

theorem stays_tcpSendAck (sk : TcpSock) : Stays sk (tcpSendAck sk) :=
  .of_state (place_tcpSendAck sk) (congrArg Core.state (core_tcpSendAck sk))
    (congrArg Core.freed (core_tcpSendAck sk))

theorem finState_ne {s : TcpState} (hl : s ≠ .listen) (hc : s ≠ .close) :
    finState s ≠ .listen ∧ finState s ≠ .close := by
  cases s <;> simp_all [finState]

theorem refinState_iff (s : TcpState) :
    (refinState s = .listen ↔ s = .listen) ∧ (refinState s = .close ↔ s = .close) := by
  cases s <;> simp [refinState]

/-! ### Segments -/

theorem stays_segmentRule (sk : TcpSock) (seg : Seg) :
    SegmentRule seg fun s => Left s ∨ Stays sk s := by
  -- what has left its list is not linked again
  have hkeep : ∀ {s t : TcpSock}, (Left s ∨ Stays sk s) → Stays s t → Left t ∨ Stays sk t := by
    rintro s t (⟨hf, hl⟩ | h) ht
    · exact .inl ⟨ht.freed.trans hf, (congrArg Place.link ht.place).trans hl⟩
    · exact .inr (h.trans ht)
  refine ⟨fun s h => hkeep h (stays_tcpSendAck s), fun s h => hkeep h (.of_state rfl rfl rfl),
    fun s h _ => .inl ⟨rfl, rfl⟩, fun s h hst _ _ _ => hkeep h ?_, fun s h _ _ _ => hkeep h ?_,
    fun s h _ => hkeep h ?_, fun s h hc hl _ _ => hkeep h ?_⟩
  · exact .of_open rfl rfl (by simp [hst]) (by simp [hst]) TcpState.noConfusion TcpState.noConfusion
  · obtain ⟨timers, retransmit, heq⟩ :=
      tcpCleanRetransmissionQueue_eq { s with sndUna := seg.th.ackSeq } seg.th.ackSeq
    rw [heq]
    exact .of_state rfl rfl rfl
  · have hcore := core_tcpDataQueue s seg.th (tcpInitSegment seg)
    exact .of_state (place_tcpDataQueue s seg.th (tcpInitSegment seg)) (congrArg Core.state hcore)
      (congrArg Core.freed hcore)
  · have hcore := core_afterFin s
    have hst : (afterFin s).state = finState s.state := congrArg Core.state hcore
    obtain ⟨hl', hc'⟩ := finState_ne hl hc
    exact .of_open (place_afterFin s) (congrArg Core.freed hcore) hl hc (hst ▸ hl') (hst ▸ hc')

theorem stays_tcpSynsent (hst : sk.state = .synSent) (th : TcpHdr) : Stays sk (tcpSynsent sk th) := by
  rcases tcpSynsent_cases sk th with heq | ⟨sk₁, hsk₁, hend⟩
  · rw [heq]
    exact .refl sk
  have h₁ : Stays sk sk₁ := by
    rcases hsk₁ with rfl | ⟨-, rfl⟩
    · exact .of_state rfl rfl rfl
    · obtain ⟨timers, retransmit, heq⟩ := tcpCleanRetransmissionQueue_eq
        { synAnswered sk th with sndUna := th.ackSeq } th.ackSeq
      rw [heq]
      exact .of_state rfl rfl rfl
  rcases hend with ⟨-, heq⟩ | ⟨-, heq⟩ <;> rw [heq]
  · rw [tcpSendAck_eq]
    exact .of_open h₁.place h₁.freed (by simp [hst]) (by simp [hst]) TcpState.noConfusion
      TcpState.noConfusion
  · rw [tcpSendSynack_eq rfl]
    exact .of_open h₁.place h₁.freed (by simp [hst]) (by simp [hst]) TcpState.noConfusion
      TcpState.noConfusion

theorem stays_tcpProcess {seg : Seg} (hrun : tcpProcess sk seg = .ok sk') :
    Left sk' ∨ Stays sk sk' := by
  by_cases hst : sk.state = .synSent
  · rw [tcpProcess_synSent hst] at hrun
    exact .inr (Except.ok.inj hrun ▸ stays_tcpSynsent hst seg.th)
  · exact (stays_segmentRule sk seg).tcpProcess (.inr (.refl sk)) hst hrun

/-! ### Calls and timers -/

theorem stays_tcpWrite (sk : TcpSock) (buf : List UInt8) : Stays sk (tcpWrite sk buf).1 :=
  tcpWrite_keeps (fun s skb h => h.trans (stays_tcpQueueTransmitSkb s skb)) (.refl sk) buf

theorem stays_tcpReadStart (sk : TcpSock) (len : ℕ) : Stays sk (tcpReadStart sk len).1 := by
  have hcore := core_tcpReadStart sk len
  refine .of_state ?_ (congrArg Core.state hcore) (congrArg Core.freed hcore)
  unfold tcpReadStart
  split
  case h_7 => split_ifs <;> rfl
  all_goals rfl

theorem stays_tcpReceiveRound (sk : TcpSock) (len rlen : ℕ) :
    Stays sk (tcpReceiveRound sk len rlen).1 := by
  have hcore := core_tcpReceiveRound sk len rlen
  refine .of_state ?_ (congrArg Core.state hcore) (congrArg Core.freed hcore)
  unfold tcpReceiveRound
  simp only
  split_ifs <;> rfl

theorem stays_tcpClose (sk : TcpSock) : Left (tcpClose sk).1 ∨ Stays sk (tcpClose sk).1 := by
  have hfin : ∀ st, st ≠ .listen → st ≠ .close → sk.state ≠ .listen → sk.state ≠ .close →
      Stays sk (tcpSetState (tcpQueueFin sk) st) := by
    intro st hl' hc' hl hc
    have h := stays_tcpQueueTransmitSkb sk { tcpAllocSkb 0 with th := { fin := true, ack := true } }
    exact .of_open h.place h.freed hl hc hl' hc'
  unfold tcpClose
  cases hst : sk.state
  case listen => exact .inl ⟨rfl, rfl⟩
  case synSent | synReceived | established =>
    exact .inr (hfin _ TcpState.noConfusion TcpState.noConfusion (by simp [hst]) (by simp [hst]))
  case closeWait =>
    exact .inr (hfin _ TcpState.noConfusion TcpState.noConfusion (by simp [hst]) (by simp [hst]))
  all_goals exact .inr (.of_state rfl (by simp [hst]) rfl)

/-- The timer ends the handshake and frees the sock. -/
def TimesOut (sk : TcpSock) (i : ℕ) : Prop :=
  sk.timers[i]?.map Timer.handler = some .tcpConnectRto ∧ sk.state ≠ .established ∧ sk.backoff > 3

instance (sk : TcpSock) (i : ℕ) : Decidable (TimesOut sk i) := inferInstanceAs (Decidable (_ ∧ _))

theorem stays_tcpRetransmissionTimeout (sk : TcpSock) : Stays sk (tcpRetransmissionTimeout sk) := by
  cases hq : sk.writeQueue with
  | nil =>
    obtain ⟨sleeping, timers, heq⟩ := tcpRetransmissionTimeout_nil hq
    rw [heq]
    exact .of_state rfl rfl rfl
  | cons skb q =>
    obtain ⟨timers, retransmit, heq⟩ := tcpRetransmissionTimeout_cons hq
    rw [heq]
    obtain ⟨hl, hc⟩ := refinState_iff sk.state
    cases skb.th.fin
    · exact .of_state rfl rfl rfl
    · exact ⟨rfl, hl, hc, rfl⟩

theorem stays_tcpConnectRto (h : ¬ (sk.state ≠ .established ∧ sk.backoff > 3)) :
    Stays sk (tcpConnectRto sk) := by
  obtain ⟨timers, hr⟩ := tcpReleaseRetransmissionTimer_eq sk
  by_cases hst : sk.state = .established
  · rw [tcpConnectRto_established hst, hr]
    exact .of_state rfl rfl rfl
  have hb : ¬ sk.backoff > 3 := fun hb => h ⟨hst, hb⟩
  cases hq : sk.writeQueue with
  | nil =>
    rw [tcpConnectRto_nil hst hb hq, hr]
    exact .of_state rfl rfl rfl
  | cons skb q =>
    obtain ⟨timers', retransmit', heq⟩ := tcpConnectRto_resend hst hb hq
    rw [heq]
    exact .of_state rfl rfl rfl

/-- A timer keeps the sock where it is, takes it out and frees it, or frees it where it is. -/
theorem fireTimer_stays {i : ℕ} (h : fireTimer sk i = some sk') :
    if TimesOut sk i then sk'.freed = true ∧ sk'.link = sk.link else Left sk' ∨ Stays sk sk' := by
  obtain ⟨t, ht, -, rfl⟩ := fireTimer_runs h
  have hiff : TimesOut sk i ↔
      t.handler = .tcpConnectRto ∧ sk.state ≠ .established ∧ sk.backoff > 3 := by
    unfold TimesOut
    rw [ht, Option.map_some, Option.some.injEq]
  generalize hs : { sk with timers := sk.timers.modify i fun t => { t with cancelled := true } } = s
  have hstay : Stays sk s := hs ▸ .of_state rfl rfl rfl
  have hst : s.state = sk.state := by rw [← hs]
  have hb : s.backoff = sk.backoff := by rw [← hs]
  cases hh : t.handler with
  | tcpConnectRto =>
    rw [hh, ← hst, ← hb] at hiff
    by_cases hout : s.state ≠ .established ∧ s.backoff > 3
    · rw [if_pos (hiff.mpr ⟨rfl, hout⟩), runHandler, tcpConnectRto_free hout.1 hout.2]
      exact ⟨rfl, congrArg Place.link hstay.place⟩
    · rw [if_neg fun h => hout (hiff.mp h).2, runHandler]
      exact .inr (hstay.trans (stays_tcpConnectRto hout))
  | tcpRetransmissionTimeout =>
    rw [if_neg fun h => by cases hh ▸ (hiff.mp h).1]
    exact .inr (hstay.trans (stays_tcpRetransmissionTimeout s))
  | tcpSendDelack =>
    rw [if_neg fun h => by cases hh ▸ (hiff.mp h).1]
    have hack := stays_tcpSendAck (tcpReleaseDelackTimer { s with delacks := 0 })
    exact .inr (hstay.trans ⟨hack.place, hack.listen, hack.close, hack.freed⟩)
  | tcpLinger =>
    rw [if_neg fun h => by cases hh ▸ (hiff.mp h).1]
    exact .inl ⟨rfl, rfl⟩

/-- **One step of a sock.** -/
theorem sockStep_stays {e : SockEvent} (h : sockStep sk e = some sk') : sk.freed = false ∧
    ((∃ i, e = .timer i ∧ TimesOut sk i ∧ sk'.freed = true ∧ sk'.link = sk.link) ∨
      (∀ i, e = .timer i → ¬ TimesOut sk i) ∧ (Left sk' ∨ Stays sk sk')) := by
  obtain ⟨hf, he⟩ := sockStep_some h
  refine ⟨hf, ?_⟩
  cases e with
  | timer i =>
    have hstay := fireTimer_stays he
    split_ifs at hstay with hout
    · exact .inl ⟨i, rfl, hout, hstay⟩
    · refine .inr ⟨?_, hstay⟩
      rintro j ⟨⟩
      exact hout
  | segment seg => exact .inr ⟨fun _ h => (by cases h), stays_tcpProcess he⟩
  | write buf => exact .inr ⟨fun _ h => (by cases h), .inr (he ▸ stays_tcpWrite sk buf)⟩
  | close => exact .inr ⟨fun _ h => (by cases h), he ▸ stays_tcpClose sk⟩
  | read len => exact .inr ⟨fun _ h => (by cases h), .inr (he ▸ stays_tcpReadStart sk len)⟩
  | receive len rlen =>
    exact .inr ⟨fun _ h => (by cases h), .inr (he ▸ stays_tcpReceiveRound sk len rlen)⟩

end ToyIP.Tcp.Places
