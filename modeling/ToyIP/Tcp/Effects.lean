import ToyIP.Tcp.Sides

/-! # TCP: what output, timers and socket calls do

The functions that send are taken apart here: which buffer leaves with which sequence number, what
is recorded for it, and which half of the sock stays as it was. `tcpSend_ind` is the induction over
the rounds of `tcp_send`; `TimerEffect` lists what an expired timer can do. -/

namespace ToyIP.Tcp.Effects

open ToyIP.Tcp.Types ToyIP.Tcp.Timer ToyIP.Tcp.Output ToyIP.Tcp.Sock ToyIP.Tcp.Sides

/-! ### Output -/

/-- The segment `tcp_transmit_skb` hands to `ip_output`. -/
def sentSeg (sk : TcpSock) (skb : Skb) (seq : UInt32) : Seg :=
  { saddr := sk.saddr, daddr := sk.daddr, th := fillHeader sk skb.th seq, dlen := skb.dlen,
    payload := skb.payload }

/-- The buffer `tcp_transmit_skb` leaves. -/
def sentSkb (sk : TcpSock) (skb : Skb) (seq : UInt32) : Skb :=
  { skb with
    th := fillHeader sk skb.th seq, seq := sk.sndUna, endSeq := sk.sndUna + skb.dlen }

theorem tcpTransmitSkb_eq (sk : TcpSock) (skb : Skb) (seq : UInt32) :
    tcpTransmitSkb sk skb seq =
      ({ sk with out := sk.out ++ [sentSeg sk skb seq] }, sentSkb sk skb seq) := rfl

theorem tcpReleaseRetransmissionTimer_eq (sk : TcpSock) : ∃ timers,
    tcpReleaseRetransmissionTimer sk = { sk with timers := timers, retransmit := none } :=
  ⟨_, rfl⟩

theorem tcpResetRetransmissionTimer_eq (sk : TcpSock) : ∃ timers retransmit,
    tcpResetRetransmissionTimer sk =
      { sk with timers := timers, retransmit := retransmit } := by
  obtain ⟨timers, h⟩ := tcpReleaseRetransmissionTimer_eq sk
  unfold tcpResetRetransmissionTimer
  rw [h]
  exact ⟨_, _, rfl⟩

/-- A queued buffer leaves at `snd_nxt`; the timer may be armed anew. -/
theorem tcpQueueTransmitSkb_eq (sk : TcpSock) (skb : Skb) : ∃ timers retransmit,
    tcpQueueTransmitSkb sk skb = { sk with
      writeQueue := sk.writeQueue ++ [sentSkb sk skb sk.sndNxt]
      sndNxt := sk.sndNxt + skb.dlen
      out := sk.out ++ [sentSeg sk skb sk.sndNxt]
      timers := timers
      retransmit := retransmit } := by
  obtain ⟨timers, retransmit, h⟩ := tcpResetRetransmissionTimer_eq sk
  unfold tcpQueueTransmitSkb
  by_cases hq : sk.writeQueue.isEmpty
  · rw [if_pos hq, h]
    exact ⟨timers, retransmit, rfl⟩
  · rw [if_neg hq]
    exact ⟨sk.timers, sk.retransmit, rfl⟩

/-- The state after a retransmission of a FIN. -/
def refinState : TcpState → TcpState
  | .closeWait => .lastAck
  | .established => .finWait1
  | s => s

theorem live_refinState {s : TcpState} (h : Live s) : Live (refinState s) := by
  cases s <;> first | exact h.elim | trivial

theorem tcpHandleFinState_eq (sk : TcpSock) :
    tcpHandleFinState sk = { sk with state := refinState sk.state } := by
  unfold tcpHandleFinState
  cases h : sk.state <;> simp only [refinState, tcpSetState] <;> rw [← h]

/-- With an empty queue the timeout only wakes the user. -/
theorem tcpRetransmissionTimeout_nil {sk : TcpSock} (h : sk.writeQueue = []) :
    ∃ sleeping timers, tcpRetransmissionTimeout sk =
      { sk with sleeping := sleeping, timers := timers, retransmit := none } := by
  obtain ⟨timers, hr⟩ := tcpReleaseRetransmissionTimer_eq sk
  unfold tcpRetransmissionTimeout
  rw [hr]
  simp only [h]
  unfold tcpNotifyUser
  split_ifs
  · exact ⟨false, timers, rfl⟩
  · exact ⟨sk.sleeping, timers, rfl⟩

/-- Else the head of the queue leaves at `snd_una`. -/
theorem tcpRetransmissionTimeout_cons {sk : TcpSock} {skb : Skb} {q : List Skb}
    (h : sk.writeQueue = skb :: q) : ∃ timers retransmit, tcpRetransmissionTimeout sk = { sk with
      writeQueue := sentSkb sk skb sk.sndUna :: q
      out := sk.out ++ [sentSeg sk skb sk.sndUna]
      state := if skb.th.fin then refinState sk.state else sk.state
      timers := timers
      retransmit := retransmit } := by
  obtain ⟨timers, hr⟩ := tcpReleaseRetransmissionTimer_eq sk
  unfold tcpRetransmissionTimeout
  rw [hr]
  simp only [h, tcpHandleFinState_eq]
  by_cases hf : skb.th.fin
  · rw [if_pos hf, if_pos hf]; exact ⟨_, _, rfl⟩
  · rw [if_neg hf, if_neg hf]; exact ⟨_, _, rfl⟩

theorem tcpConnectRto_established {sk : TcpSock} (h : sk.state = .established) :
    tcpConnectRto sk = tcpReleaseRetransmissionTimer sk := by
  have h' : (tcpReleaseRetransmissionTimer sk).state = .established := h
  unfold tcpConnectRto
  simp only [if_pos h']

theorem tcpConnectRto_free {sk : TcpSock} (h : sk.state ≠ .established) (hb : sk.backoff > 3) :
    tcpConnectRto sk = tcpFreeSock { tcpReleaseRetransmissionTimer sk with err := -110 } := by
  have h' : (tcpReleaseRetransmissionTimer sk).state ≠ .established := h
  have hb' : (tcpReleaseRetransmissionTimer sk).backoff > 3 := hb
  unfold tcpConnectRto
  simp only [if_neg h', if_pos hb']

theorem tcpConnectRto_nil {sk : TcpSock} (h : sk.state ≠ .established) (hb : ¬ sk.backoff > 3)
    (hq : sk.writeQueue = []) : tcpConnectRto sk = tcpReleaseRetransmissionTimer sk := by
  have h' : (tcpReleaseRetransmissionTimer sk).state ≠ .established := h
  have hb' : ¬ (tcpReleaseRetransmissionTimer sk).backoff > 3 := hb
  have hq' : (tcpReleaseRetransmissionTimer sk).writeQueue = [] := hq
  unfold tcpConnectRto
  simp only [if_neg h', if_neg hb', hq']

/-- Else the head of the queue leaves at `snd_una`. -/
theorem tcpConnectRto_cons {sk : TcpSock} {skb : Skb} {q : List Skb} (h : sk.state ≠ .established)
    (hb : ¬ sk.backoff > 3) (hq : sk.writeQueue = skb :: q) :
    tcpConnectRto sk = tcpResetRetransmissionTimer { tcpReleaseRetransmissionTimer sk with
      writeQueue := sentSkb sk skb sk.sndUna :: q
      out := sk.out ++ [sentSeg sk skb sk.sndUna]
      backoff := sk.backoff + 1 } := by
  have h' : (tcpReleaseRetransmissionTimer sk).state ≠ .established := h
  have hb' : ¬ (tcpReleaseRetransmissionTimer sk).backoff > 3 := hb
  have hq' : (tcpReleaseRetransmissionTimer sk).writeQueue = skb :: q := hq
  unfold tcpConnectRto
  simp only [if_neg h', if_neg hb', hq']
  rfl

theorem tcpConnectRto_resend {sk : TcpSock} {skb : Skb} {q : List Skb} (h : sk.state ≠ .established)
    (hb : ¬ sk.backoff > 3) (hq : sk.writeQueue = skb :: q) :
    ∃ timers retransmit, tcpConnectRto sk = { sk with
      timers := timers, retransmit := retransmit, writeQueue := sentSkb sk skb sk.sndUna :: q
      out := sk.out ++ [sentSeg sk skb sk.sndUna], backoff := sk.backoff + 1 } := by
  obtain ⟨timers, hr⟩ := tcpReleaseRetransmissionTimer_eq sk
  obtain ⟨timers', retransmit', heq⟩ := tcpResetRetransmissionTimer_eq
    { sk with
      timers := timers, retransmit := none, writeQueue := sentSkb sk skb sk.sndUna :: q
      out := sk.out ++ [sentSeg sk skb sk.sndUna], backoff := sk.backoff + 1 }
  refine ⟨timers', retransmit', ?_⟩
  rw [tcpConnectRto_cons h hb hq, hr, heq]
/-! ### Socket calls -/

theorem tcpClose_open {sk : TcpSock}
    (h : sk.state = .established ∨ sk.state = .synReceived ∨ sk.state = .synSent) :
    (tcpClose sk).1 = tcpSetState (tcpQueueFin sk) .finWait1 := by
  unfold tcpClose
  rcases h with h | h | h <;> rw [h]

theorem tcpClose_closeWait {sk : TcpSock} (h : sk.state = .closeWait) :
    (tcpClose sk).1 = tcpSetState (tcpQueueFin sk) .lastAck := by
  unfold tcpClose
  rw [h]

/-- A second close only sets the error. -/
theorem tcpClose_closing {sk : TcpSock} (h : sk.state = .closing ∨ sk.state = .lastAck ∨
      sk.state = .timeWait ∨ sk.state = .finWait1 ∨ sk.state = .finWait2) :
    (tcpClose sk).1 = { sk with err := -9 } := by
  unfold tcpClose
  rcases h with h | h | h | h | h <;> rw [h]

/-- So does a close before the sock is connected. -/
theorem tcpClose_close {sk : TcpSock} (h : sk.state = .close) :
    (tcpClose sk).1 = { sk with err := -9 } := by
  unfold tcpClose
  rw [h]

theorem tcpWrite_open {sk : TcpSock} (h : sk.state = .established ∨ sk.state = .closeWait)
    (buf : List UInt8) : (tcpWrite sk buf).1 = tcpSend sk buf := by
  unfold tcpWrite
  rcases h with h | h <;> rw [h]

theorem tcpWrite_not_open {sk : TcpSock} (h : sk.state ≠ .established) (h' : sk.state ≠ .closeWait)
    (buf : List UInt8) : (tcpWrite sk buf).1 = sk := by
  unfold tcpWrite
  split <;> first | rfl | contradiction

/-- The buffer of one round of `tcp_send`. -/
def dataSkb (chunk : List UInt8) (psh : Bool) : Skb :=
  { tcpAllocSkb chunk.length with payload := chunk, th := { ack := true, psh := psh } }

/-- What every round of `tcp_send` preserves holds when all of the buffer is sent. -/
theorem tcpSend_ind {P : TcpSock → List UInt8 → Prop}
    (hstep : ∀ sk chunk rest psh, chunk ≠ [] → chunk.length < 65536 → P sk (chunk ++ rest) →
      P (tcpQueueTransmitSkb sk (dataSkb chunk psh)) rest)
    {sk : TcpSock} {buf : List UInt8} (hmss : 0 < sk.smss) (h : P sk buf) :
    P (tcpSend sk buf) [] := by
  have hpos : 0 < sk.smss.toNat := UInt16.lt_iff_toNat_lt.mp hmss
  have hlt : sk.smss.toNat < 65536 := sk.smss.toNat_lt
  have hloop : ∀ (fuel : ℕ) (sk' : TcpSock) (buf : List UInt8), buf.length ≤ fuel → P sk' buf →
      P (tcpSendLoop sk' sk.smss.toNat fuel buf) [] := by
    intro fuel
    induction fuel with
    | zero =>
      intro sk' buf hle hP
      rw [List.length_eq_zero_iff.mp (Nat.le_zero.mp hle)] at hP
      exact hP
    | succ fuel ih =>
      intro sk' buf hle hP
      unfold tcpSendLoop
      split_ifs with hnil
      · exact hnil ▸ hP
      · have hblen := List.length_pos_iff.mpr hnil
        set d := min buf.length sk.smss.toNat
        have hlen : (buf.take d).length = d := by rw [List.length_take]; omega
        have hP' := hstep sk' (buf.take d) (buf.drop d) (buf.length - d = 0)
          (List.ne_nil_of_length_pos (by omega)) (by omega) (by rwa [List.take_append_drop])
        unfold dataSkb at hP'
        rw [hlen] at hP'
        exact ih _ _ (by rw [List.length_drop]; omega) hP'
  exact hloop buf.length sk buf (Nat.le_refl _) h

/-- What every segment queued preserves `tcp_write` preserves. -/
theorem tcpWrite_keeps {P : TcpSock → Prop}
    (hstep : ∀ sk skb, P sk → P (tcpQueueTransmitSkb sk skb)) {sk : TcpSock} (h : P sk)
    (buf : List UInt8) : P (tcpWrite sk buf).1 := by
  have hloop : ∀ (fuel mss : ℕ) (sk : TcpSock) (buf : List UInt8), P sk →
      P (tcpSendLoop sk mss fuel buf) := by
    intro fuel
    induction fuel with
    | zero => exact fun _ _ _ h => h
    | succ fuel ih =>
      intro mss sk buf h
      unfold tcpSendLoop
      split_ifs
      · exact h
      · exact ih _ _ _ (hstep sk _ h)
  unfold tcpWrite
  split
  · exact hloop _ _ _ _ h
  · exact hloop _ _ _ _ h
  · exact h

theorem recvSide_tcpQueueTransmitSkb (sk : TcpSock) (skb : Skb) :
    recvSide (tcpQueueTransmitSkb sk skb) = recvSide sk := by
  obtain ⟨timers, retransmit, heq⟩ := tcpQueueTransmitSkb_eq sk skb
  rw [heq]; rfl

theorem core_tcpQueueTransmitSkb (sk : TcpSock) (skb : Skb) :
    core (tcpQueueTransmitSkb sk skb) = core sk := by
  obtain ⟨timers, retransmit, heq⟩ := tcpQueueTransmitSkb_eq sk skb
  rw [heq]; rfl

theorem recvSide_tcpSend {sk : TcpSock} (hmss : 0 < sk.smss) (buf : List UInt8) :
    recvSide (tcpSend sk buf) = recvSide sk :=
  tcpSend_ind (P := fun sk' _ => recvSide sk' = recvSide sk)
    (fun sk' _ _ _ _ _ h => (recvSide_tcpQueueTransmitSkb sk' _).trans h) hmss rfl

theorem core_tcpSend {sk : TcpSock} (hmss : 0 < sk.smss) (buf : List UInt8) :
    core (tcpSend sk buf) = core sk :=
  tcpSend_ind (P := fun sk' _ => core sk' = core sk)
    (fun sk' _ _ _ _ _ h => (core_tcpQueueTransmitSkb sk' _).trans h) hmss rfl

/-! ### Expired timers -/

/-- What an expired timer does: at most an acknowledgement is sent, or the sock is freed, or the
head of the write queue leaves again, at `snd_una`. -/
inductive TimerEffect (sk : TcpSock) (h : Handler) (sk' : TcpSock) : Prop
  | quiet (send : sendSide sk' = sendSide sk) (recv : recvSide sk' = recvSide sk)
      (core : core sk' = core sk) (out : Emits (PureAck sk.rcvNxt) sk sk')
  | freed (freed : sk'.freed = true) (receiveQueue : sk'.receiveQueue = [])
      (out : sk'.out = sk.out) (isn : sk'.isn = sk.isn)
  | resend (skb : Skb) (q : List Skb) (queue : sk.writeQueue = skb :: q)
      (handler : h = .tcpRetransmissionTimeout ∨ h = .tcpConnectRto)
      (send : sendSide sk' = { sendSide sk with writeQueue := sentSkb sk skb sk.sndUna :: q })
      (recv : recvSide sk' = recvSide sk)
      (core : core sk' = { core sk with state := sk'.state })
      (state : sk'.state = sk.state ∨ skb.th.fin = true ∧ sk'.state = refinState sk.state)
      (out : sk'.out = sk.out ++ [sentSeg sk skb sk.sndUna])

theorem timerEffect_tcpConnectRto (sk : TcpSock) :
    TimerEffect sk .tcpConnectRto (tcpConnectRto sk) := by
  obtain ⟨timers, hr⟩ := tcpReleaseRetransmissionTimer_eq sk
  by_cases hst : sk.state = .established
  · rw [tcpConnectRto_established hst, hr]
    exact .quiet rfl rfl rfl (Emits.of_out rfl)
  by_cases hb : sk.backoff > 3
  · rw [tcpConnectRto_free hst hb]
    exact .freed rfl rfl rfl rfl
  cases hq : sk.writeQueue with
  | nil =>
    rw [tcpConnectRto_nil hst hb hq, hr]
    exact .quiet rfl rfl rfl (Emits.of_out rfl)
  | cons skb q =>
    obtain ⟨timers', retransmit', heq⟩ := tcpConnectRto_resend hst hb hq
    rw [heq]
    exact .resend skb q hq (Or.inr rfl) rfl rfl rfl (Or.inl rfl) rfl

theorem timerEffect_tcpRetransmissionTimeout (sk : TcpSock) :
    TimerEffect sk .tcpRetransmissionTimeout (tcpRetransmissionTimeout sk) := by
  cases hq : sk.writeQueue with
  | nil =>
    obtain ⟨sleeping, timers, heq⟩ := tcpRetransmissionTimeout_nil hq
    rw [heq]
    exact .quiet rfl rfl rfl (Emits.of_out rfl)
  | cons skb q =>
    obtain ⟨timers, retransmit, heq⟩ := tcpRetransmissionTimeout_cons hq
    rw [heq]
    refine .resend skb q hq (Or.inl rfl) rfl rfl rfl ?_ rfl
    cases hf : skb.th.fin
    · exact Or.inl rfl
    · exact Or.inr ⟨rfl, rfl⟩

theorem timerEffect_runHandler (sk : TcpSock) (h : Handler) :
    TimerEffect sk h (runHandler sk h) := by
  cases h with
  | tcpConnectRto => exact timerEffect_tcpConnectRto sk
  | tcpRetransmissionTimeout => exact timerEffect_tcpRetransmissionTimeout sk
  | tcpSendDelack =>
    have h := emits_tcpSendAck (tcpReleaseDelackTimer { sk with delacks := 0 })
    exact .quiet (sendSide_tcpSendAck _) (recvSide_tcpSendAck _) (core_tcpSendAck _) h
  | tcpLinger => exact .freed rfl rfl rfl rfl

/-- An expired timer that was not cancelled. -/
theorem fireTimer_some {sk sk' : TcpSock} {i : ℕ} (h : fireTimer sk i = some sk') :
    ∃ t, sk.timers[i]? = some t ∧ t.cancelled = false ∧ TimerEffect sk t.handler sk' := by
  obtain ⟨t, ht, hc, rfl⟩ := fireTimer_runs h
  refine ⟨t, ht, hc, ?_⟩
  have he := timerEffect_runHandler
    { sk with timers := sk.timers.modify i fun t => { t with cancelled := true } } t.handler
  cases he with
  | quiet send recv core out => exact .quiet send recv core out
  | freed freed receiveQueue out isn => exact .freed freed receiveQueue out isn
  | resend skb q queue handler send recv core state out =>
    exact .resend skb q queue handler send recv core state out

/-! ### The state of an open connection -/

/-- Only the state changes, by a FIN that comes or a FIN that goes. -/
structure Onward (sk sk' : TcpSock) : Prop where
  core : core sk' = { core sk with state := sk'.state }
  state : sk'.state = sk.state ∨ sk'.state = finState sk.state ∨ sk'.state = refinState sk.state

theorem Onward.of_core {sk sk' : TcpSock} (h : Sides.core sk' = Sides.core sk) : Onward sk sk' := by
  have hst : sk'.state = sk.state := congrArg Core.state h
  exact ⟨by rw [h, hst]; rfl, Or.inl hst⟩

theorem Onward.live {sk sk' : TcpSock} (h : Onward sk sk') (hl : Live sk.state) :
    Live sk'.state := by
  rcases h.state with hst | hst | hst <;> rw [hst]
  · exact hl
  · exact live_finState hl
  · exact live_refinState hl

theorem Onward.freed {sk sk' : TcpSock} (h : Onward sk sk') : sk'.freed = sk.freed :=
  congrArg Core.freed h.core

theorem Onward.smss {sk sk' : TcpSock} (h : Onward sk sk') : sk'.smss = sk.smss :=
  congrArg Core.smss h.core

theorem core_tcpWrite {sk : TcpSock} (hmss : 0 < sk.smss) (buf : List UInt8) :
    core (tcpWrite sk buf).1 = core sk := by
  by_cases hopen : sk.state = .established ∨ sk.state = .closeWait
  · rw [tcpWrite_open hopen]
    exact core_tcpSend hmss buf
  · rw [not_or] at hopen
    rw [tcpWrite_not_open hopen.1 hopen.2]

theorem onward_tcpWrite {sk : TcpSock} (hmss : 0 < sk.smss) (buf : List UInt8) :
    Onward sk (tcpWrite sk buf).1 := .of_core (core_tcpWrite hmss buf)

theorem core_tcpQueueFin (sk : TcpSock) : core (tcpQueueFin sk) = core sk :=
  core_tcpQueueTransmitSkb sk { tcpAllocSkb 0 with th := { fin := true, ack := true } }

theorem onward_tcpClose {sk : TcpSock} (h : Live sk.state) : Onward sk (tcpClose sk).1 := by
  have hfin : ∀ st, core (tcpSetState (tcpQueueFin sk) st) = { core sk with state := st } :=
    fun st => by
      show { core (tcpQueueFin sk) with state := st } = _
      rw [core_tcpQueueFin]
  cases hst : sk.state <;> rw [hst] at h
  case established =>
    rw [tcpClose_open (Or.inl hst)]
    exact ⟨hfin _, Or.inr (Or.inr (by rw [hst]; rfl))⟩
  case closeWait =>
    rw [tcpClose_closeWait hst]
    exact ⟨hfin _, Or.inr (Or.inr (by rw [hst]; rfl))⟩
  case finWait1 | closing | lastAck =>
    rw [tcpClose_closing (by simp [hst])]
    exact .of_core rfl
  all_goals exact h.elim

theorem onward_fireTimer {sk sk' : TcpSock} {i : ℕ} (h : fireTimer sk i = some sk') :
    sk'.freed = true ∨ Onward sk sk' := by
  obtain ⟨t, -, -, heff⟩ := fireTimer_some h
  cases heff with
  | quiet send recv core out => exact Or.inr (.of_core core)
  | freed freed _ _ _ => exact Or.inl freed
  | resend skb q queue handler send recv core state out =>
    exact Or.inr ⟨core, state.imp_right fun hst => Or.inr hst.2⟩

theorem onward_processed (sk : TcpSock) (seg : Seg) : Onward sk (processed sk seg) := by
  obtain ⟨hcore, hst | hst⟩ := state_processed sk seg
  · exact ⟨hcore, Or.inl hst⟩
  · exact ⟨hcore, Or.inr (Or.inl hst)⟩

end ToyIP.Tcp.Effects
