import ToyIP.Lib.Deadline
import ToyIP.Tcp.DelayedAck
import ToyIP.Tcp.Places

/-! # TCP: how long things take

The life of a sock together with the `tick` of `timer.c`. A timer waits for the tick at which it was
added plus its delay, and fires in the first tick behind it; `timers_start` counts up when all of
them have fired. A rule for runs (`timed_run`) keeps the deadlines of the pending timers (`Good`), as
long as the clock does not wrap. -/

namespace ToyIP.Tcp.Ticks

open ToyIP.Lib ToyIP.Lib.Run ToyIP.Lib.Deadline ToyIP.Tcp.Types ToyIP.Tcp.Timer ToyIP.Tcp.Output
  ToyIP.Tcp.Data ToyIP.Tcp.Input ToyIP.Tcp.Sock ToyIP.Tcp.Sides ToyIP.Tcp.Effects ToyIP.Tcp.Teardown
  ToyIP.Tcp.Life ToyIP.Tcp.Clock ToyIP.Tcp.RetransmitTimer ToyIP.Tcp.DelayedAck
  ToyIP.Tcp.Places

/-- A sock, the clock, and the ticks that its timers wait for. -/
structure Timed where
  sk : TcpSock
  tick : UInt32
  expires : List UInt32 := []

/-- The sock after an event, with what `timer_add` has computed for its new timers. -/
def Timed.after (s : Timed) (sk : TcpSock) : Timed :=
  { s with
    sk := sk
    expires := s.expires ++ (sk.timers.drop s.expires.length).map fun t => s.tick + t.expire }

/-- The test of `timers_tick`. -/
def due (s : Timed) (i : ℕ) : Bool :=
  match s.expires[i]? with
  | some x => decide (x < s.tick)
  | none => false

/-- `timers_tick` has not come to the end of its list. -/
def busy (s : Timed) : Bool :=
  !s.sk.freed && (List.range s.sk.timers.length).any fun i =>
    due s i && (s.sk.timers[i]?.map fun t => !t.cancelled) == some true

inductive TimedEvent
  | life (e : LifeEvent)
  | tick
  deriving DecidableEq, Repr

/-- A timer fires when it is due. -/
def inTime (s : Timed) : LifeEvent → Bool
  | .sock (.timer i) => due s i
  | _ => true

/-- One event of the sock, or one turn of `timers_start`. -/
def timedStep (s : Timed) : TimedEvent → Option Timed
  | .life e => if inTime s e then (lifeStep s.sk e).map s.after else none
  | .tick => if busy s then none else some { s with tick := s.tick + 1 }

/-- How often the clock has been counted up. -/
def ticks (es : List TimedEvent) : ℕ := es.count .tick

/-! ### The delays -/

/-- The delay of a timer, by its callback. -/
def Delay (t : Timer) : Prop :=
  match t.handler with
  | .tcpSendDelack => t.expire.toNat = 200
  | .tcpRetransmissionTimeout => t.expire.toNat = 500
  | .tcpConnectRto => t.expire.toNat ≤ 8000
  | .tcpLinger => False

theorem Delay.le {t : Timer} (h : Delay t) : t.expire.toNat ≤ 8000 := by
  unfold Delay at h
  split at h
  · omega
  · omega
  · exact h
  · exact h.elim

/-- A timer can still fire. -/
def Live (t : Timer) : Prop := t.cancelled = false

def delay (t : Timer) : ℕ := t.expire.toNat

/-- What has become of the timers of `sk₀`. If `quiet`, no new acknowledgement was delayed. -/
structure Runs (sk₀ : TcpSock) (quiet : Prop) (sk : TcpSock) : Prop where
  state : sk.state ≠ .finWait2
  backoff : sk.backoff ≤ 4
  grows : Grows Live delay sk₀.timers sk.timers
  delays : ∀ t ∈ sk.timers, Delay t
  delack : quiet → sk.delack = none ∨ sk.delack = sk₀.delack

section Timers

variable {sk₀ sk sk' : TcpSock} {quiet : Prop} {seg : Seg}

theorem Runs.refl (hst : sk.state ≠ .finWait2) (hb : sk.backoff ≤ 4)
    (hd : ∀ t ∈ sk.timers, Delay t) : Runs sk quiet sk :=
  ⟨hst, hb, .refl _, hd, fun _ => .inr rfl⟩

/-- Nothing happens to the timers. -/
theorem Runs.same (h : Runs sk₀ quiet sk) (hst : sk'.state ≠ .finWait2)
    (hb : sk'.backoff = sk.backoff) (ht : sk'.timers = sk.timers)
    (hd : sk'.delack = none ∨ sk'.delack = sk.delack) : Runs sk₀ quiet sk' := by
  refine ⟨hst, hb ▸ h.backoff, ht ▸ h.grows, ht ▸ h.delays, fun hq => ?_⟩
  rcases hd with hd | hd
  · exact .inl hd
  · exact hd ▸ h.delack hq

theorem delay_modify {ts : List Timer} {i : ℕ} {f : Timer → Timer} (h : ∀ t ∈ ts, Delay t)
    (hf : ∀ t, (f t).handler = t.handler ∧ (f t).expire = t.expire) :
    ∀ t ∈ ts.modify i f, Delay t := by
  intro t ht
  obtain ⟨j, hj, rfl⟩ := List.mem_iff_getElem.mp ht
  rw [List.length_modify] at hj
  have hold := h _ (List.getElem_mem hj)
  rw [List.getElem_modify]
  split_ifs
  · unfold Delay at hold ⊢
    rw [(hf _).1, (hf _).2]
    exact hold
  · exact hold

theorem delay_append {ts : List Timer} {t : Timer} (h : ∀ t ∈ ts, Delay t) (ht : Delay t) :
    ∀ u ∈ ts ++ [t], Delay u := by
  intro u hu
  rcases List.mem_append.mp hu with hu | hu
  · exact h u hu
  · exact List.mem_singleton.mp hu ▸ ht

/-- A timer is released, cancelled, or marked as expired. -/
theorem Runs.modify (h : Runs sk₀ quiet sk) (i : ℕ) {f : Timer → Timer}
    (hf : ∀ t, (f t).handler = t.handler ∧ (f t).expire = t.expire ∧
      ((f t).cancelled = false → t.cancelled = false)) :
    Runs sk₀ quiet { sk with timers := sk.timers.modify i f } := by
  have hgrows : Grows Live delay sk.timers (sk.timers.modify i f) :=
    grows_modify (fun t hl => ⟨(hf t).2.2 hl, congrArg UInt32.toNat (hf t).2.1⟩) sk.timers i
  exact ⟨h.state, h.backoff, h.grows.trans hgrows,
    delay_modify h.delays fun t => ⟨(hf t).1, (hf t).2.1⟩, h.delack⟩

theorem Runs.release (h : Runs sk₀ quiet sk) (p : Option ℕ) :
    Runs sk₀ quiet (timerRelease sk p) := by
  cases p with
  | none => exact h
  | some i => exact h.modify i fun _ => ⟨rfl, rfl, id⟩

theorem Runs.cancel (h : Runs sk₀ quiet sk) (p : Option ℕ) : Runs sk₀ quiet (timerCancel sk p) := by
  cases p with
  | none => exact h
  | some i => exact h.modify i fun _ => ⟨rfl, rfl, fun hc => absurd hc Bool.noConfusion⟩

theorem Runs.expired (h : Runs sk₀ quiet sk) (i : ℕ) : Runs sk₀ quiet (expired sk i) :=
  h.modify i fun _ => ⟨rfl, rfl, fun hc => absurd hc Bool.noConfusion⟩

/-- A timer is added. -/
theorem Runs.add (h : Runs sk₀ quiet sk) {t : Timer} (ht : Delay t) :
    Runs sk₀ quiet { sk with timers := sk.timers ++ [t] } :=
  ⟨h.state, h.backoff, h.grows.trans (grows_append _ _), delay_append h.delays ht, h.delack⟩

/-! ### The functions of `tcp.c` and `tcp_output.c` -/

theorem Runs.tcpReleaseRetransmissionTimer (h : Runs sk₀ quiet sk) :
    Runs sk₀ quiet (tcpReleaseRetransmissionTimer sk) :=
  (h.release sk.retransmit).same h.state rfl rfl (.inr rfl)

theorem Runs.tcpStopRetransmissionTimer (h : Runs sk₀ quiet sk) :
    Runs sk₀ quiet (tcpStopRetransmissionTimer sk) :=
  (h.cancel sk.retransmit).same h.state rfl rfl (.inr rfl)

theorem Runs.tcpReleaseDelackTimer (h : Runs sk₀ quiet sk) :
    Runs sk₀ quiet (tcpReleaseDelackTimer sk) :=
  (h.release sk.delack).same h.state rfl rfl (.inl rfl)

theorem Runs.tcpStopDelackTimer (h : Runs sk₀ quiet sk) :
    Runs sk₀ quiet (tcpStopDelackTimer sk) :=
  (h.cancel sk.delack).same h.state rfl rfl (.inl rfl)

theorem delay_retransmissionTimer (hb : sk.backoff ≤ 4) :
    Delay { handler := (retransmissionTimer sk).2, expire := (retransmissionTimer sk).1 } := by
  unfold retransmissionTimer
  split_ifs
  · have hb : sk.backoff.toNat ≤ 4 := hb
    show (500 <<< sk.backoff.toUInt32 : UInt32).toNat ≤ 8000
    have hmod : sk.backoff.toNat % 32 = sk.backoff.toNat := Nat.mod_eq_of_lt (by omega)
    have hpow : 2 ^ sk.backoff.toNat ≤ 2 ^ 4 := Nat.pow_le_pow_right (by decide) hb
    rw [UInt32.toNat_shiftLeft, UInt8.toNat_toUInt32, hmod, Nat.shiftLeft_eq]
    exact (Nat.mod_le _ _).trans (Nat.mul_le_mul_left 500 hpow)
  · exact rfl

theorem Runs.tcpResetRetransmissionTimer (h : Runs sk₀ quiet sk) :
    Runs sk₀ quiet (tcpResetRetransmissionTimer sk) := by
  have hrel := h.tcpReleaseRetransmissionTimer
  exact (hrel.add (delay_retransmissionTimer hrel.backoff)).same hrel.state rfl rfl (.inr rfl)

theorem Runs.tcpQueueTransmitSkb (h : Runs sk₀ quiet sk) (skb : Skb) :
    Runs sk₀ quiet (tcpQueueTransmitSkb sk skb) := by
  unfold Output.tcpQueueTransmitSkb
  split_ifs
  · have hreset := h.tcpResetRetransmissionTimer
    exact hreset.same hreset.state rfl rfl (.inr rfl)
  · exact h.same h.state rfl rfl (.inr rfl)

theorem Runs.tcpSendAck (h : Runs sk₀ quiet sk) : Runs sk₀ quiet (tcpSendAck sk) := by
  rw [tcpSendAck_eq]
  exact h.same h.state rfl rfl (.inr rfl)

theorem Runs.tcpSendReset (h : Runs sk₀ quiet sk) : Runs sk₀ quiet (tcpSendReset sk) :=
  h.same h.state rfl rfl (.inr rfl)

theorem Runs.freed (h : Runs sk₀ quiet sk) : Runs sk₀ quiet (tcpFreeSock sk) := by
  have hclose : Runs sk₀ quiet (tcpSetState sk .close) :=
    h.same TcpState.noConfusion rfl rfl (.inr rfl)
  have hstop := hclose.tcpStopRetransmissionTimer.tcpStopDelackTimer
  exact hstop.same hstop.state rfl rfl (.inr rfl)

/-! ### Segments -/

theorem Runs.tcpCleanRetransmissionQueue (h : Runs sk₀ quiet sk) (una : UInt32) :
    Runs sk₀ quiet (tcpCleanRetransmissionQueue sk una) := by
  have hq : Runs sk₀ quiet
      { sk with writeQueue := sk.writeQueue.dropWhile fun skb => skb.endSeq ≤ una } :=
    h.same h.state rfl rfl (.inr rfl)
  unfold Input.tcpCleanRetransmissionQueue
  simp only
  split_ifs
  · exact hq.tcpStopRetransmissionTimer
  · exact hq

/-- An acknowledgement is put off by a segment without PSH only. -/
theorem Runs.tcpAckData (h : Runs sk₀ quiet sk) {th : TcpHdr} (hpsh : quiet → th.psh = true)
    (skb : Skb) : Runs sk₀ quiet (tcpAckData sk th skb) := by
  unfold Data.tcpAckData
  split_ifs with hnow
  · have h' : Runs sk₀ quiet { sk with delacks := 0 } := h.same h.state rfl rfl (.inr rfl)
    exact h'.tcpSendAck
  · have hadd : Runs sk₀ quiet _ := h.add (t := { handler := .tcpSendDelack, expire := 200 }) rfl
    refine ⟨hadd.state, hadd.backoff, hadd.grows, hadd.delays, fun hq => ?_⟩
    rw [hpsh hq, Bool.true_or] at hnow
    exact absurd rfl hnow

theorem Runs.tcpDataQueue (h : Runs sk₀ quiet sk) {th : TcpHdr} (hpsh : quiet → th.psh = true)
    (skb : Skb) : Runs sk₀ quiet (tcpDataQueue sk th skb) := by
  unfold Data.tcpDataQueue
  split_ifs
  · exact h
  · have h' : Runs sk₀ quiet (tcpConsumeOfoQueue { sk with
        rcvNxt := sk.rcvNxt + skb.dlen
        receiveQueue := sk.receiveQueue ++ [{ skb with refcnt := skb.refcnt + 1 }] }) :=
      h.same h.state rfl rfl (.inr rfl)
    exact h'.tcpStopDelackTimer.tcpAckData hpsh skb
  · have h' : Runs sk₀ quiet { sk with ofoQueue := tcpDataInsertOrdered sk.ofoQueue skb } :=
      h.same h.state rfl rfl (.inr rfl)
    exact h'.tcpSendAck

theorem Runs.afterFin (h : Runs sk₀ quiet sk) : Runs sk₀ quiet (afterFin sk) := by
  have htake : Runs sk₀ quiet (takeFin sk) := by
    have h' : Runs sk₀ quiet { sk with rcvNxt := sk.rcvNxt + 1, flagFin := true } :=
      h.same h.state rfl rfl (.inr rfl)
    exact h'.tcpSendAck.same h'.tcpSendAck.state rfl rfl (.inr rfl)
  unfold Sides.afterFin
  split
  · exact htake.same TcpState.noConfusion rfl rfl (.inr rfl)
  · exact htake.same TcpState.noConfusion rfl rfl (.inr rfl)
  · exact htake.same TcpState.noConfusion rfl rfl (.inr rfl)
  · rename_i hst
    exact absurd hst h.state
  · exact htake

theorem runs_segmentRule (hpsh : quiet → seg.th.psh = true) :
    SegmentRule seg (Runs sk₀ quiet) where
  ack _ h := h.tcpSendAck
  reset _ h := h.tcpSendReset
  free sk h _ := by
    have h' : Runs sk₀ quiet { sk with link := none } := h.same h.state rfl rfl (.inr rfl)
    exact h'.freed
  accept _ h _ _ _ _ := h.same TcpState.noConfusion rfl rfl (.inr rfl)
  take sk h _ _ _ := by
    have h' : Runs sk₀ quiet { sk with sndUna := seg.th.ackSeq } :=
      h.same h.state rfl rfl (.inr rfl)
    exact h'.tcpCleanRetransmissionQueue _
  text _ h _ := by
    have hd := h.tcpDataQueue hpsh (tcpInitSegment seg)
    exact hd.same hd.state rfl rfl (.inr rfl)
  fin _ h _ _ _ _ := h.afterFin

/-- The same segment with PSH. -/
def pushed (seg : Seg) : Seg := { seg with th := { seg.th with psh := true } }

theorem segmentText_textless {th : TcpHdr} {skb : Skb} (h : skb.dlen = 0) :
    segmentText sk th skb = sk := by
  have hno : ¬ skb.dlen > 0 := by
    rw [h]
    decide
  unfold segmentText
  split <;> first | exact if_neg hno | rfl

/-- Without text PSH means nothing. -/
theorem tcpProcess_pushed (h : seg.dlen = 0) : tcpProcess sk (pushed seg) = tcpProcess sk seg := by
  have hin : processInWindow sk (pushed seg).th (tcpInitSegment (pushed seg)) =
      processInWindow sk seg.th (tcpInitSegment seg) := by
    have h₁ : (tcpInitSegment (pushed seg)).dlen = 0 := h
    have h₂ : (tcpInitSegment seg).dlen = 0 := h
    unfold processInWindow
    simp only [segmentText_textless h₁, segmentText_textless h₂]
    rfl
  unfold tcpProcess
  simp only [hin]
  rfl

theorem Runs.tcpSynsent (h : Runs sk₀ quiet sk) (th : TcpHdr) : Runs sk₀ quiet (tcpSynsent sk th) := by
  rcases tcpSynsent_cases sk th with heq | ⟨sk₁, hsk₁, hend⟩
  · rw [heq]
    exact h
  have h₁ : Runs sk₀ quiet sk₁ := by
    rcases hsk₁ with rfl | ⟨-, rfl⟩
    · exact h.same h.state rfl rfl (.inr rfl)
    · have h' : Runs sk₀ quiet { synAnswered sk th with sndUna := th.ackSeq } :=
        h.same h.state rfl rfl (.inr rfl)
      exact h'.tcpCleanRetransmissionQueue _
  rcases hend with ⟨-, heq⟩ | ⟨-, heq⟩ <;> rw [heq]
  · have h₂ : Runs sk₀ quiet { tcpSetState sk₁ .established with sndUna := sk₁.sndNxt } :=
      h₁.same TcpState.noConfusion rfl rfl (.inr rfl)
    exact h₂.tcpSendAck.same h₂.tcpSendAck.state rfl rfl (.inr rfl)
  · rw [tcpSendSynack_eq rfl]
    exact h₁.same TcpState.noConfusion rfl rfl (.inr rfl)

theorem Runs.tcpProcess (h : Runs sk₀ quiet sk) (hquiet : quiet → seg.dlen = 0)
    (hrun : tcpProcess sk seg = .ok sk') : Runs sk₀ quiet sk' := by
  by_cases hst : sk.state = .synSent
  · rw [tcpProcess_synSent hst] at hrun
    exact Except.ok.inj hrun ▸ h.tcpSynsent seg.th
  by_cases hq : quiet
  · rw [← tcpProcess_pushed (hquiet hq)] at hrun
    have hrule : SegmentRule (pushed seg) (Runs sk₀ quiet) := runs_segmentRule fun _ => rfl
    exact hrule.tcpProcess h hst hrun
  · exact (runs_segmentRule fun hq' => absurd hq' hq).tcpProcess h hst hrun

/-! ### Timers and calls -/

theorem Runs.tcpConnectRto (h : Runs sk₀ quiet sk) : Runs sk₀ quiet (tcpConnectRto sk) := by
  have hrel := h.tcpReleaseRetransmissionTimer
  by_cases hst : sk.state = .established
  · rw [tcpConnectRto_established hst]
    exact hrel
  by_cases hb : sk.backoff > 3
  · rw [tcpConnectRto_free hst hb]
    have herr : Runs sk₀ quiet { Timer.tcpReleaseRetransmissionTimer sk with err := -110 } :=
      hrel.same hrel.state rfl rfl (.inr rfl)
    exact herr.freed
  cases hq : sk.writeQueue with
  | nil =>
    rw [tcpConnectRto_nil hst hb hq]
    exact hrel
  | cons skb q =>
    rw [tcpConnectRto_cons hst hb hq]
    refine Runs.tcpResetRetransmissionTimer ⟨hrel.state, ?_, hrel.grows, hrel.delays, hrel.delack⟩
    show sk.backoff + 1 ≤ 4
    have hb : ¬ 3 < sk.backoff.toNat := hb
    show (sk.backoff + 1).toNat ≤ 4
    rw [UInt8.toNat_add]
    show (_ + 1) % 256 ≤ 4
    omega

theorem Runs.tcpRetransmissionTimeout (h : Runs sk₀ quiet sk) :
    Runs sk₀ quiet (tcpRetransmissionTimeout sk) := by
  have hrel := h.tcpReleaseRetransmissionTimer
  unfold Output.tcpRetransmissionTimeout
  simp only
  split
  · unfold tcpNotifyUser
    split_ifs
    · exact hrel.same hrel.state rfl rfl (.inr rfl)
    · exact hrel
  · rename_i skb rest _
    have hadd : Runs sk₀ quiet _ :=
      hrel.add (t := { handler := .tcpRetransmissionTimeout, expire := 500 }) rfl
    split_ifs
    · rw [tcpHandleFinState_eq]
      refine hadd.same ?_ rfl rfl (.inr rfl)
      show refinState sk.state ≠ .finWait2
      cases hst : sk.state <;> simp [refinState]
      exact h.state hst
    · exact hadd.same hrel.state rfl rfl (.inr rfl)

theorem Runs.fireTimer (h : Runs sk₀ quiet sk) {i : ℕ} (hfire : fireTimer sk i = some sk') :
    Runs sk₀ quiet sk' := by
  obtain ⟨t, ht, -, rfl⟩ := fireTimer_runs hfire
  have hexp : Runs sk₀ quiet (Clock.expired sk i) := h.expired i
  have hdelay := h.delays t (List.mem_of_getElem? ht)
  cases hh : t.handler with
  | tcpConnectRto => exact hexp.tcpConnectRto
  | tcpRetransmissionTimeout => exact hexp.tcpRetransmissionTimeout
  | tcpSendDelack =>
    have h' : Runs sk₀ quiet { Clock.expired sk i with delacks := 0 } :=
      hexp.same hexp.state rfl rfl (.inr rfl)
    exact h'.tcpReleaseDelackTimer.tcpSendAck
  | tcpLinger =>
    unfold Delay at hdelay
    rw [hh] at hdelay
    exact hdelay.elim

theorem Runs.tcpClose (h : Runs sk₀ quiet sk) : Runs sk₀ quiet (tcpClose sk).1 := by
  have hfin := h.tcpQueueTransmitSkb { tcpAllocSkb 0 with th := { fin := true, ack := true } }
  unfold Sock.tcpClose
  split
  case h_7 =>
    have h' : Runs sk₀ quiet { tcpSetState sk .close with link := none } :=
      h.same TcpState.noConfusion rfl rfl (.inr rfl)
    exact h'.freed
  case h_8 | h_9 | h_10 | h_11 => exact hfin.same TcpState.noConfusion rfl rfl (.inr rfl)
  all_goals exact h.same h.state rfl rfl (.inr rfl)

/-- No text arrives. -/
def Textless : LifeEvent → Prop
  | .sock (.segment seg) => seg.dlen = 0
  | _ => True

theorem Runs.step (h : Runs sk₀ quiet sk) {e : LifeEvent} (hquiet : quiet → Textless e)
    (hstep : lifeStep sk e = some sk') : Runs sk₀ quiet sk' := by
  obtain ⟨hf, -⟩ := lifeStep_some hstep
  simp only [lifeStep, hf, Bool.false_eq_true, if_false] at hstep
  cases e with
  | connect saddr daddr sport dport isn =>
    simp only at hstep
    obtain ⟨-, hstep⟩ := Option.ite_none_right_eq_some.mp hstep
    obtain rfl := (Option.some.inj hstep).symm
    have hsend : ∀ s : TcpSock, Runs sk₀ quiet s → Runs sk₀ quiet (tcpSendSyn s) := by
      intro s hs
      unfold tcpSendSyn
      split_ifs
      · have h' : Runs sk₀ quiet { s with state := .synSent } :=
          hs.same TcpState.noConfusion rfl rfl (.inr rfl)
        exact h'.tcpQueueTransmitSkb _
      · exact hs
    have hsyn := hsend { sk with
      saddr := saddr, daddr := daddr, sport := sport, dport := dport
      link := some .connectingOrListening, isn := isn, sndUna := isn, sndNxt := isn, rcvNxt := 0
      rcvWnd := 44477 } (h.same h.state rfl rfl (.inr rfl))
    exact hsyn.same hsyn.state rfl rfl (.inr rfl)
  | accept => exact Option.some.inj hstep ▸ h.same h.state rfl rfl (.inr rfl)
  | parent st => exact Option.some.inj hstep ▸ h.same h.state rfl rfl (.inr rfl)
  | sock e =>
    obtain ⟨-, he⟩ := sockStep_some hstep
    cases e with
    | write buf => exact he ▸ tcpWrite_keeps (fun s skb h => h.tcpQueueTransmitSkb skb) h buf
    | close => exact he ▸ h.tcpClose
    | read len =>
      rw [he]
      unfold tcpReadStart
      split
      case h_7 => split_ifs <;> exact h.same h.state rfl rfl (.inr rfl)
      all_goals exact h
    | receive len rlen =>
      rw [he]
      unfold tcpReceiveRound tcpDataDequeue
      simp only
      split_ifs <;> exact h.same h.state rfl rfl (.inr rfl)
    | timer i => exact h.fireTimer he
    | segment seg => exact h.tcpProcess hquiet he

end Timers

/-! ### The clock -/

/-- The invariant of a run. -/
structure Good (s : Timed) : Prop where
  armed : Armed s.sk
  acked : Past s.sk.state → Acked s.sk
  backoff : s.sk.backoff ≤ 4
  delays : ∀ t ∈ s.sk.timers, Delay t
  onTime : OnTime Live delay s.sk.timers (s.expires.map UInt32.toNat) s.tick.toNat

section Clock

variable {s s' : Timed} {sk' : TcpSock}

theorem good_of_born {sk₀ : TcpSock} (h : Born sk₀) (t₀ : UInt32) : Good ⟨sk₀, t₀, []⟩ := by
  have hnew : sk₀.timers = [] ∧ sk₀.backoff = 0 := by
    cases h with
    | alloc => exact ⟨rfl, rfl⟩
    | listening sport => exact ⟨rfl, rfl⟩
    | child listener seg isn sk h =>
      unfold tcpHandleListen at h
      split_ifs at h
      obtain rfl := Option.some.inj h
      exact ⟨rfl, rfl⟩
  refine ⟨armed_of_born h, acked_of_born h, ?_, ?_, ?_⟩ <;> simp only [hnew]
  · decide
  · simp
  · exact onTime_nil _

theorem Good.runs (h : Good s) (quiet : Prop) : Runs s.sk quiet s.sk :=
  .refl h.armed.state.1 h.backoff h.delays

/-- The numbers that `timer_add` computes do not wrap. -/
theorem expires_after (hclock : s.tick.toNat + 8000 < 4294967296)
    (hd : ∀ t ∈ sk'.timers, Delay t) : (s.after sk').expires.map UInt32.toNat =
      s.expires.map UInt32.toNat ++ (sk'.timers.drop (s.expires.map UInt32.toNat).length).map
        fun t => s.tick.toNat + delay t := by
  unfold Timed.after
  rw [List.map_append, List.map_map, List.length_map]
  congr 1
  refine List.map_congr_left fun t ht => ?_
  have hle := (hd t (List.mem_of_mem_drop ht)).le
  show (s.tick + t.expire).toNat = s.tick.toNat + t.expire.toNat
  rw [UInt32.toNat_add]
  omega

theorem Good.life (h : Good s) (hclock : s.tick.toNat + 8000 < 4294967296) {e : LifeEvent}
    (hstep : lifeStep s.sk e = some sk') : sk'.freed = true ∨ Good (s.after sk') := by
  have hruns := (h.runs False).step (e := e) (fun hq => hq.elim) hstep
  obtain ⟨-, hlife⟩ := lifeStep_some hstep
  rcases h.armed.step hlife with hf | harm
  · exact .inl hf
  refine (Acked.step h.armed h.acked hlife).imp_right fun hack =>
    ⟨harm, hack, hruns.backoff, hruns.delays, ?_⟩
  rw [expires_after hclock hruns.delays]
  exact h.onTime.grows hruns.grows

/-- When the clock goes on, no pending timer is due. -/
theorem not_due (hbusy : busy s = false) (hlive : s.sk.freed = false) {i : ℕ} {t : Timer}
    {x : UInt32} (ht : s.sk.timers[i]? = some t) (hx : s.expires[i]? = some x) (hl : Live t) :
    ¬ x < s.tick := by
  intro hlt
  have hno := Bool.eq_false_iff.mp hbusy
  refine hno ?_
  unfold busy
  rw [hlive, Bool.not_false, Bool.true_and, List.any_eq_true]
  refine ⟨i, List.mem_range.mpr (List.getElem?_eq_some_iff.mp ht).1, ?_⟩
  simp [due, hx, ht, hlt, show t.cancelled = false from hl]

theorem toNat_tick (hclock : s.tick.toNat + 8001 < 4294967296) :
    (s.tick + 1).toNat = s.tick.toNat + 1 := Word32.toNat_add_of_lt (by
  show _ + 1 < _
  omega)

theorem Good.tick (h : Good s) (hclock : s.tick.toNat + 8001 < 4294967296) (hbusy : busy s = false)
    (hlive : s.sk.freed = false) : Good { s with tick := s.tick + 1 } := by
  refine ⟨h.armed, h.acked, h.backoff, h.delays, ?_⟩
  rw [toNat_tick hclock]
  refine h.onTime.tick fun i t d ht hd hl => ?_
  rw [List.getElem?_map] at hd
  obtain ⟨x, hx, rfl⟩ := Option.map_eq_some_iff.mp hd
  exact Nat.le_of_not_lt (not_due hbusy hlive ht hx hl)

theorem ticks_cons (e : TimedEvent) (es : List TimedEvent) :
    ticks (e :: es) = ticks es + if e = .tick then 1 else 0 := by
  unfold ticks
  rw [List.count_cons]
  simp only [beq_iff_eq]

/-- Only the clock goes on without the sock. -/
theorem freed_run : ∀ {es : List TimedEvent} {s s' : Timed}, s.sk.freed = true →
    run timedStep s es = some s' → s'.sk.freed = true
  | [], s, s', hf, hrun => by
    rw [run_nil, Option.some.injEq] at hrun
    exact hrun ▸ hf
  | e :: es, s, s', hf, hrun => by
    obtain ⟨u, hu, hrun⟩ := run_cons.mp hrun
    cases e with
    | life e =>
      obtain ⟨-, hu⟩ := Option.ite_none_right_eq_some.mp hu
      obtain ⟨sk, hsk, -⟩ := Option.map_eq_some_iff.mp hu
      have hlive := (lifeStep_some hsk).1
      rw [hf] at hlive
      exact absurd hlive Bool.noConfusion
    | tick =>
      obtain ⟨-, hu⟩ := Option.ite_none_left_eq_some.mp hu
      obtain rfl := (Option.some.inj hu).symm
      exact freed_run (s := { s with tick := s.tick + 1 }) hf hrun

/-- **The rule for a stretch of time** in which only events with `C` come: what each of them keeps
and each tick keeps, holds at its end. -/
theorem timed_run {C : LifeEvent → Prop} {P : Timed → Prop}
    (hlife : ∀ s e sk', Good s → P s → s.tick.toNat + 8000 < 4294967296 → C e →
      inTime s e = true → lifeStep s.sk e = some sk' → sk'.freed = true ∨ P (s.after sk'))
    (htick : ∀ s, P s → s.tick.toNat + 8001 < 4294967296 → P { s with tick := s.tick + 1 }) :
    ∀ {es : List TimedEvent} {s s' : Timed}, Good s → P s → (∀ e, .life e ∈ es → C e) →
      s.tick.toNat + ticks es + 8000 < 4294967296 → run timedStep s es = some s' →
        s'.sk.freed = true ∨ Good s' ∧ P s' ∧ s'.tick.toNat = s.tick.toNat + ticks es
  | [], s, s', hgood, hP, _, _, hrun => by
    rw [run_nil, Option.some.injEq] at hrun
    exact .inr (hrun ▸ ⟨hgood, hP, rfl⟩)
  | e :: es, s, s', hgood, hP, hC, hclock, hrun => by
    obtain ⟨u, hu, hrun⟩ := run_cons.mp hrun
    have hC' : ∀ e, .life e ∈ es → C e := fun e he => hC e (List.mem_cons_of_mem _ he)
    rw [ticks_cons] at hclock ⊢
    by_cases hlive : s.sk.freed = true
    · exact .inl (freed_run hlive (run_cons.mpr ⟨u, hu, hrun⟩))
    cases e with
    | life e =>
      rw [if_neg TimedEvent.noConfusion] at hclock ⊢
      obtain ⟨hin, hu⟩ := Option.ite_none_right_eq_some.mp hu
      obtain ⟨sk, hsk, rfl⟩ := Option.map_eq_some_iff.mp hu
      have hnow : s.tick.toNat + 8000 < 4294967296 := by omega
      rcases hgood.life hnow hsk with hf | hgood'
      · exact .inl (freed_run hf hrun)
      rcases hlife s e sk hgood hP hnow (hC e (List.mem_cons_self ..)) hin hsk with hf | hP'
      · exact .inl (freed_run hf hrun)
      exact timed_run hlife htick (s := s.after sk) hgood' hP' hC' hclock hrun
    | tick =>
      rw [if_pos rfl] at hclock ⊢
      obtain ⟨hbusy, hu⟩ := Option.ite_none_left_eq_some.mp hu
      obtain rfl := (Option.some.inj hu).symm
      have hnow : s.tick.toNat + 8001 < 4294967296 := by omega
      have hnext := toNat_tick hnow
      have hrest := timed_run hlife htick (s := { s with tick := s.tick + 1 })
        (hgood.tick hnow (Bool.eq_false_iff.mpr hbusy) (Bool.eq_false_iff.mpr hlive))
        (htick s hP hnow) hC' (by rw [hnext]; omega) hrun
      refine hrest.imp_right fun ⟨hg, hP', ht⟩ => ⟨hg, hP', ht.trans ?_⟩
      rw [hnext]
      omega

theorem ticks_append (es fs : List TimedEvent) : ticks (es ++ fs) = ticks es + ticks fs :=
  List.count_append

theorem good_run {sk₀ : TcpSock} {t₀ : UInt32} {es : List TimedEvent} (hborn : Born sk₀)
    (hclock : t₀.toNat + ticks es + 8000 < 4294967296)
    (hrun : run timedStep ⟨sk₀, t₀, []⟩ es = some s) :
    s.sk.freed = true ∨ Good s ∧ s.tick.toNat = t₀.toNat + ticks es := by
  have h := timed_run (C := fun _ => True) (P := fun _ => True) (fun _ _ _ _ _ _ _ _ _ => .inr trivial)
    (fun _ _ _ => trivial) (good_of_born hborn t₀) trivial (fun _ _ => trivial) hclock hrun
  exact h.imp_right fun ⟨hgood, _, ht⟩ => ⟨hgood, ht⟩

/-- A timer that has been pending for longer than its delay is not pending any more. -/
theorem Good.over (h : Good s) (h' : Good s') (hexp : s.expires <+: s'.expires) {i : ℕ}
    {t t' : Timer} (ht : s.sk.timers[i]? = some t) (hl : Live t)
    (hlate : s.tick.toNat + delay t + 1 < s'.tick.toNat) (ht' : s'.sk.timers[i]? = some t') :
    ¬ Live t' := by
  have hi : i < s.expires.length := by
    have hlen := h.onTime.length
    rw [List.length_map] at hlen
    rw [hlen]
    exact (List.getElem?_eq_some_iff.mp ht).1
  have hx : s.expires[i]? = some s.expires[i] := List.getElem?_eq_getElem hi
  have hmap : ∀ {l : List UInt32} {x : UInt32}, l[i]? = some x →
      (l.map UInt32.toNat)[i]? = some x.toNat := fun hl => by rw [List.getElem?_map, hl]; rfl
  have hsoon := h.onTime.soon i t _ ht (hmap hx) hl
  have hx' := List.prefix_iff_getElem?.mp hexp i hi
  exact h'.onTime.over (hmap hx') (by omega) ht'

end Clock

end ToyIP.Tcp.Ticks
