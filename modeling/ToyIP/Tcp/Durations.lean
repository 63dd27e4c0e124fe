import ToyIP.Tcp.Ticks

/-! # TCP: how long things take

Three bounds in ticks of `timer.c`: for how long a sock keeps an acknowledgement back
(`acked_in_time`), when it repeats what was not acknowledged (`resent_in_time`), and how long it tries
to connect (`connect_schedule`). -/

namespace ToyIP.Tcp.Durations

open ToyIP.Lib ToyIP.Lib.Run ToyIP.Tcp.Types ToyIP.Tcp.Timer ToyIP.Tcp.Output ToyIP.Tcp.Data
  ToyIP.Tcp.Input ToyIP.Tcp.Sock ToyIP.Tcp.Sides ToyIP.Tcp.Effects ToyIP.Tcp.Teardown ToyIP.Tcp.Life
  ToyIP.Tcp.Clock ToyIP.Tcp.RetransmitTimer ToyIP.Tcp.DelayedAck ToyIP.Tcp.Places ToyIP.Tcp.Ticks

/-! ### The acknowledgement that is kept back -/

/-- **An acknowledgement is kept back for 201 ticks at most.** If no text has come in for longer, all
that was received is acknowledged. -/
theorem acked_in_time {sk₀ : TcpSock} {t₀ : UInt32} {es fs : List TimedEvent} {s s' : Timed}
    (hborn : Born sk₀) (hrun : run timedStep ⟨sk₀, t₀, []⟩ es = some s)
    (hrest : run timedStep s fs = some s')
    (hclock : t₀.toNat + ticks (es ++ fs) + 8000 < 4294967296)
    (htext : ∀ e, .life e ∈ fs → Textless e) (hlong : 201 < ticks fs)
    (hlive : s'.sk.freed = false) (hpast : Past s'.sk.state) :
    lastAck s'.sk = some s'.sk.rcvNxt := by
  rw [ticks_append] at hclock
  have hgone : s.sk.freed = true → False := fun hf => by
    rw [freed_run hf hrest] at hlive
    exact Bool.noConfusion hlive
  obtain ⟨hgood, ht⟩ := (good_run hborn (by omega) hrun).resolve_left hgone
  have hend := timed_run (C := Textless) (P := fun u => Runs s.sk True u.sk ∧ s.expires <+: u.expires)
    (fun u e sk _ hu _ he _ hsk =>
      .inr ⟨hu.1.step (fun _ => he) hsk, hu.2.trans (List.prefix_append _ _)⟩)
    (fun u hu _ => hu) hgood ⟨hgood.runs True, List.prefix_refl _⟩ htext (by omega) hrest
  obtain ⟨hgood', ⟨hruns, hexp⟩, ht'⟩ := hend.resolve_left (by simp [hlive])
  refine (hgood'.acked hpast).resolve_right fun hdelack => ?_
  -- the timer is the one that was pending before
  obtain ⟨i, hi⟩ := Option.ne_none_iff_exists'.mp hdelack
  obtain ⟨t', htimer', hlive', -⟩ := (hgood'.armed.clocked.delack i).mp hi
  have hsame : s.sk.delack = some i := ((hruns.delack trivial).resolve_left hdelack).symm.trans hi
  obtain ⟨t, htimer, htlive, hh⟩ := (hgood.armed.clocked.delack i).mp hsame
  have hdelay : delay t = 200 := by
    have h := hgood.delays t (List.mem_of_getElem? htimer)
    unfold Delay at h
    rwa [show t.handler = .tcpSendDelack from hh] at h
  exact hgood.over hgood' hexp htimer htlive (by omega) htimer' hlive'

/-- One byte without PSH, and then nothing for 202 ticks. -/
def readerTicks : List TimedEvent :=
  List.replicate 201 .tick ++ [.life (.sock (.timer 1)), .tick]

theorem acked_in_time_reader : ∃ s s', Born tcpAllocSock ∧
    run timedStep ⟨tcpAllocSock, 0, []⟩ (readerLife.map .life) = some s ∧
      run timedStep s readerTicks = some s' ∧ lastAck s'.sk = some s'.sk.rcvNxt := by
  have hend : ((run timedStep ⟨tcpAllocSock, 0, []⟩ (readerLife.map .life)).bind fun s =>
      (run timedStep s readerTicks).map fun s' => (s'.sk.freed, s'.sk.state)) =
      some (false, .established) := by decide +kernel
  obtain ⟨s, hrun, hrest⟩ := Option.bind_eq_some_iff.mp hend
  obtain ⟨s', hrest, hsk⟩ := Option.map_eq_some_iff.mp hrest
  obtain ⟨hfreed, hst⟩ := Prod.mk.inj hsk
  have hpast : Past s'.sk.state := by
    rw [hst]
    exact ⟨by simp, by simp, by simp⟩
  refine ⟨s, s', .alloc, hrun, hrest, ?_⟩
  refine acked_in_time .alloc hrun hrest (by decide +kernel) (fun e he => ?_) (by decide +kernel)
    hfreed hpast
  rcases List.mem_append.mp he with he | he
  · exact absurd (List.eq_of_mem_replicate he) TimedEvent.noConfusion
  · simp only [List.mem_cons, TimedEvent.life.injEq, reduceCtorEq, List.not_mem_nil, or_false] at he
    exact he ▸ trivial

/-! ### What is not acknowledged is repeated -/

/-- No segment arrives. -/
def Silent : LifeEvent → Prop
  | .sock (.segment _) => False
  | _ => True

/-- Since `sk₀` no acknowledgement has come, and its text `p` is still the first in the queue; it is
waiting for the same timer, or it has left again. -/
structure Waiting (sk₀ : TcpSock) (p : List UInt8) (sk : TcpSock) : Prop where
  una : sk.sndUna = sk₀.sndUna
  out : sk₀.out <+: sk.out
  head : ∃ skb q, sk.writeQueue = skb :: q ∧ skb.payload = p
  todo : sk.retransmit = sk₀.retransmit ∨
    ∃ seg ∈ sk.out.drop sk₀.out.length, seg.th.seq = sk₀.sndUna ∧ seg.payload = p

section Waits

variable {sk₀ sk sk' : TcpSock} {p : List UInt8}

/-- Segments leave. -/
theorem Waiting.more (h : Waiting sk₀ p sk) (huna : sk'.sndUna = sk.sndUna)
    (hr : sk'.retransmit = sk.retransmit) {later : List Skb}
    (hq : sk'.writeQueue = sk.writeQueue ++ later) {new : List Seg} (hout : sk'.out = sk.out ++ new) :
    Waiting sk₀ p sk' := by
  obtain ⟨skb, q, hskb, hp⟩ := h.head
  refine ⟨huna.trans h.una, hout ▸ h.out.trans (List.prefix_append _ _),
    ⟨skb, q ++ later, by rw [hq, hskb, List.cons_append], hp⟩, ?_⟩
  refine h.todo.imp (fun h => hr.trans h) fun ⟨seg, hseg, hseq⟩ => ⟨seg, ?_, hseq⟩
  rw [hout, List.drop_append_of_le_length h.out.length_le]
  exact List.mem_append_left _ hseg

theorem Waiting.quiet (h : Waiting sk₀ p sk) (huna : sk'.sndUna = sk.sndUna)
    (hr : sk'.retransmit = sk.retransmit) (hq : sk'.writeQueue = sk.writeQueue)
    (hout : sk'.out = sk.out) : Waiting sk₀ p sk' :=
  h.more huna hr (hq.trans (List.append_nil _).symm) (hout.trans (List.append_nil _).symm)

/-- The head of the queue leaves again. -/
theorem Waiting.again (h : Waiting sk₀ p sk) {skb : Skb} {q : List Skb}
    (hskb : sk.writeQueue = skb :: q) (huna : sk'.sndUna = sk.sndUna)
    (hq : sk'.writeQueue = sentSkb sk skb sk.sndUna :: q)
    (hout : sk'.out = sk.out ++ [sentSeg sk skb sk.sndUna]) : Waiting sk₀ p sk' := by
  have hp : skb.payload = p := by
    obtain ⟨skb', q', hskb', hp⟩ := h.head
    rw [hskb] at hskb'
    exact (List.cons.inj hskb').1 ▸ hp
  refine ⟨huna.trans h.una, hout ▸ h.out.trans (List.prefix_append _ _), ⟨_, q, hq, hp⟩,
    .inr ⟨sentSeg sk skb sk.sndUna, ?_, h.una, hp⟩⟩
  rw [hout, List.drop_append_of_le_length h.out.length_le]
  exact List.mem_append_right _ (List.mem_singleton.mpr rfl)

theorem Waiting.tcpQueueTransmitSkb (h : Waiting sk₀ p sk) (skb : Skb) :
    Waiting sk₀ p (tcpQueueTransmitSkb sk skb) := by
  obtain ⟨skb', q, hskb, -⟩ := h.head
  unfold Output.tcpQueueTransmitSkb
  rw [if_neg (by simp [hskb])]
  exact h.more rfl rfl rfl rfl

theorem Waiting.tcpClose (h : Waiting sk₀ p sk) :
    (tcpClose sk).1.freed = true ∨ Waiting sk₀ p (tcpClose sk).1 := by
  have hfin := h.tcpQueueTransmitSkb { tcpAllocSkb 0 with th := { fin := true, ack := true } }
  unfold Sock.tcpClose
  split
  case h_7 => exact .inl rfl
  case h_8 | h_9 | h_10 | h_11 => exact .inr (hfin.quiet rfl rfl rfl rfl)
  all_goals exact .inr (h.quiet rfl rfl rfl rfl)

theorem Waiting.fireTimer (h : Waiting sk₀ p sk) (harm : Armed sk) {i : ℕ}
    (hfire : fireTimer sk i = some sk') : sk'.freed = true ∨ Waiting sk₀ p sk' := by
  have hexp : Waiting sk₀ p (expired sk i) := h.quiet rfl rfl rfl rfl
  obtain ⟨skb, q, hq, -⟩ := hexp.head
  rcases harm.clocked.fireTimer hfire with ⟨hi, ⟨t, ht, hh⟩, rfl⟩ | ⟨hi, rfl⟩ | ⟨hi, rfl⟩
  · by_cases hst : (expired sk i).state = .established
    · obtain ⟨u, hu, hc, -⟩ := (harm.clocked.retransmit i).mp hi
      obtain rfl := Option.some.inj (ht.symm.trans hu)
      have hno : Unanswered sk := harm.rto t (List.mem_of_getElem? ht) ⟨hc, hh⟩
      have hst : sk.state = .established := hst
      simp [Unanswered, hst] at hno
    by_cases hb : (expired sk i).backoff > 3
    · rw [tcpConnectRto_free hst hb]
      exact .inl rfl
    · obtain ⟨timers, retransmit, heq⟩ := tcpConnectRto_resend hst hb hq
      rw [heq]
      exact .inr (hexp.again hq rfl rfl rfl)
  · obtain ⟨timers, retransmit, heq⟩ := tcpRetransmissionTimeout_cons hq
    rw [heq]
    exact .inr (hexp.again hq rfl rfl rfl)
  · right
    obtain ⟨timers, hr⟩ : ∃ timers, tcpReleaseDelackTimer { expired sk i with delacks := 0 } =
      { expired sk i with delacks := 0, timers := timers, delack := none } := ⟨_, rfl⟩
    unfold tcpSendDelack
    rw [hr, tcpSendAck_eq]
    exact hexp.more rfl rfl (List.append_nil _).symm rfl

theorem Waiting.step (h : Waiting sk₀ p sk) (harm : Armed sk) (hst : sk.state ≠ .close) {e : LifeEvent}
    (hsilent : Silent e) (hstep : lifeStep sk e = some sk') :
    sk'.freed = true ∨ Waiting sk₀ p sk' ∧ sk'.state ≠ .close := by
  obtain ⟨hf, -⟩ := lifeStep_some hstep
  simp only [lifeStep, hf, Bool.false_eq_true, if_false] at hstep
  cases e with
  | connect saddr daddr sport dport isn =>
    obtain ⟨hclose, -⟩ := Option.ite_none_right_eq_some.mp hstep
    exact absurd hclose hst
  | accept => exact Option.some.inj hstep ▸ .inr ⟨h.quiet rfl rfl rfl rfl, hst⟩
  | parent st => exact Option.some.inj hstep ▸ .inr ⟨h.quiet rfl rfl rfl rfl, hst⟩
  | sock e =>
    have hstay : sk'.freed = true ∨ sk'.state ≠ .close := by
      rcases sockStep_stays hstep with ⟨-, ⟨_, -, -, hfreed, -⟩ | ⟨-, hleft | hstays⟩⟩
      · exact .inl hfreed
      · exact .inl hleft.1
      · exact .inr (mt hstays.close.mp hst)
    have hwait : sk'.freed = true ∨ Waiting sk₀ p sk' := by
      obtain ⟨-, he⟩ := sockStep_some hstep
      cases e with
      | write buf =>
        exact .inr (he ▸ tcpWrite_keeps (fun s skb h => h.tcpQueueTransmitSkb skb) h buf)
      | close => exact he ▸ h.tcpClose
      | read len =>
        rw [he]
        unfold tcpReadStart
        split
        case h_7 => split_ifs <;> exact .inr (h.quiet rfl rfl rfl rfl)
        all_goals exact .inr h
      | receive len rlen =>
        rw [he]
        unfold tcpReceiveRound tcpDataDequeue
        simp only
        split_ifs <;> exact .inr (h.quiet rfl rfl rfl rfl)
      | timer i => exact h.fireTimer harm he
      | segment seg => exact hsilent.elim
    exact hstay.elim .inl fun hclose => hwait.imp_right fun h => ⟨h, hclose⟩

end Waits

/-- The ticks from the call to the SYN with the number `n`: 0, 501, 1502, 3503 and 7504. -/
def schedule (n : ℕ) : ℕ := 500 * (2 ^ n - 1) + n

theorem schedule_succ (n : ℕ) : schedule (n + 1) = schedule n + 500 * 2 ^ n + 1 := by
  have hpos : 0 < 2 ^ n := Nat.two_pow_pos n
  unfold schedule
  rw [Nat.pow_succ]
  omega

/-- No answer has come to a SYN. It has left `n + 1` times, last at its tick of the schedule, and
the timer `i` waits for the next time. -/
structure Dialing (isn : UInt32) (t₀ n i : ℕ) (s : Timed) : Prop where
  state : s.sk.state = .synSent
  few : n ≤ 4
  backoff : s.sk.backoff.toNat = n
  una : s.sk.sndUna = isn
  count : s.sk.out.length = n + 1
  syns : ∀ seg ∈ s.sk.out, seg.th.syn = true ∧ seg.th.ack = false ∧ seg.th.seq = isn
  queue : ∃ skb, s.sk.writeQueue = [skb] ∧ skb.th.syn = true ∧ skb.th.ack = false
  delack : s.sk.delack = none
  retransmit : s.sk.retransmit = some i
  timer : ∃ t, s.sk.timers[i]? = some t ∧ t.handler = .tcpConnectRto
  expires : ∃ x, s.expires[i]? = some x ∧ x.toNat = t₀ + schedule n + 500 * 2 ^ n
  begun : t₀ + schedule n ≤ s.tick.toNat

section Connect

variable {isn : UInt32} {t₀ n i : ℕ} {s : Timed} {sk sk' : TcpSock}

/-- Nothing that matters has happened. -/
theorem Dialing.same (h : Dialing isn t₀ n i s) (hst : sk'.state = s.sk.state)
    (hb : sk'.backoff = s.sk.backoff) (huna : sk'.sndUna = s.sk.sndUna) (hout : sk'.out = s.sk.out)
    (hq : sk'.writeQueue = s.sk.writeQueue) (hclock : clock sk' = clock s.sk) :
    Dialing isn t₀ n i (s.after sk') := by
  have hr : sk'.retransmit = s.sk.retransmit := congrArg Timing.retransmit hclock
  have ht : sk'.timers = s.sk.timers := congrArg Timing.timers hclock
  have hd : sk'.delack = s.sk.delack := congrArg Timing.delack hclock
  obtain ⟨x, hx, hnum⟩ := h.expires
  refine ⟨hst.trans h.state, h.few, (congrArg UInt8.toNat hb).trans h.backoff, huna.trans h.una,
    (congrArg List.length hout).trans h.count, ?_, ?_, hd.trans h.delack, hr.trans h.retransmit, ?_,
    ⟨x, ?_, hnum⟩, h.begun⟩
  · show ∀ seg ∈ sk'.out, _
    rw [hout]
    exact h.syns
  · show ∃ skb, sk'.writeQueue = _ ∧ _
    rw [hq]
    exact h.queue
  · show ∃ t, sk'.timers[i]? = _ ∧ _
    rw [ht]
    exact h.timer
  · show (s.expires ++ _)[i]? = some x
    rw [List.getElem?_append_left (List.getElem?_eq_some_iff.mp hx).1]
    exact hx

/-- A state behind `SYN_SENT` is not left for one before it. -/
theorem past_step (harm : Armed sk) (hack : Past sk.state → Acked sk) (hpast : Past sk.state)
    {e : LifeEvent} (hstep : lifeStep sk e = some sk') : sk'.freed = true ∨ Past sk'.state := by
  obtain ⟨hf, -⟩ := lifeStep_some hstep
  simp only [lifeStep, hf, Bool.false_eq_true, if_false] at hstep
  cases e with
  | connect saddr daddr sport dport isn =>
    obtain ⟨hclose, -⟩ := Option.ite_none_right_eq_some.mp hstep
    exact absurd hclose hpast.1
  | accept => exact Option.some.inj hstep ▸ .inr hpast
  | parent st => exact Option.some.inj hstep ▸ .inr hpast
  | sock e =>
    have hsyn : sk'.freed = true ∨ sk'.state ≠ .synSent := by
      obtain ⟨-, he⟩ := sockStep_some hstep
      have hcore : ∀ {s : TcpSock}, core s = core sk → s.state ≠ .synSent := fun {s} h => by
        have hst : s.state = sk.state := congrArg Core.state h
        rw [hst]
        exact hpast.2.2
      cases e with
      | write buf => exact .inr (he ▸ hcore (core_tcpWrite harm.mss buf))
      | close =>
        rw [he]
        unfold Sock.tcpClose
        split
        case h_7 => exact .inl rfl
        case h_8 | h_9 | h_10 | h_11 => exact .inr TcpState.noConfusion
        all_goals exact .inr hpast.2.2
      | read len => exact .inr (he ▸ hcore (Receiver.core_tcpReadStart sk len))
      | receive len rlen => exact .inr (he ▸ hcore (Receiver.core_tcpReceiveRound sk len rlen))
      | timer i =>
        obtain ⟨t, -, -, heff⟩ := fireTimer_some he
        cases heff with
        | quiet _ _ hquiet _ => exact .inr (hcore hquiet)
        | freed hfreed _ _ _ => exact .inl hfreed
        | resend skb q _ _ _ _ _ hst _ =>
          right
          rcases hst with hst | ⟨-, hst⟩ <;> rw [hst]
          · exact hpast.2.2
          · have hne := hpast.2.2
            cases hs : sk.state <;> simp [refinState, hs] at hne ⊢
      | segment seg =>
        exact ((acked_segmentRule seg).tcpProcess (.inr ⟨hpast.2.2, harm.state.1, hack⟩) hpast.2.2
          he).imp_right fun h => h.1
    rcases sockStep_stays hstep with ⟨-, ⟨_, -, -, hfreed, -⟩ | ⟨-, hleft | hstays⟩⟩
    · exact .inl hfreed
    · exact .inl hleft.1
    · exact hsyn.imp_right fun hsyn =>
        ⟨mt hstays.close.mp hpast.1, mt hstays.listen.mp hpast.2.1, hsyn⟩

/-- A segment in `SYN_SENT` does nothing, or ends the state. -/
theorem synsent_past (hst : sk.state = .synSent) {seg : Seg}
    (hrun : tcpProcess sk seg = .ok sk') : sk' = sk ∨ Past sk'.state := by
  rw [tcpProcess_synSent hst] at hrun
  obtain rfl := Except.ok.inj hrun
  rcases tcpSynsent_cases sk seg.th with heq | ⟨sk₁, -, ⟨-, heq⟩ | ⟨-, heq⟩⟩ <;> rw [heq]
  · exact .inl rfl
  · rw [tcpSendAck_eq]
    exact .inr ⟨TcpState.noConfusion, TcpState.noConfusion, TcpState.noConfusion⟩
  · rw [tcpSendSynack_eq rfl]
    exact .inr ⟨TcpState.noConfusion, TcpState.noConfusion, TcpState.noConfusion⟩

/-- The delay of the timer that is set after the SYN with the number `n + 1`. -/
theorem toNat_backoff {b : UInt8} {n : ℕ} (hb : b.toNat = n) (hn : n ≤ 4) :
    (500 <<< b.toUInt32 : UInt32).toNat = 500 * 2 ^ n := by
  have hpow : 2 ^ n ≤ 2 ^ 4 := Nat.pow_le_pow_right (by decide) hn
  rw [UInt32.toNat_shiftLeft, UInt8.toNat_toUInt32, hb, Nat.mod_eq_of_lt (by omega : n < 32),
    Nat.shiftLeft_eq]
  show 500 * 2 ^ n % 4294967296 = 500 * 2 ^ n
  omega

/-- A SYN leaves again. -/
theorem tcpConnectRto_synSent (hst : sk.state = .synSent) (hb : ¬ sk.backoff > 3) {skb : Skb}
    {q : List Skb} (hq : sk.writeQueue = skb :: q) : ∃ timers, timers.length = sk.timers.length ∧
      tcpConnectRto sk = { sk with
        writeQueue := sentSkb sk skb sk.sndUna :: q
        out := sk.out ++ [sentSeg sk skb sk.sndUna]
        backoff := sk.backoff + 1
        timers := timers ++
          [{ handler := .tcpConnectRto, expire := 500 <<< (sk.backoff + 1).toUInt32 }]
        retransmit := some timers.length } := by
  obtain ⟨timers, hr⟩ := tcpReleaseRetransmissionTimer_eq sk
  refine ⟨timers, ?_, ?_⟩
  · have hts : (tcpReleaseRetransmissionTimer sk).timers = timers := by rw [hr]
    rw [← hts]
    unfold tcpReleaseRetransmissionTimer timerRelease
    cases sk.retransmit with
    | none => rfl
    | some i => exact List.length_modify ..
  · have hne : sk.state ≠ .established := by simp [hst]
    have hreset : ∀ s : TcpSock, s.retransmit = none → s.state = .synSent →
        tcpResetRetransmissionTimer s = { s with
          timers := s.timers ++ [{ handler := .tcpConnectRto, expire := 500 <<< s.backoff.toUInt32 }]
          retransmit := some s.timers.length } := fun s hs hstate => by
      have htimer : retransmissionTimer s = (500 <<< s.backoff.toUInt32, .tcpConnectRto) :=
        if_pos hstate
      rw [tcpResetRetransmissionTimer_none hs, htimer]
    rw [tcpConnectRto_cons hne hb hq, hr]
    exact hreset _ rfl hst

/-- The timer of the SYN fires: it leaves again, or the sock is given up. -/
theorem Dialing.fireTimer (h : Dialing isn t₀ n i s) (hgood : Good s)
    (hclock : s.tick.toNat + 8000 < 4294967296) {j : ℕ} (hin : due s j = true)
    (hfire : fireTimer s.sk j = some sk') :
    sk'.freed = true ∨ ∃ n' i', Dialing isn t₀ n' i' (s.after sk') := by
  obtain ⟨t, ht, hc, rfl⟩ := fireTimer_runs hfire
  obtain ⟨u, hu, hh⟩ := h.timer
  obtain ⟨x, hx, hnum⟩ := h.expires
  obtain ⟨skb, hq, hsyn, hnoack⟩ := h.queue
  -- no other timer is pending
  obtain rfl : j = i := by
    cases hht : t.handler with
    | tcpConnectRto | tcpRetransmissionTimeout =>
      have hj := (hgood.armed.clocked.retransmit j).mpr ⟨t, ht, hc, by simp [IsRetransmission, hht]⟩
      exact Option.some.inj (hj.symm.trans h.retransmit)
    | tcpSendDelack =>
      have hj := (hgood.armed.clocked.delack j).mpr ⟨t, ht, hc, hht⟩
      exact absurd (hj.symm.trans h.delack) (by simp)
    | tcpLinger => exact absurd hht (hgood.armed.clocked.linger t (List.mem_of_getElem? ht))
  obtain rfl := Option.some.inj (ht.symm.trans hu)
  rw [hh]
  show (tcpConnectRto (expired s.sk j)).freed = true ∨
    ∃ n' i', Dialing isn t₀ n' i' (s.after (tcpConnectRto (expired s.sk j)))
  by_cases hb : (expired s.sk j).backoff > 3
  · have hne : (expired s.sk j).state ≠ .established := by
      show s.sk.state ≠ .established
      simp [h.state]
    rw [tcpConnectRto_free hne hb]
    exact .inl rfl
  -- it fires in the first tick behind its deadline
  have hn : n < 4 := by
    have hb : ¬ 3 < s.sk.backoff.toNat := hb
    rw [h.backoff] at hb
    omega
  have hmap : (s.expires.map UInt32.toNat)[j]? = some x.toNat := by rw [List.getElem?_map, hx]; rfl
  have hlate := hgood.onTime.late j t _ ht hmap hc
  have hnow : s.tick.toNat = t₀ + schedule (n + 1) := by
    have hlt : x < s.tick := by simpa [due, hx] using hin
    have hlt : x.toNat < s.tick.toNat := hlt
    rw [schedule_succ]
    omega
  have hb' : (s.sk.backoff + 1).toNat = n + 1 := by
    rw [UInt8.toNat_add, h.backoff]
    show (n + 1) % 256 = n + 1
    omega
  have hdelay := toNat_backoff hb' hn
  have hstate : (expired s.sk j).state = .synSent := h.state
  obtain ⟨timers, hlen, heq⟩ := tcpConnectRto_synSent hstate hb hq
  have hlen : s.expires.length = timers.length := by
    have hexp := hgood.onTime.length
    rw [List.length_map] at hexp
    rw [hlen, hexp]
    exact (List.length_modify ..).symm
  right
  rw [heq]
  refine ⟨n + 1, timers.length, h.state, hn, hb', h.una, ?_, ?_, ⟨_, rfl, hsyn, hnoack⟩, h.delack, rfl,
    ⟨_, List.getElem?_concat_length, rfl⟩,
    ⟨s.tick + 500 <<< (s.sk.backoff + 1).toUInt32, ?_, ?_⟩, ?_⟩
  · show (s.sk.out ++ [_]).length = n + 1 + 1
    rw [List.length_append, h.count]
    rfl
  · intro seg hseg
    rcases List.mem_append.mp hseg with hseg | hseg
    · exact h.syns seg hseg
    · rw [List.mem_singleton.mp hseg]
      exact ⟨hsyn, hnoack, h.una⟩
  · show (s.expires ++ ((timers ++ [_]).drop s.expires.length).map _)[timers.length]? = _
    rw [hlen, List.drop_left, ← hlen]
    exact List.getElem?_concat_length
  · rw [UInt32.toNat_add, hdelay, ← hnow]
    have hpow : 2 ^ (n + 1) ≤ 2 ^ 4 := Nat.pow_le_pow_right (by decide) hn
    show (s.tick.toNat + 500 * 2 ^ (n + 1)) % 4294967296 = s.tick.toNat + 500 * 2 ^ (n + 1)
    omega
  · show t₀ + schedule (n + 1) ≤ s.tick.toNat
    omega

/-- An event of a sock that tries to connect. -/
theorem Dialing.life (h : Dialing isn t₀ n i s) (hgood : Good s)
    (hclock : s.tick.toNat + 8000 < 4294967296) {e : LifeEvent} (hin : inTime s e = true)
    (hstep : lifeStep s.sk e = some sk') : sk'.freed = true ∨ Past sk'.state ∨
      ∃ n' i', Dialing isn t₀ n' i' (s.after sk') := by
  obtain ⟨hf, -⟩ := lifeStep_some hstep
  simp only [lifeStep, hf, Bool.false_eq_true, if_false] at hstep
  have hsame : ∀ {sk₁ : TcpSock}, sk₁.state = s.sk.state → sk₁.backoff = s.sk.backoff →
      sk₁.sndUna = s.sk.sndUna → sk₁.out = s.sk.out → sk₁.writeQueue = s.sk.writeQueue →
      clock sk₁ = clock s.sk → sk₁.freed = true ∨ Past sk₁.state ∨
        ∃ n' i', Dialing isn t₀ n' i' (s.after sk₁) :=
    fun hst hb huna hout hq hc => .inr (.inr ⟨n, i, h.same hst hb huna hout hq hc⟩)
  cases e with
  | connect saddr daddr sport dport isn =>
    obtain ⟨hclose, -⟩ := Option.ite_none_right_eq_some.mp hstep
    exact absurd (h.state.symm.trans hclose) TcpState.noConfusion
  | accept => exact Option.some.inj hstep ▸ hsame rfl rfl rfl rfl rfl rfl
  | parent st => exact Option.some.inj hstep ▸ hsame rfl rfl rfl rfl rfl rfl
  | sock e =>
    obtain ⟨-, he⟩ := sockStep_some hstep
    cases e with
    | write buf =>
      rw [he, tcpWrite_not_open (by simp [h.state]) (by simp [h.state])]
      exact hsame rfl rfl rfl rfl rfl rfl
    | close =>
      have hclose : tcpClose s.sk = (tcpSetState (tcpQueueFin s.sk) .finWait1, 0) := by
        unfold Sock.tcpClose
        rw [h.state]
      rw [he, hclose]
      exact .inr (.inl ⟨TcpState.noConfusion, TcpState.noConfusion, TcpState.noConfusion⟩)
    | read len =>
      have hread : (tcpReadStart s.sk len).1 = s.sk := by
        unfold tcpReadStart
        rw [h.state]
      rw [he, hread]
      exact hsame rfl rfl rfl rfl rfl rfl
    | receive len rlen =>
      obtain ⟨flagPsh, recvSleeping, heq, -⟩ := Receiver.tcpReceiveRound_eq s.sk len rlen
      rw [he, heq]
      exact hsame rfl rfl rfl rfl rfl rfl
    | timer j => exact (h.fireTimer hgood hclock hin he).imp_right .inr
    | segment seg =>
      rcases synsent_past h.state he with heq | hpast
      · rw [heq]
        exact hsame rfl rfl rfl rfl rfl rfl
      · exact .inr (.inl hpast)

theorem Dialing.tick (h : Dialing isn t₀ n i s) (hclock : s.tick.toNat + 8001 < 4294967296) :
    Dialing isn t₀ n i { s with tick := s.tick + 1 } := by
  refine ⟨h.state, h.few, h.backoff, h.una, h.count, h.syns, h.queue, h.delack, h.retransmit, h.timer,
    h.expires, ?_⟩
  show t₀ + schedule n ≤ (s.tick + 1).toNat
  rw [toNat_tick hclock]
  exact h.begun.trans (Nat.le_succ _)

/-- The call: the first SYN leaves. -/
theorem dialing_connect (t₀ : UInt32) (hclock : t₀.toNat + 8000 < 4294967296) (saddr daddr : UInt32)
    (sport dport : UInt16) (isn : UInt32) {s : Timed}
    (hstep : timedStep ⟨tcpAllocSock, t₀, []⟩ (.life (.connect saddr daddr sport dport isn)) = some s) :
    Dialing isn t₀.toNat 0 0 s := by
  obtain rfl := (Option.some.inj hstep).symm
  refine ⟨rfl, Nat.zero_le _, rfl, rfl, rfl, ?_, ⟨_, rfl, rfl, rfl⟩, rfl, rfl, ⟨_, rfl, rfl⟩,
    ⟨t₀ + 500, rfl, ?_⟩, Nat.le_refl _⟩
  · intro seg hseg
    rw [List.mem_singleton.mp hseg]
    exact ⟨rfl, rfl, rfl⟩
  · rw [UInt32.toNat_add]
    show (t₀.toNat + 500) % 4294967296 = t₀.toNat + 500
    omega

end Connect

/-- **How long a sock tries to connect.** As long as it stays in `SYN_SENT`, the SYN has left once
for each time of the schedule that is over, and five times at most. -/
theorem connect_schedule {t₀ : UInt32} {saddr daddr : UInt32} {sport dport : UInt16} {isn : UInt32}
    {es : List TimedEvent} {s : Timed} (hclock : t₀.toNat + ticks es + 8000 < 4294967296)
    (hrun : run timedStep ⟨tcpAllocSock, t₀, []⟩
      (.life (.connect saddr daddr sport dport isn) :: es) = some s)
    (hlive : s.sk.freed = false) (hst : s.sk.state = .synSent) :
    ∃ n ≤ 4, s.sk.out.length = n + 1 ∧
      (∀ seg ∈ s.sk.out, seg.th.syn = true ∧ seg.th.ack = false ∧ seg.th.seq = isn) ∧
      schedule n ≤ ticks es ∧ ticks es ≤ schedule (n + 1) := by
  obtain ⟨u, hu, hrest⟩ := run_cons.mp hrun
  have hdial := dialing_connect t₀ (by omega) saddr daddr sport dport isn hu
  have hconnect : run timedStep ⟨tcpAllocSock, t₀, []⟩ [.life (.connect saddr daddr sport dport isn)] =
      some u := run_cons.mpr ⟨u, hu, rfl⟩
  have hlive' : ¬ u.sk.freed = true := fun hf => by
    rw [freed_run hf hrest] at hlive
    exact Bool.noConfusion hlive
  obtain ⟨hgood, ht⟩ := (good_run .alloc (by show t₀.toNat + 0 + _ < _; omega) hconnect).resolve_left hlive'
  have ht : u.tick.toNat = t₀.toNat := ht
  have hend := timed_run (C := fun _ => True)
    (P := fun u => Past u.sk.state ∨ ∃ n i, Dialing isn t₀.toNat n i u)
    (fun u e sk hg hP hnow _ hin hsk => by
      rcases hP with hpast | ⟨n, i, hd⟩
      · exact (past_step hg.armed hg.acked hpast hsk).imp_right .inl
      · exact hd.life hg hnow hin hsk)
    (fun u hP hnow => hP.imp_right fun ⟨n, i, hd⟩ => ⟨n, i, hd.tick hnow⟩)
    hgood (.inr ⟨0, 0, hdial⟩) (fun _ _ => trivial) (by omega) hrest
  obtain ⟨hgood', hP, ht'⟩ := hend.resolve_left (by simp [hlive])
  obtain ⟨n, i, hd⟩ := hP.resolve_left fun hpast => hpast.2.2 hst
  refine ⟨n, hd.few, hd.count, hd.syns, ?_, ?_⟩
  · have := hd.begun
    omega
  -- its timer is not late
  · obtain ⟨x, hx, hnum⟩ := hd.expires
    obtain ⟨t, htimer, htlive, -⟩ := (hgood'.armed.clocked.retransmit i).mp hd.retransmit
    have hmap : (s.expires.map UInt32.toNat)[i]? = some x.toNat := by
      rw [List.getElem?_map, hx]
      rfl
    have hlate := hgood'.onTime.late i t _ htimer hmap htlive
    have hnext := schedule_succ n
    omega

/-- The SYN leaves again behind 501 ticks. -/
def dialerTicks : List TimedEvent :=
  List.replicate 501 .tick ++ [.life (.sock (.timer 0)), .tick]

theorem connect_schedule_dialer : ∃ s : Timed,
    run timedStep ⟨tcpAllocSock, 0, []⟩ (.life (.connect 1 2 3 4 100) :: dialerTicks) = some s ∧
      ∃ n ≤ 4, s.sk.out.length = n + 1 ∧
        (∀ seg ∈ s.sk.out, seg.th.syn = true ∧ seg.th.ack = false ∧ seg.th.seq = 100) ∧
        schedule n ≤ ticks dialerTicks ∧ ticks dialerTicks ≤ schedule (n + 1) := by
  have hend : (run timedStep ⟨tcpAllocSock, 0, []⟩
      (.life (.connect 1 2 3 4 100) :: dialerTicks)).map (fun s => (s.sk.freed, s.sk.state)) =
      some (false, .synSent) := by decide +kernel
  obtain ⟨s, hrun, hsk⟩ := Option.map_eq_some_iff.mp hend
  obtain ⟨hfreed, hst⟩ := Prod.mk.inj hsk
  exact ⟨s, hrun, connect_schedule (by decide +kernel) hrun hfreed hst⟩

end ToyIP.Tcp.Durations
