import ToyIP.Tcp.Agreement
import ToyIP.Tcp.History

/-! # TCP: the answer to a SYN

`tcp_send_synack` hands its segment to `ip_output` and keeps no copy in the write queue, so no timer
repeats it; a SYN that comes again finds the child and draws an acknowledgement without SYN. So a
child sends one segment with SYN, the first (`SynFirst`), and if that one is lost the client is never
connected, whatever else is sent or arrives (`syn_ack_once`). -/

namespace ToyIP.Tcp.SynAck

open ToyIP.Lib.Run ToyIP.Tcp.Types ToyIP.Tcp.Output ToyIP.Tcp.Data ToyIP.Tcp.Input ToyIP.Tcp.Sock
  ToyIP.Tcp.Sides ToyIP.Tcp.Effects ToyIP.Tcp.Network ToyIP.Tcp.Life ToyIP.Tcp.History
  ToyIP.Tcp.Agreement

/-- The first segment answers a SYN, and no other has one. -/
def Answers (out : List Seg) : Prop :=
  ∃ s rest, out = s :: rest ∧ (s.th.syn = true ∧ s.th.ack = true) ∧ ∀ s' ∈ rest, s'.th.syn = false

/-- The child has answered, and sends no SYN any more. -/
structure SynFirst (c : TcpSock) : Prop where
  out : Answers c.out
  queue : ∀ skb ∈ c.writeQueue, skb.th.syn = false
  state : c.state ≠ .synSent
  mss : 0 < c.smss

variable {c c' : TcpSock} {seg : Seg} {P : Seg → Prop}

/-! ### What the child sends -/

/-- Segments without SYN leave. -/
theorem SynFirst.more (h : SynFirst c) (hout : Emits (fun s => s.th.syn = false) c c')
    (hqueue : ∀ skb ∈ c'.writeQueue, skb.th.syn = false) (hst : c'.state ≠ .synSent)
    (hmss : c'.smss = c.smss) : SynFirst c' := by
  obtain ⟨s, rest, heq, hs, hrest⟩ := h.out
  obtain ⟨new, hnew, hplain⟩ := hout
  refine ⟨⟨s, rest ++ new, by rw [hnew, heq, List.cons_append], hs, fun s' hs' => ?_⟩, hqueue, hst,
    hmss ▸ h.mss⟩
  rcases List.mem_append.mp hs' with hs' | hs'
  · exact hrest s' hs'
  · exact hplain s' hs'

theorem SynFirst.tcpQueueTransmitSkb (h : SynFirst c) {skb : Skb} (hskb : skb.th.syn = false) :
    SynFirst (tcpQueueTransmitSkb c skb) := by
  obtain ⟨timers, retransmit, heq⟩ := tcpQueueTransmitSkb_eq c skb
  rw [heq]
  refine h.more ⟨[sentSeg c skb c.sndNxt], rfl, fun s hs => ?_⟩ (fun x hx => ?_) h.state rfl
  · exact List.mem_singleton.mp hs ▸ hskb
  · rcases List.mem_append.mp hx with hx | hx
    · exact h.queue x hx
    · exact List.mem_singleton.mp hx ▸ hskb

theorem SynFirst.tcpSendAck (h : SynFirst c) : SynFirst (tcpSendAck c) := by
  have hout := (emits_tcpSendAck c).mono fun _ hs => hs.syn
  rw [tcpSendAck_eq] at hout ⊢
  exact h.more hout h.queue h.state rfl

theorem synFirst_segmentRule (seg : Seg) : SegmentRule seg SynFirst where
  ack _ h := h.tcpSendAck
  reset c h := by
    refine h.more ⟨[resetSeg c], rfl, fun s hs => ?_⟩ h.queue h.state rfl
    exact List.mem_singleton.mp hs ▸ rfl
  free _ h _ := ⟨h.out, fun _ hx => absurd hx List.not_mem_nil, TcpState.noConfusion, h.mss⟩
  accept _ h _ _ _ _ := ⟨h.out, h.queue, TcpState.noConfusion, h.mss⟩
  take c h _ _ _ := by
    obtain ⟨timers, retransmit, heq⟩ :=
      tcpCleanRetransmissionQueue_eq { c with sndUna := seg.th.ackSeq } seg.th.ackSeq
    rw [heq]
    exact ⟨h.out, fun x hx => h.queue x ((List.dropWhile_sublist _).mem hx), h.state, h.mss⟩
  text c h _ := by
    have hcore := core_tcpDataQueue c seg.th (tcpInitSegment seg)
    have hsend := sendSide_tcpDataQueue c seg.th (tcpInitSegment seg)
    have hst : (tcpDataQueue c seg.th (tcpInitSegment seg)).state = c.state :=
      congrArg Core.state hcore
    have hq : (tcpDataQueue c seg.th (tcpInitSegment seg)).writeQueue = c.writeQueue :=
      congrArg SendSide.writeQueue hsend
    refine SynFirst.more h ?_ ?_ ?_ (congrArg Core.smss hcore)
    · exact (emits_tcpDataQueue c seg.th (tcpInitSegment seg)).mono fun _ hs => hs.syn
    · exact fun x hx => h.queue x (hq ▸ hx)
    · exact hst ▸ h.state
  fin c h _ _ _ _ := by
    have hcore := core_afterFin c
    have hst : (afterFin c).state = finState c.state := congrArg Core.state hcore
    have hq : (afterFin c).writeQueue = c.writeQueue :=
      congrArg SendSide.writeQueue (sendSide_afterFin c)
    refine h.more ((emits_afterFin c).mono fun _ hs => hs.syn) (fun x hx => h.queue x (hq ▸ hx)) ?_
      (congrArg Core.smss hcore)
    have hne := h.state
    rw [hst]
    cases hs : c.state <;> simp [finState, hs] at hne ⊢

theorem SynFirst.step (h : SynFirst c) (hstep : EndStep P c c') :
    c'.freed = true ∧ c'.out = c.out ∨ SynFirst c' := by
  cases hstep with
  | write buf _ =>
    right
    by_cases hopen : c.state = .established ∨ c.state = .closeWait
    · rw [tcpWrite_open hopen]
      exact tcpSend_ind (P := fun s _ => SynFirst s)
        (fun s chunk rest psh _ _ hs => hs.tcpQueueTransmitSkb rfl) h.mss h
    · rw [not_or] at hopen
      rwa [tcpWrite_not_open hopen.1 hopen.2]
  | close _ =>
    have hfin : SynFirst (tcpQueueFin c) := by
      have hskb : SynFirst (Output.tcpQueueTransmitSkb c
          { tcpAllocSkb 0 with th := { fin := true, ack := true } }) := h.tcpQueueTransmitSkb rfl
      exact ⟨hskb.out, hskb.queue, hskb.state, hskb.mss⟩
    unfold tcpClose
    split
    case h_7 => exact .inl ⟨rfl, rfl⟩
    case h_8 | h_9 | h_10 | h_11 => exact .inr ⟨hfin.out, hfin.queue, TcpState.noConfusion, hfin.mss⟩
    all_goals exact .inr ⟨h.out, h.queue, h.state, h.mss⟩
  | timer i hfire =>
    obtain ⟨t, -, -, heff⟩ := fireTimer_some hfire
    cases heff with
    | quiet send recv core out =>
      have hst : c'.state = c.state := congrArg Core.state core
      have hq : c'.writeQueue = c.writeQueue := congrArg SendSide.writeQueue send
      exact .inr (h.more (out.mono fun _ hs => hs.syn) (hq ▸ h.queue) (hst ▸ h.state)
        (congrArg Core.smss core))
    | freed hf _ hout _ => exact .inl ⟨hf, hout⟩
    | resend skb q hq _ send _ core state out =>
      right
      have hskb : skb.th.syn = false := h.queue skb (hq ▸ List.mem_cons_self ..)
      have hqueue : c'.writeQueue = sentSkb c skb c.sndUna :: q :=
        congrArg SendSide.writeQueue send
      refine h.more ⟨_, out, fun s hs => List.mem_singleton.mp hs ▸ hskb⟩ (fun x hx => ?_) ?_
        (congrArg Core.smss core)
      · rw [hqueue] at hx
        rcases List.mem_cons.mp hx with rfl | hx
        · exact hskb
        · exact h.queue x (hq ▸ List.mem_cons_of_mem _ hx)
      · have hne := h.state
        rcases state with hst | ⟨-, hst⟩ <;> rw [hst]
        · exact hne
        · cases hs : c.state <;> simp [refinState, hs] at hne ⊢
  | segment seg _ hrun => exact .inr ((synFirst_segmentRule seg).tcpProcess h h.state hrun)
  | reader receiveQueue flagPsh flagFin recvSleeping _ => exact .inr ⟨h.out, h.queue, h.state, h.mss⟩

theorem synFirst_of_fresh {sk : TcpSock} {isn : UInt32} (h : Fresh sk seg isn c) : SynFirst c := by
  obtain ⟨s, hout, hsyn, hack, -⟩ := h.out
  refine ⟨⟨s, [], hout, ⟨hsyn, hack⟩, by simp⟩, by simp [h.writeQueue], ?_, ?_⟩
  · rw [h.state]
    exact TcpState.noConfusion
  · rw [h.smss]
    decide

/-! ### The client without the answer -/

/-- What the client may be given: all but the first segment of the child. -/
def Later (l : Link) (s : Seg) : Prop :=
  (∃ c, l.child = some c ∧ s ∈ c.out.drop 1) ∨ s ∈ l.listener.out

/-- The listener has sent no SYN, and the child one, its first segment. -/
structure Once (l : Link) : Prop where
  listener : ∀ s ∈ l.listener.out, s.th.syn = false
  child : ∀ c, l.child = some c → Answers c.out ∧ (c.freed = true ∨ SynFirst c)

/-- The client waits for the answer, or it has been closed or freed. -/
structure Unconnected (iss : UInt32) (l : Link) : Prop where
  est : l.established = false
  client : l.client.freed = true ∨ Shut l.client ∨ Connecting iss l.client

variable {l l' : Link} {iss : UInt32}

theorem Once.later (h : Once l) {s : Seg} (hs : Later l s) : s.th.syn = false := by
  rcases hs with ⟨c, hc, hs⟩ | hs
  · obtain ⟨s₀, rest, hout, -, hrest⟩ := (h.child c hc).1
    rw [hout] at hs
    exact hrest s hs
  · exact h.listener s hs

theorem Once.step (h : Once l) (hstep : LinkStep l l') : Once l' := by
  cases hstep with
  | client hf hend => exact ⟨h.listener, h.child⟩
  | @child c c' written hc hf hend =>
    refine ⟨h.listener, fun c₁ hc₁ => ?_⟩
    obtain rfl := Option.some.inj hc₁
    obtain ⟨hout, hlive⟩ := h.child c hc
    rcases (hlive.resolve_left (by simp [hf])).step hend with ⟨hf', hout'⟩ | hfirst
    · exact ⟨hout' ▸ hout, .inl hf'⟩
    · exact ⟨hfirst.out, .inr hfirst⟩
  | @listener hn seg isn hseg hw =>
    rcases tcpHandleListen_cases l.listener seg isn with heq | heq | ⟨-, heq, c, hc⟩
    · rw [heq]
      exact ⟨h.listener, fun _ hc => by cases hc⟩
    · rw [heq]
      refine ⟨fun s hs => ?_, fun _ hc => by cases hc⟩
      rcases List.mem_append.mp hs with hs | hs
      · exact h.listener s hs
      · exact List.mem_singleton.mp hs ▸ rfl
    · rw [heq, hc]
      refine ⟨h.listener, fun c₁ hc₁ => ?_⟩
      obtain rfl := Option.some.inj hc₁
      have hfirst := synFirst_of_fresh (fresh_of_tcpHandleListen hc)
      exact ⟨hfirst.out, .inr hfirst⟩

/-- A sock that is freed is in `CLOSE`. -/
def ClosedIfFreed (sk : TcpSock) : Prop := sk.freed = true → sk.state = .close

theorem closedIfFreed_of_core {sk sk' : TcpSock} (h : ClosedIfFreed sk) (hcore : core sk' = core sk) :
    ClosedIfFreed sk' := by
  have hf : sk'.freed = sk.freed := congrArg Core.freed hcore
  have hst : sk'.state = sk.state := congrArg Core.state hcore
  unfold ClosedIfFreed
  rwa [hf, hst]

theorem closedIfFreed_segmentRule (seg : Seg) : SegmentRule seg ClosedIfFreed where
  ack sk h := closedIfFreed_of_core h (core_tcpSendAck sk)
  reset _ h := h
  free _ _ _ := fun _ => rfl
  accept sk h hst _ _ _ := fun hf => absurd ((h hf).symm.trans hst) TcpState.noConfusion
  take sk h _ _ _ := by
    obtain ⟨timers, retransmit, heq⟩ :=
      tcpCleanRetransmissionQueue_eq { sk with sndUna := seg.th.ackSeq } seg.th.ackSeq
    rw [heq]
    exact h
  text sk h _ := by
    have hdata : ClosedIfFreed (tcpDataQueue sk seg.th (tcpInitSegment seg)) :=
      closedIfFreed_of_core h (core_tcpDataQueue sk seg.th (tcpInitSegment seg))
    exact hdata
  fin sk h hne _ _ _ := fun hf =>
    absurd (h ((congrArg Core.freed (core_afterFin sk)).symm.trans hf)) hne

/-- Who is freed by a step is in `CLOSE`. -/
theorem closed_of_freed {sk sk' : TcpSock} (hf : sk.freed = false) (hmss : 0 < sk.smss)
    (hstep : EndStep P sk sk') (hf' : sk'.freed = true) : sk'.state = .close := by
  have hsame : sk'.freed = sk.freed → sk'.state = .close := fun h =>
    absurd (h.symm.trans hf') (by simp [hf])
  cases hstep with
  | write buf _ => exact hsame (congrArg Core.freed (core_tcpWrite hmss buf))
  | close _ =>
    have hfin : (tcpQueueFin sk).freed = sk.freed := congrArg Core.freed (core_tcpQueueFin sk)
    revert hsame
    unfold tcpClose
    split
    case h_7 => exact fun _ => rfl
    case h_8 | h_9 | h_10 | h_11 => exact fun hsame => hsame hfin
    all_goals exact fun hsame => hsame rfl
  | timer i hfire =>
    cases expires_fireTimer hfire with
    | quiet => exact hsame rfl
    | free => rfl
    | resend => exact hsame rfl
  | segment seg _ hrun =>
    by_cases hst : sk.state = .synSent
    · rw [tcpProcess_synSent hst] at hrun
      obtain rfl := Except.ok.inj hrun
      exact hsame (congrArg Core.freed (core_tcpSynsent sk seg.th))
    · exact (closedIfFreed_segmentRule seg).tcpProcess (fun h => absurd h (by simp [hf])) hst hrun hf'
  | reader => exact hsame rfl

/-- Without a SYN the client stays where it is, whatever its number. -/
theorem connecting_later {sk sk' : TcpSock} (h : Connecting iss sk)
    (hP : ∀ s, P s → s.th.syn = false) (hstep : EndStep P sk sk') :
    sk'.freed = true ∨ Shut sk' ∨ Connecting iss sk' := by
  cases hstep with
  | write buf _ =>
    rw [tcpWrite_not_open (by simp [h.state]) (by simp [h.state])]
    exact .inr (.inr h)
  | close _ =>
    rw [tcpClose_open (.inr (.inr h.state))]
    have hcore := core_tcpQueueFin sk
    refine .inr (.inl ⟨(congrArg Core.freed hcore).trans h.freed, ?_, trivial, by simp [tcpSetState]⟩)
    have hmss : (tcpQueueFin sk).smss = sk.smss := congrArg Core.smss hcore
    show 0 < (tcpQueueFin sk).smss
    rw [hmss, h.smss]
    decide
  | timer i hfire =>
    rcases h.timer hfire with h' | ⟨hf, -, -⟩
    · exact .inr (.inr h')
    · exact .inl hf
  | segment seg hseg hrun =>
    have hsame : tcpSynsent sk seg.th = sk := by
      unfold tcpSynsent
      split_ifs with hack hrst hsyn
      · rfl
      · rfl
      · rfl
      all_goals exact absurd (hP seg hseg) (by simpa using hsyn)
    rw [tcpProcess_synSent h.state, hsame] at hrun
    obtain rfl := Except.ok.inj hrun
    exact .inr (.inr h)
  | reader receiveQueue flagPsh flagFin recvSleeping hnil =>
    exact .inr (.inr ⟨h.state, h.freed, h.smss, h.isn, h.una, h.nxt, h.queue, h.out, h.timers,
      hnil h.receiveQueue, h.ofoQueue⟩)

/-- A step of the client. -/
theorem Unconnected.client_step (h : Unconnected iss l) (honce : Once l) {f : TcpSock → Option TcpSock}
    (hf : ∀ sk, f l.client = some sk → EndStep (Later l) l.client sk) (hl : onClient l f = some l') :
    Unconnected iss l' := by
  obtain ⟨hlive, sk, hsk, rfl⟩ := onClient_some hl
  have hend := hf sk hsk
  have hest : sk.state ≠ .established →
      (l.established || decide (sk.state = .established)) = false := fun hne => by
    simp [h.est, hne]
  have hfreed : 0 < l.client.smss → sk.freed = true → Unconnected iss { l with
      client := sk, established := l.established || decide (sk.state = .established) } :=
    fun hmss hfreed => ⟨hest (by simp [closed_of_freed hlive hmss hend hfreed]), .inl hfreed⟩
  rcases h.client.resolve_left (by simp [hlive]) with hshut | hcon
  · rcases hshut.step hend with hf' | hshut'
    · exact hfreed hshut.mss hf'
    · exact ⟨hest hshut'.state, .inr (.inl hshut')⟩
  · rcases connecting_later hcon (fun s hs => honce.later hs) hend with hf' | hshut | hcon'
    · exact hfreed (by rw [hcon.smss]; decide) hf'
    · exact ⟨hest hshut.state, .inr (.inl hshut)⟩
    · exact ⟨hest (by simp [hcon'.state]), .inr (.inr hcon')⟩

/-- A step at which the answer does not arrive. -/
theorem Unconnected.step (h : Unconnected iss l) (honce : Once l)
    {e : LinkEvent} (he : e ≠ .toClient 0) (hstep : linkStep l e = some l') : Unconnected iss l' := by
  match e with
  | .write .client buf => exact h.client_step honce (fun _ => endStep_write) hstep
  | .close .client => exact h.client_step honce (fun _ => endStep_close) hstep
  | .timer .client i =>
    have hstep : onClient l (fun sk => fireTimer sk i) = some l' := hstep
    exact h.client_step honce (fun _ hsk => .timer i hsk) hstep
  | .toClient i =>
    refine h.client_step honce (fun _ hsk => endStep_receive (fun seg hseg => ?_) hsk) hstep
    obtain ⟨c, hc, hseg⟩ := Option.bind_eq_some_iff.mp hseg
    have hi : i ≠ 0 := fun hi => he (hi ▸ rfl)
    refine Or.inl ⟨c, hc, List.mem_of_getElem? (i := i - 1) ?_⟩
    rwa [List.getElem?_drop, show 1 + (i - 1) = i by omega]
  | .resetToClient i =>
    exact h.client_step honce (fun _ hsk =>
      endStep_receive (fun seg hseg => Or.inr (List.mem_of_getElem? hseg)) hsk) hstep
  | .read len =>
    simp only [linkStep] at hstep
    split at hstep
    · obtain ⟨l₁, hl₁, rfl⟩ := Option.map_eq_some_iff.mp hstep
      have h₁ := h.client_step honce (fun _ hsk => by
        obtain rfl := Option.some.inj hsk
        exact endStep_tcpReadStart _ len) hl₁
      exact ⟨h₁.est, h₁.client⟩
    · exact absurd hstep (by simp)
  | .round =>
    simp only [linkStep] at hstep
    split at hstep
    · exact absurd hstep (by simp)
    · rename_i len rlen _
      obtain ⟨l₁, hl₁, rfl⟩ := Option.map_eq_some_iff.mp hstep
      have h₁ := h.client_step honce (fun _ hsk => by
        obtain rfl := Option.some.inj hsk
        exact endStep_tcpReceiveRound _ len rlen) hl₁
      exact ⟨h₁.est, h₁.client⟩
  | .write .child buf =>
    obtain ⟨l₁, hl₁, rfl⟩ := Option.map_eq_some_iff.mp hstep
    obtain ⟨c, c', -, -, -, rfl⟩ := onChild_some hl₁
    exact ⟨h.est, h.client⟩
  | .close .child =>
    obtain ⟨c, c', -, -, -, rfl⟩ := onChild_some hstep
    exact ⟨h.est, h.client⟩
  | .timer .child i =>
    have hstep : onChild l (fun sk => fireTimer sk i) = some l' := hstep
    obtain ⟨c, c', -, -, -, rfl⟩ := onChild_some hstep
    exact ⟨h.est, h.client⟩
  | .toServer i isn =>
    cases hchild : l.child with
    | some c =>
      simp only [linkStep, hchild] at hstep
      obtain ⟨c, c', -, -, -, rfl⟩ := onChild_some hstep
      exact ⟨h.est, h.client⟩
    | none =>
      simp only [linkStep, hchild] at hstep
      split_ifs at hstep
      obtain ⟨seg, -, rfl⟩ := Option.map_eq_some_iff.mp hstep
      exact ⟨h.est, h.client⟩

end ToyIP.Tcp.SynAck
