import ToyIP.Tcp.Flows

/-! # TCP: the two ends agree on what is acknowledged

The connection of `Tcp.Network`, from the SYN on. Until the client has taken the answer to its SYN
the two directions are not yet in order; they are so for the client that it will be then
(`answered`), and the child already lives with that one. From there on every step of one end keeps
both directions in order, and `agreement` is what this says of the numbers: no side counts as
acknowledged what the other has not consumed, or consumes what was not sent. -/

namespace ToyIP.Tcp.Agreement

open ToyIP.Lib ToyIP.Lib.Run ToyIP.Lib.AckFlow ToyIP.Tcp.Types ToyIP.Tcp.Output ToyIP.Tcp.Input
  ToyIP.Tcp.Sock ToyIP.Tcp.Sides ToyIP.Tcp.Effects ToyIP.Tcp.Network ToyIP.Tcp.Flows

variable {S T : Seg → Prop} {X X' Y : TcpSock}

/-! ### One end -/

/-- An end of the connection: open, or waiting for the acknowledgement of its SYN. -/
structure Up (X : TcpSock) : Prop where
  freed : X.freed = false
  mss : 0 < X.smss
  state : Live X.state ∨ X.state = .synReceived ∧ X.parent = some .listen ∧ X.writeQueue = [] ∧
    X.sndUna = X.isn

theorem Up.of_live (h : Up X) (hc : core X' = { core X with state := X'.state })
    (hl : Live X'.state) : Up X' where
  freed := (congrArg Core.freed hc).trans h.freed
  mss := by
    rw [show X'.smss = X.smss from congrArg Core.smss hc]
    exact h.mss
  state := Or.inl hl

theorem Up.of_core (h : Up X) (hc : core X' = core X) (hs : sendSide X' = sendSide X) : Up X' := by
  have hst : X'.state = X.state := congrArg Core.state hc
  have hp : X'.parent = X.parent := congrArg Core.parent hc
  have hq : X'.writeQueue = X.writeQueue := congrArg SendSide.writeQueue hs
  have huna : X'.sndUna = X.sndUna := congrArg SendSide.sndUna hs
  have hisn : X'.isn = X.isn := congrArg SendSide.isn hs
  refine ⟨(congrArg Core.freed hc).trans h.freed, ?_, by rw [hst, hp, hq, huna, hisn]; exact h.state⟩
  rw [show X'.smss = X.smss from congrArg Core.smss hc]
  exact h.mss

/-- Two ends that agree. -/
structure Pair (S T : Seg → Prop) (X Y : TcpSock) : Prop where
  agree : Agree S T X Y
  left : Up X
  right : Up Y

theorem Pair.symm (h : Pair S T X Y) : Pair T S Y X := ⟨h.agree.symm, h.right, h.left⟩

/-- Segments of the other end, and segments that are neither SYN nor acknowledgement. -/
def From (Y : TcpSock) (s : Seg) : Prop := s ∈ Y.out ∨ s.th.syn = false ∧ s.th.ack = false

/-- A SYN never gets through the window. -/
theorem Pair.no_syn (h : Pair S T X Y) {seg : Seg} (hseg : From Y seg)
    (hf : tcpPacketFilter X seg.th (tcpInitSegment seg) = true) : seg.th.syn = false := by
  rcases hseg with hseg | ⟨hsyn, -⟩
  · by_contra hsyn
    have hpast := h.agree.2.past seg ((h.agree.2.out seg hseg).1 (by simpa using hsyn))
    unfold tcpPacketFilter at hf
    simp [hpast] at hf
  · exact hsyn

/-- A segment. -/
theorem Pair.segment (h : Pair S T X Y) {seg : Seg} (hseg : From Y seg)
    (hstep : tcpProcess X seg = .ok X') : Pair S T X' Y := by
  have hsent : seg.th.ack = true → seg ∈ Y.out := fun hack => by
    rcases hseg with hseg | ⟨-, hno⟩
    · exact hseg
    · rw [hack] at hno; exact absurd hno (by simp)
  have hquiet : Pair S T (tcpSendAck X) Y :=
    ⟨h.agree.pureAck (sendSide_tcpSendAck X) (recvSide_tcpSendAck X) (emits_tcpSendAck X),
      h.left.of_core (core_tcpSendAck X) (sendSide_tcpSendAck X), h.right⟩
  rcases h.left.state with hlive | ⟨hst, hp, hq, huna⟩
  · rw [tcpProcess_eq hlive.synchronized h.left.freed] at hstep
    obtain rfl := Except.ok.inj hstep
    obtain ⟨hcore, hlive'⟩ := core_processed hlive seg
    refine ⟨?_, h.left.of_live hcore hlive', h.right⟩
    unfold processed
    split_ifs with hf hack hok hrst
    · have hsyn := h.no_syn hseg hf
      have hafter : afterSyn X seg.th = X := by unfold afterSyn; rw [hsyn]; rfl
      rw [hafter]
      exact (h.agree.takeAck (hsent hack) hack).textFin (hsent hack) hsyn
    · have hsyn := h.no_syn hseg hf
      have hafter : afterSyn X seg.th = X := by unfold afterSyn; rw [hsyn]; rfl
      rw [hafter]
      exact h.agree.takeAck (hsent hack) hack
    · have hsyn := h.no_syn hseg hf
      have hafter : afterSyn X seg.th = X := by unfold afterSyn; rw [hsyn]; rfl
      rw [hafter]
      exact h.agree
    · exact h.agree
    · exact hquiet.agree
  · rw [tcpProcess_synReceived hst hp h.left.freed] at hstep
    split_ifs at hstep with hf hsyn hack hack hrange hrst
    · rw [h.no_syn hseg hf] at hsyn; exact absurd hsyn (by simp)
    · obtain rfl := Except.ok.inj hstep
      have hacc := h.agree.accept hq (hsent hack) hack
      have hlive : Live (accept X seg.th.ackSeq).state := trivial
      obtain ⟨hcore, hlive'⟩ := core_textFin hlive seg.th (tcpInitSegment seg)
      exact ⟨hacc.textFin (hsent hack) (h.no_syn hseg hf), h.left.of_live hcore hlive', h.right⟩
    · -- all acknowledgements of the other end lie between `isn` and `snd_nxt`
      have hmem : seg.th.ackSeq.toNat ∈ acks Y := ⟨seg, hsent hack, hack, rfl⟩
      have hle := h.agree.1.inv.acks_le _ hmem
      have hnxt := h.agree.1.inv.rcv_le
      have hge := h.agree.1.isn.2 _ hmem
      refine absurd ⟨?_, Word32.le_iff.mpr (hle.trans hnxt)⟩ hrange
      rw [huna, Word32.le_iff]
      exact hge
    · obtain rfl := Except.ok.inj hstep; exact h
    · obtain rfl := Except.ok.inj hstep; exact h
    · obtain rfl := Except.ok.inj hstep; exact hquiet

/-- A timer. -/
theorem Pair.timer (h : Pair S T X Y) {i : ℕ} (hstep : fireTimer X i = some X') :
    X'.freed = true ∨ Pair S T X' Y := by
  obtain ⟨t, -, -, heff⟩ := fireTimer_some hstep
  cases heff with
  | quiet send recv core out =>
    exact Or.inr ⟨h.agree.pureAck send recv out, h.left.of_core core send, h.right⟩
  | freed freed _ _ _ => exact Or.inl freed
  | resend skb q queue handler send recv core state out =>
    refine Or.inr ⟨h.agree.resend queue send recv out, h.left.of_live core ?_, h.right⟩
    rcases h.left.state with hlive | ⟨-, -, hq, -⟩
    · rcases state with hst | ⟨-, hst⟩
      · rw [hst]; exact hlive
      · rw [hst]; exact live_refinState hlive
    · rw [queue] at hq; exact absurd hq (by simp)

/-- `tcp_write`. -/
theorem Pair.write (h : Pair S T X Y) {buf : List UInt8}
    (hw : X.sndNxt.toNat + buf.length < 4294967296) : Pair S T (tcpWrite X buf).1 Y := by
  by_cases hopen : X.state = .established ∨ X.state = .closeWait
  swap
  · rw [not_or] at hopen
    rw [tcpWrite_not_open hopen.1 hopen.2]
    exact h
  rw [tcpWrite_open hopen]
  have hcore := core_tcpSend h.left.mss buf
  have hst' : (tcpSend X buf).state = X.state := congrArg Core.state hcore
  have hlive : Live (tcpSend X buf).state := by
    rw [hst']
    rcases hopen with hst | hst <;> rw [hst] <;> trivial
  refine ⟨?_, h.left.of_live (by rw [hcore, hst']; rfl) hlive, h.right⟩
  refine (tcpSend_ind (P := fun sk rest =>
    Agree S T sk Y ∧ sk.sndNxt.toNat + rest.length < 4294967296) ?_ h.left.mss ⟨h.agree, hw⟩).1
  rintro sk chunk rest psh hne hlen ⟨ha, hroom⟩
  have hd : (dataSkb chunk psh).dlen.toNat = chunk.length := Word32.toNat_ofNat (by omega)
  have hskb : skbLen (dataSkb chunk psh) = chunk.length := by
    unfold skbLen
    rw [hd]; rfl
  rw [List.length_append] at hroom
  have hnxt : (sk.sndNxt + (dataSkb chunk psh).dlen).toNat = sk.sndNxt.toNat + chunk.length := by
    rw [Word32.toNat_add_of_lt (by omega), hd]
  obtain ⟨timers, retransmit, heq⟩ := tcpQueueTransmitSkb_eq sk (dataSkb chunk psh)
  rw [heq]
  refine ⟨ha.send ⟨rfl, fun hf => absurd hf (by simp [dataSkb])⟩ ?_ (by rw [hskb]; exact hnxt) rfl
    rfl rfl, ?_⟩
  · rw [hskb]
    exact List.length_pos_iff.mpr hne
  · show (sk.sndNxt + (dataSkb chunk psh).dlen).toNat + rest.length < _
    rw [hnxt]
    omega

/-- A FIN. -/
theorem Pair.queueFin (h : Pair S T X Y) (hw : X.sndNxt.toNat + 1 < 4294967296) {st : TcpState}
    (hl : Live st) : Pair S T (tcpSetState (tcpQueueFin X) st) Y := by
  have hnxt : (X.sndNxt + 0 + 1).toNat = X.sndNxt.toNat + 1 := by
    rw [UInt32.add_zero]
    exact Word32.toNat_add_of_lt hw
  obtain ⟨timers, retransmit, heq⟩ :=
    tcpQueueTransmitSkb_eq X { tcpAllocSkb 0 with th := { fin := true, ack := true } }
  unfold tcpQueueFin
  rw [heq]
  exact ⟨h.agree.send ⟨rfl, fun _ => rfl⟩ (by decide) hnxt rfl rfl rfl, h.left.of_live rfl hl,
    h.right⟩

/-- `tcp_close`. -/
theorem Pair.close (h : Pair S T X Y) (hw : X.sndNxt.toNat + 1 < 4294967296) :
    Pair S T (tcpClose X).1 Y := by
  have hagain : Pair S T { X with err := -9 } Y :=
    ⟨h.agree.quiet rfl rfl (.of_emits (Emits.of_out rfl)), h.left.of_core rfl rfl, h.right⟩
  rcases h.left.state with hlive | ⟨hst, -⟩
  · cases hst : X.state <;> rw [hst] at hlive
    case established =>
      rw [tcpClose_open (Or.inl hst)]
      exact h.queueFin hw trivial
    case closeWait =>
      rw [tcpClose_closeWait hst]
      exact h.queueFin hw trivial
    case finWait1 | closing | lastAck =>
      rw [tcpClose_closing (by simp [hst])]
      exact hagain
    all_goals exact hlive.elim
  · rw [tcpClose_open (Or.inr (Or.inl hst))]
    exact h.queueFin hw trivial

/-- Whatever an end does. -/
theorem Pair.step (h : Pair S T X Y) (hstep : EndStep (From Y) X X') :
    X'.freed = true ∨ Pair S T X' Y := by
  cases hstep with
  | write buf hw => exact Or.inr (h.write hw)
  | close hw => exact Or.inr (h.close hw)
  | timer i hi => exact h.timer hi
  | segment seg hseg hp => exact Or.inr (h.segment hseg hp)
  | reader receiveQueue flagPsh flagFin recvSleeping hnil =>
    refine Or.inr ⟨⟨h.agree.1.quiet rfl (.of_emits (Emits.of_out rfl)), ?_⟩,
      h.left.of_core rfl rfl, h.right⟩
    exact h.agree.2.advance h.agree.2.inv (UInt32.le_refl _) h.agree.2.ofo
      (.of_emits (Emits.of_out rfl))

/-! ### The client before it is connected -/

/-- A client that was closed before it was connected never is. -/
structure Shut (X : TcpSock) : Prop where
  freed : X.freed = false
  mss : 0 < X.smss
  live : Live X.state
  state : X.state ≠ .established

/-- A FIN does not lead to `ESTABLISHED`. -/
theorem finState_ne {s : TcpState} (h : s ≠ .established) : finState s ≠ .established := by
  cases s <;> first | exact h | simp [finState]

theorem refinState_ne {s : TcpState} (h : s ≠ .established) : refinState s ≠ .established := by
  cases s <;> first | exact h | simp [refinState]

theorem Shut.onward (h : Shut X) (ho : Onward X X') : Shut X' where
  freed := ho.freed.trans h.freed
  mss := by
    rw [ho.smss]
    exact h.mss
  live := ho.live h.live
  state := by
    rcases ho.state with hst | hst | hst <;> rw [hst]
    · exact h.state
    · exact finState_ne h.state
    · exact refinState_ne h.state

theorem Shut.step {P : Seg → Prop} (h : Shut X) (hstep : EndStep P X X') :
    X'.freed = true ∨ Shut X' := by
  cases hstep with
  | write buf hw => exact Or.inr (h.onward (onward_tcpWrite h.mss buf))
  | close hw => exact Or.inr (h.onward (onward_tcpClose h.live))
  | timer i hi => exact (onward_fireTimer hi).imp_right h.onward
  | segment seg hseg hp =>
    rw [tcpProcess_eq h.live.synchronized h.freed] at hp
    obtain rfl := Except.ok.inj hp
    exact Or.inr (h.onward (onward_processed X seg))
  | reader receiveQueue flagPsh flagFin recvSleeping hnil => exact Or.inr (h.onward (.of_core rfl))

/-- Whatever a connecting client does: it waits on, it is freed or closed, or it takes the answer to
its SYN. -/
theorem connecting_step {iss : UInt32} (hw : iss.toNat + 1 < 4294967296) {P : Seg → Prop}
    (hP : ∀ s, P s → s.th.syn = true → s.th.ack = true ∧ s.th.ackSeq = iss + 1)
    (h : Connecting iss X) (hstep : EndStep P X X') :
    X'.freed = true ∨ Shut X' ∨ Connecting iss X' ∨
      ∃ seg, P seg ∧ seg.th.syn = true ∧ ∃ timers retransmit,
        X' = { answered X seg.th.seq with timers := timers, retransmit := retransmit } := by
  cases hstep with
  | write buf _ =>
    rw [tcpWrite_not_open (by rw [h.state]; simp) (by rw [h.state]; simp)]
    exact Or.inr (Or.inr (Or.inl h))
  | close _ =>
    rw [tcpClose_open (Or.inr (Or.inr h.state))]
    have hcore := core_tcpQueueFin X
    refine Or.inr (Or.inl ⟨(congrArg Core.freed hcore).trans h.freed, ?_, trivial,
      by simp [tcpSetState]⟩)
    show 0 < (tcpQueueFin X).smss
    rw [show (tcpQueueFin X).smss = X.smss from congrArg Core.smss hcore, h.smss]
    decide
  | timer i hi =>
    rcases h.timer hi with h' | ⟨hf, -, -⟩
    · exact Or.inr (Or.inr (Or.inl h'))
    · exact Or.inl hf
  | segment seg hseg hp =>
    rcases h.segment hw (hP seg hseg) with heq | ⟨hsyn, timers, retransmit, heq⟩ <;>
      rw [heq] at hp <;> obtain rfl := Except.ok.inj hp
    · exact Or.inr (Or.inr (Or.inl h))
    · exact Or.inr (Or.inr (Or.inr ⟨seg, hseg, hsyn, timers, retransmit, rfl⟩))
  | reader receiveQueue flagPsh flagFin recvSleeping hnil =>
    exact Or.inr (Or.inr (Or.inl ⟨h.state, h.freed, h.smss, h.isn, h.una, h.nxt, h.queue, h.out,
      h.timers, hnil h.receiveQueue, h.ofoQueue⟩))

/-! ### The connection -/

/-- The SYN of the client. -/
def ClientSyn (iss : UInt32) (s : Seg) : Prop := s.th.seq = iss

/-- The answer to it. -/
def ChildSyn (iss isn : UInt32) (s : Seg) : Prop :=
  s.th.ack = true ∧ s.th.ackSeq = iss + 1 ∧ s.th.seq = isn

/-- Where the connection stands. -/
inductive Phase (iss : UInt32) (l : Link) : Prop
  | lost (freed : l.client.freed = true ∨ ∃ c, l.child = some c ∧ c.freed = true)
  | shut (est : l.established = false) (client : Shut l.client)
  | alone (child : l.child = none) (est : l.established = false) (client : Connecting iss l.client)
  | opening (c : TcpSock) (isn : UInt32) (child : l.child = some c) (est : l.established = false)
      (client : Connecting iss l.client)
      (pair : Pair (ClientSyn iss) (ChildSyn iss isn) (answered l.client isn) c)
  | up (c : TcpSock) (isn : UInt32) (child : l.child = some c)
      (pair : Pair (ClientSyn iss) (ChildSyn iss isn) l.client c)

/-- The listener has only sent resets. -/
structure AgreeInv (iss : UInt32) (l : Link) : Prop where
  listener : l.listener.state = .listen ∧ ∀ s ∈ l.listener.out, s.th.syn = false ∧ s.th.ack = false
  phase : Phase iss l

variable {iss isn : UInt32} {c : TcpSock}

/-- The client that is answered has sent its SYN and one acknowledgement. -/
theorem bare_answered (h : Connecting iss X) (isn : UInt32) :
    ∀ s ∈ (answered X isn).out, Bare (ClientSyn iss) s ∧ AcksTo (isn + 1) s := by
  intro s hs
  rcases List.mem_append.mp hs with hs | hs
  · obtain ⟨-, hack, hfin, hseq, hdlen, -⟩ := h.out s hs
    exact ⟨⟨hdlen, hfin, fun _ => hseq⟩, fun ha => absurd ha (by rw [hack]; simp)⟩
  · have hpure : PureAck (isn + 1) s := by
      rw [List.mem_singleton.mp hs]
      exact ⟨rfl, rfl, rfl, rfl, rfl⟩
    exact ⟨bare_of_pureAck hpure, acksTo_of_pureAck hpure⟩

/-- A client that goes on waiting will be the same once it is answered. -/
theorem Pair.waiting (h : Pair (ClientSyn iss) T (answered X isn) c) (hX : Connecting iss X)
    (hX' : Connecting iss X') : Pair (ClientSyn iss) T (answered X' isn) c := by
  have hsend : sendSide (answered X' isn) = sendSide (answered X isn) := by
    show SendSide.mk X'.sndNxt X'.sndNxt X'.isn [] = SendSide.mk X.sndNxt X.sndNxt X.isn []
    rw [hX'.nxt, hX'.isn, hX.nxt, hX.isn]
  have hnone := not_mem_packets fun s hs => (bare_answered hX isn s hs).1
  have hsent : Sent (fun s => Bare (ClientSyn iss) s ∧ AcksTo (isn + 1) s) (answered X isn)
      (answered X' isn) :=
    ⟨fun p hp => absurd hp (hnone p), fun s hs => Or.inr (bare_answered hX' isn s hs)⟩
  refine ⟨⟨h.agree.1.quiet hsend (hsent.mono fun _ h => h.1), ?_⟩, ⟨hX'.freed, ?_, Or.inl trivial⟩,
    h.right⟩
  · refine h.agree.2.advance h.agree.2.inv (UInt32.le_refl _) ?_ (hsent.mono fun _ h => h.2)
    show ∀ x ∈ X'.ofoQueue, _
    rw [hX'.ofoQueue]
    simp
  · show 0 < X'.smss
    rw [hX'.smss]; decide

/-- The client and the child that its SYN has made. -/
theorem pair_of_fresh (hw : iss.toNat + 1 < 4294967296) (hw' : isn.toNat + 1 < 4294967296)
    (hX : Connecting iss X) {sk : TcpSock} (hsk : sk.state = .listen) {seg : Seg}
    (hseg : seg ∈ X.out) (hc : Fresh sk seg isn c) :
    Pair (ClientSyn iss) (ChildSyn iss isn) (answered X isn) c := by
  have hone : (iss + 1).toNat = iss.toNat + 1 := Word32.toNat_add_of_lt hw
  have hone' : (isn + 1).toNat = isn.toNat + 1 := Word32.toNat_add_of_lt hw'
  have hrcv : c.rcvNxt = iss + 1 := by rw [hc.rcvNxt, (hX.out seg hseg).2.2.2.1]
  obtain ⟨s, hout, hsyn, hack, hfin, hseq, hackSeq, hdlen, -⟩ := hc.out
  have hackSeq : s.th.ackSeq = c.rcvNxt := by rw [hackSeq, ← hc.rcvNxt]
  have hchild : ∀ s' ∈ c.out, Bare (ChildSyn iss isn) s' ∧ AcksTo c.rcvNxt s' := by
    intro s' hs'
    rw [hout, List.mem_singleton] at hs'
    rw [hs']
    exact ⟨⟨hdlen, hfin, fun _ => ⟨hack, hackSeq.trans hrcv, hseq⟩⟩, fun _ => hackSeq⟩
  have hclient := bare_answered hX isn
  have hto : FlowInv (ClientSyn iss) (answered X isn) c := by
    refine .idle rfl hc.ofoQueue (fun s hs => (hclient s hs).1) (fun s hs => (hchild s hs).2)
      ?_ ?_ ?_ fun s hs => ?_
    · show X.isn.toNat ≤ X.sndNxt.toNat
      rw [hX.isn, hX.nxt, hone]
      omega
    · show X.sndNxt.toNat ≤ _
      rw [hX.nxt, hrcv]
    · show _ ≤ X.sndNxt.toNat
      rw [hX.nxt, hrcv]
    · rw [show s.th.seq = iss from hs, hrcv, Word32.lt_iff, hone]
      omega
  have hfrom : FlowInv (ChildSyn iss isn) c (answered X isn) := by
    refine .idle hc.writeQueue hX.ofoQueue (fun s hs => (hchild s hs).1)
      (fun s hs => (hclient s hs).2) ?_ ?_ ?_ fun s hs => ?_
    · rw [hc.isn, hc.una]
    · show c.sndUna.toNat ≤ (isn + 1).toNat
      rw [hc.una, hone']
      omega
    · show (isn + 1).toNat ≤ c.sndNxt.toNat
      rw [hc.nxt]
    · show s.th.seq < isn + 1
      rw [hs.2.2, Word32.lt_iff, hone']
      omega
  refine ⟨⟨hto, hfrom⟩, ⟨hX.freed, ?_, Or.inl trivial⟩, ⟨hc.freed, ?_, Or.inr ⟨hc.state, ?_,
    hc.writeQueue, ?_⟩⟩⟩
  · show 0 < X.smss
    rw [hX.smss]; decide
  · rw [hc.smss]; decide
  · rw [hc.parent, hsk]
  · rw [hc.una, hc.isn]

/-! ### Runs -/

variable {l l' : Link}

/-- What one step preserves. -/
theorem agreeInv_step (hw : iss.toNat + 1 < 4294967296) (h : AgreeInv iss l)
    (hstep : LinkStep l l') : AgreeInv iss l' := by
  cases hstep with
  | @client sk reader got hf hend =>
    refine ⟨h.listener, ?_⟩
    cases h.phase with
    | lost hlost =>
      rcases hlost with hlost | hlost
      · rw [hf] at hlost; exact absurd hlost (by simp)
      · exact .lost (Or.inr hlost)
    | shut est hshut =>
      rcases hshut.step hend with hfreed | hshut'
      · exact .lost (Or.inl hfreed)
      · exact .shut (by simp [est, hshut'.state]) hshut'
    | alone hn est hcon =>
      have hP : ∀ s, (∃ c, l.child = some c ∧ s ∈ c.out) ∨ s ∈ l.listener.out →
          s.th.syn = false := by
        rintro s (⟨c, hc, -⟩ | hs)
        · rw [hn] at hc; exact absurd hc (by simp)
        · exact (h.listener.2 s hs).1
      rcases connecting_step hw (fun s hs hsyn => absurd hsyn (by rw [hP s hs]; simp)) hcon hend with
        hfreed | hshut | hcon' | ⟨seg, hseg, hsyn, -⟩
      · exact .lost (Or.inl hfreed)
      · exact .shut (by simp [est, hshut.state]) hshut
      · exact .alone hn (by simp [est, hcon'.state]) hcon'
      · rw [hP seg hseg] at hsyn; exact absurd hsyn (by simp)
    | opening c isn hc est hcon hpair =>
      have hP : ∀ s, (∃ c, l.child = some c ∧ s ∈ c.out) ∨ s ∈ l.listener.out →
          s.th.syn = true → ChildSyn iss isn s := by
        rintro s (⟨c', hc', hs⟩ | hs) hsyn
        · obtain rfl := Option.some.inj (hc.symm.trans hc')
          exact (hpair.agree.2.out s hs).1 hsyn
        · rw [(h.listener.2 s hs).1] at hsyn; exact absurd hsyn (by simp)
      rcases connecting_step hw (fun s hs hsyn => ⟨(hP s hs hsyn).1, (hP s hs hsyn).2.1⟩) hcon hend
        with hfreed | hshut | hcon' | ⟨seg, hseg, hsyn, timers, retransmit, rfl⟩
      · exact .lost (Or.inl hfreed)
      · exact .shut (by simp [est, hshut.state]) hshut
      · exact .opening c isn hc (by simp [est, hcon'.state]) hcon' (hpair.waiting hcon hcon')
      · rw [(hP seg hseg hsyn).2.2]
        exact .up c isn hc ⟨hpair.agree.quiet rfl rfl (.of_emits (Emits.of_out rfl)),
          hpair.left.of_core rfl rfl, hpair.right⟩
    | up c isn hc hpair =>
      have hend' : EndStep (From c) l.client sk := hend.mono fun s hs => by
        rcases hs with ⟨c', hc', hs⟩ | hs
        · obtain rfl := Option.some.inj (hc.symm.trans hc')
          exact Or.inl hs
        · exact Or.inr (h.listener.2 s hs)
      rcases hpair.step hend' with hfreed | hpair'
      · exact .lost (Or.inl hfreed)
      · exact .up c isn hc hpair'
  | @child c c' written hc hf hend =>
    refine ⟨h.listener, ?_⟩
    cases h.phase with
    | lost hlost =>
      rcases hlost with hlost | ⟨c₁, hc₁, hlost⟩
      · exact .lost (Or.inl hlost)
      · obtain rfl := Option.some.inj (hc.symm.trans hc₁)
        rw [hf] at hlost; exact absurd hlost (by simp)
    | shut est hshut => exact .shut est hshut
    | alone hn _ _ => rw [hn] at hc; exact absurd hc (by simp)
    | opening c₁ isn hc₁ est hcon hpair =>
      obtain rfl := Option.some.inj (hc.symm.trans hc₁)
      have hend' : EndStep (From (answered l.client isn)) c c' := hend.mono fun s hs =>
        Or.inl (List.mem_append_left _ hs)
      rcases hpair.symm.step hend' with hfreed | hpair'
      · exact .lost (Or.inr ⟨c', rfl, hfreed⟩)
      · exact .opening c' isn rfl est hcon hpair'.symm
    | up c₁ isn hc₁ hpair =>
      obtain rfl := Option.some.inj (hc.symm.trans hc₁)
      rcases hpair.symm.step (hend.mono fun s hs => Or.inl hs) with hfreed | hpair'
      · exact .lost (Or.inr ⟨c', rfl, hfreed⟩)
      · exact .up c' isn rfl hpair'.symm
  | @listener hn seg isn hseg hw' =>
    have hphase : ∀ l'', l''.client = l.client → l''.established = l.established →
        (l''.child = none ∨ ∃ c, l''.child = some c ∧ Fresh l.listener seg isn c) →
        Phase iss l'' := by
      intro l'' hcl hest hch
      cases h.phase with
      | lost hlost =>
        rcases hlost with hlost | ⟨c, hc, -⟩
        · exact .lost (Or.inl (hcl ▸ hlost))
        · rw [hn] at hc; exact absurd hc (by simp)
      | shut est hshut => exact .shut (hest.trans est) (hcl ▸ hshut)
      | alone _ est hcon =>
        rcases hch with hch | ⟨c, hch, hfresh⟩
        · exact .alone hch (hest.trans est) (hcl ▸ hcon)
        · refine .opening c isn hch (hest.trans est) (hcl ▸ hcon) ?_
          rw [hcl]
          exact pair_of_fresh hw hw' hcon h.listener.1 hseg hfresh
      | opening c _ hc _ _ _ => rw [hn] at hc; exact absurd hc (by simp)
      | up c _ hc _ => rw [hn] at hc; exact absurd hc (by simp)
    rcases tcpHandleListen_cases l.listener seg isn with heq | heq | ⟨-, heq, c, hc⟩
    · rw [heq]
      exact ⟨h.listener, hphase _ rfl rfl (Or.inl rfl)⟩
    · rw [heq]
      refine ⟨⟨h.listener.1, fun s hs => ?_⟩, hphase _ rfl rfl (Or.inl rfl)⟩
      rcases List.mem_append.mp hs with hs | hs
      · exact h.listener.2 s hs
      · rw [List.mem_singleton] at hs
        exact hs ▸ ⟨rfl, rfl⟩
    · rw [heq, hc]
      exact ⟨h.listener, hphase _ rfl rfl (Or.inr ⟨c, rfl, fresh_of_tcpHandleListen hc⟩)⟩

/-- **The two ends agree.** In every state of a run in which the client has been connected and
neither end was freed, what one end counts as acknowledged was consumed by the other, and what it
has consumed was sent. -/
theorem agreement {saddr daddr : UInt32} {sport dport : UInt16} {isn : UInt32}
    (hw : isn.toNat + 1 < 4294967296) {events : List LinkEvent} {l : Link}
    (hrun : run linkStep (start saddr daddr sport dport isn) events = some l)
    (hest : l.established = true) {c : TcpSock} (hc : l.child = some c)
    (hclient : l.client.freed = false) (hchild : c.freed = false) :
    l.client.sndUna ≤ c.rcvNxt ∧ c.rcvNxt ≤ l.client.sndNxt ∧
      c.sndUna ≤ l.client.rcvNxt ∧ l.client.rcvNxt ≤ c.sndNxt := by
  have hinit : AgreeInv isn (start saddr daddr sport dport isn) := by
    refine ⟨⟨rfl, fun s hs => ?_⟩, .alone rfl rfl (connecting_start saddr daddr sport dport isn)⟩
    exact absurd hs (by simp [start, listenSock, tcpAllocSock])
  have hinv := run_inv (C := fun _ _ => True)
    (fun _ _ _ h _ hs => agreeInv_step hw h (linkStep_some hs)) hinit
    (Along.of_forall fun _ _ _ => trivial) hrun
  cases hinv.phase with
  | lost hlost =>
    rcases hlost with hlost | ⟨c', hc', hlost⟩
    · rw [hclient] at hlost; exact absurd hlost (by simp)
    · obtain rfl := Option.some.inj (hc.symm.trans hc')
      rw [hchild] at hlost; exact absurd hlost (by simp)
  | shut est _ => rw [hest] at est; exact absurd est (by simp)
  | alone _ est _ => rw [hest] at est; exact absurd est (by simp)
  | opening _ _ _ est _ _ => rw [hest] at est; exact absurd est (by simp)
  | up c' _ hc' hpair =>
    obtain rfl := Option.some.inj (hc.symm.trans hc')
    have hto := hpair.agree.1.inv
    have hfrom := hpair.agree.2.inv
    exact ⟨Word32.le_iff.mpr hto.una_le, Word32.le_iff.mpr hto.rcv_le,
      Word32.le_iff.mpr hfrom.una_le, Word32.le_iff.mpr hfrom.rcv_le⟩

/-- A handshake, two bytes and a FIN of the child, and the bytes once more. -/
def closedByChild : List LinkEvent :=
  [.toServer 0 500, .toClient 0, .toServer 1 0, .write .child [1, 2], .toClient 1, .close .child,
    .timer .child 0, .toClient 2, .toServer 2 0]

theorem agreement_closedByChild : ∃ l c,
    run linkStep (start 1 2 10 20 100) closedByChild = some l ∧ l.child = some c ∧
      l.client.sndUna ≤ c.rcvNxt ∧ c.rcvNxt ≤ l.client.sndNxt ∧
      c.sndUna ≤ l.client.rcvNxt ∧ l.client.rcvNxt ≤ c.sndNxt := by
  have hrun : (run linkStep (start 1 2 10 20 100) closedByChild).map
      (fun l => (l.established, l.client.freed, l.child.map TcpSock.freed)) =
        some (true, false, some false) := by decide
  obtain ⟨l, hl, heq⟩ := Option.map_eq_some_iff.mp hrun
  simp only [Prod.mk.injEq, Option.map_eq_some_iff] at heq
  obtain ⟨hest, hclient, c, hc, hchild⟩ := heq
  exact ⟨l, c, hl, hc, agreement (by decide) hl hest hc hclient hchild⟩

end ToyIP.Tcp.Agreement
