import ToyIP.Tcp.Turn

/-! # TCP: delivery over a path that keeps the order

The connection of `Tcp.Network`, when the segments of the child arrive at the client one after the
other and none is lost. The other direction, the timers, the closes and the reader are as free as
before. Then the client takes everything: what it has read and what is in its queue is the text of
the segments that have arrived, and once all have arrived it is what was written on the child. -/

namespace ToyIP.Tcp.Delivery

open ToyIP.Lib ToyIP.Lib.Run ToyIP.Tcp.Types ToyIP.Tcp.Input ToyIP.Tcp.Sock ToyIP.Tcp.Sides
  ToyIP.Tcp.Effects ToyIP.Tcp.Network ToyIP.Tcp.Receiver ToyIP.Tcp.Flows ToyIP.Tcp.Agreement
  ToyIP.Tcp.Turn

variable {S got : List UInt8} {isn iss : UInt32} {c c' sk sk' : TcpSock} {seg : Seg}

/-! ### The path -/

/-- The connection, and how many segments of the child have arrived at the client. -/
structure Path where
  link : Link
  arrived : ℕ := 0

/-- The next segment of the child arrives, or anything else happens. -/
inductive PathEvent
  | arrive
  | other (e : LinkEvent)
  deriving DecidableEq, Repr

/-- The numbers of the child, with the window of the client behind them, do not wrap. -/
def Room (l : Link) : Prop := ∀ c ∈ l.child, c.sndNxt.toNat + 44477 < 4294967296

instance (l : Link) : Decidable (Room l) := by unfold Room; infer_instance

/-- One event. The segments of the child come in the order in which they were sent. -/
def pathStep (p : Path) : PathEvent → Option Path
  | .arrive => (linkStep p.link (.toClient p.arrived)).map fun l => ⟨l, p.arrived + 1⟩
  | .other (.toClient _) => none
  | .other e => (linkStep p.link e).bind fun l => if Room l then some ⟨l, p.arrived⟩ else none

/-- The client of `l` is `sk` now. -/
def withClient (l : Link) (sk : TcpSock) : Link :=
  { l with client := sk, established := l.established || decide (sk.state = .established) }

/-- What one event does to the path. -/
inductive PathStep (p : Path) : Path → Prop
  | arrive {c sk : TcpSock} {seg : Seg} (hf : p.link.client.freed = false)
      (hc : p.link.child = some c) (hseg : c.out[p.arrived]? = some seg)
      (h : tcpProcess p.link.client seg = .ok sk) :
      PathStep p ⟨withClient p.link sk, p.arrived + 1⟩
  | clientWrite (buf : List UInt8) (hf : p.link.client.freed = false)
      (h : p.link.client.sndNxt.toNat + buf.length < 4294967296) :
      PathStep p ⟨withClient p.link (tcpWrite p.link.client buf).1, p.arrived⟩
  | client {sk : TcpSock} (hf : p.link.client.freed = false)
      (h : Own (fun s => s ∈ p.link.listener.out) p.link.client sk) :
      PathStep p ⟨withClient p.link sk, p.arrived⟩
  | read (len : ℕ) (reader : Reader) (hf : p.link.client.freed = false) :
      PathStep p ⟨{ withClient p.link (tcpReadStart p.link.client len).1 with reader := reader },
        p.arrived⟩
  | round (len rlen : ℕ) (reader : Reader) (hf : p.link.client.freed = false) :
      PathStep p ⟨{ withClient p.link (tcpReceiveRound p.link.client len rlen).1 with
        reader := reader, got := p.link.got ++ (tcpReceiveRound p.link.client len rlen).2.1 },
        p.arrived⟩
  | childWrite {c : TcpSock} (buf : List UInt8) (hc : p.link.child = some c) (hf : c.freed = false)
      (h : c.sndNxt.toNat + buf.length < 4294967296) :
      PathStep p ⟨{ p.link with
        child := some (tcpWrite c buf).1
        written := p.link.written ++ if (tcpWrite c buf).2 < 0 then [] else buf }, p.arrived⟩
  | child {c c' : TcpSock} (hc : p.link.child = some c) (hf : c.freed = false)
      (h : Own (fun s => s ∈ p.link.client.out) c c') :
      PathStep p ⟨{ p.link with child := some c' }, p.arrived⟩
  | listener (hn : p.link.child = none) {seg : Seg} {isn : UInt32}
      (hseg : seg ∈ p.link.client.out) (hw : isn.toNat + 1 < 4294967296) :
      PathStep p ⟨{ p.link with
        listener := (tcpHandleListen p.link.listener seg isn).1
        child := (tcpHandleListen p.link.listener seg isn).2 }, p.arrived⟩

theorem pathStep_client {p : Path} {l : Link} {f : TcpSock → Option TcpSock}
    (h : onClient p.link f = some l)
    (hf : ∀ sk, f p.link.client = some sk →
      Own (fun s => s ∈ p.link.listener.out) p.link.client sk) : PathStep p ⟨l, p.arrived⟩ := by
  obtain ⟨hfree, sk, hsk, rfl⟩ := onClient_some h
  exact .client hfree (hf sk hsk)

theorem pathStep_child {p : Path} {l : Link} {f : TcpSock → Option TcpSock}
    (h : onChild p.link f = some l)
    (hf : ∀ c c', f c = some c' → Own (fun s => s ∈ p.link.client.out) c c') :
    PathStep p ⟨l, p.arrived⟩ := by
  obtain ⟨c, c', hc, hfree, hc', rfl⟩ := onChild_some h
  exact .child hc hfree (hf c c' hc')

/-- Every event of the connection but the delivery of a segment of the child. -/
theorem pathStep_other {p : Path} {l : Link} {e : LinkEvent} (he : ∀ i, e ≠ .toClient i)
    (h : linkStep p.link e = some l) : PathStep p ⟨l, p.arrived⟩ := by
  match e with
  | .write .client buf =>
    obtain ⟨hfree, sk, hsk, rfl⟩ := onClient_some h
    obtain ⟨hw, rfl⟩ := write_some hsk
    exact .clientWrite buf hfree hw
  | .write .child buf =>
    obtain ⟨l₁, hl₁, rfl⟩ := Option.map_eq_some_iff.mp h
    obtain ⟨c, c', hc, hfree, hc', rfl⟩ := onChild_some hl₁
    obtain ⟨hw, rfl⟩ := write_some hc'
    have htaken : taken p.link buf = if (tcpWrite c buf).2 < 0 then [] else buf := by
      unfold taken; rw [hc]
    rw [htaken]
    exact .childWrite buf hc hfree hw
  | .close .client => exact pathStep_client h fun _ => own_close
  | .close .child => exact pathStep_child h fun _ _ => own_close
  | .timer .client i =>
    have h : onClient p.link (fun sk => fireTimer sk i) = some l := h
    exact pathStep_client h fun _ hsk => .timer i hsk
  | .timer .child i =>
    have h : onChild p.link (fun sk => fireTimer sk i) = some l := h
    exact pathStep_child h fun _ _ hc' => .timer i hc'
  | .toClient i => exact absurd rfl (he i)
  | .resetToClient i =>
    exact pathStep_client h fun _ => own_receive fun _ hseg => List.mem_of_getElem? hseg
  | .toServer i isn =>
    cases hchild : p.link.child with
    | some c =>
      simp only [linkStep, hchild] at h
      exact pathStep_child h fun _ _ => own_receive fun _ hseg => List.mem_of_getElem? hseg
    | none =>
      simp only [linkStep, hchild] at h
      split_ifs at h with hw
      obtain ⟨seg, hseg, rfl⟩ := Option.map_eq_some_iff.mp h
      exact .listener hchild (List.mem_of_getElem? hseg) hw
  | .read len =>
    simp only [linkStep] at h
    split at h
    · obtain ⟨l₁, hl₁, rfl⟩ := Option.map_eq_some_iff.mp h
      obtain ⟨hfree, sk, hsk, rfl⟩ := onClient_some hl₁
      obtain rfl := Option.some.inj hsk
      exact .read len _ hfree
    · exact absurd h (by simp)
  | .round =>
    simp only [linkStep] at h
    split at h
    · exact absurd h (by simp)
    · rename_i len rlen _
      obtain ⟨l₁, hl₁, rfl⟩ := Option.map_eq_some_iff.mp h
      obtain ⟨hfree, sk, hsk, rfl⟩ := onClient_some hl₁
      obtain rfl := Option.some.inj hsk
      exact .round len rlen _ hfree

theorem pathStep_some {p p' : Path} {e : PathEvent} (h : pathStep p e = some p') :
    PathStep p p' ∧ LinkStep p.link p'.link ∧ (Room p.link → Room p'.link) := by
  match e with
  | .arrive =>
    obtain ⟨l, hl, rfl⟩ := Option.map_eq_some_iff.mp h
    obtain ⟨hfree, sk, hsk, rfl⟩ := onClient_some hl
    obtain ⟨seg, hseg, hp⟩ := receive_some hsk
    obtain ⟨c, hc, hseg⟩ := Option.bind_eq_some_iff.mp hseg
    exact ⟨.arrive hfree hc hseg hp, linkStep_some hl, id⟩
  | .other e =>
    by_cases he : ∀ i, e ≠ .toClient i
    · have hbind : pathStep p (.other e) = (linkStep p.link e).bind fun l =>
          if Room l then some ⟨l, p.arrived⟩ else none := by
        cases e <;> first | rfl | exact absurd rfl (he _)
      rw [hbind] at h
      obtain ⟨l, hl, h⟩ := Option.bind_eq_some_iff.mp h
      obtain ⟨hroom, h⟩ := Option.ite_none_right_eq_some.mp h
      obtain rfl := Option.some.inj h
      exact ⟨pathStep_other he hl, linkStep_some hl, fun _ => hroom⟩
    · rw [not_forall] at he
      obtain ⟨i, hi⟩ := he
      rw [not_not.mp hi] at h
      exact absurd h (by simp [pathStep])

/-! ### Both ends -/

/-- The client is connected to the child `c`, and is where the segments that have arrived have
brought it. What it counts as acknowledged, one of them said. -/
structure Connected (iss isn : UInt32) (p : Path) (c : TcpSock) : Prop where
  child : p.link.child = some c
  pair : Pair (ClientSyn iss) (ChildSyn iss isn) p.link.client c
  live : Live p.link.client.state
  sends : Sends p.link.written c
  reads : Reads (carried c.isn (c.out.take p.arrived)) p.link.got p.link.client
  arrived : p.arrived ≤ c.out.length
  una : ∃ s ∈ c.out.take p.arrived, s.th.ack = true ∧ p.link.client.sndUna = s.th.ackSeq

variable {p p' : Path}

theorem Connected.room (h : Connected iss isn p c) (hroom : Room p.link) :
    c.sndNxt.toNat + 44477 < 4294967296 := hroom c h.child

/-- The next segment arrives. -/
theorem Connected.arrive (h : Connected iss isn p c) (hroom : Room p.link)
    (hseg : c.out[p.arrived]? = some seg) (est : Bool) :
    Connected iss isn
      ⟨{ p.link with client := processed p.link.client seg, established := est }, p.arrived + 1⟩
      c := by
  have hmem : seg ∈ c.out := List.mem_of_getElem? hseg
  have hroom := h.room hroom
  obtain ⟨hi, hget⟩ := List.getElem?_eq_some_iff.mp hseg
  have htake : c.out.take (p.arrived + 1) = c.out.take p.arrived ++ [seg] := by
    rw [List.take_succ_eq_append_getElem hi, hget]
  obtain ⟨x, hx, hxa, huna⟩ := h.una
  have hsyn : seg.th.syn = false := by
    by_contra hs
    have hzero := (h.sends.turn.syn _ _ hseg (by simpa using hs)).1
    rw [hzero] at hx
    exact absurd hx (by simp)
  -- the acknowledgement is no older than those that have arrived, and not from the future
  have hack : seg.th.ack = true →
      p.link.client.sndUna ≤ seg.th.ackSeq ∧ seg.th.ackSeq ≤ p.link.client.sndNxt := by
    intro ha
    have hle := h.pair.agree.1.inv.acks_le _ ⟨seg, hmem, ha, rfl⟩
    have hrcv := h.pair.agree.1.inv.rcv_le
    have hrise : x.th.ackSeq ≤ seg.th.ackSeq := by
      have hacks := h.sends.turn.acks
      rw [← List.take_append_drop (p.arrived + 1) c.out, htake] at hacks
      exact (List.pairwise_append.mp (List.pairwise_append.mp hacks).1).2.2 x hx seg
        (List.mem_singleton_self seg) hxa ha
    exact ⟨huna ▸ hrise, Word32.le_iff.mpr (hle.trans hrcv)⟩
  have hadd : carried c.isn (c.out.take (p.arrived + 1)) =
      (carried c.isn (c.out.take p.arrived)).add seg := carried_take_succ hseg
  have hnxt : ((carried c.isn (c.out.take p.arrived)).add seg).nxt + 44477 < 4294967296 := by
    have hle := (carried_take_le c.isn c.out (p.arrived + 1)).1
    rw [h.sends.nxt] at hle
    rw [← hadd]
    omega
  have hstep : tcpProcess p.link.client seg = .ok (processed p.link.client seg) :=
    tcpProcess_eq h.live.synchronized h.pair.left.freed seg
  refine ⟨h.child, h.pair.segment (Or.inl hmem) hstep, (core_processed h.live seg).2, h.sends, ?_,
    hi, ?_⟩
  · show Reads (carried c.isn (c.out.take (p.arrived + 1))) _ _
    rw [hadd]
    exact h.reads.arrive h.live (h.sends.turn.fits _ _ hseg) hsyn hack hnxt
  · show ∃ s ∈ c.out.take (p.arrived + 1), _ ∧ (processed p.link.client seg).sndUna = _
    rw [htake]
    have hnosyn : tcpPacketFilter p.link.client seg.th (tcpInitSegment seg) = true →
        seg.th.syn = false := fun _ => hsyn
    rcases sndUna_processed hnosyn with hsame | ⟨ha, hnew⟩
    · exact ⟨x, List.mem_append_left _ hx, hxa, hsame.trans huna⟩
    · exact ⟨seg, List.mem_append_right _ (List.mem_singleton_self seg), ha, hnew⟩

/-- A step of the client that leaves what it has taken alone. -/
theorem Connected.of_client (h : Connected iss isn p c) {sk : TcpSock}
    (hpair : Pair (ClientSyn iss) (ChildSyn iss isn) sk c) (ho : Onward p.link.client sk)
    {got : List UInt8} (hreads : Reads (carried c.isn (c.out.take p.arrived)) got sk)
    (huna : sk.sndUna = p.link.client.sndUna) (est : Bool) (reader : Reader) :
    Connected iss isn ⟨{ p.link with
      client := sk, established := est, reader := reader, got := got }, p.arrived⟩ c := by
  obtain ⟨x, hx, hxa, hsame⟩ := h.una
  exact ⟨h.child, hpair, ho.live h.live, h.sends, hreads, h.arrived, x, hx, hxa, huna.trans hsame⟩

/-- A step of the child. -/
theorem Connected.of_child (h : Connected iss isn p c)
    (hpair : Pair (ClientSyn iss) (ChildSyn iss isn) p.link.client c') (hs : SendsOn S c c') :
    Connected iss isn ⟨{ p.link with child := some c', written := S }, p.arrived⟩ c' := by
  obtain ⟨l, hl⟩ := hs.out
  have htake : c'.out.take p.arrived = c.out.take p.arrived := by
    rw [← hl, List.take_append_of_le_length h.arrived]
  refine ⟨rfl, hpair, h.live, hs.sends, ?_, ?_, ?_⟩
  · show Reads (carried c'.isn (c'.out.take p.arrived)) _ _
    rw [hs.isn, htake]
    exact h.reads
  · exact h.arrived.trans hs.out.length_le
  · show ∃ s ∈ c'.out.take p.arrived, _
    rw [htake]
    exact h.una

/-! ### Runs -/

/-- The client waits for the answer to its SYN. A child lives with the client that will be. -/
structure Waiting (iss : UInt32) (p : Path) : Prop where
  est : p.link.established = false
  client : Connecting iss p.link.client
  wnd : p.link.client.rcvWnd = 44477
  got : p.link.got = []
  child : p.link.child = none ∧ p.link.written = [] ∧ p.arrived = 0 ∨
    ∃ c isn, p.link.child = some c ∧ p.arrived ≤ c.out.length ∧
      Pair (ClientSyn iss) (ChildSyn iss isn) (answered p.link.client isn) c ∧
      Sends p.link.written c

/-- Where the connection stands. -/
inductive Stage (iss : UInt32) (p : Path) : Prop
  | lost (freed : p.link.client.freed = true ∨ ∃ c, p.link.child = some c ∧ c.freed = true)
  | shut (est : p.link.established = false) (client : Shut p.link.client)
  | waiting (waiting : Waiting iss p)
  | up (c : TcpSock) (isn : UInt32) (connected : Connected iss isn p c)

/-- What is lost or shut stays so. -/
theorem stage_dead (h : PathStep p p')
    (hdead : (p.link.client.freed = true ∨ ∃ c, p.link.child = some c ∧ c.freed = true) ∨
      p.link.established = false ∧ Shut p.link.client) : Stage iss p' := by
  -- a step of the client, and a step that leaves the client alone
  have hclient : ∀ {sk : TcpSock}, p.link.client.freed = false →
      EndStep (fun _ => True) p.link.client sk → p'.link.client = sk →
      p'.link.child = p.link.child →
      p'.link.established = (p.link.established || decide (sk.state = .established)) →
      Stage iss p' := by
    intro sk hf hstep hcl hch hest
    rcases hdead with (hfreed | ⟨c, hc, hfreed⟩) | ⟨hest', hshut⟩
    · rw [hf] at hfreed; exact absurd hfreed (by simp)
    · exact .lost (Or.inr ⟨c, hch.trans hc, hfreed⟩)
    · rcases hshut.step hstep with hfreed | hshut'
      · exact .lost (Or.inl (hcl ▸ hfreed))
      · exact .shut (by rw [hest, hest']; simp [hshut'.state]) (hcl ▸ hshut')
  have hother : (∀ c, p.link.child = some c → c.freed = false) → p'.link.client = p.link.client →
      p'.link.established = p.link.established → Stage iss p' := by
    intro hf hcl hest
    rcases hdead with (hfreed | ⟨c, hc, hfreed⟩) | ⟨hest', hshut⟩
    · exact .lost (Or.inl (hcl ▸ hfreed))
    · rw [hf c hc] at hfreed; exact absurd hfreed (by simp)
    · exact .shut (hest.trans hest') (hcl ▸ hshut)
  cases h with
  | arrive hf hc hseg hp => exact hclient hf (.segment _ trivial hp) rfl rfl rfl
  | clientWrite buf hf hw => exact hclient hf (.write buf hw) rfl rfl rfl
  | client hf hown => exact hclient hf (hown.endStep.mono fun _ _ => trivial) rfl rfl rfl
  | read len reader hf => exact hclient hf (endStep_tcpReadStart _ len) rfl rfl rfl
  | round len rlen reader hf => exact hclient hf (endStep_tcpReceiveRound _ len rlen) rfl rfl rfl
  | childWrite buf hc hf _ =>
    exact hother (fun c hc' => Option.some.inj (hc.symm.trans hc') ▸ hf) rfl rfl
  | child hc hf _ => exact hother (fun c hc' => Option.some.inj (hc.symm.trans hc') ▸ hf) rfl rfl
  | listener hn _ _ => exact hother (fun c hc => absurd hc (by rw [hn]; simp)) rfl rfl

/-- A client that goes on waiting keeps its window. -/
theorem rcvWnd_connecting {P : Seg → Prop} (hw : iss.toNat + 1 < 4294967296)
    (hP : ∀ s, P s → s.th.syn = true → s.th.ack = true ∧ s.th.ackSeq = iss + 1)
    (h : Connecting iss sk) (hstep : EndStep P sk sk') (h' : Connecting iss sk') :
    sk'.rcvWnd = sk.rcvWnd := by
  cases hstep with
  | write buf _ =>
    rw [tcpWrite_not_open (by rw [h.state]; simp) (by rw [h.state]; simp)]
  | close _ =>
    have hst := h'.state
    rw [tcpClose_open (Or.inr (Or.inr h.state))] at hst
    exact absurd hst (by simp [tcpSetState])
  | timer i hi =>
    obtain ⟨t, -, -, heff⟩ := fireTimer_some hi
    cases heff with
    | quiet send recv core out => exact congrArg RecvSide.rcvWnd recv
    | freed freed _ _ _ => rw [h'.freed] at freed; exact absurd freed (by simp)
    | resend skb q queue handler send recv core state out => exact congrArg RecvSide.rcvWnd recv
  | segment seg hseg hp =>
    rcases h.segment hw (hP seg hseg) with heq | ⟨-, timers, retransmit, heq⟩ <;>
      rw [heq] at hp <;> obtain rfl := Except.ok.inj hp <;> rfl
  | reader receiveQueue flagPsh flagFin recvSleeping hnil => rfl

/-- A step of the waiting client on which nothing of the child arrives. -/
theorem Waiting.of_client (hw : iss.toNat + 1 < 4294967296) (h : Waiting iss p)
    (hlisten : ∀ s ∈ p.link.listener.out, s.th.syn = false ∧ s.th.ack = false) {sk : TcpSock}
    (hstep : EndStep (fun s => s ∈ p.link.listener.out) p.link.client sk) (reader : Reader)
    {got : List UInt8} (hgot : got = []) : Stage iss ⟨{ withClient p.link sk with
      reader := reader, got := got }, p.arrived⟩ := by
  have hP : ∀ s, s ∈ p.link.listener.out → s.th.syn = true →
      s.th.ack = true ∧ s.th.ackSeq = iss + 1 := fun s hs hsyn =>
    absurd hsyn (by rw [(hlisten s hs).1]; simp)
  rcases connecting_step hw hP h.client hstep with hfreed | hshut | hcon | ⟨seg, hseg, hsyn, -⟩
  · exact .lost (Or.inl hfreed)
  · exact .shut (by simp [withClient, h.est, hshut.state]) hshut
  · refine .waiting ⟨by simp [withClient, h.est, hcon.state], hcon, ?_, hgot, ?_⟩
    · exact (rcvWnd_connecting hw hP h.client hstep hcon).trans h.wnd
    · rcases h.child with hnone | ⟨c, isn, hc, harrived, hpair, hsends⟩
      · exact Or.inl hnone
      · exact Or.inr ⟨c, isn, hc, harrived, hpair.waiting h.client hcon, hsends⟩
  · rw [(hlisten seg hseg).1] at hsyn; exact absurd hsyn (by simp)

/-- The next segment of the child arrives at the waiting client. The one with SYN connects it. -/
theorem Waiting.arrive (hw : iss.toNat + 1 < 4294967296) (h : Waiting iss p)
    (hc : p.link.child = some c) (hseg : c.out[p.arrived]? = some seg) {sk : TcpSock}
    (hp : tcpProcess p.link.client seg = .ok sk) :
    Stage iss ⟨withClient p.link sk, p.arrived + 1⟩ := by
  rcases h.child with ⟨hnone, -⟩ | ⟨c', isn, hc', harrived, hpair, hsends⟩
  · rw [hc] at hnone; exact absurd hnone (by simp)
  obtain rfl := Option.some.inj (hc.symm.trans hc')
  have hmem : seg ∈ c.out := List.mem_of_getElem? hseg
  obtain ⟨hi, -⟩ := List.getElem?_eq_some_iff.mp hseg
  have hsyn : seg.th.syn = true → ChildSyn iss isn seg := (hpair.agree.2.out seg hmem).1
  rcases h.client.segment hw fun hs => ⟨(hsyn hs).1, (hsyn hs).2.1⟩ with
    heq | ⟨hs, timers, retransmit, heq⟩ <;> rw [heq] at hp <;> obtain rfl := Except.ok.inj hp
  · exact .waiting ⟨by simp [withClient, h.est, h.client.state], h.client, h.wnd, h.got,
      Or.inr ⟨c, isn, hc, hi, hpair, hsends⟩⟩
  · obtain ⟨hack, hackSeq, hseq⟩ := hsyn hs
    obtain ⟨hzero, hseq'⟩ := hsends.turn.syn _ _ hseg hs
    have htake : c.out.take (p.arrived + 1) = [seg] := by
      obtain ⟨hi, rfl⟩ := List.getElem?_eq_some_iff.mp hseg
      rw [List.take_succ_eq_append_getElem hi]
      simp [hzero]
    have hone : (seg.th.seq + 1).toNat = c.isn.toNat + 1 := by
      have hle : c.isn.toNat + 1 ≤ _ := (carried_take_le c.isn c.out 0).1
      rw [hsends.nxt] at hle
      rw [hseq']
      exact Word32.toNat_add_of_lt (hle.trans_lt c.sndNxt.toNat_lt)
    have hcarried : carried c.isn [seg] = { nxt := c.isn.toNat + 1 } := by
      refine Carried.add_of_ne ?_
      rw [hseq']
      exact (Nat.lt_succ_self _).ne
    rw [hseq] at hone ⊢
    refine .up c isn ⟨hc, ⟨hpair.agree.quiet rfl rfl (.of_emits (Emits.of_out rfl)),
      hpair.left.of_core rfl rfl, hpair.right⟩, trivial, hsends, ?_, hi, ?_⟩
    · rw [htake, hcarried]
      refine ⟨hone, ?_, ?_, h.client.ofoQueue, h.wnd, fun _ => Or.inl rfl⟩
      · show p.link.got ++ text p.link.client.receiveQueue = []
        rw [h.got, h.client.receiveQueue]; rfl
      · show ∀ skb ∈ p.link.client.receiveQueue, _
        rw [h.client.receiveQueue]
        simp
    · rw [htake]
      exact ⟨seg, List.mem_singleton_self seg, hack, h.client.nxt.trans hackSeq.symm⟩

/-- A step of the child of a waiting client. -/
theorem Waiting.of_child (h : Waiting iss p) (hc : p.link.child = some c)
    (hstep : ∀ isn, Pair (ClientSyn iss) (ChildSyn iss isn) (answered p.link.client isn) c →
      Sends p.link.written c → c'.freed = true ∨
        Pair (ClientSyn iss) (ChildSyn iss isn) (answered p.link.client isn) c' ∧ SendsOn S c c') :
    Stage iss ⟨{ p.link with child := some c', written := S }, p.arrived⟩ := by
  rcases h.child with ⟨hnone, -⟩ | ⟨c₁, isn, hc₁, harrived, hpair, hsends⟩
  · rw [hc] at hnone; exact absurd hnone (by simp)
  obtain rfl := Option.some.inj (hc.symm.trans hc₁)
  rcases hstep isn hpair hsends with hfreed | ⟨hpair', hs⟩
  · exact .lost (Or.inr ⟨c', rfl, hfreed⟩)
  · exact .waiting ⟨h.est, h.client, h.wnd, h.got,
      Or.inr ⟨c', isn, rfl, harrived.trans hs.out.length_le, hpair', hs.sends⟩⟩

/-- The listener answers a segment. -/
theorem Waiting.listener (hw : iss.toNat + 1 < 4294967296) (h : Waiting iss p)
    (hlisten : p.link.listener.state = .listen) (hn : p.link.child = none)
    (hseg : seg ∈ p.link.client.out) {isn : UInt32} (hw' : isn.toNat + 1 < 4294967296) :
    Stage iss ⟨{ p.link with
      listener := (tcpHandleListen p.link.listener seg isn).1
      child := (tcpHandleListen p.link.listener seg isn).2 }, p.arrived⟩ := by
  rcases h.child with ⟨-, hempty⟩ | ⟨c, _, hc, -⟩
  swap
  · rw [hn] at hc; exact absurd hc (by simp)
  rcases tcpHandleListen_cases p.link.listener seg isn with heq | heq | ⟨-, heq, c, hc⟩ <;> rw [heq]
  · exact .waiting ⟨h.est, h.client, h.wnd, h.got, Or.inl ⟨rfl, hempty⟩⟩
  · exact .waiting ⟨h.est, h.client, h.wnd, h.got, Or.inl ⟨rfl, hempty⟩⟩
  · have hfresh := fresh_of_tcpHandleListen hc
    rw [hc]
    refine .waiting ⟨h.est, h.client, h.wnd, h.got, Or.inr ⟨c, isn, rfl, ?_,
      pair_of_fresh hw hw' h.client hlisten hseg hfresh, ?_⟩⟩
    · rw [hempty.2]; exact Nat.zero_le _
    · show Sends p.link.written c
      rw [hempty.1]
      exact sends_fresh hw' hfresh (rcvWnd_tcpHandleListen hc)

/-- A step of the connected client that leaves what it has taken alone. -/
theorem Connected.calm (h : Connected iss isn p c)
    (hlisten : ∀ s ∈ p.link.listener.out, s.th.syn = false ∧ s.th.ack = false) {sk : TcpSock}
    (hstep : EndStep (fun s => s ∈ p.link.listener.out) p.link.client sk)
    (hcalm : sk.freed = true ∨ Calm p.link.client sk) (reader : Reader) :
    Stage iss ⟨{ withClient p.link sk with reader := reader }, p.arrived⟩ := by
  rcases h.pair.step (hstep.mono fun s hs => Or.inr (hlisten s hs)) with hfreed | hpair
  · exact .lost (Or.inl hfreed)
  · rcases hcalm with hfreed | hcalm
    · exact .lost (Or.inl hfreed)
    · exact .up c isn (h.of_client hpair hcalm.onward (hcalm.reads h.reads) hcalm.una _ _)

/-- What one event preserves. -/
theorem stage_step (hw : iss.toNat + 1 < 4294967296) (h : Stage iss p) (hroom : Room p.link)
    (hagree : AgreeInv iss p.link) (hstep : PathStep p p') : Stage iss p' := by
  obtain ⟨hlisten, hout⟩ := hagree.listener
  cases h with
  | lost hlost => exact stage_dead hstep (Or.inl hlost)
  | shut est hshut => exact stage_dead hstep (Or.inr ⟨est, hshut⟩)
  | waiting h =>
    cases hstep with
    | arrive hf hc hseg hp => exact h.arrive hw hc hseg hp
    | clientWrite buf hf hroom => exact h.of_client hw hout (.write buf hroom) _ h.got
    | client hf hown => exact h.of_client hw hout hown.endStep _ h.got
    | read len reader hf => exact h.of_client hw hout (endStep_tcpReadStart _ len) reader h.got
    | round len rlen reader hf =>
      refine h.of_client hw hout (endStep_tcpReceiveRound _ len rlen) reader ?_
      obtain ⟨flagPsh, recvSleeping, -, hgot⟩ := tcpReceiveRound_eq p.link.client len rlen
      rw [hgot, h.client.receiveQueue, h.got]
      rfl
    | childWrite buf hc hf hroom =>
      refine h.of_child hc fun isn hpair hsends => Or.inr ⟨(hpair.symm.write hroom).symm, ?_⟩
      exact hsends.write hpair.right.mss hroom
    | child hc hf hown =>
      refine h.of_child hc fun isn hpair hsends => ?_
      have hown' : Own (From (answered p.link.client isn)) _ _ := hown.mono fun s hs =>
        Or.inl (List.mem_append_left _ hs)
      exact (hsends.own hpair.symm hown').imp_right fun ⟨hp, hs⟩ => ⟨hp.symm, hs⟩
    | listener hn hseg hw' => exact h.listener hw hlisten hn hseg hw'
  | up c isn h =>
    cases hstep with
    | arrive hf hc hseg hp =>
      obtain rfl := Option.some.inj (h.child.symm.trans hc)
      rw [tcpProcess_eq h.live.synchronized hf] at hp
      obtain rfl := Except.ok.inj hp
      exact .up c isn (h.arrive hroom hseg _)
    | clientWrite buf hf hroom =>
      exact h.calm hout (.write buf hroom) (Or.inr (calm_tcpWrite h.pair.left.mss buf)) _
    | client hf hown => exact h.calm hout hown.endStep (calm_own h.live hf hout hown) _
    | read len reader hf =>
      exact h.calm hout (endStep_tcpReadStart _ len) (Or.inr (calm_tcpReadStart _ len)) reader
    | round len rlen reader hf =>
      have hend : EndStep (From c) p.link.client _ := endStep_tcpReceiveRound _ len rlen
      obtain ⟨flagPsh, recvSleeping, heq, -⟩ := tcpReceiveRound_eq p.link.client len rlen
      rcases h.pair.step hend with hfreed | hpair
      · exact .lost (Or.inl hfreed)
      · refine .up c isn (h.of_client hpair (.of_core (core_tcpReceiveRound _ len rlen))
          (h.reads.round ?_ len rlen) (by rw [heq]) _ reader)
        have hle := (carried_take_le c.isn c.out p.arrived).2.length_le
        rw [h.sends.text] at hle
        exact (hle.trans h.sends.short).trans_lt c.sndNxt.toNat_lt
    | childWrite buf hc hf hroom =>
      obtain rfl := Option.some.inj (h.child.symm.trans hc)
      exact .up _ isn (h.of_child (h.pair.symm.write hroom).symm
        (h.sends.write h.pair.right.mss hroom))
    | child hc hf hown =>
      obtain rfl := Option.some.inj (h.child.symm.trans hc)
      rcases h.sends.own h.pair.symm (hown.mono fun s hs => Or.inl hs) with hfreed | ⟨hp, hs⟩
      · exact .lost (Or.inr ⟨_, rfl, hfreed⟩)
      · exact .up _ isn (h.of_child hp.symm hs)
    | listener hn _ _ => rw [h.child] at hn; exact absurd hn (by simp)

/-- What one event preserves of the path. -/
structure PathInv (iss : UInt32) (p : Path) : Prop where
  room : Room p.link
  agree : AgreeInv iss p.link
  stage : Stage iss p

theorem pathInv_step (hw : iss.toNat + 1 < 4294967296) {e : PathEvent} (h : PathInv iss p)
    (hstep : pathStep p e = some p') : PathInv iss p' := by
  obtain ⟨hpath, hlink, hroom⟩ := pathStep_some hstep
  exact ⟨hroom h.room, agreeInv_step hw h.agree hlink, stage_step hw h.stage h.room h.agree hpath⟩

theorem pathInv_run {saddr daddr : UInt32} {sport dport : UInt16}
    (hw : isn.toNat + 1 < 4294967296) {events : List PathEvent}
    (hrun : run pathStep ⟨start saddr daddr sport dport isn, 0⟩ events = some p) :
    PathInv isn p := by
  have hcon := connecting_start saddr daddr sport dport isn
  have hinit : PathInv isn ⟨start saddr daddr sport dport isn, 0⟩ := by
    refine ⟨fun c hc => absurd hc (by simp [start]), ⟨⟨rfl, fun s hs => ?_⟩, .alone rfl rfl hcon⟩,
      .waiting ⟨rfl, hcon, rfl, rfl, Or.inl ⟨rfl, rfl, rfl⟩⟩⟩
    exact absurd hs (by simp [start, listenSock, tcpAllocSock])
  exact run_inv (C := fun _ _ => True) (fun _ _ _ h _ hs => pathInv_step hw h hs) hinit
    (Along.of_forall fun _ _ _ => trivial) hrun

theorem pathStep_arrive (hf : p.link.client.freed = false) (hc : p.link.child = some c)
    (hseg : c.out[p.arrived]? = some seg) {sk : TcpSock}
    (hp : tcpProcess p.link.client seg = .ok sk) :
    pathStep p .arrive = some ⟨withClient p.link sk, p.arrived + 1⟩ := by
  simp [pathStep, linkStep, onClient, hf, hc, hseg, receive, hp, withClient]

/-- All that is under way to a connected client can arrive, and brings it the whole stream. -/
theorem all_arrive : ∀ (n : ℕ) {p : Path}, Connected iss isn p c → Room p.link →
    p.arrived + n = c.out.length → ∃ p', run pathStep p (List.replicate n .arrive) = some p' ∧
      p'.link.got ++ text p'.link.client.receiveQueue = p.link.written
  | 0, p, h, _, hn => by
    have hbytes := h.reads.bytes
    rw [List.take_of_length_le (by omega), h.sends.text] at hbytes
    exact ⟨p, rfl, hbytes⟩
  | n + 1, p, h, hroom, hn => by
    have hi : p.arrived < c.out.length := by omega
    have hseg : c.out[p.arrived]? = some c.out[p.arrived] := List.getElem?_eq_getElem hi
    have hfree := h.pair.left.freed
    have hstep := pathStep_arrive hfree h.child hseg (tcpProcess_eq h.live.synchronized hfree _)
    obtain ⟨p', hrun, hgot⟩ := all_arrive n (h.arrive hroom hseg _) hroom
      (by show p.arrived + 1 + n = _; omega)
    exact ⟨p', run_cons.mpr ⟨_, hstep, hrun⟩, hgot⟩

/-- **Delivery in order.** If the segments of the child arrive in the order in which they were sent,
and whatever happens to those of the client, what the connected client has read and queued is always
a prefix of what was written on the child; and once all that is under way has arrived, it is all of
it. -/
theorem delivery_in_order {saddr daddr : UInt32} {sport dport : UInt16} {isn : UInt32}
    (hw : isn.toNat + 1 < 4294967296) {events : List PathEvent} {p : Path}
    (hrun : run pathStep ⟨start saddr daddr sport dport isn, 0⟩ events = some p)
    (hest : p.link.established = true) {c : TcpSock} (hc : p.link.child = some c)
    (hclient : p.link.client.freed = false) (hchild : c.freed = false) :
    p.link.got ++ text p.link.client.receiveQueue <+: p.link.written ∧
      ∃ p', run pathStep p (List.replicate (c.out.length - p.arrived) .arrive) = some p' ∧
        p'.link.got ++ text p'.link.client.receiveQueue = p.link.written := by
  have hinv := pathInv_run hw hrun
  cases hinv.stage with
  | lost hlost =>
    rcases hlost with hlost | ⟨c', hc', hlost⟩
    · rw [hclient] at hlost; exact absurd hlost (by simp)
    · obtain rfl := Option.some.inj (hc.symm.trans hc')
      rw [hchild] at hlost; exact absurd hlost (by simp)
  | shut est _ => rw [hest] at est; exact absurd est (by simp)
  | waiting h => exact absurd h.est (by simp [hest])
  | up c' isn' h =>
    obtain rfl := Option.some.inj (hc.symm.trans h.child)
    refine ⟨?_, all_arrive _ h hinv.room (by have := h.arrived; omega)⟩
    rw [h.reads.bytes, ← h.sends.text]
    exact (carried_take_le c.isn c.out p.arrived).2

/-- A handshake whose last segment is lost at first, two writes, a timer in between, and a close. -/
def slowStart : List PathEvent :=
  [.other (.toServer 0 500), .arrive, .other (.toServer 1 0), .other (.write .child [1, 2]),
    .arrive, .other (.timer .child 0), .other (.write .child [3]), .other (.close .child)]

theorem delivery_in_order_slowStart : ∃ p c,
    run pathStep ⟨start 1 2 10 20 100, 0⟩ slowStart = some p ∧ p.link.child = some c ∧
      p.link.got ++ text p.link.client.receiveQueue <+: p.link.written ∧
      ∃ p', run pathStep p (List.replicate (c.out.length - p.arrived) .arrive) = some p' ∧
        p'.link.got ++ text p'.link.client.receiveQueue = p.link.written := by
  have hrun : (run pathStep ⟨start 1 2 10 20 100, 0⟩ slowStart).map (fun p =>
      (p.link.established, p.link.client.freed, p.link.child.map TcpSock.freed, p.link.written)) =
        some (true, false, some false, [1, 2, 3]) := by decide
  obtain ⟨p, hp, heq⟩ := Option.map_eq_some_iff.mp hrun
  simp only [Prod.mk.injEq, Option.map_eq_some_iff] at heq
  obtain ⟨hest, hclient, ⟨c, hc, hchild⟩, -⟩ := heq
  exact ⟨p, c, hp, hc, delivery_in_order (by decide) hp hest hc hclient hchild⟩

end ToyIP.Tcp.Delivery
