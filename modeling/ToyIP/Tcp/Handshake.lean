import ToyIP.Tcp.History
import ToyIP.Tcp.Buffers

/-! # TCP: the handshake

How a sock comes to `ESTABLISHED`. A `Hand` is a sock with a record of its handshake: the SYNs that
came since it was connected, whether its own SYN was acknowledged, and every entry into
`ESTABLISHED`, with the sock as it was at that moment. `tcp_process` can leave the state again in
the same call, so an entry is looked for between all of its `stages`.

The record is sound if every entry was made on the acknowledgement of the SYN, and an opener without
one keeps its SYN on `write_queue`. Both tests of the code let `ack_seq = isn` pass, which
acknowledges nothing (`Early`); nothing else breaks the handshake (`sound_iff_late`). -/

namespace ToyIP.Tcp.Handshake

open ToyIP.Lib ToyIP.Lib.Run ToyIP.Tcp.Types ToyIP.Tcp.Timer ToyIP.Tcp.Output ToyIP.Tcp.Data
  ToyIP.Tcp.Input ToyIP.Tcp.Sock ToyIP.Tcp.Sides ToyIP.Tcp.Effects ToyIP.Tcp.Network
  ToyIP.Tcp.Teardown ToyIP.Tcp.Life ToyIP.Tcp.RetransmitTimer ToyIP.Tcp.History

/-- The sock behind the SYN check, and behind each step after it that is carried out. -/
def stagesInWindow (sk : TcpSock) (th : TcpHdr) (skb : Skb) : List TcpSock :=
  if !th.ack then [sk]
  else if th.syn && sk.freed then [sk]
  else match ackCheck sk th with
    | .error _ => [sk]
    | .ok (sk', false) => [sk, sk']
    | .ok (sk', true) => [sk, sk', segmentText sk' th skb, finCheck (segmentText sk' th skb) th skb]

/-- The sock before a segment and behind each numbered step of `tcp_process` that is carried out. -/
def stages (sk : TcpSock) (seg : Seg) : List TcpSock :=
  let th := seg.th
  let skb := tcpInitSegment seg
  match sk.state with
  | .close => [sk, tcpClosed sk th]
  | .listen => [sk, (tcpHandleListen sk seg 0).1]
  | .synSent => [sk, tcpSynsent sk th]
  | _ =>
    if tcpPacketFilter sk th skb then
      sk :: stagesInWindow (if th.syn then synCheck sk else sk) th skb
    else [sk, if th.rst then sk else tcpSendAck sk]

/-- The socks that have just come to `ESTABLISHED`. -/
def entered : List TcpSock → List TcpSock
  | sk :: sk' :: sks =>
    if sk.state ≠ .established ∧ sk'.state = .established then sk' :: entered (sk' :: sks)
    else entered (sk' :: sks)
  | _ => []

/-- An entry into `ESTABLISHED`: the segment, if it was one, the sock then, and the sequence numbers
of the SYNs received so far. -/
structure Entry where
  seg : Option Seg
  sk : TcpSock
  syns : List UInt32
  deriving DecidableEq, Repr

/-- A sock and its handshake. -/
structure Hand where
  sk : TcpSock
  syns : List UInt32 := []
  answered : Bool := false
  entries : List Entry := []
  deriving DecidableEq, Repr

/-- The segment acknowledges the SYN: `ack_seq` is behind it and not beyond `snd_nxt`. As long as
the SYN alone was sent, that is `isn + 1`; the FIN of an early `tcp_close` may be acknowledged with
it. -/
def acksSyn (sk : TcpSock) (seg : Seg) : Bool :=
  seg.th.ack && decide (seg.th.ackSeq ≠ sk.isn) &&
    decide (seg.th.ackSeq - sk.isn ≤ sk.sndNxt - sk.isn)

/-- The SYNs received with this segment. -/
def synsAfter (syns : List UInt32) (seg : Seg) : List UInt32 :=
  if seg.th.syn then syns ++ [seg.th.seq] else syns

/-- The record after an event that led to `sk`. A call of `tcp_v4_connect` begins a connection. -/
def record (h : Hand) (e : LifeEvent) (sk : TcpSock) : Hand :=
  match e with
  | .connect .. =>
    { sk := sk, entries := h.entries ++ (entered [h.sk, sk]).map (Entry.mk none · []) }
  | .sock (.segment seg) =>
    { sk := sk
      syns := synsAfter h.syns seg
      answered := h.answered || acksSyn h.sk seg
      entries := h.entries ++
        (entered (stages h.sk seg)).map (Entry.mk (some seg) · (synsAfter h.syns seg)) }
  | _ =>
    { h with
      sk := sk
      entries := h.entries ++ (entered [h.sk, sk]).map (Entry.mk none · h.syns) }

def handStep (h : Hand) (e : LifeEvent) : Option Hand := (lifeStep h.sk e).map (record h e)

/-- A sock at its creation. A child knows the SYN that made it. -/
inductive Started : Hand → Prop
  | alloc : Started { sk := tcpAllocSock }
  | listening (sport : UInt16) : Started { sk := listenSock sport }
  | child (listener : TcpSock) (seg : Seg) (isn : UInt32) (sk : TcpSock)
      (h : (tcpHandleListen listener seg isn).2 = some sk) :
      Started { sk := sk, syns := [seg.th.seq] }

/-- The entry was made on the acknowledgement of the SYN, and both sides of the sock fit to it. -/
structure Entry.Sound (x : Entry) : Prop where
  ack : ∃ seg, x.seg = some seg ∧ seg.th.ack = true ∧ seg.th.ackSeq = x.sk.isn + 1
  rcvNxt : x.sk.rcvNxt = x.sk.irs + 1
  irs : x.sk.irs ∈ x.syns
  sndUna : x.sk.sndUna = x.sk.isn + 1
  sndNxt : x.sk.sndNxt = x.sk.isn + 1
  queue : ∀ skb ∈ x.sk.writeQueue, skb.th.syn = false

/-- An active opener, which has no parent, waits for the acknowledgement with its SYN on the queue,
as long as it is not freed. -/
def Waiting (h : Hand) : Prop :=
  h.sk.parent = none → Begun h.sk.state → h.sk.freed = false → h.answered = false →
    ∃ skb ∈ h.sk.writeQueue, skb.th.syn = true

/-- **The soundness of a handshake so far.** -/
structure Sound (h : Hand) : Prop where
  entries : ∀ x ∈ h.entries, x.Sound
  waiting : Waiting h

/-- `tcp_synsent` takes the acknowledgement of the segment. -/
structure Answers (sk : TcpSock) (seg : Seg) : Prop where
  state : sk.state = .synSent
  ok : synsentAckOk sk seg.th = true
  ack : seg.th.ack = true
  rst : seg.th.rst = false
  syn : seg.th.syn = true

/-- `tcp_synrecv_ack` is called for the segment and accepts the child. -/
structure Accepts (sk : TcpSock) (seg : Seg) : Prop where
  state : sk.state = .synReceived
  parent : sk.parent = some .listen
  filter : tcpPacketFilter sk seg.th (tcpInitSegment seg) = true
  syn : seg.th.syn = false
  ack : seg.th.ack = true
  una : sk.sndUna ≤ seg.th.ackSeq
  nxt : seg.th.ackSeq ≤ sk.sndNxt

/-- The code takes `ack_seq = isn` for the acknowledgement of the SYN. -/
def Early (h : Hand) (e : LifeEvent) : Prop :=
  ∃ seg, e = .sock (.segment seg) ∧ seg.th.ackSeq = h.sk.isn ∧
    (Answers h.sk seg ∧ h.answered = false ∨ Accepts h.sk seg)

variable {sk sk' : TcpSock} {seg : Seg} {e : LifeEvent} {h h' : Hand}

/-! ### Stages -/

theorem mem_entered {m a b : TcpSock} {l : List TcpSock} (hm : m ∈ entered (a :: b :: l)) :
    (a.state ≠ .established ∧ b.state = .established ∧ m = b) ∨ m ∈ entered (b :: l) := by
  unfold entered at hm
  split_ifs at hm with hab
  · rcases List.mem_cons.mp hm with rfl | hm
    · exact .inl ⟨hab.1, hab.2, rfl⟩
    · exact .inr hm
  · exact .inr hm

theorem mem_entered_cons {m a b : TcpSock} {l : List TcpSock} (hm : m ∈ entered (b :: l)) :
    m ∈ entered (a :: b :: l) := by
  unfold entered
  split_ifs
  · exact List.mem_cons_of_mem _ hm
  · exact hm

/-- A step that does not lead to `ESTABLISHED` enters nothing. -/
theorem entered_skip {m a b : TcpSock} {l : List TcpSock} (hab : b.state = .established →
    a.state = .established) (hm : m ∈ entered (a :: b :: l)) : m ∈ entered (b :: l) := by
  rcases mem_entered hm with ⟨ha, hb, -⟩ | hm
  · exact absurd (hab hb) ha
  · exact hm

theorem not_mem_entered {m a b : TcpSock} (hab : b.state = .established → a.state = .established) :
    m ∉ entered [a, b] := fun hm => by
  have := entered_skip hab hm
  simp [entered] at this

theorem stagesInWindow_cons (sk : TcpSock) (th : TcpHdr) (skb : Skb) :
    ∃ l, stagesInWindow sk th skb = sk :: l := by
  unfold stagesInWindow
  split_ifs
  · exact ⟨_, rfl⟩
  · exact ⟨_, rfl⟩
  · split <;> exact ⟨_, rfl⟩

/-- The last stage is what `tcp_process` leaves. -/
theorem stages_last (hrun : tcpProcess sk seg = .ok sk') : (stages sk seg).getLast? = some sk' := by
  unfold Input.tcpProcess at hrun
  unfold stages
  cases hs : sk.state <;> rw [hs] at hrun <;> simp only at hrun ⊢
  case close | listen | synSent => rw [← Except.ok.inj hrun]; rfl
  all_goals
    by_cases hf : tcpPacketFilter sk seg.th (tcpInitSegment seg) = true
    · rw [if_pos hf] at hrun ⊢
      unfold processInWindow at hrun
      simp only at hrun
      generalize (if seg.th.syn then synCheck sk else sk) = sk₁ at hrun ⊢
      unfold stagesInWindow
      split_ifs at hrun with ha hfr
      · rw [if_pos ha, ← Except.ok.inj hrun]; rfl
      · rw [if_neg ha, if_neg hfr]
        cases hack : ackCheck sk₁ seg.th with
        | error f =>
          rw [hack] at hrun
          simp at hrun
        | ok r =>
          obtain ⟨sk₂, b⟩ := r
          rw [hack] at hrun
          cases b <;> rw [← Except.ok.inj hrun] <;> rfl
    · rw [if_neg hf] at hrun ⊢
      rw [← Except.ok.inj hrun]
      rfl

theorem synCheck_state (sk : TcpSock) :
    (synCheck sk).state = .established → sk.state = .established := by
  rcases Buffers.synCheck_cases sk with ⟨-, heq⟩ | ⟨-, heq⟩ <;> rw [heq]
  · exact fun h => nomatch h
  · exact id

theorem finCheck_state (sk : TcpSock) (th : TcpHdr) (skb : Skb) :
    (finCheck sk th skb).state = .established → sk.state = .established := by
  rcases finCheck_cases sk th skb with heq | ⟨-, -, heq⟩ <;> rw [heq]
  · exact id
  · have hst : (afterFin sk).state = finState sk.state := congrArg Core.state (core_afterFin sk)
    rw [hst]
    cases sk.state <;> simp [finState]

/-- Behind the SYN check a sock comes to `ESTABLISHED` when the child is accepted. -/
theorem ackCheck_enters {b : Bool} (hrun : ackCheck sk seg.th = .ok (sk', b))
    (hne : sk.state ≠ .established) (hst : sk'.state = .established) :
    sk.state = .synReceived ∧ sk.parent = some .listen ∧ sk.sndUna ≤ seg.th.ackSeq ∧
      seg.th.ackSeq ≤ sk.sndNxt ∧ sk' = accept sk seg.th.ackSeq := by
  by_cases hsr : sk.state = .synReceived
  · unfold ackCheck at hrun
    rw [hsr] at hrun
    simp only at hrun
    split_ifs at hrun with hack
    · split at hrun
      · simp at hrun
      · rename_i hp
        exact ⟨hsr, hp, hack.1, hack.2, (Prod.mk.inj (Except.ok.inj hrun)).1.symm⟩
      · rw [← (Prod.mk.inj (Except.ok.inj hrun)).1] at hst
        exact absurd hst hne
    · rw [← (Prod.mk.inj (Except.ok.inj hrun)).1] at hst
      exact absurd hst hne
  · rcases Buffers.ackCheck_of_ne hsr hrun with ⟨-, rfl⟩ | ⟨-, rfl⟩
    · have hcore : (takeAck sk seg.th).state = sk.state :=
        congrArg Core.state (core_takeAck sk seg.th)
      exact absurd (hcore ▸ hst) hne
    · exact absurd hst hne

/-- Behind the SYN check the acknowledgement is the only step that enters. -/
theorem mem_entered_inWindow {m : TcpSock}
    (hm : m ∈ entered (stagesInWindow sk seg.th (tcpInitSegment seg))) :
    seg.th.ack = true ∧ sk.state = .synReceived ∧ sk.parent = some .listen ∧
      sk.sndUna ≤ seg.th.ackSeq ∧ seg.th.ackSeq ≤ sk.sndNxt ∧ m = accept sk seg.th.ackSeq := by
  have hone : m ∉ entered [sk] := by simp [entered]
  unfold stagesInWindow at hm
  split_ifs at hm with ha
  · exact absurd hm hone
  · exact absurd hm hone
  have ha : seg.th.ack = true := by simpa using ha
  split at hm
  · exact absurd hm hone
  · rename_i sk₂ hrun
    rcases mem_entered hm with ⟨hne, hst, rfl⟩ | hm
    · exact ⟨ha, ackCheck_enters hrun hne hst⟩
    · simp [entered] at hm
  · rename_i sk₂ hrun
    have htext : (segmentText sk₂ seg.th (tcpInitSegment seg)).state = sk₂.state :=
      congrArg Core.state (core_segmentText _ _ _)
    rcases mem_entered hm with ⟨hne, hst, rfl⟩ | hm
    · exact ⟨ha, ackCheck_enters hrun hne hst⟩
    · have hm := entered_skip (fun h => htext ▸ h) hm
      exact absurd hm (not_mem_entered (finCheck_state _ _ _))

/-- A SYN is not followed by an entry: it resets the sock, and a child is freed. -/
theorem synCheck_not_accepted (hst : (synCheck sk).state = .synReceived) :
    (synCheck sk).parent ≠ some .listen := by
  rcases Buffers.synCheck_cases sk with ⟨-, heq⟩ | ⟨hno, heq⟩ <;> rw [heq] at hst ⊢
  · exact nomatch hst
  · intro hp
    refine hno ⟨hst, ?_⟩
    rw [show sk.parent = some .listen from hp]
    exact Option.some_ne_none _

/-- **The two ways into `ESTABLISHED`.** -/
theorem mem_entered_stages {m : TcpSock} (hm : m ∈ entered (stages sk seg)) :
    sk.state = .synSent ∧ m = tcpSynsent sk seg.th ∧ m.state = .established ∨
      Accepts sk seg ∧ m = accept sk seg.th.ackSeq := by
  -- the states behind the window filter
  have hwin : m ∈ entered (if tcpPacketFilter sk seg.th (tcpInitSegment seg) then
        sk :: stagesInWindow (if seg.th.syn then synCheck sk else sk) seg.th (tcpInitSegment seg)
      else [sk, if seg.th.rst then sk else tcpSendAck sk]) →
      Accepts sk seg ∧ m = accept sk seg.th.ackSeq := by
    intro hm
    split_ifs at hm with hf hs hrst
    · obtain ⟨l, hl⟩ := stagesInWindow_cons (synCheck sk) seg.th (tcpInitSegment seg)
      rw [hl] at hm
      have hm := entered_skip (synCheck_state sk) hm
      rw [← hl] at hm
      obtain ⟨-, hst, hp, -⟩ := mem_entered_inWindow hm
      exact absurd hp (synCheck_not_accepted hst)
    · obtain ⟨l, hl⟩ := stagesInWindow_cons sk seg.th (tcpInitSegment seg)
      rw [hl] at hm
      have hm := entered_skip id hm
      rw [← hl] at hm
      obtain ⟨ha, hst, hp, hu, hn, heq⟩ := mem_entered_inWindow hm
      exact ⟨⟨hst, hp, hf, by simpa using hs, ha, hu, hn⟩, heq⟩
    · exact absurd hm (not_mem_entered id)
    · refine absurd hm (not_mem_entered ?_)
      rw [show (tcpSendAck sk).state = sk.state from congrArg Core.state (core_tcpSendAck sk)]
      exact id
  unfold stages at hm
  cases hs : sk.state <;> rw [hs] at hm <;> simp only at hm
  case close =>
    refine absurd hm (not_mem_entered ?_)
    unfold tcpClosed
    split_ifs
    · exact id
    · exact id
  case listen =>
    refine absurd hm (not_mem_entered ?_)
    rcases tcpHandleListen_cases sk seg 0 with heq | heq | ⟨-, heq, -⟩ <;> rw [heq] <;> exact id
  case synSent =>
    rcases mem_entered hm with ⟨-, hst, rfl⟩ | hm
    · exact .inl ⟨rfl, rfl, hst⟩
    · simp [entered] at hm
  all_goals exact .inr (hwin hm)

theorem accept_mem_entered (hacc : Accepts sk seg) :
    accept sk seg.th.ackSeq ∈ entered (stages sk seg) := by
  have hrun : ackCheck sk seg.th = .ok (accept sk seg.th.ackSeq, true) := by
    unfold ackCheck
    simp only [hacc.state, if_pos (And.intro hacc.una hacc.nxt), hacc.parent, accept, tcpSetState]
  unfold stages stagesInWindow
  simp only [hacc.state, hacc.filter, hacc.syn, hacc.ack, Bool.not_true, Bool.false_and,
    Bool.false_eq_true, if_false, if_true, hrun]
  refine mem_entered_cons ?_
  unfold entered
  rw [if_pos ⟨by rw [hacc.state]; exact TcpState.noConfusion, rfl⟩]
  exact List.mem_cons_self ..

/-! ### The answer to the SYN -/

/-- What a segment does to a sock in `SYN_SENT` that has only its SYN in flight. -/
inductive SynStep (sk : TcpSock) (seg : Seg) : TcpSock → Prop
  | ignored (h : ¬ Answers sk seg) : SynStep sk seg sk
  | both (hsyn : seg.th.syn = true) (hack : seg.th.ack = false) (out : List Seg) :
    SynStep sk seg { synAnswered sk seg.th with
      state := .synReceived, sndUna := sk.isn, out := out }
  | early (h : Answers sk seg) (hnum : seg.th.ackSeq = sk.isn) (timers : List Timer)
      (retransmit : Option ℕ) (out : List Seg) :
    SynStep sk seg { synAnswered sk seg.th with
      state := .synReceived, sndUna := sk.isn, writeQueue := [], timers := timers
      retransmit := retransmit, out := out }
  | answered (h : Answers sk seg) (hnum : seg.th.ackSeq = sk.isn + 1) (timers : List Timer)
      (retransmit : Option ℕ) (out : List Seg) :
    SynStep sk seg { synAnswered sk seg.th with
      state := .established, sndUna := sk.sndNxt, writeQueue := [], timers := timers
      retransmit := retransmit, out := out, sleeping := false }

/-- The number that `tcp_synsent` lets pass. -/
theorem ackSeq_of_synsentAckOk (hn : sk.sndNxt = sk.isn + 1)
    (hok : synsentAckOk sk seg.th = true) : sk.isn ≤ seg.th.ackSeq ∧
      (seg.th.ackSeq = sk.isn ∨ seg.th.ackSeq = sk.isn + 1 ∧ seg.th.ackSeq > sk.isn) := by
  unfold synsentAckOk at hok
  simp only [hn, Bool.and_eq_true, Bool.not_eq_true', Bool.or_eq_false_iff,
    decide_eq_false_iff_not, gt_iff_lt] at hok
  obtain ⟨⟨hge, hle⟩, -⟩ := hok
  have hisn := sk.isn.toNat_lt
  have hack := seg.th.ackSeq.toNat_lt
  have hone : (1 : UInt32).toNat = 1 := rfl
  simp only [gt_iff_lt, Word32.lt_iff, Word32.le_iff, Word32.eq_iff_toNat, Word32.toNat_add, hone]
    at hge hle ⊢
  omega

theorem synStep_tcpSynsent (hst : sk.state = .synSent) (hu : sk.sndUna = sk.isn)
    (hn : sk.sndNxt = sk.isn + 1) (hq : ∀ skb ∈ sk.writeQueue, skb.endSeq = sk.isn) :
    SynStep sk seg (tcpSynsent sk seg.th) := by
  have hlt : ¬ sk.sndUna > sk.isn := by
    rw [hu]
    exact UInt32.lt_irrefl _
  unfold tcpSynsent
  by_cases hack : (seg.th.ack && !synsentAckOk sk seg.th) = true
  · rw [if_pos hack]
    exact .ignored fun h => by simp [h.ok] at hack
  rw [if_neg hack]
  by_cases hrst : seg.th.rst = true
  · rw [if_pos hrst]
    exact .ignored fun h => by simp [h.rst] at hrst
  rw [if_neg hrst]
  by_cases hsyn : (!seg.th.syn) = true
  · rw [if_pos hsyn]
    exact .ignored fun h => by simp [h.syn] at hsyn
  rw [if_neg hsyn]
  have hsyn : seg.th.syn = true := by simpa using hsyn
  cases ha : seg.th.ack
  · simp only [Bool.false_eq_true, if_false, if_neg hlt]
    rw [tcpSendSynack_eq rfl]
    exact .both hsyn ha _
  · have hok : synsentAckOk sk seg.th = true := by simpa [ha] using hack
    have hans : Answers sk seg := ⟨hst, hok, ha, Bool.eq_false_iff.mpr hrst, hsyn⟩
    obtain ⟨hge, hnum⟩ := ackSeq_of_synsentAckOk hn hok
    obtain ⟨timers, retransmit, heq⟩ := tcpCleanRetransmissionQueue_eq
      { sk with rcvNxt := seg.th.seq + 1, irs := seg.th.seq, sndUna := seg.th.ackSeq } seg.th.ackSeq
    -- the recorded end of the SYN is `isn`
    have hpop : sk.writeQueue.dropWhile (fun skb => skb.endSeq ≤ seg.th.ackSeq) = [] := by
      rw [List.dropWhile_eq_nil_iff]
      intro skb hskb
      rw [hq skb hskb]
      simpa using hge
    simp only [if_true, heq, hpop]
    rcases hnum with hnum | ⟨hnum, hgt⟩
    · rw [if_neg (by rw [hnum]; exact UInt32.lt_irrefl _), tcpSendSynack_eq rfl]
      exact .early hans hnum _ _ _
    · rw [if_pos hgt, tcpSendAck_eq]
      exact .answered hans hnum _ _ _

/-! ### A segment in `SYN_RECEIVED` -/

/-- At most something is sent, and with a reset `snd_una` is set to `snd_nxt`. -/
inductive Resent (sk : TcpSock) : TcpSock → Prop
  | intro (una : UInt32) (out : List Seg) (h : una = sk.sndUna ∨ una = sk.sndNxt) :
    Resent sk { sk with sndUna := una, out := out }

theorem Resent.refl (sk : TcpSock) : Resent sk sk := .intro sk.sndUna sk.out (.inl rfl)

theorem resent_tcpSendAck (sk : TcpSock) : Resent sk (tcpSendAck sk) := by
  rw [tcpSendAck_eq]
  exact .intro sk.sndUna _ (.inl rfl)

theorem Resent.reset (h : Resent sk sk') : Resent sk (tcpSendReset sk') := by
  cases h with
  | intro una out h => exact .intro sk.sndNxt _ (.inr rfl)

theorem tcpProcess_of_synReceived (hst : sk.state = .synReceived)
    (hrun : tcpProcess sk seg = .ok sk') : sk'.freed = true ∨ Resent sk sk' ∨
      Accepts sk seg ∧ sk' = finCheck (segmentText (accept sk seg.th.ackSeq) seg.th
        (tcpInitSegment seg)) seg.th (tcpInitSegment seg) := by
  rw [tcpProcess_filter (by simp [hst]) (by simp [hst]) (by simp [hst])] at hrun
  by_cases hf : tcpPacketFilter sk seg.th (tcpInitSegment seg) = true
  · rw [if_pos hf] at hrun
    unfold processInWindow at hrun
    simp only at hrun
    -- the sock behind the SYN check, where a `SYN_RECEIVED` sock was reset or freed
    have hsyn : (if seg.th.syn then synCheck sk else sk).freed = true ∧ seg.th.syn = true ∨
        Resent sk (if seg.th.syn then synCheck sk else sk) := by
      split_ifs with hs
      · rcases Buffers.synCheck_cases sk with ⟨-, heq⟩ | ⟨-, heq⟩ <;> rw [heq]
        · exact .inl ⟨rfl, hs⟩
        · exact .inr (Resent.refl sk).reset
      · exact .inr (.refl sk)
    generalize hsk₁ : (if seg.th.syn then synCheck sk else sk) = sk₁ at hrun hsyn
    split_ifs at hrun with ha hfr
    · rw [← Except.ok.inj hrun]
      exact hsyn.imp And.left Or.inl
    have ha : seg.th.ack = true := by simpa using ha
    obtain ⟨hfreed, hs⟩ | hres := hsyn
    · exact absurd (by rw [hs, hfreed]; rfl) hfr
    have hst₁ : sk₁.state = .synReceived := by
      cases hres with
      | intro una out h => exact hst
    split at hrun
    · simp at hrun
    · rename_i sk₂ hack
      obtain rfl := Except.ok.inj hrun
      unfold ackCheck at hack
      rw [hst₁] at hack
      simp only at hack
      split_ifs at hack
      · split at hack
        · simp at hack
        · simp at hack
        · obtain ⟨rfl, -⟩ := Prod.mk.inj (Except.ok.inj hack)
          exact .inr (.inl hres)
      · obtain ⟨rfl, -⟩ := Prod.mk.inj (Except.ok.inj hack)
        exact .inr (.inl hres.reset)
    · rename_i sk₂ hack
      have hne : sk₁.state ≠ .established := by
        rw [hst₁]
        exact TcpState.noConfusion
      have hest : sk₂.state = .established := by
        rcases Buffers.ackCheck_synReceived hst₁ hack with rfl | rfl | rfl
        · exact absurd (show (tcpSendReset sk₁).state = .synReceived from hst₁)
            (state_ackCheck hack)
        · exact absurd hst₁ (state_ackCheck hack)
        · rfl
      obtain ⟨-, hp, hu, hnx, rfl⟩ := ackCheck_enters hack hne hest
      have hs : seg.th.syn = false := by
        by_contra hs
        rw [Bool.not_eq_false] at hs
        rw [if_pos hs] at hsk₁
        rw [← hsk₁] at hst₁ hp
        exact synCheck_not_accepted hst₁ hp
      rw [if_neg (by rw [hs]; exact Bool.false_ne_true)] at hsk₁
      obtain rfl := hsk₁
      exact .inr (.inr ⟨⟨hst, hp, hf, hs, ha, hu, hnx⟩, (Except.ok.inj hrun).symm⟩)
  · rw [if_neg hf] at hrun
    rw [← Except.ok.inj hrun]
    split_ifs
    · exact .inr (.inl (.refl sk))
    · exact .inr (.inl (resent_tcpSendAck sk))

/-! ### Where a sock stands -/

/-- Where a sock stands in its handshake. The SYN of an opener is on the queue until it is answered;
a child has nothing on the queue; all others are through. -/
inductive Standing (syns : List UInt32) (answered : Bool) (sk : TcpSock) : Prop
  | idle (hst : sk.state = .close ∨ sk.state = .listen)
  | opener (hp : sk.parent = none)
      (hst : (sk.state = .synSent ∨ sk.state = .synReceived) ∧ sk.sndNxt = sk.isn + 1 ∨
        sk.state = .finWait1 ∨ sk.state = .closing)
      (hle : sk.sndUna - sk.isn ≤ sk.sndNxt - sk.isn)
      (hq : answered = false → ∃ skb ∈ sk.writeQueue, skb.th.syn = true)
  | child (hst : sk.state = .synReceived) (hp : sk.parent ≠ none) (hq : sk.writeQueue = [])
      (hn : sk.sndNxt = sk.isn + 1) (hle : sk.sndUna - sk.isn ≤ sk.sndNxt - sk.isn)
      (hr : sk.rcvNxt = sk.irs + 1) (hi : sk.irs ∈ syns)
  | through (hst : Live sk.state) (hans : sk.parent = none → answered = true)

variable {syns : List UInt32} {answered : Bool}

/-- The invariant of a handshake. -/
structure Inv (h : Hand) : Prop where
  armed : Armed h.sk
  standing : Standing h.syns h.answered h.sk

theorem Standing.waiting (hs : Standing h.syns h.answered h.sk) : Waiting h := by
  intro hp hbegun _ hans
  cases hs with
  | idle hst => exact absurd hst (not_or.mpr hbegun)
  | opener _ _ _ hq => exact hq hans
  | child _ hp' => exact absurd hp hp'
  | through _ hans' =>
    rw [hans' hp] at hans
    exact absurd hans (by simp)

/-- An opened connection of an opener has an answer. -/
theorem Standing.answer (hs : Standing syns answered sk)
    (hst : sk.state = .established ∨ sk.state = .closeWait ∨ sk.state = .lastAck) :
    sk.parent = none → answered = true := by
  cases hs with
  | through _ hans => exact hans
  | idle hst' => rcases hst with h | h | h <;> rw [h] at hst' <;> simp at hst'
  | opener _ hst' => rcases hst with h | h | h <;> rw [h] at hst' <;> simp at hst'
  | child hst' => rcases hst with h | h | h <;> rw [h] at hst' <;> simp at hst'

theorem Standing.congr (hs : Standing syns answered sk) (hst : sk'.state = sk.state)
    (hp : sk'.parent = none ↔ sk.parent = none) (hsend : sendSide sk' = sendSide sk)
    (hr : sk'.rcvNxt = sk.rcvNxt) (hi : sk'.irs = sk.irs) : Standing syns answered sk' := by
  have hu : sk'.sndUna = sk.sndUna := congrArg SendSide.sndUna hsend
  have hn : sk'.sndNxt = sk.sndNxt := congrArg SendSide.sndNxt hsend
  have hisn : sk'.isn = sk.isn := congrArg SendSide.isn hsend
  have hq : sk'.writeQueue = sk.writeQueue := congrArg SendSide.writeQueue hsend
  cases hs with
  | idle h => exact .idle (by rwa [hst])
  | opener hpar h hle hsyn =>
    exact .opener (hp.mpr hpar) (by rwa [hst, hn, hisn]) (by rwa [hu, hn, hisn]) (by rwa [hq])
  | child h hpar hnil hnum hle hrcv hirs =>
    exact .child (hst.trans h) (mt hp.mp hpar) (hq.trans hnil) (by rw [hn, hisn, hnum])
      (by rwa [hu, hn, hisn]) (by rw [hr, hi, hrcv]) (hi ▸ hirs)
  | through h hans => exact .through (hst ▸ h) fun hpar => hans (hp.mp hpar)

/-- Later segments only add to the record. -/
theorem Standing.mono (hs : Standing syns answered sk) {syns' : List UInt32} {answered' : Bool}
    (hsyns : ∀ i ∈ syns, i ∈ syns') (hans : answered = true → answered' = true) :
    Standing syns' answered' sk := by
  cases hs with
  | idle h => exact .idle h
  | opener hpar h hle hq =>
    refine .opener hpar h hle fun hno => hq ?_
    by_contra hyes
    rw [hans (by simpa using hyes)] at hno
    exact absurd hno (by simp)
  | child h hpar hnil hnum hle hrcv hirs => exact .child h hpar hnil hnum hle hrcv (hsyns _ hirs)
  | through h hans' => exact .through h fun hpar => hans (hans' hpar)

/-! ### Calls and timers -/

/-- `tcp_v4_connect` queues a SYN. -/
theorem tcpV4Connect_eq (hst : sk.state = .close) (saddr daddr : UInt32) (sport dport : UInt16)
    (isn : UInt32) : ∃ skb timers retransmit out, skb.th.syn = true ∧
      tcpV4Connect sk saddr daddr sport dport isn = { sk with
        saddr := saddr, daddr := daddr, sport := sport, dport := dport
        link := some .connectingOrListening, isn := isn, sndUna := isn, sndNxt := isn + 0 + 1
        rcvNxt := 0, rcvWnd := 44477, state := .synSent, writeQueue := sk.writeQueue ++ [skb]
        timers := timers, retransmit := retransmit, out := out } := by
  obtain ⟨timers, retransmit, heq⟩ := tcpQueueTransmitSkb_eq { sk with
      saddr := saddr, daddr := daddr, sport := sport, dport := dport
      link := some .connectingOrListening, isn := isn, sndUna := isn, sndNxt := isn, rcvNxt := 0
      rcvWnd := 44477, state := .synSent } { tcpAllocSkb 0 with th := tcpSynHeader sk }
  have hsent := congrArg (fun s : TcpSock => { s with sndNxt := s.sndNxt + 1 }) heq
  unfold tcpV4Connect tcpBeginConnect tcpSendSyn
  rw [if_pos (.inr (.inl hst))]
  exact ⟨_, timers, retransmit, _, rfl, hsent⟩

theorem standing_connect (harm : Armed sk) (hst : sk.state = .close) (saddr daddr : UInt32)
    (sport dport : UInt16) (isn : UInt32) :
    Standing [] false (tcpV4Connect sk saddr daddr sport dport isn) := by
  obtain ⟨skb, timers, retransmit, out, hsyn, heq⟩ :=
    tcpV4Connect_eq hst saddr daddr sport dport isn
  rw [heq]
  refine .opener (harm.orphan (.inl hst)) (.inl ⟨.inl rfl, ?_⟩) ?_ fun _ =>
    ⟨skb, List.mem_append_right _ (List.mem_singleton_self _), hsyn⟩
  · show isn + 0 + 1 = isn + 1
    rw [UInt32.add_zero]
  · show isn - isn ≤ isn + 0 + 1 - isn
    rw [UInt32.sub_self, Word32.le_iff]
    exact Nat.zero_le _

theorem Standing.write (hs : Standing syns answered sk) (harm : Armed sk) (buf : List UInt8) :
    Standing syns answered (tcpWrite sk buf).1 := by
  by_cases hopen : sk.state = .established ∨ sk.state = .closeWait
  · have hcore := core_tcpWrite harm.mss buf
    have hst : (tcpWrite sk buf).1.state = sk.state := congrArg Core.state hcore
    have hp : (tcpWrite sk buf).1.parent = sk.parent := congrArg Core.parent hcore
    refine .through ?_ fun hpar => hs.answer (hopen.imp_right .inl) (hp ▸ hpar)
    rw [hst]
    rcases hopen with h | h <;> rw [h] <;> trivial
  · rw [not_or] at hopen
    rwa [tcpWrite_not_open hopen.1 hopen.2]

theorem Standing.close (hs : Standing syns answered sk) :
    (tcpClose sk).1.freed = true ∨ Standing syns answered (tcpClose sk).1 := by
  cases hst : sk.state
  case close =>
    rw [tcpClose_close hst]
    exact .inr (.idle (.inl hst))
  case listen =>
    left
    unfold tcpClose
    rw [hst]
    rfl
  case finWait1 | finWait2 | closing | lastAck | timeWait =>
    rw [tcpClose_closing (by rw [hst]; simp)]
    exact .inr (hs.congr rfl Iff.rfl rfl rfl rfl)
  case closeWait =>
    rw [tcpClose_closeWait hst]
    have hp : (tcpSetState (tcpQueueFin sk) .lastAck).parent = sk.parent :=
      congrArg Core.parent (queuesFin_tcpQueueFin sk .lastAck).core
    exact .inr (.through trivial fun h => hs.answer (.inr (.inl hst)) (hp ▸ h))
  case established =>
    rw [tcpClose_open (.inl hst)]
    have hp : (tcpSetState (tcpQueueFin sk) .finWait1).parent = sk.parent :=
      congrArg Core.parent (queuesFin_tcpQueueFin sk .finWait1).core
    exact .inr (.through trivial fun h => hs.answer (.inl hst) (hp ▸ h))
  case synSent | synReceived =>
    rw [tcpClose_open (by rw [hst]; simp)]
    have hfin := queuesFin_tcpQueueFin sk .finWait1
    have hp : (tcpSetState (tcpQueueFin sk) .finWait1).parent = sk.parent :=
      congrArg Core.parent hfin.core
    cases hs with
    | idle h => rw [hst] at h; simp at h
    | through h => rw [hst] at h; exact h.elim
    | child _ hpar => exact .inr (.through trivial fun h => absurd (hp ▸ h) hpar)
    | opener hpar h hle hq =>
      have hn : sk.sndNxt = sk.isn + 1 := by
        rw [hst] at h
        simpa using h
      refine .inr (.opener (hp.trans hpar) (.inr (.inl rfl)) ?_ fun hno => ?_)
      · have h₁ : sk.isn + 1 - sk.isn = 1 := by grind
        have h₂ : sk.isn + 1 + 1 - sk.isn = 2 := by grind
        rw [hn, h₁, Word32.le_iff] at hle
        rw [hfin.una, hfin.nxt, hfin.isn, hn, h₂, Word32.le_iff]
        exact hle.trans (by decide)
      · -- the FIN is queued behind the SYN
        obtain ⟨syn, hmem, hsyn⟩ := hq hno
        obtain ⟨fin, -, hqueue⟩ := hfin.queue
        exact ⟨syn, by rw [hqueue]; exact List.mem_append_left _ hmem, hsyn⟩

theorem refinState_of_handshake {s : TcpState}
    (h : s = .synSent ∨ s = .synReceived ∨ s = .finWait1 ∨ s = .closing) : refinState s = s := by
  rcases h with rfl | rfl | rfl | rfl <;> rfl

/-- A SYN that is sent again stays on the queue. -/
theorem Standing.expires (hs : Standing syns answered sk) (h : Expires sk sk') :
    sk'.freed = true ∨ Standing syns answered sk' := by
  cases h with
  | quiet => exact .inr (hs.congr rfl Iff.rfl rfl rfl rfl)
  | free => exact .inl rfl
  | resend skb q hq timers retransmit backoff out st hst =>
    right
    have hst' : st = sk.state ∨ st = refinState sk.state := hst.imp_right And.right
    cases hs with
    | idle h =>
      refine .idle ?_
      show st = .close ∨ st = .listen
      rcases hst' with rfl | rfl
      · exact h
      · rcases h with h | h <;> rw [h] <;> simp [refinState]
    | child _ _ hnil => rw [hq] at hnil; simp at hnil
    | through hl hans =>
      refine .through ?_ hans
      show Live st
      rcases hst' with rfl | rfl
      · exact hl
      · exact live_refinState hl
    | opener hp h hle hsyn =>
      have hsame : st = sk.state := by
        rcases hst' with rfl | rfl
        · rfl
        · refine refinState_of_handshake ?_
          rcases h with ⟨h | h, -⟩ | h | h <;> rw [h] <;> simp
      rw [hsame]
      refine .opener hp h hle fun hno => ?_
      obtain ⟨syn, hmem, hsyn⟩ := hsyn hno
      rw [hq] at hmem
      rcases List.mem_cons.mp hmem with rfl | hmem
      · exact ⟨_, List.mem_cons_self .., hsyn⟩
      · exact ⟨syn, List.mem_cons_of_mem _ hmem, hsyn⟩

/-! ### Segments -/

theorem mem_synsAfter {i : UInt32} (hi : i ∈ syns) : i ∈ synsAfter syns seg := by
  unfold synsAfter
  split_ifs
  · exact List.mem_append_left _ hi
  · exact hi

theorem Standing.later (hs : Standing syns answered sk) {b : Bool} :
    Standing (synsAfter syns seg) (answered || b) sk :=
  hs.mono (fun _ => mem_synsAfter) fun h => by rw [h, Bool.true_or]

theorem acksSyn_next (hack : seg.th.ack = true) (hnum : seg.th.ackSeq = sk.isn + 1)
    (hn : sk.sndNxt = sk.isn + 1) : acksSyn sk seg = true := by
  have hne : seg.th.ackSeq ≠ sk.isn := by
    rw [hnum]
    grind
  unfold acksSyn
  rw [hack, hn, hnum] at *
  simp [hne]

/-- What the code takes for an acknowledgement in an open connection acknowledges the SYN, if that
was not acknowledged before. -/
theorem acksSyn_of_taken (hack : seg.th.ack = true) (hle : sk.sndUna - sk.isn ≤ sk.sndNxt - sk.isn)
    (hu : sk.sndUna < seg.th.ackSeq) (hn : seg.th.ackSeq ≤ sk.sndNxt) : acksSyn sk seg = true := by
  obtain ⟨hge, hle'⟩ := Circle.offset_between hle (UInt32.le_of_lt hu) hn
  have hne : seg.th.ackSeq ≠ sk.isn := by
    intro heq
    rw [heq, UInt32.sub_self] at hge
    have hzero : sk.sndUna = sk.isn := by
      have h₀ : sk.sndUna - sk.isn = 0 := UInt32.le_zero_iff.mp hge
      grind
    rw [heq, hzero] at hu
    exact UInt32.lt_irrefl _ hu
  unfold acksSyn
  rw [hack]
  simp [hne, hle']

/-- A segment whose acknowledgement is not taken leaves the send side, apart from a reset. -/
theorem sendSide_processed (hno : ¬ (seg.th.ack = true ∧ sk.sndUna < seg.th.ackSeq ∧
    seg.th.ackSeq ≤ sk.sndNxt)) : sendSide (processed sk seg) = sendSide sk ∨
      sendSide (processed sk seg) = { sendSide sk with sndUna := sk.sndNxt } := by
  have hsyn : sendSide (afterSyn sk seg.th) = sendSide sk ∨
      sendSide (afterSyn sk seg.th) = { sendSide sk with sndUna := sk.sndNxt } := by
    unfold afterSyn
    split_ifs
    · exact .inr rfl
    · exact .inl rfl
  unfold processed
  by_cases hf : tcpPacketFilter sk seg.th (tcpInitSegment seg) = true
  · rw [if_pos hf]
    by_cases hack : seg.th.ack = true
    · have htake : takeAck (afterSyn sk seg.th) seg.th = afterSyn sk seg.th := by
        refine takeAck_of_not_taken fun h => hno ⟨hack, ?_⟩
        unfold afterSyn at h
        split_ifs at h
        · exact absurd (UInt32.lt_of_lt_of_le h.1 h.2) (UInt32.lt_irrefl _)
        · exact h
      rw [if_pos hack, htake]
      split_ifs
      · rw [sendSide_textFin]
        exact hsyn
      · exact hsyn
    · rwa [if_neg hack]
  · rw [if_neg hf]
    split_ifs
    · exact .inl rfl
    · exact .inl (sendSide_tcpSendAck sk)

/-- The handshake of an opener that was closed early. -/
theorem standing_processed (hp : sk.parent = none)
    (hst : sk.state = .finWait1 ∨ sk.state = .closing)
    (hle : sk.sndUna - sk.isn ≤ sk.sndNxt - sk.isn)
    (hq : answered = false → ∃ skb ∈ sk.writeQueue, skb.th.syn = true) :
    Standing (synsAfter syns seg) (answered || acksSyn sk seg) (processed sk seg) := by
  have hlive : Live sk.state := by
    rcases hst with h | h <;> rw [h] <;> trivial
  obtain ⟨hcore, hlive'⟩ := core_processed hlive seg
  by_cases htake : seg.th.ack = true ∧ sk.sndUna < seg.th.ackSeq ∧ seg.th.ackSeq ≤ sk.sndNxt
  · refine .through hlive' fun _ => ?_
    rw [acksSyn_of_taken htake.1 hle htake.2.1 htake.2.2, Bool.or_true]
  have hpar : (processed sk seg).parent = none := (congrArg Core.parent hcore).trans hp
  have hst' : (processed sk seg).state = .finWait1 ∨ (processed sk seg).state = .closing := by
    rcases (state_processed sk seg).2 with h | h <;> rw [h]
    · exact hst
    · rcases hst with h | h <;> rw [h] <;> simp [finState]
  have hwait : ∀ q, q = sk.writeQueue → (answered || acksSyn sk seg) = false →
      ∃ skb ∈ q, skb.th.syn = true := by
    rintro q rfl hno
    exact hq (Bool.or_eq_false_iff.mp hno).1
  rcases sendSide_processed htake with h | h
  · have hu : (processed sk seg).sndUna = sk.sndUna := congrArg SendSide.sndUna h
    have hn : (processed sk seg).sndNxt = sk.sndNxt := congrArg SendSide.sndNxt h
    have hi : (processed sk seg).isn = sk.isn := congrArg SendSide.isn h
    exact .opener hpar (.inr hst') (by rwa [hu, hn, hi])
      (hwait _ (congrArg SendSide.writeQueue h))
  · have hu : (processed sk seg).sndUna = sk.sndNxt := congrArg SendSide.sndUna h
    have hn : (processed sk seg).sndNxt = sk.sndNxt := congrArg SendSide.sndNxt h
    exact .opener hpar (.inr hst') (by rw [hu, hn]; exact UInt32.le_refl _)
      (hwait _ (congrArg SendSide.writeQueue h))

/-- An answer to the SYN. -/
theorem Standing.synSent (hstep : SynStep sk seg sk') (hst : sk.state = .synSent)
    (hp : sk.parent = none) (hn : sk.sndNxt = sk.isn + 1)
    (hs : Standing syns answered sk) (hlate : seg.th.ackSeq = sk.isn → Answers sk seg →
      answered = true) :
    Standing (synsAfter syns seg) (answered || acksSyn sk seg) sk' := by
  have hle : sk.isn - sk.isn ≤ sk.sndNxt - sk.isn := by
    rw [UInt32.sub_self, Word32.le_iff]
    exact Nat.zero_le _
  have hq : answered = false → ∃ skb ∈ sk.writeQueue, skb.th.syn = true := by
    cases hs with
    | opener _ _ _ hq => exact hq
    | idle h => rw [hst] at h; simp at h
    | child h => rw [hst] at h; simp at h
    | through h => rw [hst] at h; exact h.elim
  cases hstep with
  | ignored => exact hs.later
  | both hsyn hack out =>
    exact .opener hp (.inl ⟨.inr rfl, hn⟩) hle fun hno => hq (Bool.or_eq_false_iff.mp hno).1
  | early hans hnum timers retransmit out =>
    refine .opener hp (.inl ⟨.inr rfl, hn⟩) hle fun hno => ?_
    rw [hlate hnum hans, Bool.true_or] at hno
    exact absurd hno (by simp)
  | answered hans hnum timers retransmit out =>
    exact .through trivial fun _ => by rw [acksSyn_next hans.ack hnum hn, Bool.or_true]

theorem Standing.synReceived (hs : Standing syns answered sk) (hst : sk.state = .synReceived)
    (hrun : Input.tcpProcess sk seg = .ok sk') :
    sk'.freed = true ∨ Standing (synsAfter syns seg) (answered || acksSyn sk seg) sk' := by
  rcases tcpProcess_of_synReceived hst hrun with hf | hres | ⟨hacc, rfl⟩
  · exact .inl hf
  · right
    cases hres with
    | intro una out hu =>
      have hup : sk.sndUna - sk.isn ≤ sk.sndNxt - sk.isn → una - sk.isn ≤ sk.sndNxt - sk.isn := by
        intro hle
        rcases hu with rfl | rfl
        · exact hle
        · exact UInt32.le_refl _
      cases hs with
      | idle h => rw [hst] at h; simp at h
      | through h => rw [hst] at h; exact h.elim
      | child _ hp hq hn hle hr hi => exact .child hst hp hq hn (hup hle) hr (mem_synsAfter hi)
      | opener hp h hle hq =>
        exact .opener hp h (hup hle) fun hno => hq (Bool.or_eq_false_iff.mp hno).1
  · right
    obtain ⟨hcore, hlive⟩ := @core_textFin (accept sk seg.th.ackSeq) trivial seg.th
      (tcpInitSegment seg)
    refine .through hlive fun hp => ?_
    have hpar : sk.parent = none := (congrArg Core.parent hcore).symm.trans hp
    rw [hacc.parent] at hpar
    exact absurd hpar (Option.some_ne_none _)

/-- A sock in `SYN_SENT` has only its SYN in flight. -/
theorem Standing.inFlight (hs : Standing syns answered sk) (hst : sk.state = .synSent) :
    sk.parent = none ∧ sk.sndNxt = sk.isn + 1 := by
  cases hs with
  | opener hp h =>
    rw [hst] at h
    exact ⟨hp, by simpa using h⟩
  | idle h => rw [hst] at h; simp at h
  | child h => rw [hst] at h; simp at h
  | through h => rw [hst] at h; exact h.elim

theorem Standing.synStep (hs : Standing syns answered sk) (harm : Armed sk)
    (hst : sk.state = .synSent) : SynStep sk seg (tcpSynsent sk seg.th) := by
  obtain ⟨hu, hq⟩ := harm.synSent hst
  exact synStep_tcpSynsent hst hu (hs.inFlight hst).2 fun skb hskb => (hq skb hskb).2

/-- **A segment in the handshake.** -/
theorem Standing.tcpProcess (hs : Standing syns answered sk) (harm : Armed sk)
    (hf : sk.freed = false) (hrun : Input.tcpProcess sk seg = .ok sk')
    (hlate : seg.th.ackSeq = sk.isn → Answers sk seg → answered = true) :
    sk'.freed = true ∨ Standing (synsAfter syns seg) (answered || acksSyn sk seg) sk' := by
  have hlive : Live sk.state → Standing (synsAfter syns seg) (answered || acksSyn sk seg) sk' := by
    intro hl
    rw [tcpProcess_eq hl.synchronized hf] at hrun
    obtain rfl := Except.ok.inj hrun
    obtain ⟨hcore, hl'⟩ := core_processed hl seg
    have hp : (processed sk seg).parent = sk.parent := congrArg Core.parent hcore
    cases hs with
    | idle h => rcases h with h | h <;> rw [h] at hl <;> exact hl.elim
    | child h => rw [h] at hl; exact hl.elim
    | through _ hans => exact .through hl' fun hpar => by rw [hans (hp ▸ hpar), Bool.true_or]
    | opener hpar h hle hq =>
      refine standing_processed hpar ?_ hle hq
      rcases h with ⟨h | h, -⟩ | h
      · rw [h] at hl; exact hl.elim
      · rw [h] at hl; exact hl.elim
      · exact h
  cases hst : sk.state
  case established | finWait1 | closeWait | closing | lastAck =>
    exact .inr (hlive (by rw [hst]; trivial))
  case finWait2 => exact absurd hst harm.state.1
  case timeWait => exact absurd hst harm.state.2
  case synReceived => exact hs.synReceived hst hrun
  case synSent =>
    right
    have hstep : SynStep sk seg (tcpSynsent sk seg.th) := hs.synStep harm hst
    rw [tcpProcess_synSent hst] at hrun
    obtain rfl := Except.ok.inj hrun
    obtain ⟨hp, hn⟩ := hs.inFlight hst
    exact hs.synSent hstep hst hp hn hlate
  case close =>
    right
    unfold Input.tcpProcess at hrun
    rw [hst] at hrun
    obtain rfl := Except.ok.inj hrun
    refine .idle (.inl ?_)
    unfold tcpClosed
    split_ifs
    · exact hst
    · exact hst
  case listen =>
    right
    unfold Input.tcpProcess at hrun
    rw [hst] at hrun
    obtain rfl := Except.ok.inj hrun
    refine .idle (.inr ?_)
    rcases tcpHandleListen_cases sk seg 0 with heq | heq | ⟨-, heq, -⟩ <;> rw [heq] <;> exact hst

/-- **Every entry is sound** that is not made too early. -/
theorem Standing.entries (hs : Standing syns answered sk) (harm : Armed sk)
    (hlate : Accepts sk seg → seg.th.ackSeq ≠ sk.isn) {m : TcpSock}
    (hm : m ∈ entered (stages sk seg)) :
    (Entry.mk (some seg) m (synsAfter syns seg)).Sound := by
  rcases mem_entered_stages hm with ⟨hst, rfl, hest⟩ | ⟨hacc, rfl⟩
  · have hn := (hs.inFlight hst).2
    have hstep : SynStep sk seg (tcpSynsent sk seg.th) := hs.synStep harm hst
    generalize tcpSynsent sk seg.th = m at hstep hest
    cases hstep with
    | ignored => rw [hst] at hest; exact absurd hest TcpState.noConfusion
    | both => exact absurd hest TcpState.noConfusion
    | early => exact absurd hest TcpState.noConfusion
    | answered hans hnum timers retransmit out =>
      refine ⟨⟨seg, rfl, hans.ack, hnum⟩, rfl, ?_, hn, hn, by simp⟩
      show seg.th.seq ∈ synsAfter syns seg
      unfold synsAfter
      rw [if_pos hans.syn]
      exact List.mem_append_right _ (List.mem_singleton_self _)
  · cases hs with
    | idle h => rw [hacc.state] at h; simp at h
    | through h => rw [hacc.state] at h; exact h.elim
    | opener hp => rw [hacc.parent] at hp; simp at hp
    | child _ _ hq hn hle hr hi =>
      -- between `isn` and `isn + 1` there is nothing else
      have hnum : seg.th.ackSeq = sk.isn + 1 := by
        have hone := (Circle.offset_between hle hacc.una hacc.nxt).2
        rw [hn, show sk.isn + 1 - sk.isn = 1 by grind, Word32.le_iff] at hone
        have hpos : (seg.th.ackSeq - sk.isn).toNat ≠ 0 := fun h₀ => hlate hacc <| by
          have h₀ : seg.th.ackSeq - sk.isn = 0 := Word32.eq_iff_toNat.mpr h₀
          grind
        have h₁ : seg.th.ackSeq - sk.isn = 1 := by
          rw [Word32.eq_iff_toNat]
          have h₁ : (1 : UInt32).toNat = 1 := rfl
          omega
        grind
      exact ⟨⟨seg, rfl, hacc.ack, hnum⟩, hr, mem_synsAfter hi, hnum, hn, by
        rw [show (accept sk seg.th.ackSeq).writeQueue = [] from hq]
        simp⟩

/-! ### One event -/

theorem sockStep_of_lifeStep {se : SockEvent} (hstep : lifeStep sk (.sock se) = some sk') :
    sockStep sk se = some sk' := by
  obtain ⟨hf, -⟩ := lifeStep_some hstep
  unfold lifeStep at hstep
  rwa [if_neg (by rw [hf]; exact Bool.false_ne_true)] at hstep

/-- No call, no timer and no other sock takes a sock to `ESTABLISHED`. -/
theorem state_of_call (hmss : 0 < sk.smss) (hcall : ∀ seg, e ≠ .sock (.segment seg))
    (hstep : lifeStep sk e = some sk') (hst : sk'.state = .established) :
    sk.state = .established := by
  obtain ⟨hf, -⟩ := lifeStep_some hstep
  unfold lifeStep at hstep
  rw [if_neg (by rw [hf]; exact Bool.false_ne_true)] at hstep
  cases e with
  | connect saddr daddr sport dport isn =>
    simp only at hstep
    split_ifs at hstep with hclose
    rw [← Option.some.inj hstep] at hst
    obtain ⟨skb, timers, retransmit, out, -, heq⟩ :=
      tcpV4Connect_eq hclose saddr daddr sport dport isn
    rw [heq] at hst
    exact absurd hst TcpState.noConfusion
  | accept => rw [← Option.some.inj hstep] at hst; exact hst
  | parent st => rw [← Option.some.inj hstep] at hst; exact hst
  | sock se =>
    obtain ⟨-, hstep⟩ := sockStep_some hstep
    cases se with
    | write buf =>
      rw [hstep] at hst
      rwa [show (tcpWrite sk buf).1.state = sk.state from
        congrArg Core.state (core_tcpWrite hmss buf)] at hst
    | close =>
      rw [hstep] at hst
      unfold tcpClose at hst
      cases hs : sk.state <;> rw [hs] at hst
      all_goals exact absurd hst TcpState.noConfusion
    | read len =>
      rw [hstep] at hst
      rwa [show (tcpReadStart sk len).1.state = sk.state from
        congrArg Core.state (Receiver.core_tcpReadStart sk len)] at hst
    | receive len rlen =>
      rw [hstep] at hst
      rwa [show (tcpReceiveRound sk len rlen).1.state = sk.state from
        congrArg Core.state (Receiver.core_tcpReceiveRound sk len rlen)] at hst
    | timer i =>
      cases expires_fireTimer hstep with
      | quiet => exact hst
      | free => exact absurd hst TcpState.noConfusion
      | resend skb q hq timers retransmit backoff out st hst' =>
        obtain rfl : st = .established := hst
        rcases hst' with h | ⟨-, h⟩
        · exact h.symm
        · cases hs : sk.state <;> rw [hs] at h <;> first | rfl | exact absurd h (by decide)
    | segment seg => exact absurd rfl (hcall seg)

/-- A call or a timer in the handshake. -/
theorem Standing.call (hs : Standing syns answered sk) (harm : Armed sk)
    (hcall : ∀ seg, e ≠ .sock (.segment seg))
    (hconn : ∀ saddr daddr sport dport isn, e ≠ .connect saddr daddr sport dport isn)
    (hstep : lifeStep sk e = some sk') : sk'.freed = true ∨ Standing syns answered sk' := by
  obtain ⟨hf, -⟩ := lifeStep_some hstep
  unfold lifeStep at hstep
  rw [if_neg (by rw [hf]; exact Bool.false_ne_true)] at hstep
  cases e with
  | connect saddr daddr sport dport isn => exact absurd rfl (hconn saddr daddr sport dport isn)
  | accept => exact .inr (Option.some.inj hstep ▸ hs.congr rfl Iff.rfl rfl rfl rfl)
  | parent st =>
    refine .inr (Option.some.inj hstep ▸ hs.congr rfl ?_ rfl rfl rfl)
    exact Option.map_eq_none_iff
  | sock se =>
    obtain ⟨-, hstep⟩ := sockStep_some hstep
    cases se with
    | write buf => exact .inr (hstep ▸ hs.write harm buf)
    | close => exact hstep ▸ hs.close
    | read len =>
      right
      rw [hstep]
      unfold tcpReadStart
      split
      case h_7 => split_ifs <;> exact hs.congr rfl Iff.rfl rfl rfl rfl
      all_goals exact hs
    | receive len rlen =>
      right
      rw [hstep]
      unfold tcpReceiveRound tcpDataDequeue
      simp only
      split_ifs <;> exact hs.congr rfl Iff.rfl rfl rfl rfl
    | timer i => exact hs.expires (expires_fireTimer hstep)
    | segment seg => exact absurd rfl (hcall seg)

/-- What one event preserves. -/
theorem Inv.step (hinv : Inv h) (hstep : handStep h e = some h') (hlate : ¬ Early h e) :
    (h'.sk.freed = true ∨ Inv h') ∧ ∀ x ∈ h'.entries, x ∈ h.entries ∨ x.Sound := by
  obtain ⟨sk', hlife, rfl⟩ := Option.map_eq_some_iff.mp hstep
  obtain ⟨hf, hls⟩ := lifeStep_some hlife
  have harm := hinv.armed.step hls
  -- an event that is no segment enters nothing
  have hquiet : (∀ seg, e ≠ .sock (.segment seg)) → ∀ syns x,
      x ∈ h.entries ++ (entered [h.sk, sk']).map (Entry.mk none · syns) → x ∈ h.entries := by
    intro hcall syns x hx
    rcases List.mem_append.mp hx with hx | hx
    · exact hx
    · obtain ⟨m, hm, -⟩ := List.mem_map.mp hx
      exact absurd hm (not_mem_entered (state_of_call hinv.armed.mss hcall hlife))
  have hcall : (∀ seg, e ≠ .sock (.segment seg)) →
      (∀ saddr daddr sport dport isn, e ≠ .connect saddr daddr sport dport isn) →
      record h e sk' = { h with
        sk := sk', entries := h.entries ++ (entered [h.sk, sk']).map (Entry.mk none · h.syns) } →
      ((record h e sk').sk.freed = true ∨ Inv (record h e sk')) ∧
        ∀ x ∈ (record h e sk').entries, x ∈ h.entries ∨ x.Sound := by
    intro hseg hconn heq
    rw [heq]
    refine ⟨?_, fun x hx => .inl (hquiet hseg _ x hx)⟩
    rcases harm with hfreed | harm
    · exact .inl hfreed
    · exact (hinv.standing.call hinv.armed hseg hconn hlife).imp_right fun hs => ⟨harm, hs⟩
  cases e with
  | connect saddr daddr sport dport isn =>
    refine ⟨harm.imp_right fun harm => ⟨harm, ?_⟩, fun x hx => .inl (hquiet (by simp) _ x hx)⟩
    show Standing [] false sk'
    unfold lifeStep at hlife
    rw [if_neg (by rw [hf]; exact Bool.false_ne_true)] at hlife
    simp only at hlife
    split_ifs at hlife with hclose
    exact Option.some.inj hlife ▸ standing_connect hinv.armed hclose saddr daddr sport dport isn
  | accept => exact hcall (by simp) (by simp) rfl
  | parent st => exact hcall (by simp) (by simp) rfl
  | sock se =>
    cases se with
    | segment seg =>
      have hrun : tcpProcess h.sk seg = .ok sk' := (sockStep_some (sockStep_of_lifeStep hlife)).2
      refine ⟨?_, fun x hx => ?_⟩
      · rcases harm with hfreed | harm
        · exact .inl hfreed
        · refine (hinv.standing.tcpProcess hinv.armed hf hrun fun hnum hans => ?_).imp_right
            fun hs => ⟨harm, hs⟩
          by_contra hno
          exact hlate ⟨seg, rfl, hnum, .inl ⟨hans, by simpa using hno⟩⟩
      · rcases List.mem_append.mp hx with hx | hx
        · exact .inl hx
        · obtain ⟨m, hm, rfl⟩ := List.mem_map.mp hx
          exact .inr (hinv.standing.entries hinv.armed
            (fun hacc hnum => hlate ⟨seg, rfl, hnum, .inr hacc⟩) hm)
    | _ => exact hcall (by simp) (by simp) rfl

/-- A segment that comes too early breaks the handshake. -/
theorem Inv.not_sound (hinv : Inv h) (hstep : handStep h e = some h') (hearly : Early h e) :
    ¬ Sound h' := by
  intro hsound
  obtain ⟨sk', hlife, rfl⟩ := Option.map_eq_some_iff.mp hstep
  obtain ⟨hf, -⟩ := lifeStep_some hlife
  obtain ⟨seg, rfl, hnum, ⟨hans, hno⟩ | hacc⟩ := hearly
  · -- the SYN has left the queue of the opener
    have hrun : tcpProcess h.sk seg = .ok sk' := (sockStep_some (sockStep_of_lifeStep hlife)).2
    rw [tcpProcess_synSent hans.state] at hrun
    have heq := Except.ok.inj hrun
    obtain ⟨hp, hn⟩ := hinv.standing.inFlight hans.state
    have hsyn : SynStep h.sk seg sk' := heq ▸ hinv.standing.synStep hinv.armed hans.state
    have hans' : acksSyn h.sk seg = false := by
      unfold acksSyn
      simp [hnum]
    have hwait := hsound.waiting
    have hempty : sk'.writeQueue = [] ∧ sk'.parent = none ∧ sk'.state = .synReceived ∧
        sk'.freed = false := by
      cases hsyn with
      | ignored hno => exact absurd hans hno
      | both _ hack => rw [hans.ack] at hack; simp at hack
      | early => exact ⟨rfl, hp, rfl, hf⟩
      | answered _ hnum' => rw [hnum] at hnum'; exact absurd hnum' (by grind)
    obtain ⟨hnil, hp', hst', hf'⟩ := hempty
    obtain ⟨skb, hmem, -⟩ := hwait hp' (by
      show Begun sk'.state
      rw [hst']
      exact ⟨TcpState.noConfusion, TcpState.noConfusion⟩) hf' (by
      show (h.answered || acksSyn h.sk seg) = false
      rw [hno, hans']
      rfl)
    have hmem : skb ∈ sk'.writeQueue := hmem
    rw [hnil] at hmem
    simp at hmem
  · have hmem := accept_mem_entered hacc
    obtain ⟨seg', heq, -, hnum'⟩ := (hsound.entries (Entry.mk (some seg) (accept h.sk seg.th.ackSeq)
      (synsAfter h.syns seg)) (List.mem_append_right _ (List.mem_map_of_mem hmem))).ack
    obtain rfl := Option.some.inj heq
    have hnum' : seg.th.ackSeq = h.sk.isn + 1 := hnum'
    rw [hnum] at hnum'
    exact absurd hnum' (by grind)

/-! ### Runs -/

theorem inv_started (hstart : Started h) : Inv h ∧ Sound h := by
  have hnone : ∀ {h : Hand}, h.entries = [] → Inv h → Inv h ∧ Sound h := fun hent hinv =>
    ⟨hinv, by rw [hent]; simp, hinv.standing.waiting⟩
  cases hstart with
  | alloc => exact hnone rfl ⟨armed_of_born .alloc, .idle (.inl rfl)⟩
  | listening sport => exact hnone rfl ⟨armed_of_born (.listening sport), .idle (.inr rfl)⟩
  | child listener seg isn sk hchild =>
    refine hnone rfl ⟨armed_of_born (.child listener seg isn sk hchild), ?_⟩
    have hfresh := fresh_of_tcpHandleListen hchild
    have hirs : sk.irs = seg.th.seq := by
      unfold tcpHandleListen at hchild
      split_ifs at hchild
      rw [← Option.some.inj hchild, tcpSendSynack_eq rfl]
    refine .child hfresh.state ?_ hfresh.writeQueue (by rw [hfresh.nxt, hfresh.isn]) ?_
      (by rw [hfresh.rcvNxt, hirs]) (by rw [hirs]; exact List.mem_singleton_self _)
    · rw [hfresh.parent]
      exact Option.some_ne_none _
    · rw [hfresh.una, hfresh.isn, UInt32.sub_self, Word32.le_iff]
      exact Nat.zero_le _

/-- **Handshake soundness.** A run is sound in all of its states if and only if no segment comes too
early. -/
theorem sound_iff_late {h₀ h : Hand} {es : List LifeEvent} (hstart : Started h₀)
    (hrun : run handStep h₀ es = some h) :
    Always handStep Sound h₀ es ↔ Along handStep (fun h e => ¬ Early h e) h₀ es := by
  obtain ⟨hinv, hsound⟩ := inv_started hstart
  refine always_iff_along (I := fun h => h.sk.freed = true ∨ Inv h) ?_ ?_ (.inr hinv) hsound hrun
  · intro h e h' hI _ hstep hsound'
    obtain ⟨sk', hlife, -⟩ := Option.map_eq_some_iff.mp hstep
    have hinv := hI.resolve_left (by rw [(lifeStep_some hlife).1]; exact Bool.false_ne_true)
    exact (hinv.step hstep fun hearly => hinv.not_sound hstep hearly hsound').1
  · intro h e h' hI hsound hstep
    obtain ⟨sk', hlife, -⟩ := Option.map_eq_some_iff.mp hstep
    have hinv := hI.resolve_left (by rw [(lifeStep_some hlife).1]; exact Bool.false_ne_true)
    refine ⟨fun hsound' hearly => hinv.not_sound hstep hearly hsound', fun hlate => ?_⟩
    obtain ⟨hI', hentries⟩ := hinv.step hstep hlate
    refine ⟨fun x hx => (hentries x hx).elim (hsound.entries x) id, ?_⟩
    rcases hI' with hfreed | hinv'
    · intro _ _ hf _
      rw [hfreed] at hf
      simp at hf
    · exact hinv'.standing.waiting

/-- The child with the number 100 that a SYN with the number 500 makes. -/
def newChild : TcpSock :=
  ((tcpHandleListen (listenSock 80) { th := { seq := 500, syn := true } } 100).2).getD tcpAllocSock

theorem started_newChild : Started { sk := newChild, syns := [500] } :=
  .child (listenSock 80) { th := { seq := 500, syn := true } } 100 newChild rfl

/-- The acknowledgement number `ack` for `newChild`, with a FIN. -/
def finFor (ack : UInt32) : LifeEvent :=
  .sock (.segment { th := { seq := 501, ackSeq := ack, ack := true, fin := true } })

/-- The child is accepted on the acknowledgement of its SYN, and goes on to `CLOSE_WAIT` at once. -/
theorem sound_iff_late_accepted : ∃ h,
    run handStep { sk := newChild, syns := [500] } [finFor 101] = some h ∧
    h.sk.state = .closeWait ∧ h.entries.map (fun x => (x.sk.rcvNxt, x.sk.irs)) = [(501, 500)] ∧
    (Always handStep Sound { sk := newChild, syns := [500] } [finFor 101] ↔
      Along handStep (fun h e => ¬ Early h e) { sk := newChild, syns := [500] } [finFor 101]) := by
  have hend : (run handStep { sk := newChild, syns := [500] } [finFor 101]).map (fun h =>
      (h.sk.state, h.entries.map (fun x => (x.sk.rcvNxt, x.sk.irs)))) =
      some (.closeWait, [(501, 500)]) := by decide
  obtain ⟨h, hrun, hend⟩ := Option.map_eq_some_iff.mp hend
  obtain ⟨hst, hentry⟩ := Prod.mk.inj hend
  exact ⟨h, hrun, hst, hentry, sound_iff_late started_newChild hrun⟩

/-- A segment that acknowledges nothing, not even the SYN, takes the child to `ESTABLISHED`. -/
theorem early_not_sound : ¬ ∀ (h₀ h : Hand) (es : List LifeEvent), Started h₀ →
    run handStep h₀ es = some h → Sound h := by
  intro hall
  have hend : (run handStep { sk := newChild, syns := [500] } [finFor 100]).map (fun h =>
      h.entries.map (fun x => (x.seg.map (·.th.ackSeq), x.sk.isn))) = some [(some 100, 100)] := by
    decide
  obtain ⟨h, hrun, hend⟩ := Option.map_eq_some_iff.mp hend
  obtain ⟨x, hx, hnum⟩ := List.mem_map.mp (by rw [hend]; exact List.mem_singleton_self _ :
    ((some 100, 100) : Option UInt32 × UInt32) ∈
      h.entries.map (fun x => (x.seg.map (·.th.ackSeq), x.sk.isn)))
  obtain ⟨seg, hseg, -, hack⟩ := ((hall _ _ _ started_newChild hrun).entries x hx).ack
  obtain ⟨hnum, hisn⟩ := Prod.mk.inj hnum
  have hnum : seg.th.ackSeq = 100 := by
    rw [hseg] at hnum
    exact Option.some.inj hnum
  rw [hisn, hnum] at hack
  exact absurd hack (by decide)

end ToyIP.Tcp.Handshake
