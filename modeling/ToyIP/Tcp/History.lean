import ToyIP.Lib.Circle
import ToyIP.Tcp.RetransmitTimer

/-! # TCP: a sock and what has passed through it

An opened sock with a record of its past: the bytes `tcp_write` has accepted, every buffer that was
ever put on `write_queue`, and whether a FIN of the other side was accepted. `Queues` says what one
event does to the send side: it queues the data of a call of `tcp_write`, or the FIN of `tcp_close`,
or nothing, and then buffers at most leave the queue at its head. -/

namespace ToyIP.Tcp.History

open ToyIP.Lib ToyIP.Lib.Run ToyIP.Tcp.Types ToyIP.Tcp.Timer ToyIP.Tcp.Output ToyIP.Tcp.Data
  ToyIP.Tcp.Input ToyIP.Tcp.Sock ToyIP.Tcp.Sides ToyIP.Tcp.Effects ToyIP.Tcp.Network
  ToyIP.Tcp.Teardown ToyIP.Tcp.Life ToyIP.Tcp.Clock ToyIP.Tcp.RetransmitTimer

/-- A sock with the initial sequence number `isn`, once `tcp_begin_connect` was called or
`tcp_handle_listen` has made it. -/
inductive Opened (isn : UInt32) : TcpSock → Prop
  | connected (saddr daddr : UInt32) (sport dport : UInt16) :
    Opened isn (tcpV4Connect tcpAllocSock saddr daddr sport dport isn)
  | child (listener : TcpSock) (seg : Seg) (sk : TcpSock)
      (h : (tcpHandleListen listener seg isn).2 = some sk) : Opened isn sk

/-- A sock and its past. -/
structure Past where
  sk : TcpSock
  bytes : ℕ := 0
  queued : List Skb := []
  finTaken : Bool := false
  deriving DecidableEq, Repr

def opening (sk : TcpSock) : Past := { sk := sk, queued := sk.writeQueue }

/-- What was put on the write queue. No event both takes buffers off the queue and puts some on. -/
def appended (sk sk' : TcpSock) : List Skb := sk'.writeQueue.drop sk.writeQueue.length

/-- The number of bytes that a call of `tcp_write` accepts. -/
def accepted (sk : TcpSock) : LifeEvent → ℕ
  | .sock (.write buf) => (tcpWrite sk buf).2.toNat
  | _ => 0

/-- One event and its record. The flag of an accepted FIN is cleared by `tcp_read` only. -/
def pastStep (p : Past) (e : LifeEvent) : Option Past :=
  (lifeStep p.sk e).map fun sk =>
    { sk := sk
      bytes := p.bytes + accepted p.sk e
      queued := p.queued ++ appended p.sk sk
      finTaken := p.finTaken || sk.flagFin }

variable {sk sk' : TcpSock} {seg : Seg} {e : LifeEvent}

theorem pastStep_some {p q : Past} (h : pastStep p e = some q) : lifeStep p.sk e = some q.sk ∧
    q.bytes = p.bytes + accepted p.sk e ∧ q.queued = p.queued ++ appended p.sk q.sk ∧
      q.finTaken = (p.finTaken || q.sk.flagFin) := by
  unfold pastStep at h
  obtain ⟨sk, hsk, rfl⟩ := Option.map_eq_some_iff.mp h
  exact ⟨hsk, rfl, rfl, rfl⟩

/-! ### Events that queue nothing -/

/-- Nothing is put on the write queue. Buffers leave it at its head, where the head may be sent
again, and `snd_una` moves forward, but not beyond `snd_nxt`. -/
structure Keeps (sk sk' : TcpSock) : Prop where
  isn : sk'.isn = sk.isn
  nxt : sk'.sndNxt = sk.sndNxt
  fins : sk'.writeQueue.map (·.th.fin) <:+ sk.writeQueue.map (·.th.fin)
  una : sk.sndUna - sk.isn ≤ sk.sndNxt - sk.isn → sk.sndUna - sk.isn ≤ sk'.sndUna - sk.isn ∧
    sk'.sndUna - sk.isn ≤ sk.sndNxt - sk.isn

theorem Keeps.of_sendSide (h : sendSide sk' = sendSide sk) : Keeps sk sk' where
  isn := congrArg SendSide.isn h
  nxt := congrArg SendSide.sndNxt h
  fins := by rw [show sk'.writeQueue = sk.writeQueue from congrArg SendSide.writeQueue h]
  una hle := by
    rw [show sk'.sndUna = sk.sndUna from congrArg SendSide.sndUna h]
    exact ⟨UInt32.le_refl _, hle⟩

theorem Keeps.trans {a b c : TcpSock} (h : Keeps a b) (h' : Keeps b c) : Keeps a c where
  isn := h'.isn.trans h.isn
  nxt := h'.nxt.trans h.nxt
  fins := h'.fins.trans h.fins
  una hle := by
    obtain ⟨h₁, h₂⟩ := h.una hle
    have h'una := h'.una
    rw [h.isn, h.nxt] at h'una
    obtain ⟨h₃, h₄⟩ := h'una h₂
    exact ⟨UInt32.le_trans h₁ h₃, h₄⟩

theorem appended_eq {queue : List Skb} (h : sk'.writeQueue = sk.writeQueue ++ queue) :
    appended sk sk' = queue := by
  unfold appended
  rw [h, List.drop_left]

theorem Keeps.appended (h : Keeps sk sk') : appended sk sk' = [] := by
  have hlen := h.fins.length_le
  rw [List.length_map, List.length_map] at hlen
  exact List.drop_eq_nil_of_le hlen

theorem keeps_tcpSendReset (sk : TcpSock) : Keeps sk (tcpSendReset sk) :=
  ⟨rfl, rfl, List.suffix_refl _, fun hle => ⟨hle, UInt32.le_refl _⟩⟩

/-- A freed sock has no queue left. -/
theorem keeps_tcpFreeSock (sk : TcpSock) : Keeps sk (tcpFreeSock sk) :=
  ⟨rfl, rfl, List.nil_suffix, fun hle => ⟨UInt32.le_refl _, hle⟩⟩

/-- An acknowledgement between `snd_una` and `snd_nxt`, by the comparisons of the code. -/
theorem keeps_ack {ack : UInt32} (hu : sk.sndUna ≤ ack) (hn : ack ≤ sk.sndNxt)
    (hisn : sk'.isn = sk.isn) (hnxt : sk'.sndNxt = sk.sndNxt) (huna : sk'.sndUna = ack)
    (hq : sk'.writeQueue <:+ sk.writeQueue) : Keeps sk sk' where
  isn := hisn
  nxt := hnxt
  fins := by
    obtain ⟨l, hl⟩ := hq
    exact ⟨l.map (·.th.fin), by rw [← List.map_append, hl]⟩
  una hle := by
    rw [huna]
    exact Circle.offset_between hle hu hn

theorem keeps_take {ack : UInt32} (hu : sk.sndUna ≤ ack) (hn : ack ≤ sk.sndNxt) :
    Keeps sk (tcpCleanRetransmissionQueue { sk with sndUna := ack } ack) := by
  obtain ⟨timers, retransmit, heq⟩ := tcpCleanRetransmissionQueue_eq { sk with sndUna := ack } ack
  rw [heq]
  exact keeps_ack hu hn rfl rfl rfl (List.dropWhile_suffix _)

/-- A segment for a sock that is not in `SYN_SENT`. -/
theorem keeps_segmentRule (sk : TcpSock) (seg : Seg) : SegmentRule seg (Keeps sk) where
  ack s h := h.trans (.of_sendSide (sendSide_tcpSendAck s))
  reset s h := h.trans (keeps_tcpSendReset s)
  free s h _ := by
    have hlink : Keeps s { s with link := none } := .of_sendSide rfl
    exact h.trans (hlink.trans (keeps_tcpFreeSock _))
  accept s h _ _ hu hn := h.trans (keeps_ack hu hn rfl rfl rfl (List.suffix_refl _))
  take s h _ hu hn := h.trans (keeps_take (UInt32.le_of_lt hu) hn)
  text s h _ := h.trans (.of_sendSide (sendSide_tcpDataQueue s seg.th (tcpInitSegment seg)))
  fin s h _ _ _ _ := h.trans (.of_sendSide (sendSide_afterFin s))

/-- The answer to the SYN: the sock is established, or `snd_una` is set to `isn` again. -/
theorem keeps_tcpSynsent (huna : sk.sndUna = sk.isn) (th : TcpHdr) : Keeps sk (tcpSynsent sk th) := by
  rcases tcpSynsent_cases sk th with heq | ⟨sk₁, hsk₁, hend⟩
  · rw [heq]
    exact .of_sendSide rfl
  have h₁ : Keeps sk sk₁ := by
    rcases hsk₁ with rfl | ⟨hok, rfl⟩
    · exact .of_sendSide rfl
    · have hu := (Bool.and_eq_true_iff.mp hok).2
      have hu : sk.sndUna ≤ th.ackSeq ∧ th.ackSeq ≤ sk.sndNxt := by
        simpa [UInt32.not_lt] using hu
      have hsyn : Keeps sk (synAnswered sk th) := .of_sendSide rfl
      have hu' : (synAnswered sk th).sndUna ≤ th.ackSeq ∧ th.ackSeq ≤ (synAnswered sk th).sndNxt := hu
      exact hsyn.trans (keeps_take hu'.1 hu'.2)
  rcases hend with ⟨-, heq⟩ | ⟨-, heq⟩ <;> rw [heq]
  · refine h₁.trans (.trans (b := { sk₁ with sndUna := sk₁.sndNxt }) ?_ (.of_sendSide ?_))
    · exact ⟨rfl, rfl, List.suffix_refl _, fun hle => ⟨hle, UInt32.le_refl _⟩⟩
    · exact sendSide_tcpSendAck _
  · rw [tcpSendSynack_eq rfl]
    refine ⟨h₁.isn, h₁.nxt, h₁.fins, fun hle => ?_⟩
    show sk.sndUna - sk.isn ≤ sk₁.isn - sk.isn ∧ sk₁.isn - sk.isn ≤ sk.sndNxt - sk.isn
    rw [h₁.isn, huna] at *
    exact ⟨UInt32.le_refl _, hle⟩

theorem Keeps.tcpProcess (harm : Armed sk) (hrun : tcpProcess sk seg = .ok sk') : Keeps sk sk' := by
  by_cases hst : sk.state = .synSent
  · rw [tcpProcess_synSent hst] at hrun
    exact Except.ok.inj hrun ▸ keeps_tcpSynsent (harm.synSent hst).1 seg.th
  · exact (keeps_segmentRule sk seg).tcpProcess (.of_sendSide rfl) hst hrun

/-- What an expired timer does to the fields that matter here: none of them changes, or the sock is
freed, or the head of the write queue leaves again. -/
inductive Expires (sk : TcpSock) : TcpSock → Prop
  | quiet (timers : List Timer) (retransmit delack : Option ℕ) (delacks : UInt8) (sleeping : Bool)
      (out : List Seg) : Expires sk { sk with
        timers := timers, retransmit := retransmit, delack := delack, delacks := delacks
        sleeping := sleeping, out := out }
  | free (timers : List Timer) (linger : Option ℕ) (link : Option SockList) (err : Int) :
      Expires sk { sk with
        state := .close, timers := timers, retransmit := none, delack := none, linger := linger
        link := link, err := err, ofoQueue := [], receiveQueue := [], writeQueue := []
        freed := true }
  | resend (skb : Skb) (q : List Skb) (hq : sk.writeQueue = skb :: q) (timers : List Timer)
      (retransmit : Option ℕ) (backoff : UInt8) (out : List Seg) (st : TcpState)
      (hst : st = sk.state ∨ skb.th.fin = true ∧ st = refinState sk.state) : Expires sk { sk with
        state := st, timers := timers, retransmit := retransmit, backoff := backoff, out := out
        writeQueue := sentSkb sk skb sk.sndUna :: q }

theorem expires_tcpConnectRto (sk : TcpSock) : Expires sk (tcpConnectRto sk) := by
  obtain ⟨timers, hr⟩ := tcpReleaseRetransmissionTimer_eq sk
  by_cases hst : sk.state = .established
  · rw [tcpConnectRto_established hst, hr]
    exact .quiet _ _ _ _ _ _
  by_cases hb : sk.backoff > 3
  · rw [tcpConnectRto_free hst hb, hr]
    exact .free _ _ _ _
  cases hq : sk.writeQueue with
  | nil =>
    rw [tcpConnectRto_nil hst hb hq, hr]
    exact .quiet _ _ _ _ _ _
  | cons skb q =>
    obtain ⟨timers', retransmit, heq⟩ := tcpConnectRto_resend hst hb hq
    rw [heq]
    exact .resend skb q hq _ _ _ _ _ (Or.inl rfl)

theorem expires_tcpRetransmissionTimeout (sk : TcpSock) :
    Expires sk (tcpRetransmissionTimeout sk) := by
  cases hq : sk.writeQueue with
  | nil =>
    obtain ⟨sleeping, timers, heq⟩ := tcpRetransmissionTimeout_nil hq
    rw [heq]
    exact .quiet _ _ _ _ _ _
  | cons skb q =>
    obtain ⟨timers, retransmit, heq⟩ := tcpRetransmissionTimeout_cons hq
    rw [heq]
    refine .resend skb q hq _ _ _ _ _ ?_
    split_ifs with hfin
    · exact Or.inr ⟨hfin, rfl⟩
    · exact Or.inl rfl

theorem expires_runHandler (sk : TcpSock) (h : Handler) : Expires sk (runHandler sk h) := by
  cases h with
  | tcpConnectRto => exact expires_tcpConnectRto sk
  | tcpRetransmissionTimeout => exact expires_tcpRetransmissionTimeout sk
  | tcpSendDelack =>
    unfold runHandler tcpSendDelack
    rw [tcpSendAck_eq]
    exact .quiet _ _ _ _ _ _
  | tcpLinger => exact .free _ _ _ _

theorem expires_fireTimer {i : ℕ} (h : fireTimer sk i = some sk') : Expires sk sk' := by
  obtain ⟨t, -, -, rfl⟩ := fireTimer_runs h
  have he := expires_runHandler
    { sk with timers := sk.timers.modify i fun t => { t with cancelled := true } } t.handler
  generalize runHandler
    { sk with timers := sk.timers.modify i fun t => { t with cancelled := true } } t.handler = sk'
    at he
  cases he with
  | quiet timers retransmit delack delacks sleeping out =>
    exact .quiet timers retransmit delack delacks sleeping out
  | free timers linger link err => exact .free timers linger link err
  | resend skb q hq timers retransmit backoff out st hst =>
    exact @Expires.resend sk skb q hq timers retransmit backoff out st hst

/-- A timer that expires queues nothing. -/
theorem Keeps.of_expires (h : Expires sk sk') : Keeps sk sk' := by
  have hkeep : ∀ hle : sk.sndUna - sk.isn ≤ sk.sndNxt - sk.isn,
      sk.sndUna - sk.isn ≤ sk.sndUna - sk.isn ∧ sk.sndUna - sk.isn ≤ sk.sndNxt - sk.isn :=
    fun hle => ⟨UInt32.le_refl _, hle⟩
  cases h with
  | quiet => exact ⟨rfl, rfl, List.suffix_refl _, hkeep⟩
  | free => exact ⟨rfl, rfl, List.nil_suffix, hkeep⟩
  | resend skb q hq =>
    refine ⟨rfl, rfl, ?_, hkeep⟩
    rw [hq]
    exact List.suffix_refl _

/-! ### Events that queue something -/

/-- The bytes a call of `tcp_write` accepts are queued without a FIN, and `snd_nxt` counts them. -/
structure QueuesData (sk : TcpSock) (n : ℕ) (sk' : TcpSock) : Prop where
  isn : sk'.isn = sk.isn
  una : sk'.sndUna = sk.sndUna
  nxt : sk'.sndNxt = sk.sndNxt + UInt32.ofNat n
  queue : ∃ data, sk'.writeQueue = sk.writeQueue ++ data ∧ ∀ skb ∈ data, skb.th.fin = false
  core : core sk' = core sk
  recv : recvSide sk' = recvSide sk
  flagFin : sk'.flagFin = sk.flagFin

/-- The FIN is queued. -/
structure QueuesFin (sk sk' : TcpSock) : Prop where
  isn : sk'.isn = sk.isn
  una : sk'.sndUna = sk.sndUna
  nxt : sk'.sndNxt = sk.sndNxt + 1
  queue : ∃ skb, skb.th.fin = true ∧ sk'.writeQueue = sk.writeQueue ++ [skb]
  core : core sk' = { core sk with state := sk'.state }
  recv : recvSide sk' = recvSide sk
  flagFin : sk'.flagFin = sk.flagFin

theorem queuesData_tcpSend (hmss : 0 < sk.smss) (buf : List UInt8) :
    QueuesData sk buf.length (tcpSend sk buf) := by
  have h := tcpSend_ind (P := fun s rest => rest.length ≤ buf.length ∧
      QueuesData sk (buf.length - rest.length) s)
    (fun s chunk rest psh _ _ ⟨hle, hs⟩ => ?_) hmss
    ⟨Nat.le_refl _, by
      rw [Nat.sub_self]
      exact ⟨rfl, rfl, (UInt32.add_zero _).symm, ⟨[], by simp, by simp⟩, rfl, rfl, rfl⟩⟩
  · exact h.2
  · obtain ⟨timers, retransmit, heq⟩ := tcpQueueTransmitSkb_eq s (dataSkb chunk psh)
    rw [List.length_append] at hle hs
    rw [heq]
    refine ⟨by omega, hs.isn, hs.una, ?_, ?_, hs.core, hs.recv, hs.flagFin⟩
    · show s.sndNxt + UInt32.ofNat chunk.length = _
      rw [hs.nxt, UInt32.add_assoc, ← UInt32.ofNat_add]
      congr 2
      omega
    · obtain ⟨data, hdata, hfin⟩ := hs.queue
      refine ⟨data ++ [sentSkb s (dataSkb chunk psh) s.sndNxt], ?_, fun skb hskb => ?_⟩
      · show s.writeQueue ++ _ = _
        rw [hdata, List.append_assoc]
      · rcases List.mem_append.mp hskb with hskb | hskb
        · exact hfin skb hskb
        · rw [List.mem_singleton.mp hskb]
          rfl

theorem queuesFin_tcpQueueFin (sk : TcpSock) (st : TcpState) :
    QueuesFin sk (tcpSetState (tcpQueueFin sk) st) := by
  obtain ⟨timers, retransmit, heq⟩ := tcpQueueTransmitSkb_eq sk
    { tcpAllocSkb 0 with th := { fin := true, ack := true } }
  unfold tcpQueueFin
  rw [heq]
  refine ⟨rfl, rfl, ?_, ⟨_, rfl, rfl⟩, rfl, rfl, rfl⟩
  show sk.sndNxt + 0 + 1 = sk.sndNxt + 1
  rw [UInt32.add_zero]

/-! ### One event -/

/-- What one event does to the send side of an opened sock. -/
inductive Queues (sk : TcpSock) (e : LifeEvent) (sk' : TcpSock) : Prop
  | nothing (h : Keeps sk sk') (hacc : accepted sk e = 0)
  | data (hst : sk.state = .established ∨ sk.state = .closeWait)
      (h : QueuesData sk (accepted sk e) sk')
  | fin (hst : sk.state = .closeWait ∧ sk'.state = .lastAck ∨
        (sk.state = .synSent ∨ sk.state = .synReceived ∨ sk.state = .established) ∧
          sk'.state = .finWait1)
      (h : QueuesFin sk sk') (hacc : accepted sk e = 0)

/-- The sock has been connected, or was made by a listener. -/
def Begun (s : TcpState) : Prop := s ≠ .close ∧ s ≠ .listen

theorem queues_tcpWrite (hmss : 0 < sk.smss) (buf : List UInt8) :
    Queues sk (.sock (.write buf)) (tcpWrite sk buf).1 := by
  by_cases hopen : sk.state = .established ∨ sk.state = .closeWait
  · have hacc : accepted sk (.sock (.write buf)) = buf.length := by
      unfold accepted tcpWrite
      rcases hopen with hst | hst <;> simp [hst]
    refine .data hopen ?_
    rw [hacc, tcpWrite_open hopen]
    exact queuesData_tcpSend hmss buf
  · rw [not_or] at hopen
    refine .nothing (.of_sendSide ?_) ?_
    · rw [tcpWrite_not_open hopen.1 hopen.2]
    · unfold accepted tcpWrite
      split <;> simp_all

theorem queues_tcpClose (hst : Begun sk.state) : Queues sk (.sock .close) (tcpClose sk).1 := by
  cases hs : sk.state
  case close => exact absurd hs hst.1
  case listen => exact absurd hs hst.2
  case synSent | synReceived | established =>
    rw [tcpClose_open (by rw [hs]; simp)]
    refine .fin (Or.inr ⟨?_, rfl⟩) (queuesFin_tcpQueueFin sk _) rfl
    rw [hs]
    simp
  case closeWait =>
    rw [tcpClose_closeWait hs]
    exact .fin (Or.inl ⟨hs, rfl⟩) (queuesFin_tcpQueueFin sk _) rfl
  all_goals
    rw [tcpClose_closing (by rw [hs]; simp)]
    exact .nothing (.of_sendSide rfl) rfl

theorem sendSide_tcpReadStart (sk : TcpSock) (len : ℕ) :
    sendSide (tcpReadStart sk len).1 = sendSide sk := by
  unfold tcpReadStart
  split
  case h_7 => split_ifs <;> rfl
  all_goals rfl

theorem sendSide_tcpReceiveRound (sk : TcpSock) (len rlen : ℕ) :
    sendSide (tcpReceiveRound sk len rlen).1 = sendSide sk := by
  unfold tcpReceiveRound tcpDataDequeue
  simp only
  split_ifs <;> rfl

/-- What one event preserves. -/
theorem queues_of_lifeStep (harm : Armed sk) (hst : Begun sk.state)
    (h : lifeStep sk e = some sk') : Queues sk e sk' := by
  unfold lifeStep at h
  split at h
  · exact absurd h (by simp)
  cases e with
  | connect saddr daddr sport dport isn =>
    simp only [if_neg hst.1] at h
    exact absurd h (by simp)
  | accept => exact Option.some.inj h ▸ .nothing (.of_sendSide rfl) rfl
  | parent st => exact Option.some.inj h ▸ .nothing (.of_sendSide rfl) rfl
  | sock e =>
    obtain ⟨-, h⟩ := sockStep_some h
    cases e with
    | write buf => exact h ▸ queues_tcpWrite harm.mss buf
    | close => exact h ▸ queues_tcpClose hst
    | read len => exact h ▸ .nothing (.of_sendSide (sendSide_tcpReadStart sk len)) rfl
    | receive len rlen =>
      exact h ▸ .nothing (.of_sendSide (sendSide_tcpReceiveRound sk len rlen)) rfl
    | timer i => exact .nothing (.of_expires (expires_fireTimer h)) rfl
    | segment seg => exact .nothing (Keeps.tcpProcess harm h) rfl

/-! ### The opening -/

theorem Opened.armed {isn : UInt32} (h : Opened isn sk) : Armed sk ∧ Begun sk.state := by
  cases h with
  | connected saddr daddr sport dport =>
    have hstart := armed_of_born .alloc
    refine ⟨hstart.connect rfl saddr daddr sport dport isn, ?_⟩
    have hst : (tcpV4Connect tcpAllocSock saddr daddr sport dport isn).state = .synSent := rfl
    rw [hst]
    exact ⟨TcpState.noConfusion, TcpState.noConfusion⟩
  | child listener seg sk h =>
    refine ⟨armed_of_born (.child listener seg isn sk h), ?_⟩
    rw [(fresh_of_tcpHandleListen h).state]
    exact ⟨TcpState.noConfusion, TcpState.noConfusion⟩

/-- No FIN is queued by the opening, and none was accepted. -/
theorem Opened.no_fin {isn : UInt32} (h : Opened isn sk) :
    (∀ skb ∈ sk.writeQueue, skb.th.fin = false) ∧ sk.flagFin = false := by
  cases h with
  | connected saddr daddr sport dport =>
    refine ⟨fun skb hskb => ?_, rfl⟩
    have hq : (tcpV4Connect tcpAllocSock saddr daddr sport dport isn).writeQueue.map (·.th.fin) =
        [false] := rfl
    have hmem := List.mem_map_of_mem (f := fun skb : Skb => skb.th.fin) hskb
    rw [hq] at hmem
    exact List.mem_singleton.mp hmem
  | child listener seg sk h =>
    rw [(fresh_of_tcpHandleListen h).writeQueue]
    refine ⟨by simp, ?_⟩
    unfold tcpHandleListen at h
    split_ifs at h
    obtain rfl := Option.some.inj h
    rw [tcpSendSynack_eq rfl]
    rfl

end ToyIP.Tcp.History
