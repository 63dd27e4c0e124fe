import Mathlib.Logic.Relation
import ToyIP.Tcp.History

/-! # TCP: the phases of a sock

The state of an opened sock only moves along the arrows of `Next`, which lead nowhere back. From
this it follows that the FIN is the last buffer that is ever queued, and that after the FIN of the
other side the reader gets what is queued then and nothing else. -/

namespace ToyIP.Tcp.Phases

open ToyIP.Lib.Run ToyIP.Tcp.Types ToyIP.Tcp.Timer ToyIP.Tcp.Output ToyIP.Tcp.Data ToyIP.Tcp.Input
  ToyIP.Tcp.Sock ToyIP.Tcp.Sides ToyIP.Tcp.Effects ToyIP.Tcp.Network ToyIP.Tcp.Receiver
  ToyIP.Tcp.Teardown ToyIP.Tcp.Life ToyIP.Tcp.Clock ToyIP.Tcp.RetransmitTimer ToyIP.Tcp.History

/-- The arrows between the states. -/
inductive Next : TcpState → TcpState → Prop
  | syn : Next .synSent .synReceived
  | synAck : Next .synSent .established
  | accept : Next .synReceived .established
  | close {s : TcpState} (h : s = .synSent ∨ s = .synReceived ∨ s = .established) : Next s .finWait1
  | fin : Next .established .closeWait
  | finBoth : Next .finWait1 .closing
  | finWait2 : Next .finWait2 .timeWait
  | lastAck : Next .closeWait .lastAck
  | free {s : TcpState} (h : s ≠ .close) : Next s .close

/-- `t` is `s` or a later state. -/
def Later : TcpState → TcpState → Prop := Relation.ReflTransGen Next

/-- How far a state is from the start. -/
def phase : TcpState → ℕ
  | .listen => 0
  | .synSent => 1
  | .synReceived => 2
  | .established => 3
  | .finWait1 | .closeWait => 4
  | .finWait2 | .closing | .lastAck => 5
  | .timeWait => 6
  | .close => 7

/-- The states in which the own FIN can be queued. -/
def FinOut (s : TcpState) : Prop :=
  s = .finWait1 ∨ s = .finWait2 ∨ s = .closing ∨ s = .lastAck ∨ s = .timeWait ∨ s = .close

/-- The states in which the FIN of the other side can have been accepted. -/
def FinIn (s : TcpState) : Prop :=
  s = .closeWait ∨ s = .closing ∨ s = .lastAck ∨ s = .timeWait ∨ s = .close

/-- Payload left the two receive queues at the head, and none came in. -/
def Drained (sk sk' : TcpSock) : Prop :=
  sk'.ofoQueue <:+ sk.ofoQueue ∧ text sk'.receiveQueue <:+ text sk.receiveQueue

/-- The FIN is the last buffer that was queued, and nothing can be written after it. -/
structure FinLast (p : Past) : Prop where
  one : p.queued.countP (·.th.fin) ≤ 1
  last : ∀ l skb l', p.queued = l ++ skb :: l' → skb.th.fin = true → l' = []
  write : (∃ skb ∈ p.queued, skb.th.fin = true) → ∀ buf, (tcpWrite p.sk buf).2 = -1

/-- `q` comes after `p` in a run. -/
structure Forward (p q : Past) : Prop where
  drained : p.finTaken = true → Drained p.sk q.sk
  later : Later p.sk.state q.sk.state
  closeWait : p.sk.state = .closeWait →
    q.sk.state = .closeWait ∨ q.sk.state = .lastAck ∨ q.sk.state = .close
  finWait1 : p.sk.state = .finWait1 → ∀ buf, (tcpWrite q.sk buf).2 = -1

/-! ### The order of the states -/

theorem Next.phase_lt {s t : TcpState} (h : Next s t) : phase s < phase t := by
  cases h with
  | close h => rcases h with rfl | rfl | rfl <;> decide
  | free h =>
    cases s
    case close => exact absurd rfl h
    all_goals decide
  | _ => decide

theorem Later.eq_or_lt {s t : TcpState} (h : Later s t) : s = t ∨ phase s < phase t := by
  induction h with
  | refl => exact Or.inl rfl
  | tail _ hnext ih =>
    right
    rcases ih with rfl | ih
    · exact hnext.phase_lt
    · exact ih.trans hnext.phase_lt

/-- A state that was left does not come back. -/
theorem Later.not_back {s t u : TcpState} (h : Later s t) (hne : t ≠ s) (h' : Later t u) : u ≠ s := by
  rintro rfl
  rcases h.eq_or_lt with rfl | hlt
  · exact hne rfl
  · rcases h'.eq_or_lt with rfl | hlt'
    · exact hne rfl
    · omega

theorem later_close (s : TcpState) : Later s .close := by
  by_cases h : s = .close
  · rw [h]; exact .refl
  · exact .single (.free h)

/-- What every arrow keeps, all later states have. -/
theorem Later.keep {P : TcpState → Prop} (hnext : ∀ s t, Next s t → P s → P t) {s t : TcpState}
    (h : Later s t) (hs : P s) : P t := by
  induction h with
  | refl => exact hs
  | tail _ h ih => exact hnext _ _ h ih

theorem FinOut.later {s t : TcpState} (hs : FinOut s) (h : Later s t) : FinOut t := by
  refine h.keep (fun s t h hs => ?_) hs
  cases h with
  | close h => rcases h with rfl | rfl | rfl <;> simp [FinOut] at hs
  | _ => simp [FinOut] at hs ⊢

theorem FinIn.later {s t : TcpState} (hs : FinIn s) (h : Later s t) : FinIn t := by
  refine h.keep (fun s t h hs => ?_) hs
  cases h with
  | close h => rcases h with rfl | rfl | rfl <;> simp [FinIn] at hs
  | _ => simp [FinIn] at hs ⊢

theorem later_finWait1 {t : TcpState} (h : Later .finWait1 t) :
    t = .finWait1 ∨ t = .closing ∨ t = .close := by
  refine h.keep (P := fun t => t = .finWait1 ∨ t = .closing ∨ t = .close) (fun s t h hs => ?_)
    (Or.inl rfl)
  cases h with
  | close h => rcases h with rfl | rfl | rfl <;> simp at hs
  | _ => simp at hs ⊢

theorem later_closeWait {t : TcpState} (h : Later .closeWait t) :
    t = .closeWait ∨ t = .lastAck ∨ t = .close := by
  refine h.keep (P := fun t => t = .closeWait ∨ t = .lastAck ∨ t = .close) (fun s t h hs => ?_)
    (Or.inl rfl)
  cases h with
  | close h => rcases h with rfl | rfl | rfl <;> simp at hs
  | _ => simp at hs ⊢

theorem later_finState {s : TcpState} (h : s ≠ .synReceived) : Later s (finState s) := by
  cases s
  case synReceived => exact absurd rfl h
  case established => exact .single .fin
  case finWait1 => exact .single .finBoth
  case finWait2 => exact .single .finWait2
  all_goals exact .refl

/-- Outside of `FIN_WAIT_1` and the like a FIN that is sent again would move the sock; it is not
sent there. -/
theorem FinOut.refinState {s : TcpState} (h : FinOut s) : refinState s = s := by
  rcases h with rfl | rfl | rfl | rfl | rfl | rfl <;> rfl

variable {sk sk' : TcpSock} {seg : Seg}

theorem tcpWrite_fails (h : sk.state ≠ .established) (h' : sk.state ≠ .closeWait) (buf : List UInt8) :
    (tcpWrite sk buf).2 = -1 := by
  unfold tcpWrite
  split <;> first | rfl | contradiction

theorem FinOut.tcpWrite (h : FinOut sk.state) (buf : List UInt8) : (tcpWrite sk buf).2 = -1 := by
  refine tcpWrite_fails ?_ ?_ buf
  · rintro hst
    rw [hst] at h
    simp [FinOut] at h
  · rintro hst
    rw [hst] at h
    simp [FinOut] at h

/-! ### The reader -/

theorem Drained.refl (sk : TcpSock) : Drained sk sk := ⟨List.suffix_refl _, List.suffix_refl _⟩

theorem Drained.trans {a b c : TcpSock} (h : Drained a b) (h' : Drained b c) : Drained a c :=
  ⟨h'.1.trans h.1, h'.2.trans h.2⟩

theorem Drained.of_recvSide (h : recvSide sk' = recvSide sk) : Drained sk sk' := by
  have ho : sk'.ofoQueue = sk.ofoQueue := congrArg RecvSide.ofoQueue h
  have hr : sk'.receiveQueue = sk.receiveQueue := congrArg RecvSide.receiveQueue h
  unfold Drained
  rw [ho, hr]
  exact Drained.refl sk

/-- The reader takes text from the head of the queue. -/
theorem text_dequeue (userlen : UInt32) : ∀ (rlen : UInt32) (q : List Skb),
    text (dequeue userlen rlen q).2.1 <:+ text q := by
  intro rlen q
  induction q generalizing rlen with
  | nil => exact List.suffix_refl _
  | cons skb rest ih =>
    unfold dequeue
    simp only
    split_ifs with hlt _ hleft hleft
    all_goals try exact (ih _).trans (List.suffix_append skb.payload (text rest))
    all_goals try exact List.suffix_refl _
    all_goals
      show _ ++ text rest <:+ skb.payload ++ text rest
      obtain ⟨l, hl⟩ := List.drop_suffix _ skb.payload
      exact ⟨l, by rw [← List.append_assoc, hl]⟩

/-! ### One event -/

/-- What an event does to the state, to the flag of an accepted FIN and to the receive queues. -/
structure Moves (sk sk' : TcpSock) : Prop where
  later : Later sk.state sk'.state
  close : sk'.state = .close → sk.state = .close ∨ sk'.freed = true
  freed : sk.freed = true → sk'.freed = true
  flagFin : sk'.flagFin = true → sk.flagFin = true ∨ FinIn sk'.state
  drained : FinIn sk.state → Drained sk sk'

theorem Moves.trans {a b c : TcpSock} (h : Moves a b) (h' : Moves b c) : Moves a c where
  later := Relation.ReflTransGen.trans h.later h'.later
  close hc := (h'.close hc).elim (fun hb => (h.close hb).imp id h'.freed) Or.inr
  freed hf := h'.freed (h.freed hf)
  flagFin hf := (h'.flagFin hf).elim (fun hb => (h.flagFin hb).imp id (·.later h'.later)) Or.inr
  drained hin := (h.drained hin).trans (h'.drained (hin.later h.later))

theorem Moves.of_core (hcore : core sk' = core sk) (hrecv : recvSide sk' = recvSide sk)
    (hflag : sk'.flagFin = sk.flagFin) : Moves sk sk' := by
  have hst : sk'.state = sk.state := congrArg Core.state hcore
  have hfr : sk'.freed = sk.freed := congrArg Core.freed hcore
  refine ⟨?_, fun hc => Or.inl (hst ▸ hc), fun hf => hfr ▸ hf, fun hf => Or.inl (hflag ▸ hf),
    fun _ => .of_recvSide hrecv⟩
  rw [hst]
  exact .refl

theorem Moves.refl (sk : TcpSock) : Moves sk sk := .of_core rfl rfl rfl

theorem flagFin_tcpSendAck (sk : TcpSock) : (tcpSendAck sk).flagFin = sk.flagFin := by
  rw [tcpSendAck_eq]

theorem moves_tcpSendAck (sk : TcpSock) : Moves sk (tcpSendAck sk) :=
  .of_core (core_tcpSendAck sk) (recvSide_tcpSendAck sk) (flagFin_tcpSendAck sk)

theorem moves_tcpFreeSock (sk : TcpSock) : Moves sk (tcpFreeSock sk) where
  later := later_close _
  close _ := Or.inr rfl
  freed _ := rfl
  flagFin hf := Or.inl hf
  drained _ := ⟨List.nil_suffix, List.nil_suffix⟩

/-- The state moves along an arrow and nothing else changes. -/
theorem moves_of_state (hlater : Later sk.state sk'.state) (hne : sk'.state ≠ .close)
    (hfreed : sk'.freed = sk.freed) (hflag : sk'.flagFin = sk.flagFin)
    (hrecv : FinIn sk.state → recvSide sk' = recvSide sk) : Moves sk sk' where
  later := hlater
  close hc := absurd hc hne
  freed hf := hfreed ▸ hf
  flagFin hf := Or.inl (hflag ▸ hf)
  drained hin := .of_recvSide (hrecv hin)

theorem flagFin_tcpAckData (sk : TcpSock) (th : TcpHdr) (skb : Skb) :
    (tcpAckData sk th skb).flagFin = sk.flagFin := by
  unfold tcpAckData
  split_ifs
  · exact flagFin_tcpSendAck _
  · rfl

theorem flagFin_tcpDataQueue (sk : TcpSock) (th : TcpHdr) (skb : Skb) :
    (tcpDataQueue sk th skb).flagFin = sk.flagFin := by
  unfold tcpDataQueue
  split_ifs
  · rfl
  · exact flagFin_tcpAckData _ th skb
  · exact flagFin_tcpSendAck _

/-- Text is taken in states that come before the FIN of the other side. -/
theorem moves_text (hst : sk.state = .established ∨ sk.state = .finWait1 ∨ sk.state = .finWait2)
    (th : TcpHdr) (skb : Skb) : Moves sk (tcpRecvNotify (tcpDataQueue sk th skb)) := by
  have hcore := core_tcpDataQueue sk th skb
  have hs : (tcpDataQueue sk th skb).state = sk.state := congrArg Core.state hcore
  refine ⟨?_, fun hc => Or.inl (hs ▸ hc), fun hf => ?_, fun hf => Or.inl ?_, fun hin => ?_⟩
  · show Later sk.state (tcpDataQueue sk th skb).state
    rw [hs]
    exact .refl
  · exact (congrArg Core.freed hcore).trans hf
  · exact (flagFin_tcpDataQueue sk th skb).symm.trans hf
  · rcases hst with hst | hst | hst <;> rw [hst] at hin <;> simp [FinIn] at hin

theorem moves_afterFin (hclose : sk.state ≠ .close) (hlisten : sk.state ≠ .listen)
    (hsent : sk.state ≠ .synSent) (hrecv : sk.state ≠ .synReceived) : Moves sk (afterFin sk) := by
  have hcore := core_afterFin sk
  have hst : (afterFin sk).state = finState sk.state := congrArg Core.state hcore
  have hin : FinIn (finState sk.state) := by
    cases hs : sk.state <;> simp [FinIn, finState]
    · exact hlisten hs
    · exact hsent hs
  refine ⟨?_, fun hc => ?_, fun hf => ?_, fun _ => Or.inr (hst ▸ hin), fun _ => ?_⟩
  · rw [hst]
    exact later_finState hrecv
  · rw [hst] at hc
    cases hs : sk.state <;> rw [hs] at hc <;> simp [finState] at hc
    exact absurd hs hclose
  · exact (congrArg Core.freed hcore).trans hf
  · have hside := recvSide_afterFin sk
    have ho : (afterFin sk).ofoQueue = sk.ofoQueue := congrArg RecvSide.ofoQueue hside
    have hr : (afterFin sk).receiveQueue = sk.receiveQueue := congrArg RecvSide.receiveQueue hside
    unfold Drained
    rw [ho, hr]
    exact Drained.refl sk

/-- A segment for a sock that is not in `SYN_SENT`. -/
theorem moves_segmentRule (sk : TcpSock) (seg : Seg) : SegmentRule seg (Moves sk) where
  ack s h := h.trans (moves_tcpSendAck s)
  reset s h := h.trans (.of_core rfl rfl rfl)
  free s h _ := by
    have hlink : Moves s { s with link := none } := .of_core rfl rfl rfl
    exact h.trans (hlink.trans (moves_tcpFreeSock _))
  accept s h hst _ _ _ := by
    refine h.trans (moves_of_state ?_ TcpState.noConfusion rfl rfl fun _ => rfl)
    rw [hst]
    exact .single .accept
  take s h _ _ _ := by
    obtain ⟨timers, retransmit, heq⟩ :=
      tcpCleanRetransmissionQueue_eq { s with sndUna := seg.th.ackSeq } seg.th.ackSeq
    rw [heq]
    exact h.trans (.of_core rfl rfl rfl)
  text s h hst := h.trans (moves_text hst seg.th (tcpInitSegment seg))
  fin s h hclose hlisten hsent hrecv := h.trans (moves_afterFin hclose hlisten hsent hrecv)

theorem moves_tcpSynsent (hst : sk.state = .synSent) (th : TcpHdr) : Moves sk (tcpSynsent sk th) := by
  rcases tcpSynsent_cases sk th with heq | ⟨sk₁, hsk₁, hend⟩
  · rw [heq]
    exact .refl sk
  have h₁ : sk₁.freed = sk.freed ∧ sk₁.flagFin = sk.flagFin := by
    rcases hsk₁ with rfl | ⟨-, rfl⟩
    · exact ⟨rfl, rfl⟩
    · obtain ⟨timers, retransmit, heq⟩ := tcpCleanRetransmissionQueue_eq
        { synAnswered sk th with sndUna := th.ackSeq } th.ackSeq
      rw [heq]
      exact ⟨rfl, rfl⟩
  have hin : ¬ FinIn sk.state := by
    rw [hst]
    simp [FinIn]
  rcases hend with ⟨-, heq⟩ | ⟨-, heq⟩ <;> rw [heq]
  · rw [tcpSendAck_eq]
    refine moves_of_state ?_ TcpState.noConfusion h₁.1 h₁.2 fun h => absurd h hin
    rw [hst]
    exact .single .synAck
  · rw [tcpSendSynack_eq rfl]
    refine moves_of_state ?_ TcpState.noConfusion h₁.1 h₁.2 fun h => absurd h hin
    rw [hst]
    exact .single .syn

theorem Moves.tcpProcess (hrun : tcpProcess sk seg = .ok sk') : Moves sk sk' := by
  by_cases hst : sk.state = .synSent
  · rw [tcpProcess_synSent hst] at hrun
    exact Except.ok.inj hrun ▸ moves_tcpSynsent hst seg.th
  · exact (moves_segmentRule sk seg).tcpProcess (.refl sk) hst hrun

/-- A timer that expires moves the state where it frees the sock; a FIN at the head of the queue is
sent again in states that it does not move. -/
theorem Moves.of_expires (hfin : ∀ skb ∈ sk.writeQueue, skb.th.fin = true → FinOut sk.state)
    (h : Expires sk sk') : Moves sk sk' := by
  cases h with
  | quiet => exact .of_core rfl rfl rfl
  | free =>
    exact ⟨later_close _, fun _ => Or.inr rfl, fun _ => rfl, fun hf => Or.inl hf,
      fun _ => ⟨List.nil_suffix, List.nil_suffix⟩⟩
  | resend skb q hq timers retransmit backoff out st hst =>
    have hst : st = sk.state := by
      rcases hst with hst | ⟨hf, hst⟩
      · exact hst
      · rw [hst, (hfin skb (by rw [hq]; exact List.mem_cons_self ..) hf).refinState]
    rw [hst]
    exact .of_core rfl rfl rfl

theorem moves_tcpReadStart (sk : TcpSock) (len : ℕ) : Moves sk (tcpReadStart sk len).1 := by
  unfold tcpReadStart
  split
  case h_7 =>
    split_ifs
    · exact ⟨.refl, fun hc => Or.inl hc, id, fun hf => absurd hf (by simp), fun _ => .refl sk⟩
    all_goals exact .refl sk
  all_goals exact .refl sk

theorem moves_tcpReceiveRound (sk : TcpSock) (len rlen : ℕ) :
    Moves sk (tcpReceiveRound sk len rlen).1 := by
  have htext := text_dequeue (UInt32.ofNat (len - rlen)) 0 sk.receiveQueue
  unfold tcpReceiveRound tcpDataDequeue
  simp only
  split_ifs <;> exact ⟨.refl, fun hc => Or.inl hc, id, fun hf => Or.inl hf,
    fun _ => ⟨List.suffix_refl _, htext⟩⟩

theorem moves_tcpWrite (hmss : 0 < sk.smss) (buf : List UInt8) : Moves sk (tcpWrite sk buf).1 := by
  by_cases hopen : sk.state = .established ∨ sk.state = .closeWait
  · have h := queuesData_tcpSend hmss buf
    rw [tcpWrite_open hopen]
    exact .of_core h.core h.recv h.flagFin
  · rw [not_or] at hopen
    rw [tcpWrite_not_open hopen.1 hopen.2]
    exact .refl sk

theorem moves_tcpClose (hst : Begun sk.state) : Moves sk (tcpClose sk).1 := by
  have hfin : ∀ st, Next sk.state st → st ≠ .close → Moves sk (tcpSetState (tcpQueueFin sk) st) := by
    intro st hnext hne
    have h := queuesFin_tcpQueueFin sk st
    refine moves_of_state (.single hnext) hne ?_ h.flagFin fun _ => h.recv
    exact congrArg Core.freed h.core
  cases hs : sk.state
  case close => exact absurd hs hst.1
  case listen => exact absurd hs hst.2
  case synSent | synReceived | established =>
    rw [tcpClose_open (by rw [hs]; simp)]
    refine hfin _ (.close ?_) TcpState.noConfusion
    rw [hs]
    simp
  case closeWait =>
    rw [tcpClose_closeWait hs]
    refine hfin _ ?_ TcpState.noConfusion
    rw [hs]
    exact .lastAck
  all_goals
    rw [tcpClose_closing (by rw [hs]; simp)]
    exact .of_core rfl rfl rfl

/-- What one event preserves. -/
theorem moves_of_lifeStep (harm : Armed sk) (hst : Begun sk.state)
    (hfin : ∀ skb ∈ sk.writeQueue, skb.th.fin = true → FinOut sk.state) (h : LifeStep sk sk') :
    Moves sk sk' := by
  cases h with
  | connect hclose => exact absurd hclose hst.1
  | accept => exact .of_core rfl rfl rfl
  | parent st => exact ⟨.refl, fun hc => Or.inl hc, id, fun hf => Or.inl hf, fun _ => .refl sk⟩
  | write buf => exact moves_tcpWrite harm.mss buf
  | close => exact moves_tcpClose hst
  | read len => exact moves_tcpReadStart sk len
  | receive len rlen => exact moves_tcpReceiveRound sk len rlen
  | timer i sk' hfire => exact .of_expires hfin (expires_fireTimer hfire)
  | segment seg sk' hrun => exact .tcpProcess hrun

/-! ### Runs -/

/-- The invariant of a past. -/
structure Phased (p : Past) : Prop where
  alive : p.sk.freed = true ∨ Armed p.sk ∧ Begun p.sk.state
  fins : ∀ skb ∈ p.sk.writeQueue, skb.th.fin = true → FinOut p.sk.state
  flagFin : p.sk.flagFin = true → FinIn p.sk.state
  taken : p.finTaken = true → FinIn p.sk.state
  last : (∀ skb ∈ p.queued, skb.th.fin = false) ∨ FinOut p.sk.state ∧
    ∃ data fin, p.queued = data ++ [fin] ∧ ∀ skb ∈ data, skb.th.fin = false

theorem phased_opening {isn : UInt32} (h : Opened isn sk) : Phased (opening sk) := by
  obtain ⟨hq, hflag⟩ := h.no_fin
  refine ⟨Or.inr h.armed, fun skb hskb hf => ?_, fun hf => ?_, fun hf => ?_, Or.inl hq⟩
  · rw [hq skb hskb] at hf
    exact absurd hf (by simp)
  · have hflag' : (opening sk).sk.flagFin = false := hflag
    rw [hflag'] at hf
    exact absurd hf (by simp)
  · exact absurd hf (by simp [opening])

/-- A later sock with no new FIN on its queue. -/
theorem fins_of_keeps (hfin : ∀ skb ∈ sk.writeQueue, skb.th.fin = true → FinOut sk.state)
    (hkeep : sk'.writeQueue.map (·.th.fin) <:+ sk.writeQueue.map (·.th.fin))
    (hlater : Later sk.state sk'.state) :
    ∀ skb ∈ sk'.writeQueue, skb.th.fin = true → FinOut sk'.state := by
  intro skb hskb hf
  have hmem := hkeep.subset (List.mem_map_of_mem (f := fun skb : Skb => skb.th.fin) hskb)
  obtain ⟨skb', hskb', hf'⟩ := List.mem_map.mp hmem
  exact (hfin skb' hskb' (hf'.trans hf)).later hlater

/-- The states in which text is queued, and those in which the own FIN is, come before. -/
theorem not_finOut_of_data {s : TcpState} (h : s = .established ∨ s = .closeWait) : ¬ FinOut s := by
  rcases h with rfl | rfl <;> simp [FinOut]

theorem not_finOut_of_fin {s s' : TcpState} (h : s = .closeWait ∧ s' = .lastAck ∨
    (s = .synSent ∨ s = .synReceived ∨ s = .established) ∧ s' = .finWait1) : ¬ FinOut s := by
  rcases h with ⟨rfl, -⟩ | ⟨rfl | rfl | rfl, -⟩ <;> simp [FinOut]

/-- Before the own FIN was queued. -/
theorem Phased.no_fin {p : Past} (h : Phased p) (hout : ¬ FinOut p.sk.state) :
    (∀ skb ∈ p.sk.writeQueue, skb.th.fin = false) ∧ ∀ skb ∈ p.queued, skb.th.fin = false :=
  ⟨fun skb hskb => Bool.eq_false_iff.mpr fun hf => hout (h.fins skb hskb hf),
    h.last.resolve_right fun hl => hout hl.1⟩

/-- What one event preserves. -/
theorem Phased.step {p q : Past} {e : LifeEvent} (h : Phased p) (hstep : pastStep p e = some q) :
    Phased q ∧ Moves p.sk q.sk := by
  obtain ⟨hlife, -, hqueued, htaken⟩ := pastStep_some hstep
  obtain ⟨hf, hls⟩ := lifeStep_some hlife
  obtain ⟨harm, hbegun⟩ : Armed p.sk ∧ Begun p.sk.state := by
    refine h.alive.resolve_left ?_
    rw [hf]
    simp
  have hmove := moves_of_lifeStep harm hbegun h.fins hls
  have halive : q.sk.freed = true ∨ Armed q.sk ∧ Begun q.sk.state := by
    by_cases hclose : q.sk.state = .close
    · exact Or.inl ((hmove.close hclose).resolve_left hbegun.1)
    · refine (harm.step hls).imp_right fun harm' => ⟨harm', hclose, ?_⟩
      exact hmove.later.keep (P := (· ≠ .listen)) (fun s t hnext _ => by cases hnext <;> simp)
        hbegun.2
  have hflag : q.sk.flagFin = true → FinIn q.sk.state := fun hflag =>
    (hmove.flagFin hflag).elim (fun hp => (h.flagFin hp).later hmove.later) id
  have htaken' : q.finTaken = true → FinIn q.sk.state := fun hfin => by
    rw [htaken, Bool.or_eq_true] at hfin
    exact hfin.elim (fun hp => (h.taken hp).later hmove.later) hflag
  suffices hqueue : (∀ skb ∈ q.sk.writeQueue, skb.th.fin = true → FinOut q.sk.state) ∧
      ((∀ skb ∈ q.queued, skb.th.fin = false) ∨ FinOut q.sk.state ∧
        ∃ data fin, q.queued = data ++ [fin] ∧ ∀ skb ∈ data, skb.th.fin = false) from
    ⟨⟨halive, hqueue.1, hflag, htaken', hqueue.2⟩, hmove⟩
  rcases queues_of_lifeStep harm hbegun hlife with ⟨hk, -⟩ | ⟨hst, hd⟩ | ⟨hst, hd, -⟩
  · refine ⟨fins_of_keeps h.fins hk.fins hmove.later, ?_⟩
    rw [hqueued, hk.appended, List.append_nil]
    exact h.last.imp_right fun hl => ⟨hl.1.later hmove.later, hl.2⟩
  · have hout := not_finOut_of_data hst
    obtain ⟨hwq, hq⟩ := h.no_fin hout
    obtain ⟨data, hdata, hfin⟩ := hd.queue
    have happ := appended_eq hdata
    refine ⟨fun skb hskb hf => ?_, Or.inl fun skb hskb => ?_⟩
    · rw [hdata] at hskb
      rcases List.mem_append.mp hskb with hskb | hskb
      · exact absurd hf (by rw [hwq skb hskb]; simp)
      · exact absurd hf (by rw [hfin skb hskb]; simp)
    · rw [hqueued, happ] at hskb
      rcases List.mem_append.mp hskb with hskb | hskb
      · exact hq skb hskb
      · exact hfin skb hskb
  · have hout := not_finOut_of_fin hst
    have hout' : FinOut q.sk.state := by
      rcases hst with ⟨-, hst⟩ | ⟨-, hst⟩ <;> rw [hst] <;> simp [FinOut]
    obtain ⟨-, hq⟩ := h.no_fin hout
    obtain ⟨fin, -, hwq⟩ := hd.queue
    have happ := appended_eq hwq
    refine ⟨fun _ _ _ => hout', Or.inr ⟨hout', p.queued, fin, ?_, hq⟩⟩
    rw [hqueued, happ]

theorem Phased.run {p q : Past} {es : List LifeEvent} (h : Phased p)
    (hrun : run pastStep p es = some q) : Phased q ∧ Moves p.sk q.sk :=
  run_inv (C := fun _ _ => True) (P := fun q => Phased q ∧ Moves p.sk q.sk)
    (fun s e s' hs _ hstep => by
      obtain ⟨hs', hmove⟩ := hs.1.step hstep
      exact ⟨hs', hs.2.trans hmove⟩)
    ⟨h, .refl p.sk⟩ (Along.of_forall fun _ _ _ => trivial) hrun

theorem Phased.finLast {p : Past} (h : Phased p) : FinLast p := by
  rcases h.last with hno | ⟨hout, data, fin, hq, hdata⟩
  · have hne : ∀ skb ∈ p.queued, ¬ skb.th.fin = true := fun skb hskb =>
      Bool.eq_false_iff.mp (hno skb hskb)
    refine ⟨?_, fun l skb l' hl hf => ?_, fun ⟨skb, hskb, hf⟩ => absurd hf (hne skb hskb)⟩
    · rw [List.countP_eq_zero.mpr hne]
      exact Nat.zero_le 1
    · exact absurd hf (hne skb (by rw [hl]; simp))
  · have hne : ∀ skb ∈ data, ¬ skb.th.fin = true := fun skb hskb =>
      Bool.eq_false_iff.mp (hdata skb hskb)
    refine ⟨?_, fun l skb l' hl hf => ?_, fun _ => hout.tcpWrite⟩
    · rw [hq, List.countP_append, List.countP_eq_zero.mpr hne, Nat.zero_add]
      exact List.countP_le_length
    · -- a buffer that is not the last one is among the data
      rcases List.eq_nil_or_concat l' with rfl | ⟨l'', x, rfl⟩
      · rfl
      · rw [hq, List.concat_eq_append, ← List.cons_append, ← List.append_assoc] at hl
        have hl' := (List.append_inj' hl rfl).1
        exact absurd hf (hne skb (by rw [hl']; simp))

/-- **The FIN is last and the states never go back**, in any three states of a run. -/
theorem finLast_forward {isn : UInt32} {sk : TcpSock} {es₁ es₂ es₃ : List LifeEvent} {p q r : Past}
    (hopen : Opened isn sk) (hp : run pastStep (opening sk) es₁ = some p)
    (hq : run pastStep p es₂ = some q) (hr : run pastStep q es₃ = some r) :
    FinLast p ∧ Forward p q ∧ (q.sk.state ≠ p.sk.state → r.sk.state ≠ p.sk.state) := by
  obtain ⟨hphased, -⟩ := (phased_opening hopen).run hp
  obtain ⟨hphased', hmove⟩ := hphased.run hq
  obtain ⟨-, hmove'⟩ := hphased'.run hr
  refine ⟨hphased.finLast, ⟨fun hin => hmove.drained (hphased.taken hin), hmove.later, fun hst => ?_,
    fun hst => ?_⟩, fun hne => hmove.later.not_back hne hmove'.later⟩
  · have hlater := hmove.later
    rw [hst] at hlater
    exact later_closeWait hlater
  · have hlater := hmove.later
    rw [hst] at hlater
    have hout : FinOut q.sk.state := by
      rcases later_finWait1 hlater with hs | hs | hs <;> rw [hs] <;> simp [FinOut]
    exact hout.tcpWrite

/-- A client that is left by the server, writes, closes, and sends again. -/
def leftLife : List LifeEvent :=
  [.sock (.segment { th := { seq := 500, ackSeq := 101, syn := true, ack := true } }),
    .sock (.segment { th := { seq := 501, ackSeq := 101, fin := true, ack := true } }),
    .sock (.write [1, 2]), .sock .close]

theorem finLast_forward_left : ∃ p q r, Opened 100 (tcpV4Connect tcpAllocSock 1 2 3 4 100) ∧
    run pastStep (opening (tcpV4Connect tcpAllocSock 1 2 3 4 100)) leftLife = some p ∧
    run pastStep p [.sock (.timer 1)] = some q ∧ run pastStep q [.sock (.read 5)] = some r ∧
    r.finTaken = true ∧ r.sk.state = .lastAck ∧
    FinLast p ∧ Forward p q ∧ (q.sk.state ≠ p.sk.state → r.sk.state ≠ p.sk.state) := by
  have hend : (run pastStep (opening (tcpV4Connect tcpAllocSock 1 2 3 4 100))
      (leftLife ++ ([.sock (.timer 1)] ++ [.sock (.read 5)]))).map
        (fun r => (r.finTaken, r.sk.state)) = some (true, .lastAck) := by decide
  obtain ⟨r, hrun, hr⟩ := Option.map_eq_some_iff.mp hend
  obtain ⟨p, hp, hqr⟩ := run_append.mp hrun
  obtain ⟨q, hq, hr'⟩ := run_append.mp hqr
  obtain ⟨hfin, hst⟩ := Prod.mk.inj hr
  exact ⟨p, q, r, .connected 1 2 3 4, hp, hq, hr', hfin, hst,
    finLast_forward (.connected 1 2 3 4) hp hq hr'⟩

end ToyIP.Tcp.Phases
