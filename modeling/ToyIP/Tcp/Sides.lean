import Mathlib.Tactic
import ToyIP.Tcp.Sock

/-! # TCP: the send side and the receive side

The numbers and queues of a sock fall into two halves, `sendSide` and `recvSide`, and most functions
touch one of them at most; `core` is what tells an open sock from a closed or freed one. For every
function of the model a lemma says which of the three it leaves alone, and what it hands to
`ip_output`: `Emits` collects the segments appended to `out`. -/

namespace ToyIP.Tcp.Sides

open ToyIP.Tcp.Types ToyIP.Tcp.Timer ToyIP.Tcp.Output ToyIP.Tcp.Data ToyIP.Tcp.Input ToyIP.Tcp.Sock

/-- The send side of a sock. -/
structure SendSide where
  sndUna : UInt32
  sndNxt : UInt32
  isn : UInt32
  writeQueue : List Skb

/-- The receive side of a sock. -/
structure RecvSide where
  rcvNxt : UInt32
  rcvWnd : UInt32
  irs : UInt32
  receiveQueue : List Skb
  ofoQueue : List Skb

/-- What a sock is, apart from its numbers and queues. -/
structure Core where
  state : TcpState
  parent : Option TcpState
  freed : Bool
  smss : UInt16

def core (sk : TcpSock) : Core := ⟨sk.state, sk.parent, sk.freed, sk.smss⟩

def sendSide (sk : TcpSock) : SendSide := ⟨sk.sndUna, sk.sndNxt, sk.isn, sk.writeQueue⟩

def recvSide (sk : TcpSock) : RecvSide :=
  ⟨sk.rcvNxt, sk.rcvWnd, sk.irs, sk.receiveQueue, sk.ofoQueue⟩

/-- Between `a` and `b` only segments with `P` were handed to `ip_output`. -/
def Emits (P : Seg → Prop) (a b : TcpSock) : Prop := ∃ l, b.out = a.out ++ l ∧ ∀ s ∈ l, P s

theorem Emits.refl {P : Seg → Prop} (a : TcpSock) : Emits P a a := ⟨[], by simp, by simp⟩

theorem Emits.of_out {P : Seg → Prop} {a b : TcpSock} (h : b.out = a.out) : Emits P a b :=
  ⟨[], by simp [h], by simp⟩

theorem Emits.trans {P : Seg → Prop} {a b c : TcpSock} (h : Emits P a b) (h' : Emits P b c) :
    Emits P a c := by
  obtain ⟨l, hl, hP⟩ := h
  obtain ⟨l', hl', hP'⟩ := h'
  refine ⟨l ++ l', by rw [hl', hl, List.append_assoc], fun s hs => ?_⟩
  rcases List.mem_append.mp hs with hs | hs
  · exact hP s hs
  · exact hP' s hs

theorem Emits.mono {P Q : Seg → Prop} {a b : TcpSock} (hPQ : ∀ s, P s → Q s) (h : Emits P a b) :
    Emits Q a b := by
  obtain ⟨l, hl, hP⟩ := h
  exact ⟨l, hl, fun s hs => hPQ s (hP s hs)⟩

theorem Emits.mem {P : Seg → Prop} {a b : TcpSock} (h : Emits P a b) {s : Seg} (hs : s ∈ b.out) :
    s ∈ a.out ∨ P s := by
  obtain ⟨l, hl, hP⟩ := h
  rw [hl] at hs
  rcases List.mem_append.mp hs with hs | hs
  · exact Or.inl hs
  · exact Or.inr (hP s hs)

/-! ### PureAck acknowledgements -/

/-- The segment `tcp_send_ack` hands to `ip_output`. -/
def ackSeg (sk : TcpSock) : Seg :=
  { saddr := sk.saddr, daddr := sk.daddr, th := fillHeader sk { ack := true } sk.sndNxt }

theorem tcpSendAck_eq (sk : TcpSock) :
    tcpSendAck sk = { sk with out := sk.out ++ if sk.state = .close then [] else [ackSeg sk] } := by
  unfold tcpSendAck
  split_ifs with h
  · simp
  · rfl

/-- A segment without text, SYN and FIN that acknowledges everything before `r`. -/
structure PureAck (r : UInt32) (s : Seg) : Prop where
  dlen : s.dlen = 0
  payload : s.payload = []
  syn : s.th.syn = false
  fin : s.th.fin = false
  ackSeq : s.th.ackSeq = r

theorem pureAck_ackSeg (sk : TcpSock) : PureAck sk.rcvNxt (ackSeg sk) := ⟨rfl, rfl, rfl, rfl, rfl⟩

theorem emits_tcpSendAck (sk : TcpSock) : Emits (PureAck sk.rcvNxt) sk (tcpSendAck sk) := by
  rw [tcpSendAck_eq]
  refine ⟨_, rfl, fun s hs => ?_⟩
  split_ifs at hs
  · simp at hs
  · rw [List.mem_singleton] at hs
    exact hs ▸ pureAck_ackSeg sk

@[simp] theorem sendSide_tcpSendAck (sk : TcpSock) : sendSide (tcpSendAck sk) = sendSide sk := by
  rw [tcpSendAck_eq]; rfl

@[simp] theorem recvSide_tcpSendAck (sk : TcpSock) : recvSide (tcpSendAck sk) = recvSide sk := by
  rw [tcpSendAck_eq]; rfl

@[simp] theorem core_tcpSendAck (sk : TcpSock) : core (tcpSendAck sk) = core sk := by
  rw [tcpSendAck_eq]; rfl

/-! ### In-order text -/

@[simp] theorem sendSide_tcpAckData (sk : TcpSock) (th : TcpHdr) (skb : Skb) :
    sendSide (tcpAckData sk th skb) = sendSide sk := by
  unfold tcpAckData
  split_ifs
  · rw [sendSide_tcpSendAck]; rfl
  · rfl

@[simp] theorem recvSide_tcpAckData (sk : TcpSock) (th : TcpHdr) (skb : Skb) :
    recvSide (tcpAckData sk th skb) = recvSide sk := by
  unfold tcpAckData
  split_ifs
  · rw [recvSide_tcpSendAck]; rfl
  · rfl

@[simp] theorem core_tcpAckData (sk : TcpSock) (th : TcpHdr) (skb : Skb) :
    core (tcpAckData sk th skb) = core sk := by
  unfold tcpAckData
  split_ifs
  · rw [core_tcpSendAck]; rfl
  · rfl

theorem emits_tcpAckData (sk : TcpSock) (th : TcpHdr) (skb : Skb) :
    Emits (PureAck sk.rcvNxt) sk (tcpAckData sk th skb) := by
  unfold tcpAckData
  split_ifs
  · exact emits_tcpSendAck { sk with delacks := 0 }
  · exact Emits.of_out rfl

/-- The buffer of a segment once it is on a queue. -/
def queued (skb : Skb) : Skb := { skb with refcnt := skb.refcnt + 1 }

/-- What the text of a segment does to `rcv_nxt` and the two queues. -/
def takeText (rcvNxt : UInt32) (ofo receive : List Skb) (skb : Skb) :
    UInt32 × List Skb × List Skb :=
  if skb.seq = rcvNxt then consume (rcvNxt + skb.dlen) ofo (receive ++ [queued skb])
  else (rcvNxt, tcpDataInsertOrdered ofo skb, receive)

/-- `tcp_data_queue` acts on the receive side by `takeText`. -/
theorem recvSide_tcpDataQueue {sk : TcpSock} (h : sk.rcvWnd ≠ 0) (th : TcpHdr) (skb : Skb) :
    recvSide (tcpDataQueue sk th skb) =
      { recvSide sk with
        rcvNxt := (takeText sk.rcvNxt sk.ofoQueue sk.receiveQueue skb).1
        ofoQueue := (takeText sk.rcvNxt sk.ofoQueue sk.receiveQueue skb).2.1
        receiveQueue := (takeText sk.rcvNxt sk.ofoQueue sk.receiveQueue skb).2.2 } := by
  unfold tcpDataQueue takeText
  rw [if_neg h]
  split_ifs
  · rw [recvSide_tcpAckData]; rfl
  · rw [recvSide_tcpSendAck]; rfl

@[simp] theorem sendSide_tcpDataQueue (sk : TcpSock) (th : TcpHdr) (skb : Skb) :
    sendSide (tcpDataQueue sk th skb) = sendSide sk := by
  unfold tcpDataQueue
  split_ifs
  · rfl
  · rw [sendSide_tcpAckData]; rfl
  · rw [sendSide_tcpSendAck]; rfl

@[simp] theorem core_tcpDataQueue (sk : TcpSock) (th : TcpHdr) (skb : Skb) :
    core (tcpDataQueue sk th skb) = core sk := by
  unfold tcpDataQueue
  split_ifs
  · rfl
  · rw [core_tcpAckData]; rfl
  · rw [core_tcpSendAck]; rfl

/-- The text of a segment is acknowledged by the number that is expected next. -/
theorem emits_tcpDataQueue (sk : TcpSock) (th : TcpHdr) (skb : Skb) :
    Emits (PureAck (tcpDataQueue sk th skb).rcvNxt) sk (tcpDataQueue sk th skb) := by
  unfold tcpDataQueue
  split_ifs
  · exact Emits.refl sk
  · simp only
    have h := fun sk' => congrArg RecvSide.rcvNxt (recvSide_tcpAckData sk' th skb)
    have h' := fun sk' => emits_tcpAckData sk' th skb
    simp only [recvSide] at h
    rw [h]
    exact h' _
  · have h := fun sk' => congrArg RecvSide.rcvNxt (recvSide_tcpSendAck sk')
    simp only [recvSide] at h
    rw [h]
    exact emits_tcpSendAck { sk with ofoQueue := tcpDataInsertOrdered sk.ofoQueue skb }

theorem segmentText_cases (sk : TcpSock) (th : TcpHdr) (skb : Skb) :
    segmentText sk th skb = sk ∨ segmentText sk th skb = tcpRecvNotify (tcpDataQueue sk th skb) := by
  unfold segmentText
  split <;> first | exact Or.inl rfl | (split_ifs <;> simp)

theorem segmentText_of_pos {sk : TcpSock} {skb : Skb}
    (hst : sk.state = .established ∨ sk.state = .finWait1 ∨ sk.state = .finWait2)
    (hd : 0 < skb.dlen) (th : TcpHdr) :
    segmentText sk th skb = tcpRecvNotify (tcpDataQueue sk th skb) := by
  unfold segmentText
  rcases hst with hst | hst | hst <;> rw [hst] <;> exact if_pos hd

theorem segmentText_of_not_pos {skb : Skb} (hd : ¬ 0 < skb.dlen) (sk : TcpSock) (th : TcpHdr) :
    segmentText sk th skb = sk := by
  unfold segmentText
  split <;> first | rfl | exact if_neg hd

@[simp] theorem sendSide_segmentText (sk : TcpSock) (th : TcpHdr) (skb : Skb) :
    sendSide (segmentText sk th skb) = sendSide sk := by
  rcases segmentText_cases sk th skb with h | h <;> rw [h]
  exact sendSide_tcpDataQueue sk th skb

@[simp] theorem core_segmentText (sk : TcpSock) (th : TcpHdr) (skb : Skb) :
    core (segmentText sk th skb) = core sk := by
  rcases segmentText_cases sk th skb with h | h <;> rw [h]
  exact core_tcpDataQueue sk th skb

@[simp] theorem irs_tcpDataQueue (sk : TcpSock) (th : TcpHdr) (skb : Skb) :
    (tcpDataQueue sk th skb).irs = sk.irs := by
  by_cases hw : sk.rcvWnd = 0
  · unfold tcpDataQueue; rw [if_pos hw]
  · exact congrArg RecvSide.irs (recvSide_tcpDataQueue hw th skb)

@[simp] theorem irs_segmentText (sk : TcpSock) (th : TcpHdr) (skb : Skb) :
    (segmentText sk th skb).irs = sk.irs := by
  rcases segmentText_cases sk th skb with h | h <;> rw [h]
  exact irs_tcpDataQueue sk th skb

/-! ### The FIN -/

/-- The sock that has counted a FIN and acknowledged it. -/
def takeFin (sk : TcpSock) : TcpSock :=
  tcpRecvNotify (tcpSendAck { sk with rcvNxt := sk.rcvNxt + 1, flagFin := true })

/-- The sock after a FIN in sequence. -/
def afterFin (sk : TcpSock) : TcpSock :=
  match sk.state with
  | .synReceived | .established => tcpRecvNotify (tcpSetState (takeFin sk) .closeWait)
  | .finWait1 => tcpSetState (takeFin sk) .closing
  | .finWait2 => tcpEnterTimeWait (takeFin sk)
  | _ => takeFin sk

/-- The state a FIN in sequence leads to. -/
def finState : TcpState → TcpState
  | .synReceived | .established => .closeWait
  | .finWait1 => .closing
  | .finWait2 => .timeWait
  | s => s

@[simp] theorem state_takeFin (sk : TcpSock) : (takeFin sk).state = sk.state :=
  congrArg Core.state (core_tcpSendAck _)

/-- A FIN in sequence counts if the connection is open. -/
theorem finCheck_of_fin {sk : TcpSock} {th : TcpHdr} {skb : Skb} (hfin : th.fin = true)
    (hseq : sk.rcvNxt - skb.dlen = skb.seq) : finCheck sk th skb =
      if sk.state = .close ∨ sk.state = .listen ∨ sk.state = .synSent then sk else afterFin sk := by
  have hfold : tcpRecvNotify (tcpSendAck
      { sk with rcvNxt := sk.rcvNxt + 1, flagFin := true }) = takeFin sk := rfl
  unfold finCheck
  rw [if_pos ⟨hfin, hseq⟩]
  simp only [hfold, state_takeFin]
  unfold afterFin
  cases sk.state <;> rfl

theorem finCheck_of_not_fin {th : TcpHdr} (hfin : th.fin = false) (sk : TcpSock) (skb : Skb) :
    finCheck sk th skb = sk := by
  unfold finCheck
  rw [hfin, if_neg (by simp)]

theorem finCheck_cases (sk : TcpSock) (th : TcpHdr) (skb : Skb) :
    finCheck sk th skb = sk ∨
      th.fin = true ∧ sk.rcvNxt - skb.dlen = skb.seq ∧ finCheck sk th skb = afterFin sk := by
  by_cases h : th.fin = true ∧ sk.rcvNxt - skb.dlen = skb.seq
  · rw [finCheck_of_fin h.1 h.2]
    split_ifs
    · exact Or.inl rfl
    · exact Or.inr ⟨h.1, h.2, rfl⟩
  · unfold finCheck
    rw [if_neg h]
    exact Or.inl rfl

@[simp] theorem sendSide_takeFin (sk : TcpSock) : sendSide (takeFin sk) = sendSide sk :=
  sendSide_tcpSendAck _

@[simp] theorem recvSide_takeFin (sk : TcpSock) :
    recvSide (takeFin sk) = { recvSide sk with rcvNxt := sk.rcvNxt + 1 } := recvSide_tcpSendAck _

@[simp] theorem sendSide_afterFin (sk : TcpSock) : sendSide (afterFin sk) = sendSide sk := by
  unfold afterFin
  split <;> exact sendSide_takeFin sk

@[simp] theorem recvSide_afterFin (sk : TcpSock) :
    recvSide (afterFin sk) = { recvSide sk with rcvNxt := sk.rcvNxt + 1 } := by
  unfold afterFin
  split <;> exact recvSide_takeFin sk

/-- The FIN is acknowledged. -/
theorem emits_afterFin (sk : TcpSock) :
    Emits (PureAck (sk.rcvNxt + 1)) sk (afterFin sk) := by
  have h : Emits (PureAck (sk.rcvNxt + 1)) sk (takeFin sk) :=
    emits_tcpSendAck { sk with rcvNxt := sk.rcvNxt + 1, flagFin := true }
  unfold afterFin
  split <;> exact h

@[simp] theorem core_afterFin (sk : TcpSock) :
    core (afterFin sk) = { core sk with state := finState sk.state } := by
  have hcore : core (takeFin sk) = core sk := core_tcpSendAck _
  have hp : (takeFin sk).parent = sk.parent := congrArg Core.parent hcore
  have hf : (takeFin sk).freed = sk.freed := congrArg Core.freed hcore
  have hm : (takeFin sk).smss = sk.smss := congrArg Core.smss hcore
  have h : ∀ s, core (tcpSetState (takeFin sk) s) = { core sk with state := s } := fun s => by
    show Core.mk s (takeFin sk).parent (takeFin sk).freed (takeFin sk).smss = _
    rw [hp, hf, hm]; rfl
  unfold afterFin
  cases hs : sk.state <;> simp only [finState]
  case established => exact h _
  case synReceived => exact h _
  case finWait1 => exact h _
  case finWait2 => exact h _
  all_goals rw [hcore, ← hs]; rfl

/-! ### The steps of `tcp_process` -/

/-- The segment `tcp_send_reset` hands to `ip_output`. -/
def resetSeg (sk : TcpSock) : Seg :=
  { saddr := sk.saddr, daddr := sk.daddr, th := fillHeader sk { rst := true } sk.sndNxt }

theorem tcpSendReset_eq (sk : TcpSock) :
    tcpSendReset sk = { sk with sndUna := sk.sndNxt, out := sk.out ++ [resetSeg sk] } := rfl

@[simp] theorem recvSide_tcpSendReset (sk : TcpSock) : recvSide (tcpSendReset sk) = recvSide sk :=
  rfl

@[simp] theorem core_tcpSendReset (sk : TcpSock) : core (tcpSendReset sk) = core sk := rfl

/-- A SYN in the window draws a reset; outside of `SYN_RECEIVED` nothing else happens. -/
theorem synCheck_eq {sk : TcpSock} (h : sk.state ≠ .synReceived) :
    synCheck sk = tcpSendReset sk := by
  unfold synCheck
  rw [if_neg (fun h' => h h'.1)]

/-- The clean-up touches the write queue and its timer only. -/
theorem tcpCleanRetransmissionQueue_eq (sk : TcpSock) (una : UInt32) : ∃ timers retransmit,
    tcpCleanRetransmissionQueue sk una = { sk with
      writeQueue := sk.writeQueue.dropWhile fun skb => skb.endSeq ≤ una
      timers := timers
      retransmit := retransmit } := by
  unfold tcpCleanRetransmissionQueue
  simp only
  split_ifs
  · exact ⟨_, _, rfl⟩
  · exact ⟨_, _, rfl⟩

/-- The states in which a segment is processed as one of an open connection. -/
def Synchronized : TcpState → Prop
  | .established | .finWait1 | .finWait2 | .closeWait | .closing | .lastAck => True
  | _ => False

instance : DecidablePred Synchronized := fun s => by
  cases s <;> unfold Synchronized <;> infer_instance

/-- The sock after the acknowledgement of a segment for a synchronized sock. -/
def takeAck (sk : TcpSock) (th : TcpHdr) : TcpSock :=
  if sk.sndUna < th.ackSeq ∧ th.ackSeq ≤ sk.sndNxt then
    tcpCleanRetransmissionQueue { sk with sndUna := th.ackSeq } th.ackSeq
  else sk

theorem ackCheck_eq {sk : TcpSock} (h : Synchronized sk.state) (th : TcpHdr) :
    ackCheck sk th = .ok (takeAck sk th,
      !(decide (th.ackSeq > (takeAck sk th).sndNxt) ||
        decide (th.ackSeq < (takeAck sk th).sndUna))) := by
  unfold ackCheck takeAck
  cases hs : sk.state <;> rw [hs] at h <;> first | rfl | exact h.elim

theorem takeAck_of_taken {sk : TcpSock} {th : TcpHdr}
    (h : sk.sndUna < th.ackSeq ∧ th.ackSeq ≤ sk.sndNxt) : ∃ timers retransmit,
    takeAck sk th = { sk with
      sndUna := th.ackSeq
      writeQueue := sk.writeQueue.dropWhile fun skb => skb.endSeq ≤ th.ackSeq
      timers := timers
      retransmit := retransmit } := by
  obtain ⟨timers, retransmit, heq⟩ :=
    tcpCleanRetransmissionQueue_eq { sk with sndUna := th.ackSeq } th.ackSeq
  unfold takeAck
  rw [if_pos h, heq]
  exact ⟨timers, retransmit, rfl⟩

theorem takeAck_of_not_taken {sk : TcpSock} {th : TcpHdr}
    (h : ¬ (sk.sndUna < th.ackSeq ∧ th.ackSeq ≤ sk.sndNxt)) : takeAck sk th = sk := by
  unfold takeAck
  rw [if_neg h]

@[simp] theorem recvSide_takeAck (sk : TcpSock) (th : TcpHdr) :
    recvSide (takeAck sk th) = recvSide sk := by
  by_cases h : sk.sndUna < th.ackSeq ∧ th.ackSeq ≤ sk.sndNxt
  · obtain ⟨timers, retransmit, heq⟩ := takeAck_of_taken h
    rw [heq]; rfl
  · rw [takeAck_of_not_taken h]

@[simp] theorem core_takeAck (sk : TcpSock) (th : TcpHdr) : core (takeAck sk th) = core sk := by
  by_cases h : sk.sndUna < th.ackSeq ∧ th.ackSeq ≤ sk.sndNxt
  · obtain ⟨timers, retransmit, heq⟩ := takeAck_of_taken h
    rw [heq]; rfl
  · rw [takeAck_of_not_taken h]

@[simp] theorem out_takeAck (sk : TcpSock) (th : TcpHdr) : (takeAck sk th).out = sk.out := by
  by_cases h : sk.sndUna < th.ackSeq ∧ th.ackSeq ≤ sk.sndNxt
  · obtain ⟨timers, retransmit, heq⟩ := takeAck_of_taken h
    rw [heq]
  · rw [takeAck_of_not_taken h]

/-- The sock behind the SYN check. -/
def afterSyn (sk : TcpSock) (th : TcpHdr) : TcpSock := if th.syn then tcpSendReset sk else sk

@[simp] theorem recvSide_afterSyn (sk : TcpSock) (th : TcpHdr) :
    recvSide (afterSyn sk th) = recvSide sk := by
  unfold afterSyn; split_ifs <;> rfl

@[simp] theorem core_afterSyn (sk : TcpSock) (th : TcpHdr) : core (afterSyn sk th) = core sk := by
  unfold afterSyn; split_ifs <;> rfl

/-- The acknowledgement number is neither too old nor from the future. -/
def ackOk (sk : TcpSock) (th : TcpHdr) : Bool :=
  !(decide (th.ackSeq > sk.sndNxt) || decide (th.ackSeq < sk.sndUna))

/-- What is left of the acknowledgement test behind the clean-up. -/
theorem ackOk_takeAck (sk : TcpSock) (th : TcpHdr) : ackOk (takeAck sk th) th = true ↔
    sk.sndUna ≤ th.ackSeq ∧ th.ackSeq ≤ sk.sndNxt := by
  by_cases ht : sk.sndUna < th.ackSeq ∧ th.ackSeq ≤ sk.sndNxt
  · obtain ⟨timers, retransmit, heq⟩ := takeAck_of_taken ht
    rw [heq]
    simp [ackOk, ht.2, UInt32.le_of_lt ht.1]
  · rw [takeAck_of_not_taken ht]
    simp [ackOk, and_comm]

/-- A synchronized sock after a segment: it stops at the window filter, at the ACK flag or at the
acknowledgement, or it goes on to the text and the FIN. -/
def processed (sk : TcpSock) (seg : Seg) : TcpSock :=
  if tcpPacketFilter sk seg.th (tcpInitSegment seg) then
    if seg.th.ack then
      if ackOk (takeAck (afterSyn sk seg.th) seg.th) seg.th then
        finCheck (segmentText (takeAck (afterSyn sk seg.th) seg.th) seg.th (tcpInitSegment seg))
          seg.th (tcpInitSegment seg)
      else takeAck (afterSyn sk seg.th) seg.th
    else afterSyn sk seg.th
  else if seg.th.rst then sk else tcpSendAck sk

theorem tcpProcess_synSent {sk : TcpSock} (hst : sk.state = .synSent) (seg : Seg) :
    tcpProcess sk seg = .ok (tcpSynsent sk seg.th) := by
  unfold tcpProcess
  rw [hst]

/-- In a later state the window filter is the first test. -/
theorem tcpProcess_filter {sk : TcpSock} (hc : sk.state ≠ .close) (hl : sk.state ≠ .listen)
    (hs : sk.state ≠ .synSent) (seg : Seg) : tcpProcess sk seg =
      if tcpPacketFilter sk seg.th (tcpInitSegment seg) then
        processInWindow sk seg.th (tcpInitSegment seg)
      else .ok (if seg.th.rst then sk else tcpSendAck sk) := by
  unfold tcpProcess
  cases hst : sk.state <;> first | rfl | exact absurd hst ‹_›

/-- A synchronized state is a later one. -/
theorem ne_of_synchronized {s : TcpState} (h : Synchronized s) :
    (s ≠ .synSent ∧ s ≠ .synReceived) ∧ s ≠ .close ∧ s ≠ .listen := by
  refine ⟨⟨?_, ?_⟩, ?_, ?_⟩ <;> rintro rfl <;> exact h

theorem tcpProcess_eq {sk : TcpSock} (h : Synchronized sk.state) (hfreed : sk.freed = false)
    (seg : Seg) : tcpProcess sk seg = .ok (processed sk seg) := by
  have hsyn : (if seg.th.syn then synCheck sk else sk) = afterSyn sk seg.th := by
    unfold afterSyn
    rw [synCheck_eq (fun h' => by rw [h'] at h; exact h)]
  have hcore := core_afterSyn sk seg.th
  have hstate : (afterSyn sk seg.th).state = sk.state := congrArg Core.state hcore
  have hfreed' : (afterSyn sk seg.th).freed = false := (congrArg Core.freed hcore).trans hfreed
  have hack : ackCheck (afterSyn sk seg.th) seg.th =
      .ok (takeAck (afterSyn sk seg.th) seg.th,
        ackOk (takeAck (afterSyn sk seg.th) seg.th) seg.th) :=
    ackCheck_eq (by rwa [hstate]) seg.th
  obtain ⟨⟨hs, -⟩, hc, hl⟩ := ne_of_synchronized h
  rw [tcpProcess_filter hc hl hs]
  unfold processed processInWindow
  simp only [hsyn, hfreed', Bool.and_false, Bool.false_eq_true, if_false]
  by_cases hf : tcpPacketFilter sk seg.th (tcpInitSegment seg)
  · rw [if_pos hf, if_pos hf]
    cases ha : seg.th.ack
    · rfl
    · rw [hack]
      cases hok : ackOk (takeAck (afterSyn sk seg.th) seg.th) seg.th <;> rfl
  · rw [if_neg hf, if_neg hf]

theorem processed_cases (sk : TcpSock) (seg : Seg) :
    processed sk seg = sk ∨ processed sk seg = tcpSendAck sk ∨
      processed sk seg = afterSyn sk seg.th ∨
      processed sk seg = takeAck (afterSyn sk seg.th) seg.th ∨
      processed sk seg = finCheck (segmentText (takeAck (afterSyn sk seg.th) seg.th) seg.th
        (tcpInitSegment seg)) seg.th (tcpInitSegment seg) := by
  unfold processed
  split_ifs <;> simp

/-- The text and the FIN of a segment do not touch the send side. -/
theorem sendSide_textFin (sk : TcpSock) (th : TcpHdr) (skb : Skb) :
    sendSide (finCheck (segmentText sk th skb) th skb) = sendSide sk := by
  rcases finCheck_cases (segmentText sk th skb) th skb with heq | ⟨-, -, heq⟩ <;> rw [heq]
  · exact sendSide_segmentText sk th skb
  · rw [sendSide_afterFin, sendSide_segmentText]

/-- Nothing new was sent, and at most the front of the write queue was dropped. -/
structure KeepsQueue (sk sk' : TcpSock) : Prop where
  isn : sk'.isn = sk.isn
  nxt : sk'.sndNxt = sk.sndNxt
  queue : sk'.writeQueue <:+ sk.writeQueue

theorem KeepsQueue.of_sendSide {sk sk' : TcpSock} (h : sendSide sk' = sendSide sk) :
    KeepsQueue sk sk' where
  isn := congrArg SendSide.isn h
  nxt := congrArg SendSide.sndNxt h
  queue := by
    rw [show sk'.writeQueue = sk.writeQueue from congrArg SendSide.writeQueue h]

theorem KeepsQueue.trans {a b c : TcpSock} (h : KeepsQueue a b) (h' : KeepsQueue b c) :
    KeepsQueue a c := ⟨h'.isn.trans h.isn, h'.nxt.trans h.nxt, h'.queue.trans h.queue⟩

theorem keepsQueue_takeAck (sk : TcpSock) (th : TcpHdr) : KeepsQueue sk (takeAck sk th) := by
  by_cases h : sk.sndUna < th.ackSeq ∧ th.ackSeq ≤ sk.sndNxt
  · obtain ⟨timers, retransmit, heq⟩ := takeAck_of_taken h
    rw [heq]
    exact ⟨rfl, rfl, List.dropWhile_suffix _⟩
  · rw [takeAck_of_not_taken h]
    exact .of_sendSide rfl

theorem keepsQueue_afterSyn (sk : TcpSock) (th : TcpHdr) : KeepsQueue sk (afterSyn sk th) := by
  unfold afterSyn
  split_ifs
  · exact ⟨rfl, rfl, List.suffix_refl _⟩
  · exact .of_sendSide rfl

theorem keepsQueue_processed (sk : TcpSock) (seg : Seg) : KeepsQueue sk (processed sk seg) := by
  have hsyn := keepsQueue_afterSyn sk seg.th
  have hack := hsyn.trans (keepsQueue_takeAck (afterSyn sk seg.th) seg.th)
  rcases processed_cases sk seg with heq | heq | heq | heq | heq <;> rw [heq]
  · exact .of_sendSide rfl
  · exact .of_sendSide (sendSide_tcpSendAck sk)
  · exact hsyn
  · exact hack
  · exact hack.trans (.of_sendSide (sendSide_textFin _ _ _))

/-- The states an open connection goes through after the handshake. -/
def Live : TcpState → Prop
  | .established | .finWait1 | .closeWait | .closing | .lastAck => True
  | _ => False

theorem Live.synchronized {s : TcpState} (h : Live s) : Synchronized s := by
  cases s <;> first | exact h.elim | trivial

theorem live_finState {s : TcpState} (h : Live s) : Live (finState s) := by
  cases s <;> first | exact h.elim | trivial

/-- The text and the FIN of a segment change the state at most, as a FIN does. -/
theorem state_textFin (sk : TcpSock) (th : TcpHdr) (skb : Skb) :
    core (finCheck (segmentText sk th skb) th skb) =
        { core sk with state := (finCheck (segmentText sk th skb) th skb).state } ∧
      ((finCheck (segmentText sk th skb) th skb).state = sk.state ∨
        (finCheck (segmentText sk th skb) th skb).state = finState sk.state) := by
  have htext := core_segmentText sk th skb
  have hst : (segmentText sk th skb).state = sk.state := congrArg Core.state htext
  rcases finCheck_cases (segmentText sk th skb) th skb with heq | ⟨-, -, heq⟩ <;> rw [heq]
  · rw [htext, hst]
    exact ⟨rfl, Or.inl rfl⟩
  · have hfin := core_afterFin (segmentText sk th skb)
    have hst' : (afterFin (segmentText sk th skb)).state = finState sk.state := by
      rw [← hst]
      exact congrArg Core.state hfin
    rw [hfin, htext, hst', hst]
    exact ⟨rfl, Or.inr rfl⟩

/-- The text and the FIN of a segment leave a live sock live. -/
theorem core_textFin {sk : TcpSock} (h : Live sk.state) (th : TcpHdr) (skb : Skb) :
    core (finCheck (segmentText sk th skb) th skb) =
        { core sk with state := (finCheck (segmentText sk th skb) th skb).state } ∧
      Live (finCheck (segmentText sk th skb) th skb).state := by
  obtain ⟨hcore, hst | hst⟩ := state_textFin sk th skb
  · exact ⟨hcore, hst ▸ h⟩
  · exact ⟨hcore, hst ▸ live_finState h⟩

/-- So does a segment to a synchronized sock. -/
theorem state_processed (sk : TcpSock) (seg : Seg) :
    core (processed sk seg) = { core sk with state := (processed sk seg).state } ∧
      ((processed sk seg).state = sk.state ∨ (processed sk seg).state = finState sk.state) := by
  have hsame : ∀ sk' : TcpSock, core sk' = core sk →
      core sk' = { core sk with state := sk'.state } ∧
        (sk'.state = sk.state ∨ sk'.state = finState sk.state) := by
    intro sk' hc
    have hst : sk'.state = sk.state := congrArg Core.state hc
    rw [hc, hst]
    exact ⟨rfl, Or.inl rfl⟩
  have hack : core (takeAck (afterSyn sk seg.th) seg.th) = core sk := by simp
  rcases processed_cases sk seg with heq | heq | heq | heq | heq <;> rw [heq]
  · exact hsame _ rfl
  · exact hsame _ (by simp)
  · exact hsame _ (by simp)
  · exact hsame _ hack
  · have hst : (takeAck (afterSyn sk seg.th) seg.th).state = sk.state :=
      congrArg Core.state hack
    have hfin := state_textFin (takeAck (afterSyn sk seg.th) seg.th) seg.th (tcpInitSegment seg)
    rw [hack, hst] at hfin
    exact hfin

/-- A segment leaves a live sock live. -/
theorem core_processed {sk : TcpSock} (h : Live sk.state) (seg : Seg) :
    core (processed sk seg) = { core sk with state := (processed sk seg).state } ∧
      Live (processed sk seg).state := by
  obtain ⟨hcore, hst | hst⟩ := state_processed sk seg
  · exact ⟨hcore, hst ▸ h⟩
  · exact ⟨hcore, hst ▸ live_finState h⟩

theorem emits_textFin (sk : TcpSock) (th : TcpHdr) (skb : Skb) :
    Emits (fun s => ∃ r, PureAck r s) sk (finCheck (segmentText sk th skb) th skb) := by
  have htext : Emits (fun s => ∃ r, PureAck r s) sk (segmentText sk th skb) := by
    rcases segmentText_cases sk th skb with heq | heq <;> rw [heq]
    · exact Emits.refl _
    · exact (emits_tcpDataQueue _ _ _).mono fun _ h => ⟨_, h⟩
  refine htext.trans ?_
  rcases finCheck_cases (segmentText sk th skb) th skb with heq | ⟨-, -, heq⟩ <;> rw [heq]
  · exact Emits.refl _
  · exact (emits_afterFin _).mono fun _ h => ⟨_, h⟩

/-- Whatever a segment brings, text and SYN are not sent in answer. -/
theorem emits_processed (sk : TcpSock) (seg : Seg) :
    Emits (fun s => ∃ r, PureAck r s) sk (processed sk seg) := by
  have hsyn : Emits (fun s => ∃ r, PureAck r s) sk (afterSyn sk seg.th) := by
    unfold afterSyn
    split_ifs
    · refine ⟨[resetSeg sk], rfl, fun s hs => ?_⟩
      rw [List.mem_singleton] at hs
      exact hs ▸ ⟨sk.rcvNxt, rfl, rfl, rfl, rfl, rfl⟩
    · exact Emits.refl sk
  have hack : Emits (fun s => ∃ r, PureAck r s) sk (takeAck (afterSyn sk seg.th) seg.th) :=
    hsyn.trans (Emits.of_out (out_takeAck _ _))
  rcases processed_cases sk seg with heq | heq | heq | heq | heq <;> rw [heq]
  · exact Emits.refl sk
  · exact (emits_tcpSendAck sk).mono fun _ h => ⟨_, h⟩
  · exact hsyn
  · exact hack
  · exact hack.trans (emits_textFin _ _ _)

/-- The child that the acknowledgement of its SYN takes to `ESTABLISHED`. -/
def accept (sk : TcpSock) (ack : UInt32) : TcpSock :=
  tcpSetState { sk with accepted := true, sndUna := ack } .established

/-- A child in `SYN_RECEIVED` after a segment. -/
theorem tcpProcess_synReceived {sk : TcpSock} (hst : sk.state = .synReceived)
    (hp : sk.parent = some .listen) (hfreed : sk.freed = false) (seg : Seg) :
    tcpProcess sk seg =
      if tcpPacketFilter sk seg.th (tcpInitSegment seg) then
        if seg.th.syn then
          if seg.th.ack then .error .freedSock
          else .ok (tcpFreeSock { tcpSendReset sk with link := none })
        else if seg.th.ack then
          if sk.sndUna ≤ seg.th.ackSeq ∧ seg.th.ackSeq ≤ sk.sndNxt then
            .ok (finCheck (segmentText (accept sk seg.th.ackSeq) seg.th (tcpInitSegment seg))
              seg.th (tcpInitSegment seg))
          else .ok (tcpSendReset sk)
        else .ok sk
      else .ok (if seg.th.rst then sk else tcpSendAck sk) := by
  have hsyn : synCheck sk = tcpFreeSock { tcpSendReset sk with link := none } := by
    unfold synCheck
    rw [if_pos ⟨hst, by rw [show (tcpSendReset sk).parent = sk.parent from rfl, hp]; simp⟩]
  have hack : ackCheck sk seg.th =
      if sk.sndUna ≤ seg.th.ackSeq ∧ seg.th.ackSeq ≤ sk.sndNxt then
        .ok (accept sk seg.th.ackSeq, true)
      else .ok (tcpSendReset sk, false) := by
    unfold ackCheck
    split
    · split_ifs
      · split
        · rename_i h; rw [hp] at h; cases h
        · rfl
        · rename_i h h'; rw [hp] at h'; cases h'; exact absurd rfl h
      · rfl
    iterate 6
      · rename_i h; rw [hst] at h; cases h
    · exact absurd hst (by assumption)
  rw [tcpProcess_filter (by simp [hst]) (by simp [hst]) (by simp [hst])]
  by_cases hf : tcpPacketFilter sk seg.th (tcpInitSegment seg)
  · rw [if_pos hf, if_pos hf]
    unfold processInWindow
    cases hs : seg.th.syn
    · simp only [hfreed, Bool.false_and, Bool.false_eq_true, if_false, hack]
      cases ha : seg.th.ack
      · rfl
      · simp only [Bool.not_true, Bool.false_eq_true, if_false, if_true]
        split_ifs <;> rfl
    · simp only [if_true, hsyn]
      cases ha : seg.th.ack <;> rfl
  · rw [if_neg hf, if_neg hf]

end ToyIP.Tcp.Sides
