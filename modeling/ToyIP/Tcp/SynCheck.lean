import ToyIP.Tcp.Sides

/-! # TCP: segments with SYN

The comment behind the SYN check of `tcp_process` says that only segments without SYN get there. The
check has no `return`, so a segment with SYN and ACK does too. `stops_iff` says when the SYN check is
the end of a segment, and when it leaves the sock as it was. -/

namespace ToyIP.Tcp.SynCheck

open ToyIP.Tcp.Types ToyIP.Tcp.Timer ToyIP.Tcp.Output ToyIP.Tcp.Input
open ToyIP.Tcp.Sides (tcpProcess_filter)

/-- The parts of `tcp_process` behind the window filter. -/
inductive Part
  | syn | ack | text | fin
  deriving DecidableEq, Repr

/-- `processInWindow` with the parts that have run. -/
def traced (sk : TcpSock) (th : TcpHdr) (skb : Skb) : List Part × Except Fault TcpSock :=
  let parts := if th.syn then [Part.syn] else []
  let sk := if th.syn then synCheck sk else sk
  if !th.ack then (parts, .ok sk)
  -- the `switch` at the head of the ack part reads the state of the sock
  else if th.syn && sk.freed then (parts ++ [.ack], .error .freedSock)
  else match ackCheck sk th with
    | .error f => (parts ++ [.ack], .error f)
    | .ok (sk, false) => (parts ++ [.ack], .ok sk)
    | .ok (sk, true) =>
      (parts ++ [.ack, .text, .fin], .ok (finCheck (segmentText sk th skb) th skb))

/-- The states in which `tcp_process` comes to the SYN check. -/
def Later : TcpState → Prop
  | .close | .listen | .synSent => False
  | _ => True

instance : DecidablePred Later := fun s => by
  cases s <;> unfold Later <;> infer_instance

/-- A child that the SYN check takes off its list and frees. -/
def Removed (sk : TcpSock) : Prop := sk.state = .synReceived ∧ sk.parent ≠ none

instance (sk : TcpSock) : Decidable (Removed sk) := by
  unfold Removed
  infer_instance

/-- The queues, the numbers and the state of a sock are as before. -/
structure Unchanged (sk sk' : TcpSock) : Prop where
  receiveQueue : sk'.receiveQueue = sk.receiveQueue
  ofoQueue : sk'.ofoQueue = sk.ofoQueue
  writeQueue : sk'.writeQueue = sk.writeQueue
  rcvNxt : sk'.rcvNxt = sk.rcvNxt
  sndUna : sk'.sndUna = sk.sndUna
  state : sk'.state = sk.state
  freed : sk'.freed = sk.freed

/-- **The SYN check is the end of the segment.** -/
structure StopsAtSyn (sk : TcpSock) (seg : Seg) : Prop where
  parts : ∀ p ∈ (traced sk seg.th (tcpInitSegment seg)).1, p = .syn
  safe : tcpProcess sk seg ≠ .error .freedSock
  same : ∀ sk', tcpProcess sk seg = .ok sk' → Removed sk ∧ sk'.freed = true ∨ Unchanged sk sk'

variable {sk : TcpSock} {seg : Seg}

/-! ### The code -/

theorem traced_snd (sk : TcpSock) (th : TcpHdr) (skb : Skb) :
    (traced sk th skb).2 = processInWindow sk th skb := by
  unfold traced processInWindow
  generalize (if th.syn then synCheck sk else sk) = sk₁
  generalize (if th.syn then [Part.syn] else []) = parts
  simp only
  by_cases hack : (!th.ack) = true
  · rw [if_pos hack, if_pos hack]
  rw [if_neg hack, if_neg hack]
  by_cases hfreed : (th.syn && sk₁.freed) = true
  · rw [if_pos hfreed, if_pos hfreed]
  rw [if_neg hfreed, if_neg hfreed]
  cases ackCheck sk₁ th with
  | error f => rfl
  | ok r => rcases r with ⟨sk₂, _ | _⟩ <;> rfl

/-- In a later state the window filter comes first. -/
theorem tcpProcess_later (hst : Later sk.state)
    (hfilter : tcpPacketFilter sk seg.th (tcpInitSegment seg) = true) :
    tcpProcess sk seg = processInWindow sk seg.th (tcpInitSegment seg) := by
  rw [tcpProcess_filter, if_pos hfilter] <;> rintro hs <;> rw [hs] at hst <;> exact hst

/-- With ACK the segment comes to the ack part, whatever the SYN check has done. -/
theorem ack_mem_traced {th : TcpHdr} (hack : th.ack = true) (skb : Skb) :
    Part.ack ∈ (traced sk th skb).1 := by
  unfold traced
  generalize (if th.syn then synCheck sk else sk) = sk₁
  generalize (if th.syn then [Part.syn] else []) = parts
  simp only [hack, Bool.not_true, Bool.false_eq_true, if_false]
  by_cases hfreed : (th.syn && sk₁.freed) = true
  · rw [if_pos hfreed]
    exact List.mem_append_right _ (by simp)
  rw [if_neg hfreed]
  cases ackCheck sk₁ th with
  | error f => exact List.mem_append_right _ (by simp)
  | ok r => rcases r with ⟨sk₂, _ | _⟩ <;> exact List.mem_append_right _ (by simp)

theorem traced_of_syn {th : TcpHdr} (hsyn : th.syn = true) (hack : th.ack = false) (skb : Skb) :
    traced sk th skb = ([.syn], .ok (synCheck sk)) := by
  unfold traced
  rw [hsyn, hack]
  rfl

theorem synCheck_removed (h : Removed sk) :
    synCheck sk = tcpFreeSock { tcpSendReset sk with link := none } := if_pos h

theorem synCheck_kept (h : ¬ Removed sk) : synCheck sk = tcpSendReset sk := if_neg h

/-- A child that was freed is read again. -/
theorem tcpProcess_removed (hrem : Removed sk) (hsyn : seg.th.syn = true) (hack : seg.th.ack = true)
    (hfilter : tcpPacketFilter sk seg.th (tcpInitSegment seg) = true) :
    tcpProcess sk seg = .error .freedSock := by
  have hst : Later sk.state := by
    rw [hrem.1]
    trivial
  have hfreed : (synCheck sk).freed = true := by
    rw [synCheck_removed hrem]
    rfl
  rw [tcpProcess_later hst hfilter, processInWindow]
  simp [hsyn, hack, hfreed]

/-! ### The condition -/

/-- **Where a segment with SYN ends.** A reset takes everything that was sent for acknowledged. -/
theorem stops_iff (sk : TcpSock) (seg : Seg) (hst : Later sk.state) (hsyn : seg.th.syn = true)
    (hfilter : tcpPacketFilter sk seg.th (tcpInitSegment seg) = true) :
    StopsAtSyn sk seg ↔ seg.th.ack = false ∧ (Removed sk ∨ sk.sndUna = sk.sndNxt) := by
  have hrun := (tcpProcess_later hst hfilter).trans (traced_snd sk seg.th _).symm
  constructor
  · intro h
    have hack : seg.th.ack = false := by
      by_contra hack
      have hmem := @ack_mem_traced sk seg.th (Bool.not_eq_false _ ▸ hack) (tcpInitSegment seg)
      cases h.parts _ hmem
    refine ⟨hack, ?_⟩
    by_contra hno
    rw [not_or] at hno
    rw [traced_of_syn hsyn hack, synCheck_kept hno.1] at hrun
    rcases h.same _ hrun with ⟨hrem, -⟩ | hsame
    · exact hno.1 hrem
    · exact hno.2 hsame.sndUna.symm
  · rintro ⟨hack, hcase⟩
    have htraced := @traced_of_syn sk seg.th hsyn hack (tcpInitSegment seg)
    rw [htraced] at hrun
    refine ⟨fun p hp => ?_, fun h => ?_, fun sk' h => ?_⟩
    · rw [htraced] at hp
      exact List.mem_singleton.mp hp
    · rw [hrun] at h
      cases h
    · obtain rfl := Except.ok.inj (hrun.symm.trans h)
      by_cases hrem : Removed sk
      · rw [synCheck_removed hrem]
        exact .inl ⟨hrem, rfl⟩
      · rw [synCheck_kept hrem]
        exact .inr ⟨rfl, rfl, rfl, rfl, (hcase.resolve_left hrem).symm, rfl, rfl⟩

/-- An open connection without anything in flight. -/
def idleSock : TcpSock :=
  { state := .established, sndUna := 101, sndNxt := 101, isn := 100, rcvNxt := 501, rcvWnd := 44477 }

/-- One byte of text with SYN. -/
def synText (ack : Bool) : Seg :=
  { th := { seq := 501, ackSeq := 101, syn := true, ack := ack }, dlen := 1, payload := [0x41] }

theorem stops_iff_idle : StopsAtSyn idleSock (synText false) ↔
    (synText false).th.ack = false ∧ (Removed idleSock ∨ idleSock.sndUna = idleSock.sndNxt) :=
  stops_iff idleSock (synText false) (by decide) rfl (by decide)

/-- **Text of a segment with SYN is taken.** -/
theorem text_past_syn : ¬ ∀ (sk : TcpSock) (seg : Seg), Later sk.state → seg.th.syn = true →
    tcpPacketFilter sk seg.th (tcpInitSegment seg) = true → StopsAtSyn sk seg := by
  intro hall
  have h := hall idleSock (synText true) (by decide) rfl (by decide)
  cases h.parts .text (by decide)

end ToyIP.Tcp.SynCheck
