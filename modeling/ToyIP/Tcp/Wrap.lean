import ToyIP.Tcp.Shift

/-! # TCP: where the sequence numbers wrap

Sequence numbers are places on a circle, and `tcp_process` compares them by `<` and `≤`. So its
decisions depend on where the circle is cut open. `NotCut` lists the comparisons that it comes to
for a segment, and says of each that the cut does not matter: a window in which the segment lies is
cut in both runs or in neither, and two numbers that are compared are carried over the cut together
or not at all. `sameRun_iff` says that a moved sock does the same with a moved segment if and only
if this is so. -/

namespace ToyIP.Tcp.Wrap

open ToyIP.Lib ToyIP.Lib.Circle ToyIP.Tcp.Types ToyIP.Tcp.Timer ToyIP.Tcp.Output ToyIP.Tcp.Data
  ToyIP.Tcp.Input ToyIP.Tcp.Sides ToyIP.Tcp.Shift

/-! ### The decisions -/

/-- The tests of `tcp_process` that drop a segment. -/
inductive Drop
  | window | ackFlag | ackSeq | rst | syn
  deriving DecidableEq, Repr

/-- The sock behind the SYN check. -/
def checked (sk : TcpSock) (th : TcpHdr) : TcpSock := if th.syn then synCheck sk else sk

/-- The test that drops the segment, if one does. -/
def dropped (sk : TcpSock) (seg : Seg) : Option Drop :=
  match sk.state with
  | .close | .listen => none
  | .synSent =>
    if seg.th.ack && !synsentAckOk sk seg.th then some .ackSeq
    else if seg.th.rst then some .rst
    else if !seg.th.syn then some .syn
    else none
  | _ =>
    if tcpPacketFilter sk seg.th (tcpInitSegment seg) then
      if !seg.th.ack then some .ackFlag
      else if seg.th.syn && (checked sk seg.th).freed then none
      else match ackCheck (checked sk seg.th) seg.th with
        | .ok (_, false) => some .ackSeq
        | _ => none
    else some .window

/-- The moved sock takes the same decisions on the moved segment, and ends as the sock does, moved
by the same constants. -/
def SameRun (cs cr : UInt32) (sk : TcpSock) (seg : Seg) : Prop :=
  dropped (shift cs cr sk) (shiftSeg cr cs seg) = dropped sk seg ∧
    tcpProcess (shift cs cr sk) (shiftSeg cr cs seg) = (tcpProcess sk seg).map (shift cs cr)

/-! ### The comparisons -/

/-- The receive window, if the segment lies in it, is cut before and behind the move or neither. -/
def WindowCut (cr : UInt32) (sk : TcpSock) (seg : Seg) : Prop :=
  ¬ (0 < seg.dlen ∧ sk.rcvWnd = 0) → seg.th.seq - sk.rcvNxt ≤ sk.rcvWnd →
    ((sk.rcvNxt + cr).toNat + sk.rcvWnd.toNat < 4294967296 ↔
      sk.rcvNxt.toNat + sk.rcvWnd.toNat < 4294967296)

/-- The same for the numbers that can be acknowledged. -/
def AckCut (cs : UInt32) (sk : TcpSock) (ack : UInt32) : Prop :=
  Within sk.sndUna sk.sndNxt ack → SameSide cs sk.sndUna sk.sndNxt

/-- The ends recorded in the write queue against the acknowledgement, up to the first buffer that
stays. -/
def QueueCut (cs ack : UInt32) : List Skb → Prop
  | [] => True
  | skb :: q => SameSide cs skb.endSeq ack ∧ (skb.endSeq ≤ ack → QueueCut cs ack q)

/-- The buffer ends before `item`. -/
def Before (skb item : Skb) : Prop := skb.seq < item.seq ∧ skb.endSeq ≤ item.seq

/-- The walk of `tcp_data_insert_ordered`: at every buffer it comes to, but the last of the queue,
the new one stands before it in both runs or in neither. -/
def OfoCut (cs cr : UInt32) (skb : Skb) : List Skb → Prop
  | [] => True
  | item :: q =>
    (q ≠ [] → (Before (shiftSkb cr cs skb) (shiftSkb cr cs item) ↔ Before skb item)) ∧
      (visit skb item = .next → OfoCut cs cr skb q)

/-- The walk of the text of a segment, if there is one. -/
def TextCut (cs cr : UInt32) (sk : TcpSock) (seg : Seg) : Prop :=
  sk.state = .established ∨ sk.state = .finWait1 ∨ sk.state = .finWait2 → 0 < seg.dlen →
    sk.rcvWnd ≠ 0 → seg.th.seq ≠ sk.rcvNxt → OfoCut cs cr (tcpInitSegment seg) sk.ofoQueue

/-- The comparisons from the acknowledgement on, for a sock behind the SYN check. -/
def AnswerCut (cs cr : UInt32) (sk : TcpSock) (seg : Seg) : Prop :=
  match sk.state with
  | .synReceived => AckCut cs sk seg.th.ackSeq ∧
      (sk.sndUna ≤ seg.th.ackSeq ∧ seg.th.ackSeq ≤ sk.sndNxt → sk.parent = some .listen →
        TextCut cs cr (accept sk seg.th.ackSeq) seg)
  | .established | .finWait1 | .finWait2 | .closeWait | .closing | .lastAck =>
      AckCut cs sk seg.th.ackSeq ∧
      (sk.sndUna < seg.th.ackSeq ∧ seg.th.ackSeq ≤ sk.sndNxt →
        QueueCut cs seg.th.ackSeq sk.writeQueue) ∧
      (sk.sndUna ≤ seg.th.ackSeq ∧ seg.th.ackSeq ≤ sk.sndNxt → TextCut cs cr sk seg)
  | _ => True

/-- The comparisons of `tcp_synsent`. -/
def SynSentCut (cs : UInt32) (sk : TcpSock) (th : TcpHdr) : Prop :=
  (th.ack = true → Within sk.isn sk.sndNxt th.ackSeq → Within sk.sndUna sk.sndNxt th.ackSeq →
    (sk.isn + cs ≤ sk.sndNxt + cs ∧ sk.sndUna + cs ≤ sk.sndNxt + cs ↔
      sk.isn ≤ sk.sndNxt ∧ sk.sndUna ≤ sk.sndNxt)) ∧
  (th.rst = false → th.syn = true →
    (th.ack = true → synsentAckOk sk th = true → QueueCut cs th.ackSeq sk.writeQueue) ∧
    (th.ack = false → SameSide cs sk.isn sk.sndUna))

/-- No comparison that `tcp_process` comes to depends on the cut. -/
def NotCut (cs cr : UInt32) (sk : TcpSock) (seg : Seg) : Prop :=
  match sk.state with
  | .close | .listen => True
  | .synSent => SynSentCut cs sk seg.th
  | _ => WindowCut cr sk seg ∧
      (tcpPacketFilter sk seg.th (tcpInitSegment seg) = true → seg.th.ack = true →
        (seg.th.syn && (checked sk seg.th).freed) = false →
          AnswerCut cs cr (checked sk seg.th) seg)

variable {cs cr : UInt32} {sk : TcpSock} {seg : Seg}

/-! ### The window filter -/

theorem tcpPacketFilter_iff (sk : TcpSock) (seg : Seg) :
    tcpPacketFilter sk seg.th (tcpInitSegment seg) = true ↔
      ¬ (0 < seg.dlen ∧ sk.rcvWnd = 0) ∧ seg.th.seq - sk.rcvNxt ≤ sk.rcvWnd ∧
        sk.rcvNxt.toNat + sk.rcvWnd.toNat < 4294967296 := by
  rw [← not_outside_iff]
  have hdlen : (tcpInitSegment seg).dlen = seg.dlen := rfl
  unfold tcpPacketFilter
  rw [hdlen]
  by_cases hpos : 0 < seg.dlen <;> simp [hpos]

/-- The filter decides the same if and only if the window is cut in both runs or in neither. -/
theorem filter_iff : tcpPacketFilter (shift cs cr sk) (shiftSeg cr cs seg).th
      (tcpInitSegment (shiftSeg cr cs seg)) = tcpPacketFilter sk seg.th (tcpInitSegment seg) ↔
    WindowCut cr sk seg := by
  rw [Bool.eq_iff_iff, tcpPacketFilter_iff, tcpPacketFilter_iff]
  have hsub : (shiftSeg cr cs seg).th.seq - (shift cs cr sk).rcvNxt = seg.th.seq - sk.rcvNxt :=
    add_sub_add cr seg.th.seq sk.rcvNxt
  rw [hsub]
  show (¬ (0 < seg.dlen ∧ sk.rcvWnd = 0) ∧ _ ≤ sk.rcvWnd ∧ (sk.rcvNxt + cr).toNat + _ < _ ↔ _) ↔ _
  rw [and_congr_right_iff, forall_congr' fun _ => and_congr_right_iff]
  rfl

/-! ### The acknowledgement -/

theorem between_add_iff (cs a b x : UInt32) :
    (a + cs ≤ x + cs ∧ x + cs ≤ b + cs ↔ a ≤ x ∧ x ≤ b) ↔ (Within a b x → SameSide cs a b) := by
  rw [between_iff, between_iff, within_add, and_congr_right_iff, le_add_iff]

/-- The clean-up drops the same buffers if and only if no end is separated from the acknowledgement.
-/
theorem dropWhile_iff (cs cr ack : UInt32) : ∀ q : List Skb,
    (q.map (shiftSkb cs cr)).dropWhile (fun skb => skb.endSeq ≤ ack + cs) =
        (q.dropWhile fun skb => skb.endSeq ≤ ack).map (shiftSkb cs cr) ↔ QueueCut cs ack q
  | [] => by simp [QueueCut]
  | x :: q => by
    have ih := dropWhile_iff cs cr ack q
    have hx : (shiftSkb cs cr x).endSeq = x.endSeq + cs := rfl
    have hlong : ∀ p : Skb → Bool, ∀ l : List Skb, (l.dropWhile p).length ≤ l.length :=
      fun p l => (List.dropWhile_suffix p).length_le
    unfold QueueCut
    rw [← le_add_iff, List.map_cons]
    by_cases h : x.endSeq ≤ ack <;> by_cases h' : x.endSeq + cs ≤ ack + cs
    · rw [List.dropWhile_cons_of_pos (by simpa [hx] using h'),
        List.dropWhile_cons_of_pos (by simpa using h), ih]
      simp [h, h']
    · rw [List.dropWhile_cons_of_neg (by simpa [hx] using h'),
        List.dropWhile_cons_of_pos (by simpa using h)]
      refine iff_of_false (fun heq => ?_) fun hc => h' (hc.1.mpr h)
      have := congrArg List.length heq
      have := hlong (fun skb => skb.endSeq ≤ ack) q
      simp at *
      omega
    · rw [List.dropWhile_cons_of_pos (by simpa [hx] using h'),
        List.dropWhile_cons_of_neg (by simpa using h)]
      refine iff_of_false (fun heq => ?_) fun hc => h (hc.1.mp h')
      have := congrArg List.length heq
      have := hlong (fun skb => skb.endSeq ≤ ack + cs) (q.map (shiftSkb cs cr))
      simp at *
      omega
    · rw [List.dropWhile_cons_of_neg (by simpa [hx] using h'),
        List.dropWhile_cons_of_neg (by simpa using h)]
      simp [h, h']

/-- The sock with the queue that the clean-up leaves. -/
def cleaned (sk : TcpSock) (queue : List Skb) : TcpSock :=
  if queue = [] then tcpStopRetransmissionTimer { sk with writeQueue := queue }
  else { sk with writeQueue := queue }

theorem cleaned_shift (queue : List Skb) :
    cleaned (shift cs cr sk) (queue.map (shiftSkb cs cr)) = shift cs cr (cleaned sk queue) := by
  cases queue <;> rfl

theorem tcpCleanRetransmissionQueue_shift {una : UInt32} (h : QueueCut cs una sk.writeQueue) :
    tcpCleanRetransmissionQueue (shift cs cr sk) (una + cs) =
      shift cs cr (tcpCleanRetransmissionQueue sk una) := by
  have hq := (dropWhile_iff cs cr una sk.writeQueue).mpr h
  exact (congrArg (cleaned (shift cs cr sk)) hq).trans (cleaned_shift _)

/-! ### The out-of-order queue -/

theorem visit_insert (skb item : Skb) : visit skb item = .insert ↔ Before skb item := by
  unfold visit Before
  split_ifs with h1 h2 h3
  · simp [h1, UInt32.not_le.mpr h2]
  · simp [h1, UInt32.not_lt.mp h2]
  · simp [h1]
  · simp [h1]

theorem visit_duplicate (skb item : Skb) : visit skb item = .duplicate ↔ skb.seq = item.seq := by
  unfold visit
  split_ifs with h1 h2 h3
  · simp [UInt32.ne_of_lt h1]
  · simp [UInt32.ne_of_lt h1]
  · simp [h3]
  · simp [h3]

theorem insert_of_insert {skb item : Skb} (h : visit skb item = .insert) (q : List Skb) :
    tcpDataInsertOrdered (item :: q) skb = item :: queued skb :: q := by
  unfold tcpDataInsertOrdered
  rw [h]
  rfl

theorem insert_of_duplicate {skb item : Skb} (h : visit skb item = .duplicate) (q : List Skb) :
    tcpDataInsertOrdered (item :: q) skb = item :: q := by
  unfold tcpDataInsertOrdered
  rw [h]

theorem insert_of_next {skb item : Skb} (h : visit skb item = .next) (q : List Skb) :
    tcpDataInsertOrdered (item :: q) skb = item :: tcpDataInsertOrdered q skb := by
  rw [tcpDataInsertOrdered, h]

/-- A new buffer does not get to the front of a queue: what is there with its number was there. -/
theorem eq_of_insert_front {skb item z : Skb} {q l : List Skb}
    (h : tcpDataInsertOrdered (item :: q) skb = z :: l) (hz : z.seq = skb.seq) : l = q := by
  cases hv : visit skb item with
  | duplicate =>
    rw [insert_of_duplicate hv, List.cons.injEq] at h
    exact h.2.symm
  | insert =>
    rw [insert_of_insert hv, List.cons.injEq] at h
    have := (visit_duplicate skb item).mpr (by rw [h.1, hz])
    rw [hv] at this
    exact absurd this (by simp)
  | next =>
    rw [insert_of_next hv, List.cons.injEq] at h
    have := (visit_duplicate skb item).mpr (by rw [h.1, hz])
    rw [hv] at this
    exact absurd this (by simp)

/-- The walk inserts at the same place if and only if it is the same up to there. -/
theorem insertOrdered_iff (cs cr : UInt32) (skb : Skb) : ∀ q : List Skb,
    tcpDataInsertOrdered (q.map (shiftSkb cr cs)) (shiftSkb cr cs skb) =
        (tcpDataInsertOrdered q skb).map (shiftSkb cr cs) ↔ OfoCut cs cr skb q
  | [] => by simp [OfoCut, tcpDataInsertOrdered, shiftSkb]
  | item :: q => by
    have ih := insertOrdered_iff cs cr skb q
    have hdup : visit (shiftSkb cr cs skb) (shiftSkb cr cs item) = .duplicate ↔
        visit skb item = .duplicate := by
      rw [visit_duplicate, visit_duplicate]
      exact add_eq_add_iff cr skb.seq item.seq
    have hins := visit_insert skb item
    have hins' := visit_insert (shiftSkb cr cs skb) (shiftSkb cr cs item)
    have hqueued : queued (shiftSkb cr cs skb) = shiftSkb cr cs (queued skb) := rfl
    rw [List.map_cons]
    unfold OfoCut
    cases hv : visit skb item <;> cases hv' : visit (shiftSkb cr cs skb) (shiftSkb cr cs item) <;>
      rw [hv, hv'] at hdup <;> rw [hv] at hins <;> rw [hv'] at hins' <;>
      simp only [reduceCtorEq, iff_true, iff_false, true_iff, false_iff, not_true] at hdup hins hins'
    case insert.insert =>
      rw [insert_of_insert hv, insert_of_insert hv', hqueued]
      exact iff_of_true rfl ⟨fun _ => iff_of_true hins' hins, by simp⟩
    case duplicate.duplicate =>
      rw [insert_of_duplicate hv, insert_of_duplicate hv']
      exact iff_of_true rfl ⟨fun _ => iff_of_false hins' hins, by simp⟩
    case next.next =>
      rw [insert_of_next hv, insert_of_next hv', List.map_cons, List.cons.injEq, ih]
      exact ⟨fun h => ⟨fun _ => iff_of_false hins' hins, fun _ => h.2⟩, fun h => ⟨rfl, h.2 rfl⟩⟩
    -- where only one run inserts, the two queues differ, unless they end here
    case insert.next =>
      rw [insert_of_insert hv, insert_of_next hv']
      cases q with
      | nil => exact iff_of_true rfl ⟨fun h => absurd rfl h, by simp⟩
      | cons y q =>
        refine iff_of_false (fun heq => ?_) fun hc => hins' ((hc.1 (by simp)).mpr hins)
        have := congrArg List.length (eq_of_insert_front (List.cons.inj heq).2 rfl)
        simp at this
    case next.insert =>
      rw [insert_of_next hv, insert_of_insert hv']
      cases q with
      | nil => exact iff_of_true rfl ⟨fun h => absurd rfl h, fun _ => trivial⟩
      | cons y q =>
        refine iff_of_false (fun heq => ?_) fun hc => hins ((hc.1 (by simp)).mp hins')
        have htail : _ = (tcpDataInsertOrdered (y :: q) skb).map (shiftSkb cr cs) :=
          (List.cons.inj heq).2
        cases hcase : tcpDataInsertOrdered (y :: q) skb with
        | nil => rw [hcase] at htail; exact absurd htail (by simp)
        | cons z l =>
          rw [hcase] at htail
          obtain ⟨hfront, hrest⟩ := List.cons.inj htail
          have hz : z.seq = skb.seq :=
            (add_eq_add_iff cr z.seq skb.seq).mp (congrArg Skb.seq hfront).symm
          have hl := congrArg List.length hrest
          rw [eq_of_insert_front hcase hz] at hl
          simp at hl

/-! ### Text and FIN -/

/-- The last steps of `tcp_process`. -/
def finish (sk : TcpSock) (seg : Seg) : TcpSock :=
  finCheck (segmentText sk seg.th (tcpInitSegment seg)) seg.th (tcpInitSegment seg)

theorem ofoQueue_finish (sk : TcpSock) (seg : Seg) :
    (finish sk seg).ofoQueue = (segmentText sk seg.th (tcpInitSegment seg)).ofoQueue := by
  unfold finish
  rcases finCheck_cases (segmentText sk seg.th (tcpInitSegment seg)) seg.th (tcpInitSegment seg)
    with heq | ⟨-, -, heq⟩ <;> rw [heq]
  exact congrArg RecvSide.ofoQueue (recvSide_afterFin _)

/-- The text of a segment is taken in these states only. -/
theorem segmentText_eq (sk : TcpSock) (th : TcpHdr) (skb : Skb) : segmentText sk th skb =
    if (sk.state = .established ∨ sk.state = .finWait1 ∨ sk.state = .finWait2) ∧ 0 < skb.dlen then
      tcpRecvNotify (tcpDataQueue sk th skb)
    else sk := by
  unfold segmentText
  by_cases hpos : 0 < skb.dlen <;> cases sk.state <;> simp [hpos]

/-- The text and the FIN are taken in the same way if and only if the walk is the same. -/
theorem finish_iff : finish (shift cs cr sk) (shiftSeg cr cs seg) = shift cs cr (finish sk seg) ↔
    TextCut cs cr sk seg := by
  have hwalk := insertOrdered_iff cs cr (tcpInitSegment seg) sk.ofoQueue
  have htext := segmentText_eq sk seg.th (tcpInitSegment seg)
  have htext' := segmentText_eq (shift cs cr sk) (shiftHdr cr cs seg.th)
    (shiftSkb cr cs (tcpInitSegment seg))
  rw [state_shift, show (shiftSkb cr cs (tcpInitSegment seg)).dlen = seg.dlen from rfl] at htext'
  rw [show (tcpInitSegment seg).dlen = seg.dlen from rfl] at htext
  have hfin : ∀ sk₁ sk₂, sk₂ = shift cs cr sk₁ →
      finCheck sk₂ (shiftHdr cr cs seg.th) (shiftSkb cr cs (tcpInitSegment seg)) =
        shift cs cr (finCheck sk₁ seg.th (tcpInitSegment seg)) := by
    rintro sk₁ sk₂ rfl
    exact finCheck_shift cs cr sk₁ seg.th (tcpInitSegment seg)
  constructor
  · intro h hst hpos hw hne
    rw [← hwalk]
    have hofo := congrArg TcpSock.ofoQueue h
    rw [ofoQueue_finish, tcpInitSegment_shiftSeg] at hofo
    have hsides : ∀ sk₁ : TcpSock, (shift cs cr sk₁).ofoQueue =
        sk₁.ofoQueue.map (shiftSkb cr cs) := fun _ => rfl
    rw [hsides, ofoQueue_finish, show (shiftSeg cr cs seg).th = shiftHdr cr cs seg.th from rfl,
      htext, htext', if_pos ⟨hst, hpos⟩, if_pos ⟨hst, hpos⟩] at hofo
    have hne' : (shiftSkb cr cs (tcpInitSegment seg)).seq ≠ (shift cs cr sk).rcvNxt :=
      fun heq => hne ((add_eq_add_iff cr seg.th.seq sk.rcvNxt).mp heq)
    have hq : ∀ (sk₁ : TcpSock) th skb, sk₁.rcvWnd ≠ 0 → skb.seq ≠ sk₁.rcvNxt →
        (tcpRecvNotify (tcpDataQueue sk₁ th skb)).ofoQueue =
          tcpDataInsertOrdered sk₁.ofoQueue skb := fun sk₁ th skb hw hne => by
      have := congrArg RecvSide.ofoQueue (recvSide_tcpDataQueue hw th skb)
      simp only [takeText, if_neg hne] at this
      exact this
    exact (hq (shift cs cr sk) _ _ hw hne').symm.trans
      (hofo.trans (congrArg (List.map _) (hq sk _ _ hw hne)))
  · intro h
    unfold finish
    rw [tcpInitSegment_shiftSeg]
    refine hfin _ _ ?_
    show segmentText (shift cs cr sk) (shiftHdr cr cs seg.th) _ = _
    rw [htext, htext']
    split_ifs with hc
    · rw [tcpDataQueue_shift cs cr sk seg.th (tcpInitSegment seg) fun hw hne =>
        hwalk.mpr (h hc.1 hc.2 hw hne)]
      rfl
    · rfl

/-! ### Behind the SYN check -/

/-- The rest of `tcp_process` from the acknowledgement on. -/
def answer (sk : TcpSock) (seg : Seg) : Except Fault TcpSock :=
  match ackCheck sk seg.th with
  | .error f => .error f
  | .ok (sk, false) => .ok sk
  | .ok (sk, true) => .ok (finish sk seg)

/-- Whether the acknowledgement drops the segment. -/
def answerDrop (sk : TcpSock) (seg : Seg) : Option Drop :=
  match ackCheck sk seg.th with
  | .ok (_, false) => some .ackSeq
  | _ => none

/-- The same decision and the same result. -/
def SameAnswer (cs cr : UInt32) (sk : TcpSock) (seg : Seg) : Prop :=
  answerDrop (shift cs cr sk) (shiftSeg cr cs seg) = answerDrop sk seg ∧
    answer (shift cs cr sk) (shiftSeg cr cs seg) = (answer sk seg).map (shift cs cr)

/-- The acknowledgement in `SYN_RECEIVED`. -/
theorem ackCheck_synReceived (h : sk.state = .synReceived) (th : TcpHdr) : ackCheck sk th =
    if sk.sndUna ≤ th.ackSeq ∧ th.ackSeq ≤ sk.sndNxt then
      match sk.parent with
      | none => .error .nullParent
      | some .listen => .ok (accept sk th.ackSeq, true)
      | some _ => .ok (sk, false)
    else .ok (tcpSendReset sk, false) := by
  unfold ackCheck
  rw [h]
  rfl

theorem acceptable_iff (cs cr : UInt32) (sk : TcpSock) (seg : Seg) :
    ((shift cs cr sk).sndUna ≤ (shiftSeg cr cs seg).th.ackSeq ∧
        (shiftSeg cr cs seg).th.ackSeq ≤ (shift cs cr sk).sndNxt ↔
      sk.sndUna ≤ seg.th.ackSeq ∧ seg.th.ackSeq ≤ sk.sndNxt) ↔ AckCut cs sk seg.th.ackSeq :=
  between_add_iff cs sk.sndUna sk.sndNxt seg.th.ackSeq

theorem ok_map_inj {a b : TcpSock} :
    (Except.ok a : Except Fault TcpSock) = (Except.ok b).map (shift cs cr) ↔
      a = shift cs cr b := by
  rw [Except.map, Except.ok.injEq]

/-- The child of a listener. -/
theorem sameAnswer_synReceived (h : sk.state = .synReceived) :
    SameAnswer cs cr sk seg ↔ AckCut cs sk seg.th.ackSeq ∧
      (sk.sndUna ≤ seg.th.ackSeq ∧ seg.th.ackSeq ≤ sk.sndNxt → sk.parent = some .listen →
        TextCut cs cr (accept sk seg.th.ackSeq) seg) := by
  have hack := ackCheck_synReceived h seg.th
  have hack' := @ackCheck_synReceived (shift cs cr sk) h (shiftSeg cr cs seg).th
  have hcut := acceptable_iff cs cr sk seg
  have hlong : tcpSendReset (shift cs cr sk) ≠ shift cs cr sk := fun heq => by
    have := congrArg (fun s => s.out.length) heq
    simp [tcpSendReset_eq] at this
  unfold SameAnswer answerDrop answer
  rw [parent_shift] at hack'
  rw [← hcut]
  by_cases hin : sk.sndUna ≤ seg.th.ackSeq ∧ seg.th.ackSeq ≤ sk.sndNxt <;>
    by_cases hin' : (shift cs cr sk).sndUna ≤ (shiftSeg cr cs seg).th.ackSeq ∧
      (shiftSeg cr cs seg).th.ackSeq ≤ (shift cs cr sk).sndNxt
  · rw [if_pos hin] at hack
    rw [if_pos hin'] at hack'
    rw [hack, hack']
    cases hp : sk.parent with
    | none => exact iff_of_true ⟨rfl, rfl⟩ ⟨iff_of_true hin' hin, fun _ h => absurd h (by simp)⟩
    | some st =>
      have hacc : accept (shift cs cr sk) (shiftSeg cr cs seg).th.ackSeq =
          shift cs cr (accept sk seg.th.ackSeq) := rfl
      cases st
      case listen =>
        simp only [hacc]
        constructor
        · rintro ⟨-, hs⟩
          exact ⟨iff_of_true hin' hin, fun _ _ => finish_iff.mp (ok_map_inj.mp hs)⟩
        · rintro ⟨-, hc⟩
          exact ⟨trivial, ok_map_inj.mpr (finish_iff.mpr (hc hin trivial))⟩
      all_goals exact iff_of_true ⟨rfl, rfl⟩ ⟨iff_of_true hin' hin, fun _ h => absurd h (by simp)⟩
  · rw [if_pos hin] at hack
    rw [if_neg hin'] at hack'
    rw [hack, hack']
    refine iff_of_false (fun hs => ?_) fun hc => hin' (hc.1.mpr hin)
    cases hp : sk.parent with
    | none => simp [hp] at hs
    | some st =>
      rw [hp] at hs
      cases st
      case listen => simp at hs
      all_goals exact hlong (ok_map_inj.mp hs.2)
  · rw [if_neg hin] at hack
    rw [if_pos hin'] at hack'
    rw [hack, hack']
    refine iff_of_false (fun hs => ?_) fun hc => hin (hc.1.mp hin')
    cases hp : sk.parent with
    | none => simp [hp] at hs
    | some st =>
      rw [hp] at hs
      cases st
      case listen => simp at hs
      all_goals
        refine hlong ?_
        rw [tcpSendReset_shift]
        exact (ok_map_inj.mp hs.2).symm
  · rw [if_neg hin] at hack
    rw [if_neg hin'] at hack'
    rw [hack, hack']
    exact iff_of_true ⟨rfl, ok_map_inj.mpr (tcpSendReset_shift cs cr sk)⟩
      ⟨iff_of_false hin' hin, fun h => absurd h hin⟩

theorem writeQueue_finish (sk : TcpSock) (seg : Seg) : (finish sk seg).writeQueue = sk.writeQueue :=
  congrArg SendSide.writeQueue (sendSide_textFin sk seg.th (tcpInitSegment seg))

theorem textCut_takeAck (th : TcpHdr) : TextCut cs cr (takeAck sk th) seg ↔ TextCut cs cr sk seg := by
  have hrecv := recvSide_takeAck sk th
  have hcore := core_takeAck sk th
  have h1 : (takeAck sk th).state = sk.state := congrArg Core.state hcore
  have h2 : (takeAck sk th).rcvWnd = sk.rcvWnd := congrArg RecvSide.rcvWnd hrecv
  have h3 : (takeAck sk th).rcvNxt = sk.rcvNxt := congrArg RecvSide.rcvNxt hrecv
  have h4 : (takeAck sk th).ofoQueue = sk.ofoQueue := congrArg RecvSide.ofoQueue hrecv
  unfold TextCut
  rw [h1, h2, h3, h4]

/-- The acknowledgement, the text and the FIN of an acceptable segment. -/
theorem finish_takeAck_iff (hin : sk.sndUna ≤ seg.th.ackSeq ∧ seg.th.ackSeq ≤ sk.sndNxt)
    (hin' : (shift cs cr sk).sndUna ≤ (shiftSeg cr cs seg).th.ackSeq ∧
      (shiftSeg cr cs seg).th.ackSeq ≤ (shift cs cr sk).sndNxt) :
    finish (takeAck (shift cs cr sk) (shiftSeg cr cs seg).th) (shiftSeg cr cs seg) =
        shift cs cr (finish (takeAck sk seg.th) seg) ↔
      (sk.sndUna < seg.th.ackSeq ∧ seg.th.ackSeq ≤ sk.sndNxt →
        QueueCut cs seg.th.ackSeq sk.writeQueue) ∧ TextCut cs cr sk seg := by
  have hsame : ∀ a b : UInt32, a ≤ b → (a < b ↔ a ≠ b) := fun a b h => by
    rw [Word32.le_iff] at h
    rw [Word32.lt_iff, ne_eq, Word32.eq_iff_toNat]
    omega
  have hlt := hsame _ _ hin.1
  have hlt' : (shift cs cr sk).sndUna < (shiftSeg cr cs seg).th.ackSeq ↔
      sk.sndUna < seg.th.ackSeq := by
    rw [hsame _ _ hin'.1, hlt]
    exact not_congr (add_eq_add_iff cs sk.sndUna seg.th.ackSeq)
  by_cases ht : sk.sndUna < seg.th.ackSeq
  · have hcond := And.intro ht hin.2
    have hcond' := And.intro (hlt'.mpr ht) hin'.2
    rw [← textCut_takeAck seg.th, ← finish_iff]
    by_cases hq : QueueCut cs seg.th.ackSeq sk.writeQueue
    · have htake : takeAck (shift cs cr sk) (shiftSeg cr cs seg).th =
          shift cs cr (takeAck sk seg.th) := by
        unfold takeAck
        rw [if_pos hcond, if_pos hcond']
        exact @tcpCleanRetransmissionQueue_shift cs cr { sk with sndUna := seg.th.ackSeq } _ hq
      rw [htake]
      simp [hcond, hq]
    · refine iff_of_false (fun heq => hq ?_) fun hc => hq (hc.1 hcond)
      rw [← dropWhile_iff cs cr]
      have hw := congrArg TcpSock.writeQueue heq
      have hsides : ∀ sk₁ : TcpSock, (shift cs cr sk₁).writeQueue =
          sk₁.writeQueue.map (shiftSkb cs cr) := fun _ => rfl
      rw [hsides, writeQueue_finish, writeQueue_finish] at hw
      obtain ⟨_, _, h1⟩ := takeAck_of_taken hcond
      obtain ⟨_, _, h2⟩ := takeAck_of_taken hcond'
      rw [h1, h2] at hw
      exact hw
  · have hno := takeAck_of_not_taken fun h : sk.sndUna < seg.th.ackSeq ∧ _ => ht h.1
    have hno' := @takeAck_of_not_taken (shift cs cr sk) (shiftSeg cr cs seg).th
      fun h => ht (hlt'.mp h.1)
    rw [hno, hno', finish_iff]
    simp [ht]

/-- A synchronized sock. -/
theorem sameAnswer_synchronized (h : Synchronized sk.state) :
    SameAnswer cs cr sk seg ↔ AckCut cs sk seg.th.ackSeq ∧
      (sk.sndUna < seg.th.ackSeq ∧ seg.th.ackSeq ≤ sk.sndNxt →
        QueueCut cs seg.th.ackSeq sk.writeQueue) ∧
      (sk.sndUna ≤ seg.th.ackSeq ∧ seg.th.ackSeq ≤ sk.sndNxt → TextCut cs cr sk seg) := by
  have hack : ackCheck sk seg.th = .ok (takeAck sk seg.th, ackOk (takeAck sk seg.th) seg.th) :=
    ackCheck_eq h seg.th
  have hack' : ackCheck (shift cs cr sk) (shiftSeg cr cs seg).th = .ok (_, ackOk _ _) :=
    @ackCheck_eq (shift cs cr sk) h (shiftSeg cr cs seg).th
  have hok := ackOk_takeAck sk seg.th
  have hok' := ackOk_takeAck (shift cs cr sk) (shiftSeg cr cs seg).th
  have hcut := acceptable_iff cs cr sk seg
  unfold SameAnswer answerDrop answer
  rw [hack, hack', ← hcut]
  by_cases hin : sk.sndUna ≤ seg.th.ackSeq ∧ seg.th.ackSeq ≤ sk.sndNxt <;>
    by_cases hin' : (shift cs cr sk).sndUna ≤ (shiftSeg cr cs seg).th.ackSeq ∧
      (shiftSeg cr cs seg).th.ackSeq ≤ (shift cs cr sk).sndNxt
  · rw [hok.mpr hin, hok'.mpr hin']
    constructor
    · rintro ⟨-, hs⟩
      obtain ⟨hq, ht⟩ := (finish_takeAck_iff hin hin').mp (ok_map_inj.mp hs)
      exact ⟨iff_of_true hin' hin, hq, fun _ => ht⟩
    · rintro ⟨-, hq, ht⟩
      exact ⟨rfl, ok_map_inj.mpr ((finish_takeAck_iff hin hin').mpr ⟨hq, ht hin⟩)⟩
  · rw [hok.mpr hin, Bool.eq_false_iff.mpr fun h => hin' (hok'.mp h)]
    exact iff_of_false (fun h => by simp at h) fun hc => hin' (hc.1.mpr hin)
  · rw [hok'.mpr hin', Bool.eq_false_iff.mpr fun h => hin (hok.mp h)]
    exact iff_of_false (fun h => by simp at h) fun hc => hin (hc.1.mp hin')
  · have hno := @takeAck_of_not_taken sk seg.th fun h =>
      hin ⟨UInt32.le_of_lt h.1, h.2⟩
    have hno' := @takeAck_of_not_taken (shift cs cr sk) (shiftSeg cr cs seg).th
      fun h => hin' ⟨UInt32.le_of_lt h.1, h.2⟩
    rw [Bool.eq_false_iff.mpr fun h => hin (hok.mp h),
      Bool.eq_false_iff.mpr fun h => hin' (hok'.mp h), hno, hno']
    exact iff_of_true ⟨rfl, rfl⟩ ⟨iff_of_false hin' hin,
      fun h => absurd ⟨UInt32.le_of_lt h.1, h.2⟩ hin, fun h => absurd h hin⟩

/-- From the acknowledgement on. -/
theorem sameAnswer_iff (cs cr : UInt32) (sk : TcpSock) (seg : Seg) :
    SameAnswer cs cr sk seg ↔ AnswerCut cs cr sk seg := by
  unfold AnswerCut
  cases hst : sk.state
  case synReceived => exact sameAnswer_synReceived hst
  case established | finWait1 | finWait2 | closeWait | closing | lastAck =>
    exact sameAnswer_synchronized (by rw [hst]; trivial)
  all_goals
    -- there is no test of the acknowledgement in these states, and no text
    have hack : ∀ s : TcpSock, s.state = sk.state → ∀ th, ackCheck s th = .ok (s, true) :=
      fun s hs th => by
        unfold ackCheck
        rw [hs, hst]
    unfold SameAnswer answerDrop answer
    rw [hack sk rfl, hack (shift cs cr sk) rfl]
    simp only [ok_map_inj, finish_iff, true_and, iff_true]
    intro htext
    rw [hst] at htext
    simp at htext

/-! ### SYN_SENT -/

theorem synsentAckOk_iff (sk : TcpSock) (th : TcpHdr) : synsentAckOk sk th = true ↔
    (sk.isn ≤ th.ackSeq ∧ th.ackSeq ≤ sk.sndNxt) ∧
      sk.sndUna ≤ th.ackSeq ∧ th.ackSeq ≤ sk.sndNxt := by
  unfold synsentAckOk
  simp

/-- The acknowledgement tests decide the same. -/
theorem synsentAckOk_shift_iff (cs cr : UInt32) (sk : TcpSock) (th : TcpHdr) :
    synsentAckOk (shift cs cr sk) (shiftHdr cr cs th) = synsentAckOk sk th ↔
      (Within sk.isn sk.sndNxt th.ackSeq → Within sk.sndUna sk.sndNxt th.ackSeq →
        (sk.isn + cs ≤ sk.sndNxt + cs ∧ sk.sndUna + cs ≤ sk.sndNxt + cs ↔
          sk.isn ≤ sk.sndNxt ∧ sk.sndUna ≤ sk.sndNxt)) := by
  rw [Bool.eq_iff_iff, synsentAckOk_iff, synsentAckOk_iff]
  show ((sk.isn + cs ≤ th.ackSeq + cs ∧ th.ackSeq + cs ≤ sk.sndNxt + cs) ∧
    sk.sndUna + cs ≤ th.ackSeq + cs ∧ th.ackSeq + cs ≤ sk.sndNxt + cs ↔ _) ↔ _
  rw [between_iff, between_iff, between_iff, between_iff, within_add, within_add]
  tauto

/-- The end of `tcp_synsent`. -/
def synsentEnd (sk : TcpSock) : TcpSock :=
  if sk.sndUna > sk.isn then
    { tcpSendAck { tcpSetState sk .established with sndUna := sk.sndNxt } with sleeping := false }
  else tcpSendSynack { tcpSetState sk .synReceived with sndUna := sk.isn }

theorem writeQueue_synsentEnd (sk : TcpSock) : (synsentEnd sk).writeQueue = sk.writeQueue := by
  unfold synsentEnd
  split_ifs
  · exact congrArg SendSide.writeQueue (sendSide_tcpSendAck _)
  · unfold tcpSendSynack
    split_ifs <;> rfl

theorem state_synsentEnd (sk : TcpSock) : (synsentEnd sk).state =
    if sk.sndUna > sk.isn then .established else .synReceived := by
  unfold synsentEnd
  split_ifs
  · exact congrArg Core.state (core_tcpSendAck _)
  · unfold tcpSendSynack
    split_ifs <;> rfl

theorem synsentEnd_shift (h : sk.isn + cs < sk.sndUna + cs ↔ sk.isn < sk.sndUna) :
    synsentEnd (shift cs cr sk) = shift cs cr (synsentEnd sk) := by
  have hack := tcpSendAck_shift cs cr { tcpSetState sk .established with sndUna := sk.sndNxt }
  have hsyn := tcpSendSynack_shift cs cr { tcpSetState sk .synReceived with sndUna := sk.isn }
  unfold synsentEnd
  by_cases hgt : sk.sndUna > sk.isn
  · have hgt' : (shift cs cr sk).sndUna > (shift cs cr sk).isn := h.mpr hgt
    rw [if_pos hgt, if_pos hgt']
    exact congrArg (fun s : TcpSock => { s with sleeping := false }) hack
  · have hgt' : ¬ (shift cs cr sk).sndUna > (shift cs cr sk).isn := fun h' => hgt (h.mp h')
    rw [if_neg hgt, if_neg hgt']
    exact hsyn

/-- The sock that a SYN has given its receive side. -/
def synTaken (sk : TcpSock) (seq : UInt32) : TcpSock := { sk with rcvNxt := seq + 1, irs := seq }

theorem synTaken_shift (seq : UInt32) :
    synTaken (shift cs cr sk) (seq + cr) = shift cs cr (synTaken sk seq) := by
  have hadd : seq + cr + 1 = seq + 1 + cr := by grind
  unfold synTaken shift
  simp only [hadd]

theorem tcpSynsent_eq (sk : TcpSock) (th : TcpHdr) : tcpSynsent sk th =
    if th.ack && !synsentAckOk sk th then sk
    else if th.rst then sk
    else if !th.syn then sk
    else synsentEnd (if th.ack then
        tcpCleanRetransmissionQueue { synTaken sk th.seq with sndUna := th.ackSeq } th.ackSeq
      else synTaken sk th.seq) := rfl

/-- A SYN without an acknowledgement: the end of `tcp_synsent` compares `isn` with `snd_una`. -/
theorem synsentEnd_synTaken_iff (seq : UInt32) :
    synsentEnd (shift cs cr (synTaken sk seq)) = shift cs cr (synsentEnd (synTaken sk seq)) ↔
      SameSide cs sk.isn sk.sndUna := by
  rw [← lt_add_iff]
  constructor
  · intro heq
    have hst := congrArg TcpSock.state heq
    have hside : ∀ s : TcpSock, (shift cs cr s).state = s.state := fun _ => rfl
    rw [hside, state_synsentEnd, state_synsentEnd] at hst
    by_cases h : sk.isn < sk.sndUna <;> by_cases h' : sk.isn + cs < sk.sndUna + cs
    · exact iff_of_true h' h
    · have h₁ : (synTaken sk seq).sndUna > (synTaken sk seq).isn := h
      have h₂ : ¬ (shift cs cr (synTaken sk seq)).sndUna > (shift cs cr (synTaken sk seq)).isn := h'
      rw [if_pos h₁, if_neg h₂] at hst
      simp at hst
    · have h₁ : ¬ (synTaken sk seq).sndUna > (synTaken sk seq).isn := h
      have h₂ : (shift cs cr (synTaken sk seq)).sndUna > (shift cs cr (synTaken sk seq)).isn := h'
      rw [if_neg h₁, if_pos h₂] at hst
      simp at hst
    · exact iff_of_false h' h
  · exact fun h => synsentEnd_shift h

/-- A SYN with an acceptable acknowledgement. -/
theorem synsentEnd_ack_iff {th : TcpHdr} (hok : synsentAckOk sk th = true)
    (hok' : synsentAckOk (shift cs cr sk) (shiftHdr cr cs th) = true) :
    synsentEnd (tcpCleanRetransmissionQueue
        { synTaken (shift cs cr sk) (th.seq + cr) with sndUna := th.ackSeq + cs } (th.ackSeq + cs)) =
        shift cs cr (synsentEnd (tcpCleanRetransmissionQueue
          { synTaken sk th.seq with sndUna := th.ackSeq } th.ackSeq)) ↔
      QueueCut cs th.ackSeq sk.writeQueue := by
  have hle := ((synsentAckOk_iff sk th).mp hok).1.1
  have hle' : sk.isn + cs ≤ th.ackSeq + cs := ((synsentAckOk_iff _ _).mp hok').1.1
  have hstart : { synTaken (shift cs cr sk) (th.seq + cr) with sndUna := th.ackSeq + cs } =
      shift cs cr { synTaken sk th.seq with sndUna := th.ackSeq } := by
    rw [synTaken_shift]; rfl
  obtain ⟨_, _, h1⟩ := tcpCleanRetransmissionQueue_eq
    { synTaken sk th.seq with sndUna := th.ackSeq } th.ackSeq
  obtain ⟨_, _, h2⟩ := tcpCleanRetransmissionQueue_eq
    { synTaken (shift cs cr sk) (th.seq + cr) with sndUna := th.ackSeq + cs } (th.ackSeq + cs)
  constructor
  · intro heq
    have hw := congrArg TcpSock.writeQueue heq
    have hsides : ∀ sk₁ : TcpSock, (shift cs cr sk₁).writeQueue =
        sk₁.writeQueue.map (shiftSkb cs cr) := fun _ => rfl
    rw [hsides, writeQueue_synsentEnd, writeQueue_synsentEnd, h1, h2] at hw
    exact (dropWhile_iff cs cr th.ackSeq sk.writeQueue).mp hw
  · intro hq
    refine (congrArg (fun s => synsentEnd (tcpCleanRetransmissionQueue s (th.ackSeq + cs)))
      hstart).trans ?_
    show synsentEnd (tcpCleanRetransmissionQueue _ _) = _
    rw [@tcpCleanRetransmissionQueue_shift cs cr { synTaken sk th.seq with sndUna := th.ackSeq } _
      hq]
    refine synsentEnd_shift ?_
    rw [h1]
    show sk.isn + cs < th.ackSeq + cs ↔ sk.isn < th.ackSeq
    have hne := add_eq_add_iff cs sk.isn th.ackSeq
    rw [Word32.eq_iff_toNat, Word32.eq_iff_toNat] at hne
    rw [Word32.le_iff] at hle hle'
    rw [Word32.lt_iff, Word32.lt_iff]
    omega

/-- `tcp_synsent` decides and does the same. -/
theorem sameRun_synSent (hst : sk.state = .synSent) :
    SameRun cs cr sk seg ↔ SynSentCut cs sk seg.th := by
  have hdrop : ∀ s : TcpSock, s.state = .synSent → ∀ seg, dropped s seg =
      if seg.th.ack && !synsentAckOk s seg.th then some .ackSeq
      else if seg.th.rst then some .rst
      else if !seg.th.syn then some .syn
      else none := fun s hs seg => by
    unfold dropped
    rw [hs]
  have hst' : (shift cs cr sk).state = .synSent := hst
  have hth : (shiftSeg cr cs seg).th = shiftHdr cr cs seg.th := rfl
  have hok := synsentAckOk_shift_iff cs cr sk seg.th
  unfold SameRun SynSentCut
  rw [tcpProcess_synSent hst, tcpProcess_synSent hst', hdrop sk hst, hdrop (shift cs cr sk) hst, ok_map_inj,
    tcpSynsent_eq, tcpSynsent_eq, hth, ← hok]
  simp only [show (shiftHdr cr cs seg.th).ack = seg.th.ack from rfl,
    show (shiftHdr cr cs seg.th).rst = seg.th.rst from rfl,
    show (shiftHdr cr cs seg.th).syn = seg.th.syn from rfl]
  cases hack : seg.th.ack
  · -- no acknowledgement: the first test passes
    simp only [Bool.false_and, Bool.false_eq_true, if_false, false_imp_iff, true_and, true_imp_iff]
    cases hrst : seg.th.rst
    · cases hsyn : seg.th.syn
      · simp
      · simp only [Bool.not_true, Bool.false_eq_true, if_false, true_imp_iff]
        have hseq : (shiftHdr cr cs seg.th).seq = seg.th.seq + cr := rfl
        rw [hseq, synTaken_shift]
        exact synsentEnd_synTaken_iff _
    · simp
  · -- an acknowledgement: it is tested first
    simp only [Bool.true_and, if_true, true_imp_iff, Bool.true_eq_false, false_imp_iff, and_true]
    cases hok₁ : synsentAckOk sk seg.th <;>
      cases hok₂ : synsentAckOk (shift cs cr sk) (shiftHdr cr cs seg.th)
    · simp
    · cases hrst : seg.th.rst <;> cases hsyn : seg.th.syn <;> simp
    · cases hrst : seg.th.rst <;> cases hsyn : seg.th.syn <;> simp
    · simp only [Bool.not_true, Bool.false_eq_true, if_false, true_and, true_imp_iff]
      cases hrst : seg.th.rst
      · cases hsyn : seg.th.syn
        · simp
        · simp only [Bool.not_true, Bool.false_eq_true, if_false, true_imp_iff]
          exact synsentEnd_ack_iff hok₁ hok₂
      · simp

/-! ### All states -/

theorem checked_shift (cs cr : UInt32) (sk : TcpSock) (seg : Seg) :
    checked (shift cs cr sk) (shiftSeg cr cs seg).th = shift cs cr (checked sk seg.th) := by
  unfold checked
  have hsyn : (shiftSeg cr cs seg).th.syn = seg.th.syn := rfl
  rw [hsyn]
  split_ifs
  · exact synCheck_shift cs cr sk
  · rfl

theorem processInWindow_eq (sk : TcpSock) (seg : Seg) :
    processInWindow sk seg.th (tcpInitSegment seg) =
      if !seg.th.ack then .ok (checked sk seg.th)
      else if seg.th.syn && (checked sk seg.th).freed then .error .freedSock
      else answer (checked sk seg.th) seg := by
  unfold processInWindow answer checked finish
  rfl

/-- The states in which the window filter is the first test. -/
def Filtered (st : TcpState) : Prop := st ≠ .close ∧ st ≠ .listen ∧ st ≠ .synSent

theorem tcpProcess_filtered (h : Filtered sk.state) (seg : Seg) : tcpProcess sk seg =
    if tcpPacketFilter sk seg.th (tcpInitSegment seg) then
      processInWindow sk seg.th (tcpInitSegment seg)
    else .ok (if seg.th.rst then sk else tcpSendAck sk) := by
  exact tcpProcess_filter h.1 h.2.1 h.2.2 seg

theorem dropped_filtered (h : Filtered sk.state) (seg : Seg) : dropped sk seg =
    if tcpPacketFilter sk seg.th (tcpInitSegment seg) then
      if !seg.th.ack then some .ackFlag
      else if seg.th.syn && (checked sk seg.th).freed then none
      else answerDrop (checked sk seg.th) seg
    else some .window := by
  obtain ⟨h₁, h₂, h₃⟩ := h
  unfold dropped answerDrop
  cases hst : sk.state <;> first | rfl | exact absurd hst ‹_›

theorem answerDrop_ne_window (sk : TcpSock) (seg : Seg) : answerDrop sk seg ≠ some .window := by
  unfold answerDrop
  split <;> simp

theorem dropped_eq_window (h : Filtered sk.state) (seg : Seg) : dropped sk seg = some .window ↔
    tcpPacketFilter sk seg.th (tcpInitSegment seg) = false := by
  rw [dropped_filtered h]
  cases tcpPacketFilter sk seg.th (tcpInitSegment seg)
  · simp
  · simp only [if_true, Bool.true_eq_false, iff_false]
    split_ifs
    · simp
    · simp
    · exact answerDrop_ne_window _ _

/-- A segment that is in the window of both socks. -/
theorem sameRun_inWindow (hst : Filtered sk.state)
    (hin : tcpPacketFilter sk seg.th (tcpInitSegment seg) = true)
    (hin' : tcpPacketFilter (shift cs cr sk) (shiftSeg cr cs seg).th
      (tcpInitSegment (shiftSeg cr cs seg)) = true) :
    SameRun cs cr sk seg ↔ (seg.th.ack = true →
      (seg.th.syn && (checked sk seg.th).freed) = false →
        AnswerCut cs cr (checked sk seg.th) seg) := by
  have hst' : Filtered (shift cs cr sk).state := hst
  have hack : (shiftSeg cr cs seg).th.ack = seg.th.ack := rfl
  have hsyn : (shiftSeg cr cs seg).th.syn = seg.th.syn := rfl
  unfold SameRun
  rw [dropped_filtered hst, dropped_filtered hst', tcpProcess_filtered hst,
    tcpProcess_filtered hst', hin, hin', processInWindow_eq, processInWindow_eq, hack, hsyn,
    checked_shift, freed_shift]
  simp only [if_true]
  cases seg.th.ack
  · exact iff_of_true ⟨rfl, rfl⟩ (by simp)
  · cases seg.th.syn && (checked sk seg.th).freed
    · have hans := sameAnswer_iff cs cr (checked sk seg.th) seg
      unfold SameAnswer at hans
      simpa using hans
    · exact iff_of_true ⟨rfl, rfl⟩ (by simp)

/-- The states with a window. -/
theorem sameRun_filtered (hst : Filtered sk.state) : SameRun cs cr sk seg ↔ WindowCut cr sk seg ∧
    (tcpPacketFilter sk seg.th (tcpInitSegment seg) = true → seg.th.ack = true →
      (seg.th.syn && (checked sk seg.th).freed) = false →
        AnswerCut cs cr (checked sk seg.th) seg) := by
  have hst' : Filtered (shift cs cr sk).state := hst
  rw [← @filter_iff cs cr sk seg]
  have hwin := dropped_eq_window hst seg
  have hwin' := dropped_eq_window hst' (shiftSeg cr cs seg)
  cases hin : tcpPacketFilter sk seg.th (tcpInitSegment seg) <;>
    cases hin' : tcpPacketFilter (shift cs cr sk) (shiftSeg cr cs seg).th
      (tcpInitSegment (shiftSeg cr cs seg))
  · -- both answer with an acknowledgement, if at all
    refine iff_of_true ⟨(hwin'.mpr hin').trans (hwin.mpr hin).symm, ?_⟩ (by simp)
    have hrst : (shiftSeg cr cs seg).th.rst = seg.th.rst := rfl
    rw [tcpProcess_filtered hst, tcpProcess_filtered hst', hin, hin', hrst]
    simp only [Bool.false_eq_true, if_false, ok_map_inj]
    split_ifs
    · rfl
    · exact tcpSendAck_shift cs cr sk
  · refine iff_of_false (fun h => ?_) (by simp)
    exact absurd (hwin'.mp (h.1.trans (hwin.mpr hin))) (by rw [hin']; simp)
  · refine iff_of_false (fun h => ?_) (by simp)
    exact absurd (hwin.mp (h.1.symm.trans (hwin'.mpr hin'))) (by rw [hin]; simp)
  · rw [sameRun_inWindow hst hin hin']
    simp

/-- **A move of the sequence numbers changes nothing that `tcp_process` decides or does if and only
if no comparison that it comes to depends on where the circle is cut.** -/
theorem sameRun_iff (cs cr : UInt32) (sk : TcpSock) (seg : Seg) (hst : sk.state ≠ .listen) :
    SameRun cs cr sk seg ↔ NotCut cs cr sk seg := by
  unfold NotCut
  cases h : sk.state
  case listen => exact absurd h hst
  case close =>
    refine iff_of_true ⟨?_, ?_⟩ trivial
    · unfold dropped
      rw [state_shift, h]
    · unfold tcpProcess
      rw [state_shift, h]
      exact congrArg Except.ok (tcpClosed_shift cs cr sk seg.th)
  case synSent => exact sameRun_synSent h
  all_goals exact sameRun_filtered (by rw [h]; exact ⟨by simp, by simp, by simp⟩)

/-- A pure acknowledgement in `ESTABLISHED`, far from the cut on both sides. -/
theorem sameRun_iff_ack :
    (TcpState.established ≠ .listen) ∧
      (SameRun 7 9 { state := .established, sndUna := 5, sndNxt := 6, rcvNxt := 1, rcvWnd := 44477 }
          { th := { seq := 1, ackSeq := 6, ack := true } } ↔
        NotCut 7 9
          { state := .established, sndUna := 5, sndNxt := 6, rcvNxt := 1, rcvWnd := 44477 }
          { th := { seq := 1, ackSeq := 6, ack := true } }) :=
  ⟨by decide, sameRun_iff 7 9 _ _ (by decide)⟩

/-- A receive window that reaches over the cut rejects every segment, also the next one expected. -/
theorem cutWindow_not_sameRun : ¬ ∀ (cs cr : UInt32) (sk : TcpSock) (seg : Seg),
    sk.state ≠ .listen → SameRun cs cr sk seg := by
  intro h
  have hrun := (h 0 4294967294
    { state := .established, sndUna := 5, sndNxt := 5, rcvNxt := 1, rcvWnd := 44477 }
    { th := { seq := 1, ackSeq := 5, ack := true }, dlen := 1, payload := [65] } (by decide)).1
  revert hrun
  decide

end ToyIP.Tcp.Wrap
