import Mathlib.Data.List.TakeWhile
import ToyIP.Lib.Run
import ToyIP.Lib.Word32
import ToyIP.Tcp.Effects

/-! # TCP: the retransmission queue

One side of a connection sends octets, bytes and a FIN, that are numbered from `base` on. `Kept`
says that the octets from `snd_una` on are in the write queue. `tcp_transmit_skb` records for a
buffer the range that starts at `snd_una`, not at the sequence number it was sent with, so the end
recorded for a buffer can lie below its own octets, and `tcp_clean_retransmission_queue` can drop a
buffer that is not acknowledged. `kept_iff` says when it does: if and only if some acknowledgement
ends below a queued buffer although no end recorded up to that buffer lies beyond it (`Covered`). -/

namespace ToyIP.Tcp.Retransmit

open ToyIP.Lib ToyIP.Lib.Run ToyIP.Tcp.Types ToyIP.Tcp.Output ToyIP.Tcp.Input ToyIP.Tcp.Sock
  ToyIP.Tcp.Sides ToyIP.Tcp.Effects

/-- What has a sequence number of its own: a byte of the stream, or the FIN. -/
inductive Octet
  | byte (b : UInt8) | fin
  deriving DecidableEq, Repr

/-- The octets of a buffer. -/
def octets (skb : Skb) : List Octet :=
  skb.payload.map Octet.byte ++ if skb.th.fin then [.fin] else []

/-- The octets of a queue. -/
def queueOctets (q : List Skb) : List Octet := q.flatMap octets

/-- A sock with the octets it has sent since the handshake; the first one has the number `base`. -/
structure Sender where
  sk : TcpSock
  base : UInt32
  sent : List Octet := []

/-- A call of the socket layer, a call of the output functions themselves, a retransmission timeout,
or a segment without SYN. -/
inductive SendEvent
  | write (buf : List UInt8)
  | close
  | send (buf : List UInt8)
  | queueFin
  | timeout
  | segment (seg : Seg)

/-- The octets an event sends. -/
def SendEvent.sends (sk : TcpSock) : SendEvent → List Octet
  | .write buf =>
    match sk.state with
    | .established | .closeWait => buf.map Octet.byte
    | _ => []
  | .close =>
    match sk.state with
    | .synSent | .synReceived | .established | .closeWait => [.fin]
    | _ => []
  | .send buf => buf.map Octet.byte
  | .queueFin => [.fin]
  | .timeout | .segment _ => []

/-- The sock after an event. -/
def SendEvent.apply (sk : TcpSock) : SendEvent → Option TcpSock
  | .write buf => some (tcpWrite sk buf).1
  | .close => some (tcpClose sk).1
  | .send buf => some (tcpSend sk buf)
  | .queueFin => some (tcpQueueFin sk)
  | .timeout => some (tcpRetransmissionTimeout sk)
  | .segment seg =>
    if seg.th.syn then none
    else match tcpProcess sk seg with
      | .ok sk => some sk
      | .error _ => none

/-- One event, as long as no sequence number wraps. -/
def sendStep (s : Sender) (e : SendEvent) : Option Sender :=
  if s.base.toNat + s.sent.length + (e.sends s.sk).length < 4294967296 then
    (e.apply s.sk).map fun sk => { s with sk := sk, sent := s.sent ++ e.sends s.sk }
  else none

/-- The octets that are not acknowledged are in the write queue. -/
def Kept (s : Sender) : Prop :=
  s.sent.drop (s.sk.sndUna.toNat - s.base.toNat) <:+ queueOctets s.sk.writeQueue

/-- `tcp_process` takes the acknowledgement of the segment. -/
def AckTaken (sk : TcpSock) (seg : Seg) : Prop :=
  tcpPacketFilter sk seg.th (tcpInitSegment seg) = true ∧ seg.th.ack = true ∧
    sk.sndUna < seg.th.ackSeq ∧ seg.th.ackSeq ≤ sk.sndNxt

instance (sk : TcpSock) (seg : Seg) : Decidable (AckTaken sk seg) :=
  inferInstanceAs (Decidable (_ ∧ _))

/-- Every queued buffer whose last octet is `ack` or later is, or stands behind, a buffer for which
an end beyond `ack` was recorded. -/
def Covered (sk : TcpSock) (ack : UInt32) : Prop :=
  ∀ p skb r, sk.writeQueue = p ++ skb :: r →
    ack.toNat + (queueOctets r).length < sk.sndNxt.toNat → ∃ x ∈ p ++ [skb], ack < x.endSeq

/-- The acknowledgement of the event, if any, finds the queue covered. -/
def AckSafe (s : Sender) : SendEvent → Prop
  | .segment seg => AckTaken s.sk seg → Covered s.sk seg.th.ackSeq
  | _ => True

/-! ### The octets of the queue -/

@[simp] theorem queueOctets_nil : queueOctets [] = [] := rfl

@[simp] theorem queueOctets_cons (skb : Skb) (q : List Skb) :
    queueOctets (skb :: q) = octets skb ++ queueOctets q := by
  simp [queueOctets]

@[simp] theorem queueOctets_append (p q : List Skb) :
    queueOctets (p ++ q) = queueOctets p ++ queueOctets q := by
  simp [queueOctets]

/-- Transmission rewrites the header but keeps the flags and the text. -/
@[simp] theorem octets_sentSkb (sk : TcpSock) (skb : Skb) (seq : UInt32) :
    octets (sentSkb sk skb seq) = octets skb := rfl

theorem octets_dataSkb (chunk : List UInt8) (psh : Bool) :
    octets (dataSkb chunk psh) = chunk.map Octet.byte := by
  simp [octets, dataSkb]

/-! ### What an event does to the send side -/

/-- The sock has sent the octets `o`, and nothing was acknowledged. -/
structure Grows (sk sk' : TcpSock) (o : List Octet) : Prop where
  una : sk'.sndUna = sk.sndUna
  nxt : sk.sndNxt.toNat + o.length < 4294967296 → sk'.sndNxt.toNat = sk.sndNxt.toNat + o.length
  queue : queueOctets sk'.writeQueue = queueOctets sk.writeQueue ++ o
  core : core sk' = { core sk with state := sk'.state }
  live : Live sk.state → Live sk'.state

theorem Grows.of_sendSide {sk sk' : TcpSock} (h : sendSide sk' = sendSide sk)
    (hc : Sides.core sk' = { Sides.core sk with state := sk'.state })
    (hl : Live sk.state → Live sk'.state) : Grows sk sk' [] where
  una := congrArg SendSide.sndUna h
  nxt := fun _ => congrArg (fun s => s.sndNxt.toNat) h
  queue := by
    rw [List.append_nil]
    exact congrArg (fun s => queueOctets s.writeQueue) h
  core := hc
  live := hl

theorem Grows.trans {a b c : TcpSock} {o o' : List Octet} (h : Grows a b o) (h' : Grows b c o') :
    Grows a c (o ++ o') where
  una := h'.una.trans h.una
  nxt := fun hw => by
    rw [List.length_append] at hw ⊢
    have h1 := h.nxt (by omega)
    rw [h'.nxt (by omega), h1, Nat.add_assoc]
  queue := by rw [h'.queue, h.queue, List.append_assoc]
  core := by rw [h'.core, h.core]
  live := fun hl => h'.live (h.live hl)

theorem Grows.setState {sk sk' : TcpSock} {o : List Octet} (h : Grows sk sk' o) {st : TcpState}
    (hl : Live st) : Grows sk (tcpSetState sk' st) o where
  una := h.una
  nxt := h.nxt
  queue := h.queue
  core := by
    have hc := h.core
    show { Sides.core sk' with state := st } = _
    rw [hc]; rfl
  live := fun _ => hl

/-- The length of the text is what `snd_nxt` advances by. -/
theorem grows_tcpQueueTransmitSkb (sk : TcpSock) {skb : Skb}
    (h : skb.dlen.toNat = (octets skb).length) :
    Grows sk (tcpQueueTransmitSkb sk skb) (octets skb) := by
  obtain ⟨timers, retransmit, heq⟩ := tcpQueueTransmitSkb_eq sk skb
  rw [heq]
  refine ⟨rfl, fun hw => ?_, ?_, rfl, id⟩
  · rw [← h] at hw ⊢
    exact Word32.toNat_add_of_lt hw
  · simp

theorem grows_tcpSend {sk : TcpSock} (hmss : 0 < sk.smss) (buf : List UInt8) :
    Grows sk (tcpSend sk buf) (buf.map Octet.byte) := by
  have h : ∃ o, o ++ [].map Octet.byte = buf.map Octet.byte ∧ Grows sk (tcpSend sk buf) o := by
    refine tcpSend_ind (P := fun sk' rest =>
      ∃ o, o ++ rest.map Octet.byte = buf.map Octet.byte ∧ Grows sk sk' o) ?_ hmss
      ⟨[], rfl, Grows.of_sendSide rfl rfl id⟩
    rintro sk' chunk rest psh - hlen ⟨o, ho, hg⟩
    have hd : (dataSkb chunk psh).dlen.toNat = (octets (dataSkb chunk psh)).length := by
      rw [octets_dataSkb, List.length_map]
      exact Word32.toNat_ofNat (by omega)
    have hstep := grows_tcpQueueTransmitSkb sk' hd
    rw [octets_dataSkb] at hstep
    refine ⟨o ++ chunk.map Octet.byte, ?_, hg.trans hstep⟩
    rw [List.append_assoc, ← List.map_append, ho]
  obtain ⟨o, ho, hg⟩ := h
  rw [List.map_nil, List.append_nil] at ho
  exact ho ▸ hg

theorem grows_tcpQueueFin (sk : TcpSock) : Grows sk (tcpQueueFin sk) [.fin] := by
  obtain ⟨timers, retransmit, heq⟩ :=
    tcpQueueTransmitSkb_eq sk { tcpAllocSkb 0 with th := { fin := true, ack := true } }
  unfold tcpQueueFin
  rw [heq]
  refine ⟨rfl, fun hw => ?_, ?_, rfl, id⟩
  · show (sk.sndNxt + 0 + 1).toNat = _
    rw [UInt32.add_zero]
    exact Word32.toNat_add_of_lt hw
  · simp only [queueOctets_append, queueOctets_cons, queueOctets_nil, octets_sentSkb]
    rfl

theorem grows_tcpRetransmissionTimeout (sk : TcpSock) :
    Grows sk (tcpRetransmissionTimeout sk) [] := by
  cases hq : sk.writeQueue with
  | nil =>
    obtain ⟨sleeping, timers, heq⟩ := tcpRetransmissionTimeout_nil hq
    rw [heq]
    exact Grows.of_sendSide rfl rfl id
  | cons skb q =>
    obtain ⟨timers, retransmit, heq⟩ := tcpRetransmissionTimeout_cons hq
    rw [heq]
    refine ⟨rfl, fun _ => rfl, ?_, rfl, fun hl => ?_⟩
    · rw [hq]
      simp
    · show Live (if skb.th.fin then refinState sk.state else sk.state)
      split_ifs
      · exact live_refinState hl
      · exact hl

/-- Every event but a segment sends its octets. -/
theorem grows_apply {sk sk' : TcpSock} (hmss : 0 < sk.smss) (hlive : Live sk.state) :
    ∀ {e : SendEvent}, (∀ seg, e ≠ .segment seg) → e.apply sk = some sk' →
      Grows sk sk' (e.sends sk)
  | .write buf, _, h => by
    obtain rfl := Option.some.inj h
    by_cases hopen : sk.state = .established ∨ sk.state = .closeWait
    · rw [tcpWrite_open hopen]
      have hg := grows_tcpSend hmss buf
      unfold SendEvent.sends
      rcases hopen with hs | hs <;> rw [hs] <;> exact hg
    · rw [not_or] at hopen
      rw [tcpWrite_not_open hopen.1 hopen.2]
      have hnone : SendEvent.sends sk (.write buf) = [] := by
        unfold SendEvent.sends
        cases hs : sk.state <;> first | rfl | exact absurd hs hopen.1 | exact absurd hs hopen.2
      rw [hnone]
      exact Grows.of_sendSide rfl rfl id
  | .close, _, h => by
    obtain rfl := Option.some.inj h
    have hfin := grows_tcpQueueFin sk
    unfold SendEvent.sends
    cases hs : sk.state <;> rw [hs] at hlive
    case established =>
      rw [tcpClose_open (Or.inl hs)]
      exact hfin.setState trivial
    case closeWait =>
      rw [tcpClose_closeWait hs]
      exact hfin.setState trivial
    case listen => exact hlive.elim
    case synSent => exact hlive.elim
    case synReceived => exact hlive.elim
    case close => exact hlive.elim
    all_goals
      rw [tcpClose_closing (by simp [hs])]
      exact Grows.of_sendSide rfl rfl id
  | .send buf, _, h => by
    obtain rfl := Option.some.inj h
    exact grows_tcpSend hmss buf
  | .queueFin, _, h => by
    obtain rfl := Option.some.inj h
    exact grows_tcpQueueFin sk
  | .timeout, _, h => by
    obtain rfl := Option.some.inj h
    exact grows_tcpRetransmissionTimeout sk
  | .segment seg, hseg, _ => absurd rfl (hseg seg)

/-- A segment acts on the send side by its acknowledgement alone. -/
theorem sendSide_processed {sk : TcpSock} {seg : Seg} (hsyn : seg.th.syn = false) :
    sendSide (processed sk seg) =
      if AckTaken sk seg then
        { sendSide sk with
          sndUna := seg.th.ackSeq
          writeQueue := sk.writeQueue.dropWhile fun skb => skb.endSeq ≤ seg.th.ackSeq }
      else sendSide sk := by
  have hafter : afterSyn sk seg.th = sk := by
    unfold afterSyn
    rw [hsyn]
    rfl
  have htake : sendSide (takeAck sk seg.th) =
      if sk.sndUna < seg.th.ackSeq ∧ seg.th.ackSeq ≤ sk.sndNxt then
        { sendSide sk with
          sndUna := seg.th.ackSeq
          writeQueue := sk.writeQueue.dropWhile fun skb => skb.endSeq ≤ seg.th.ackSeq }
      else sendSide sk := by
    split_ifs with h
    · obtain ⟨timers, retransmit, heq⟩ := takeAck_of_taken h
      rw [heq]; rfl
    · rw [takeAck_of_not_taken h]
  unfold processed AckTaken
  rw [hafter]
  by_cases hf : tcpPacketFilter sk seg.th (tcpInitSegment seg) = true
  · by_cases ha : seg.th.ack = true
    · simp only [hf, ha, if_true, true_and]
      split_ifs
      · rw [sendSide_textFin, htake]; simp [*]
      · rw [sendSide_textFin, htake]; simp [*]
      · rw [htake]; simp [*]
      · rw [htake]; simp [*]
    · simp [hf, ha]
  · simp only [hf, if_false, false_and, Bool.false_eq_true]
    split_ifs
    · rfl
    · exact sendSide_tcpSendAck sk

/-! ### The invariant -/

/-- The write queue holds the last octets sent, and `snd_nxt` counts all of them. -/
structure SendInv (s : Sender) : Prop where
  live : Live s.sk.state
  freed : s.sk.freed = false
  mss : 0 < s.sk.smss
  wrap : s.base.toNat + s.sent.length < 4294967296
  nxt : s.sk.sndNxt.toNat = s.base.toNat + s.sent.length
  una : s.base.toNat ≤ s.sk.sndUna.toNat ∧ s.sk.sndUna.toNat ≤ s.sk.sndNxt.toNat
  queue : queueOctets s.sk.writeQueue <:+ s.sent

/-- The queue holds what is not acknowledged if it is long enough. -/
theorem kept_iff_length {s : Sender} (h : SendInv s) :
    Kept s ↔ s.sk.sndNxt.toNat ≤ s.sk.sndUna.toNat + (queueOctets s.sk.writeQueue).length := by
  have hnxt := h.nxt
  have huna := h.una
  unfold Kept
  constructor
  · intro hk
    have hle := hk.length_le
    rw [List.length_drop] at hle
    omega
  · intro hle
    refine List.suffix_of_suffix_length_le (List.drop_suffix _ _) h.queue ?_
    rw [List.length_drop]
    omega

/-- Sending keeps the invariant, and the new octets are in the queue. -/
theorem Grows.sendInv {s : Sender} (h : SendInv s) {sk : TcpSock} {o : List Octet}
    (hg : Grows s.sk sk o) (hlive : Live sk.state)
    (hw : s.base.toNat + s.sent.length + o.length < 4294967296) :
    SendInv { s with sk := sk, sent := s.sent ++ o } ∧
      (Kept s ↔ Kept { s with sk := sk, sent := s.sent ++ o }) := by
  have hnxt := h.nxt
  have huna := h.una
  have hnxt' := hg.nxt (by omega)
  have hinv : SendInv { s with sk := sk, sent := s.sent ++ o } := by
    refine ⟨hlive, ?_, ?_, ?_, ?_, ?_, ?_⟩
    · exact (congrArg Core.freed hg.core).trans h.freed
    · have : sk.smss = s.sk.smss := congrArg Core.smss hg.core
      show 0 < sk.smss
      rw [this]; exact h.mss
    · show s.base.toNat + (s.sent ++ o).length < _
      rw [List.length_append]
      omega
    · show sk.sndNxt.toNat = s.base.toNat + (s.sent ++ o).length
      rw [List.length_append]
      omega
    · show s.base.toNat ≤ sk.sndUna.toNat ∧ sk.sndUna.toNat ≤ sk.sndNxt.toNat
      rw [hg.una]
      omega
    · show queueOctets sk.writeQueue <:+ _
      rw [hg.queue]
      obtain ⟨l, hl⟩ := h.queue
      exact ⟨l, by rw [← hl, List.append_assoc]⟩
  refine ⟨hinv, ?_⟩
  rw [kept_iff_length h, kept_iff_length hinv]
  show _ ↔ sk.sndNxt.toNat ≤ sk.sndUna.toNat + (queueOctets sk.writeQueue).length
  rw [hg.una, hg.queue, List.length_append, hnxt']
  omega

/-! ### The clean-up of the queue -/

theorem queueOctets_dropWhile_suffix (p : Skb → Bool) (q : List Skb) :
    queueOctets (q.dropWhile p) <:+ queueOctets q := by
  obtain ⟨l, hl⟩ := List.dropWhile_suffix (l := q) p
  exact ⟨queueOctets l, by rw [← queueOctets_append, hl]⟩

/-- The clean-up leaves the octets from `ack` on if and only if the queue is covered. -/
theorem length_clean_iff {sk : TcpSock} {ack : UInt32}
    (hkept : sk.sndNxt.toNat ≤ ack.toNat + (queueOctets sk.writeQueue).length) :
    sk.sndNxt.toNat ≤ ack.toNat +
        (queueOctets (sk.writeQueue.dropWhile fun skb => skb.endSeq ≤ ack)).length ↔
      Covered sk ack := by
  set f : Skb → Bool := fun skb => skb.endSeq ≤ ack with hf
  constructor
  · intro hle p skb r hq hlt
    by_contra hnone
    push Not at hnone
    -- all buffers up to `skb` are dropped, so no more than `r` is left
    have hall : ∀ x ∈ p ++ [skb], f x = true := fun x hx => by
      rw [hf]
      exact decide_eq_true (UInt32.not_lt.mp (hnone x hx))
    have hdrop : sk.writeQueue.dropWhile f = r.dropWhile f := by
      have hsplit : sk.writeQueue = (p ++ [skb]) ++ r := by rw [hq]; simp
      rw [hsplit, List.dropWhile_append_of_pos hall]
    rw [hdrop] at hle
    have := (queueOctets_dropWhile_suffix f r).length_le
    omega
  · intro hcov
    have hsplit := List.takeWhile_append_dropWhile (p := f) (l := sk.writeQueue)
    rcases List.eq_nil_or_concat (sk.writeQueue.takeWhile f) with hnil | ⟨p, skb, hp⟩
    · rw [hnil, List.nil_append] at hsplit
      rwa [hsplit]
    · by_contra hlt
      rw [hp, List.concat_eq_append, List.append_assoc, List.singleton_append] at hsplit
      obtain ⟨x, hx, hgt⟩ := hcov p skb _ hsplit.symm (by omega)
      have hdropped : f x = true := by
        have hmem : x ∈ sk.writeQueue.takeWhile f := by rw [hp, List.concat_eq_append]; exact hx
        exact List.mem_takeWhile_imp hmem
      rw [hf] at hdropped
      exact absurd hgt (UInt32.not_lt.mpr (of_decide_eq_true hdropped))

/-- An acknowledgement keeps the invariant, and it keeps the octets behind it if and only if the
queue is covered. -/
theorem takeAck_spec {s : Sender} (h : SendInv s) {seg : Seg} {sk : TcpSock}
    (hack : s.sk.sndUna < seg.th.ackSeq ∧ seg.th.ackSeq ≤ s.sk.sndNxt)
    (hsend : sendSide sk = { sendSide s.sk with
      sndUna := seg.th.ackSeq
      writeQueue := s.sk.writeQueue.dropWhile fun skb => skb.endSeq ≤ seg.th.ackSeq })
    (hcore : core sk = { core s.sk with state := sk.state }) (hlive : Live sk.state) :
    SendInv { s with sk := sk } ∧
      (Kept s → (Kept { s with sk := sk } ↔ Covered s.sk seg.th.ackSeq)) := by
  have huna : sk.sndUna = seg.th.ackSeq := congrArg SendSide.sndUna hsend
  have hnxt : sk.sndNxt = s.sk.sndNxt := congrArg SendSide.sndNxt hsend
  have hqueue : sk.writeQueue = _ := congrArg SendSide.writeQueue hsend
  have h1 := Word32.lt_iff.mp hack.1
  have h2 := Word32.le_iff.mp hack.2
  have hbase := h.una.1
  have hinv : SendInv { s with sk := sk } := by
    refine ⟨hlive, (congrArg Core.freed hcore).trans h.freed, ?_, h.wrap, ?_, ?_, ?_⟩
    · show 0 < sk.smss
      rw [show sk.smss = s.sk.smss from congrArg Core.smss hcore]
      exact h.mss
    · show sk.sndNxt.toNat = _
      rw [hnxt]; exact h.nxt
    · show s.base.toNat ≤ sk.sndUna.toNat ∧ sk.sndUna.toNat ≤ sk.sndNxt.toNat
      rw [huna, hnxt]
      omega
    · show queueOctets sk.writeQueue <:+ s.sent
      rw [hqueue]
      exact (queueOctets_dropWhile_suffix _ _).trans h.queue
  refine ⟨hinv, fun hk => ?_⟩
  rw [kept_iff_length h] at hk
  rw [kept_iff_length hinv, ← length_clean_iff (by omega)]
  show sk.sndNxt.toNat ≤ sk.sndUna.toNat + (queueOctets sk.writeQueue).length ↔ _
  rw [huna, hnxt, hqueue]

/-! ### Runs -/

theorem sendStep_some {s s' : Sender} {e : SendEvent} (h : sendStep s e = some s') :
    s.base.toNat + s.sent.length + (e.sends s.sk).length < 4294967296 ∧
      ∃ sk, e.apply s.sk = some sk ∧ s' = { s with sk := sk, sent := s.sent ++ e.sends s.sk } := by
  unfold sendStep at h
  split_ifs at h with hw
  obtain ⟨sk, hsk, rfl⟩ := Option.map_eq_some_iff.mp h
  exact ⟨hw, sk, hsk, rfl⟩

/-- One event keeps the invariant, and it keeps the unacknowledged octets in the queue if and only
if it is safe. -/
theorem sendStep_spec {s s' : Sender} {e : SendEvent} (h : SendInv s)
    (hstep : sendStep s e = some s') : SendInv s' ∧ (Kept s → (Kept s' ↔ AckSafe s e)) := by
  obtain ⟨hw, sk, hsk, rfl⟩ := sendStep_some hstep
  by_cases hseg : ∀ seg, e ≠ .segment seg
  · have hg := grows_apply h.mss h.live hseg hsk
    obtain ⟨hinv, hiff⟩ := hg.sendInv h (hg.live h.live) hw
    refine ⟨hinv, fun hk => ?_⟩
    have hsafe : AckSafe s e := by cases e <;> first | trivial | exact absurd rfl (hseg _)
    exact ⟨fun _ => hsafe, fun _ => hiff.mp hk⟩
  · push Not at hseg
    obtain ⟨seg, rfl⟩ := hseg
    simp only [SendEvent.apply, tcpProcess_eq h.live.synchronized h.freed] at hsk
    split_ifs at hsk with hsyn
    rw [Option.some.injEq] at hsk
    subst hsk
    have hsend := @sendSide_processed s.sk seg (Bool.eq_false_iff.mpr hsyn)
    obtain ⟨hcore, hlive⟩ := core_processed h.live seg
    simp only [SendEvent.sends, List.append_nil, AckSafe]
    by_cases hack : AckTaken s.sk seg
    · rw [if_pos hack] at hsend
      obtain ⟨hinv, hiff⟩ := takeAck_spec h hack.2.2 hsend hcore hlive
      exact ⟨hinv, fun hk => (hiff hk).trans ⟨fun hc _ => hc, fun hc => hc hack⟩⟩
    · rw [if_neg hack] at hsend
      have hg := Grows.of_sendSide hsend hcore fun _ => hlive
      obtain ⟨hinv, hiff⟩ := hg.sendInv h hlive (by simpa using h.wrap)
      rw [List.append_nil] at hinv hiff
      exact ⟨hinv, fun hk => ⟨fun _ h' => absurd h' hack, fun _ => hiff.mp hk⟩⟩

/-- **The unacknowledged octets are in the write queue in every state of a run if and only if every
acknowledgement of the run finds the queue covered.** The run starts behind the handshake, with
nothing sent. -/
theorem kept_iff {sk : TcpSock} (hst : sk.state = .established) (hfreed : sk.freed = false)
    (hmss : 0 < sk.smss) (huna : sk.sndUna = sk.sndNxt) (hqueue : sk.writeQueue = [])
    {events : List SendEvent} {t : Sender}
    (hrun : run sendStep { sk := sk, base := sk.sndNxt } events = some t) :
    Always sendStep Kept { sk := sk, base := sk.sndNxt } events ↔
      Along sendStep AckSafe { sk := sk, base := sk.sndNxt } events := by
  have hinv : SendInv { sk := sk, base := sk.sndNxt } := by
    refine ⟨?_, hfreed, hmss, sk.sndNxt.toNat_lt, rfl, ?_, ?_⟩
    · show Live sk.state
      rw [hst]; trivial
    · show sk.sndNxt.toNat ≤ sk.sndUna.toNat ∧ sk.sndUna.toNat ≤ sk.sndNxt.toNat
      rw [huna]
      exact ⟨Nat.le_refl _, Nat.le_refl _⟩
    · show queueOctets sk.writeQueue <:+ []
      rw [hqueue]
      exact List.suffix_refl _
  have hkept : Kept { sk := sk, base := sk.sndNxt } := by
    show [].drop _ <:+ _
    rw [List.drop_nil]
    exact List.nil_suffix
  exact always_iff_along (fun _ _ _ h _ hs _ => (sendStep_spec h hs).1)
    (fun _ _ _ h hk hs => (sendStep_spec h hs).2 hk) hinv hkept hrun

/-- A server that has just accepted a connection. -/
def server : TcpSock := { state := .established, isn := 0, sndUna := 1, sndNxt := 1, rcvNxt := 501 }

/-- The acknowledgement of everything before `ack`. -/
def ackOf (ack : UInt32) : Seg := { th := { seq := 501, ackSeq := ack, ack := true } }

theorem kept_iff_oneWrite : ∃ t,
    run sendStep { sk := server, base := 1 } [.write [7, 8], .segment (ackOf 2)] = some t ∧
      (Always sendStep Kept { sk := server, base := 1 } [.write [7, 8], .segment (ackOf 2)] ↔
        Along sendStep AckSafe { sk := server, base := 1 }
          [.write [7, 8], .segment (ackOf 2)]) := by
  have hsome : (run sendStep { sk := server, base := 1 }
    [.write [7, 8], .segment (ackOf 2)]).isSome = true := by decide
  obtain ⟨t, ht⟩ := Option.isSome_iff_exists.mp hsome
  exact ⟨t, ht, kept_iff rfl rfl (by decide) rfl rfl ht⟩

/-- Two bytes, then one: the acknowledgement of the two empties the queue. -/
theorem small_write_not_kept : ¬ ∀ (sk : TcpSock), sk.state = .established → sk.freed = false →
    0 < sk.smss → sk.sndUna = sk.sndNxt → sk.writeQueue = [] →
    ∀ (events : List SendEvent) (t : Sender),
      run sendStep { sk := sk, base := sk.sndNxt } events = some t →
        Always sendStep Kept { sk := sk, base := sk.sndNxt } events := by
  intro h
  have hrun : (run sendStep { sk := server, base := 1 }
      [.write [7, 8], .write [9], .segment (ackOf 3)]).map
        (fun t => (t.sent, t.sk.sndUna, t.sk.writeQueue)) =
      some ([.byte 7, .byte 8, .byte 9], 3, []) := by decide
  obtain ⟨t, ht, heq⟩ := Option.map_eq_some_iff.mp hrun
  have hkept := h server rfl rfl (by decide) rfl rfl _ t ht _ [] t (List.append_nil _).symm ht
  obtain ⟨hsent, huna, hqueue⟩ : t.sent = _ ∧ t.sk.sndUna = 3 ∧ t.sk.writeQueue = [] := by
    simpa using heq
  have hbase : t.base = 1 := by
    have : (run sendStep { sk := server, base := 1 }
      [.write [7, 8], .write [9], .segment (ackOf 3)]).map Sender.base = some 1 := by decide
    rw [ht] at this
    exact Option.some.inj this
  unfold Kept at hkept
  rw [hsent, huna, hqueue, hbase] at hkept
  exact absurd hkept (by decide)

end ToyIP.Tcp.Retransmit
