import ToyIP.Lib.Run
import ToyIP.Lib.Word32
import ToyIP.Tcp.Sides

/-! # TCP: the receiver

A stream `S` is sent to a sock in segments that each carry the part of `S` at their sequence number,
counted from `irs + 1` modulo `2^32`. Whatever the segmentation, the order, the losses and the
duplicates, the bytes the reader has got and the bytes in the receive queue are the first bytes of
`S`, as many as `rcv_nxt` says, and the FIN is consumed behind the last byte only:
`receiver_integrity`.

The invariant is `Stream`: the two queues against `S`. The text of a segment (`Stream.takeText`) and
a read (`Stream.dequeue`) keep it, everything else in `tcp_process` leaves the receive side alone.
-/

namespace ToyIP.Tcp.Receiver

open ToyIP.Lib ToyIP.Lib.Run ToyIP.Tcp.Types ToyIP.Tcp.Output ToyIP.Tcp.Data ToyIP.Tcp.Input
  ToyIP.Tcp.Sock ToyIP.Tcp.Sides

/-- The bytes of a queue. -/
def text (q : List Skb) : List UInt8 := q.flatMap Skb.payload

/-- The place in the stream that a sequence number stands for. -/
def offset (irs seq : UInt32) : ℕ := (seq - (irs + 1)).toNat

/-- A buffer with the part of `S` at its sequence number. -/
structure PartOf (S : List UInt8) (irs : UInt32) (skb : Skb) : Prop where
  len : skb.payload.length = skb.dlen.toNat
  part : skb.payload = (S.drop (offset irs skb.seq)).take skb.dlen.toNat

/-- A segment of a peer that sends the stream `S`: its text is the part of `S` at its sequence
number, and it has a FIN only if it ends where `S` ends. Its other flags, its acknowledgement and
its window are arbitrary. -/
structure Conforms (S : List UInt8) (irs : UInt32) (seg : Seg) : Prop where
  text : PartOf S irs (tcpInitSegment seg)
  fin : seg.th.fin = true → offset irs seg.th.seq + seg.dlen.toNat = S.length

/-- The first `n` bytes of `S` are with the reader, who has `got`, or in the receive queue, and the
out-of-order queue holds parts of `S`. -/
structure Stream (S got : List UInt8) (n : ℕ) (r : RecvSide) : Prop where
  le : n ≤ S.length
  bytes : got ++ text r.receiveQueue = S.take n
  len : ∀ skb ∈ r.receiveQueue, skb.payload.length = skb.dlen.toNat
  ofo : ∀ skb ∈ r.ofoQueue, PartOf S r.irs skb

variable {S got : List UInt8} {irs : UInt32} {n : ℕ}

/-! ### Offsets -/

theorem offset_add (irs seq d : UInt32) (h : offset irs seq + d.toNat < 4294967296) :
    offset irs (seq + d) = offset irs seq + d.toNat := by
  unfold offset at h ⊢
  rw [show seq + d - (irs + 1) = seq - (irs + 1) + d by grind, Word32.toNat_add_of_lt h]

theorem offset_inj {a b : UInt32} (h : offset irs a = offset irs b) : a = b :=
  (UInt32.sub_left_inj _).mp (UInt32.toNat_inj.mp h)

@[simp] theorem text_nil : text [] = [] := rfl

@[simp] theorem text_cons (skb : Skb) (q : List Skb) : text (skb :: q) = skb.payload ++ text q := by
  simp [text]

@[simp] theorem text_append (p q : List Skb) : text (p ++ q) = text p ++ text q := by
  simp [text]

/-- A part of the stream that starts within it ends within it. -/
theorem PartOf.le {skb : Skb} (h : PartOf S irs skb) (hle : offset irs skb.seq ≤ S.length) :
    offset irs skb.seq + skb.dlen.toNat ≤ S.length := by
  have hlen := h.len
  rw [h.part, List.length_take, List.length_drop] at hlen
  omega

/-- The part at `n` takes the first `n` bytes further. -/
theorem PartOf.take {skb : Skb} (h : PartOf S irs skb) :
    S.take (offset irs skb.seq) ++ skb.payload = S.take (offset irs skb.seq + skb.dlen.toNat) := by
  rw [h.part, List.take_add]

/-- A part of a stream is a part of every longer one. -/
theorem PartOf.append {skb : Skb} (h : PartOf S irs skb) (T : List UInt8) :
    PartOf (S ++ T) irs skb := by
  refine ⟨h.len, ?_⟩
  have hlen := h.len
  rw [h.part, List.length_take, List.length_drop] at hlen
  rw [h.part, List.drop_append, List.take_append, List.length_drop]
  have : skb.dlen.toNat - (S.length - offset irs skb.seq) = 0 := by omega
  rw [this, List.take_zero, List.append_nil]

theorem Stream.isPrefix {r : RecvSide} (h : Stream S got n r) :
    got ++ text r.receiveQueue <+: S := by
  rw [h.bytes]
  exact List.take_prefix n S

theorem Stream.append {r : RecvSide} (h : Stream S got n r) (T : List UInt8) :
    Stream (S ++ T) got n r := by
  refine ⟨?_, ?_, h.len, fun skb hs => (h.ofo skb hs).append T⟩
  · rw [List.length_append]; exact Nat.le_add_right_of_le h.le
  · rw [h.bytes, List.take_append_of_le_length h.le]

/-! ### The text of a segment -/

/-- The loop of `tcp_consume_ofo_queue`. -/
theorem consume_spec (hS : S.length < 4294967296) : ∀ {q receive : List Skb} {rcvNxt : UInt32},
    offset irs rcvNxt ≤ S.length → (∀ skb ∈ q, PartOf S irs skb) →
      got ++ text receive = S.take (offset irs rcvNxt) →
      (∀ skb ∈ receive, skb.payload.length = skb.dlen.toNat) →
      offset irs (consume rcvNxt q receive).1 ≤ S.length ∧
      got ++ text (consume rcvNxt q receive).2.2 =
        S.take (offset irs (consume rcvNxt q receive).1) ∧
      (∀ skb ∈ (consume rcvNxt q receive).2.2, skb.payload.length = skb.dlen.toNat) ∧
      ∀ skb ∈ (consume rcvNxt q receive).2.1, PartOf S irs skb
  | [], receive, rcvNxt, hle, hq, hb, hl => ⟨hle, hb, hl, hq⟩
  | skb :: q, receive, rcvNxt, hle, hq, hb, hl => by
    have hpart := hq skb (by simp)
    have hq' : ∀ x ∈ q, PartOf S irs x := fun x hx => hq x (by simp [hx])
    unfold consume
    split_ifs with h
    · subst h
      have hend := hpart.le hle
      have hadd := offset_add irs skb.seq skb.dlen (by omega)
      refine consume_spec hS (by rw [hadd]; exact hend) hq' ?_ ?_
      · rw [text_append, ← List.append_assoc, hb, hadd, ← hpart.take]
        simp
      · intro x hx
        rcases List.mem_append.mp hx with hx | hx
        · exact hl x hx
        · rw [List.mem_singleton] at hx
          rw [hx]; exact hpart.len
    · exact ⟨hle, hb, hl, hq⟩

theorem mem_tcpDataInsertOrdered {skb x : Skb} : ∀ {q : List Skb},
    x ∈ tcpDataInsertOrdered q skb → x = queued skb ∨ x ∈ q
  | [], h => by
    left
    simpa [tcpDataInsertOrdered, queued] using h
  | item :: q, h => by
    have ih : x ∈ tcpDataInsertOrdered q skb → _ := mem_tcpDataInsertOrdered
    unfold tcpDataInsertOrdered at h
    cases hv : visit skb item <;> rw [hv] at h <;> simp only [List.mem_cons] at h ⊢
    · rcases h with h | h | h
      · exact Or.inr (Or.inl h)
      · exact Or.inl h
      · exact Or.inr (Or.inr h)
    · exact Or.inr h
    · rcases h with h | h
      · exact Or.inr (Or.inl h)
      · rcases ih h with h | h
        · exact Or.inl h
        · exact Or.inr (Or.inr h)

/-- The text of a conforming segment keeps the stream. -/
theorem Stream.tcpDataQueue (hS : S.length < 4294967296) {sk : TcpSock}
    (h : Stream S got (offset sk.irs sk.rcvNxt) (recvSide sk)) (th : TcpHdr) {skb : Skb}
    (hskb : PartOf S sk.irs skb) :
    Stream S got (offset sk.irs (tcpDataQueue sk th skb).rcvNxt)
      (recvSide (tcpDataQueue sk th skb)) := by
  by_cases hw : sk.rcvWnd = 0
  · have : Data.tcpDataQueue sk th skb = sk := by unfold Data.tcpDataQueue; rw [if_pos hw]
    rw [this]; exact h
  have hrecv := recvSide_tcpDataQueue hw th skb
  have hr : (Data.tcpDataQueue sk th skb).rcvNxt = _ := congrArg RecvSide.rcvNxt hrecv
  rw [hrecv, hr]
  have hofo : ∀ x ∈ sk.ofoQueue, PartOf S sk.irs x := h.ofo
  have hbytes : got ++ text sk.receiveQueue = S.take (offset sk.irs sk.rcvNxt) := h.bytes
  unfold Sides.takeText
  split_ifs with hseq
  · have hle := h.le
    rw [← hseq] at hle hbytes ⊢
    have hend := hskb.le hle
    have hadd := offset_add sk.irs skb.seq skb.dlen (by omega)
    have hb : got ++ text (sk.receiveQueue ++ [queued skb]) =
        S.take (offset sk.irs (skb.seq + skb.dlen)) := by
      rw [text_append, ← List.append_assoc, hbytes, hadd, ← hskb.take]
      simp [queued]
    have hl : ∀ x ∈ sk.receiveQueue ++ [queued skb], x.payload.length = x.dlen.toNat := by
      intro x hx
      rcases List.mem_append.mp hx with hx | hx
      · exact h.len x hx
      · rw [List.mem_singleton] at hx
        rw [hx]; exact hskb.len
    obtain ⟨h1, h2, h3, h4⟩ := consume_spec hS (by rw [hadd]; exact hend) hofo hb hl
    exact ⟨h1, h2, h3, h4⟩
  · refine ⟨h.le, hbytes, h.len, fun x hx => ?_⟩
    rcases mem_tcpDataInsertOrdered hx with rfl | hx
    · exact ⟨hskb.len, hskb.part⟩
    · exact hofo x hx

/-- So does step 7 of `tcp_process` in every state. -/
theorem Stream.segmentText (hS : S.length < 4294967296) {sk : TcpSock}
    (h : Stream S got (offset sk.irs sk.rcvNxt) (recvSide sk)) (th : TcpHdr) {skb : Skb}
    (hskb : PartOf S sk.irs skb) :
    Stream S got (offset sk.irs (segmentText sk th skb).rcvNxt)
      (recvSide (segmentText sk th skb)) := by
  rcases segmentText_cases sk th skb with heq | heq <;> rw [heq]
  · exact h
  · exact h.tcpDataQueue hS th hskb

/-! ### Reads -/

/-- One buffer gives the reader no more bytes than it has: the sum in the test does not wrap. -/
theorem copied_le {userlen rlen : UInt32} (dlen : UInt32) (hlt : rlen < userlen)
    (hw : rlen.toNat + dlen.toNat < 4294967296) :
    (if rlen + dlen > userlen then userlen - rlen else dlen).toNat ≤ dlen.toNat := by
  have hsum := Word32.toNat_add_of_lt hw
  have hsub := Word32.toNat_sub userlen rlen
  rw [Word32.lt_iff] at hlt
  split_ifs with hgt
  · rw [gt_iff_lt, Word32.lt_iff, hsum] at hgt
    omega
  · exact le_refl _

/-- The loop of `tcp_data_dequeue` moves bytes from the front of the queue to the reader. -/
theorem dequeue_spec (userlen : UInt32) : ∀ (q : List Skb) (rlen : UInt32),
    (∀ skb ∈ q, skb.payload.length = skb.dlen.toNat) →
      rlen.toNat + (text q).length < 4294967296 →
      (dequeue userlen rlen q).1 ++ text (dequeue userlen rlen q).2.1 = text q ∧
      ∀ skb ∈ (dequeue userlen rlen q).2.1, skb.payload.length = skb.dlen.toNat
  | [], rlen, _, _ => by simp [dequeue]
  | skb :: q, rlen, hl, hw => by
    have hlen := hl skb (by simp)
    have hq : ∀ x ∈ q, x.payload.length = x.dlen.toNat := fun x hx => hl x (by simp [hx])
    rw [text_cons, List.length_append] at hw
    unfold dequeue
    by_cases hlt : rlen < userlen
    · rw [if_pos hlt]
      have hle := copied_le skb.dlen hlt (by omega)
      generalize (if rlen + skb.dlen > userlen then userlen - rlen else skb.dlen) = d at hle
      have hsub : (skb.dlen - d).toNat = skb.dlen.toNat - d.toNat :=
        Word32.toNat_sub_of_le hle
      simp only
      by_cases hz : skb.dlen - d = 0
      · have hall : d.toNat = skb.payload.length := by
          rw [Word32.eq_iff_toNat, hsub, UInt32.toNat_zero] at hz
          omega
        have hnext : (rlen + d).toNat = rlen.toNat + d.toNat :=
          Word32.toNat_add_of_lt (by omega)
        obtain ⟨h1, h2⟩ := dequeue_spec userlen q (rlen + d) hq (by omega)
        rw [if_pos hz]
        refine ⟨?_, h2⟩
        rw [hall, List.take_length, List.append_assoc, h1, text_cons]
      · rw [if_neg hz]
        refine ⟨?_, ?_⟩
        · rw [text_cons, text_cons, ← List.append_assoc, List.take_append_drop]
        · intro x hx
          rcases List.mem_cons.mp hx with rfl | hx
          · show (skb.payload.drop d.toNat).length = (skb.dlen - d).toNat
            rw [List.length_drop, hsub, hlen]
          · exact hq x hx
    · rw [if_neg hlt]
      exact ⟨rfl, hl⟩

/-- A round of `tcp_receive` only changes the receive queue and the flags of the reader. -/
theorem tcpReceiveRound_eq (sk : TcpSock) (len rlen : ℕ) : ∃ flagPsh recvSleeping,
    (tcpReceiveRound sk len rlen).1 = { sk with
      receiveQueue := (dequeue (UInt32.ofNat (len - rlen)) 0 sk.receiveQueue).2.1
      flagPsh := flagPsh
      recvSleeping := recvSleeping } ∧
    (tcpReceiveRound sk len rlen).2.1 =
      (dequeue (UInt32.ofNat (len - rlen)) 0 sk.receiveQueue).1 := by
  unfold tcpReceiveRound tcpDataDequeue
  simp only
  split_ifs <;> exact ⟨_, _, rfl, rfl⟩

/-- A read takes bytes from the receive queue to the reader. -/
theorem Stream.tcpReceiveRound (hS : S.length < 4294967296) {sk : TcpSock}
    (h : Stream S got n (recvSide sk)) (len rlen : ℕ) :
    Stream S (got ++ (tcpReceiveRound sk len rlen).2.1) n
      (recvSide (tcpReceiveRound sk len rlen).1) := by
  have hle : (got ++ text sk.receiveQueue).length ≤ S.length := by
    rw [show got ++ text sk.receiveQueue = S.take n from h.bytes, List.length_take]
    exact Nat.min_le_right _ _
  rw [List.length_append] at hle
  obtain ⟨h1, h2⟩ := dequeue_spec (UInt32.ofNat (len - rlen)) sk.receiveQueue 0 h.len
    (by rw [UInt32.toNat_zero]; omega)
  have hround : Stream S
      (got ++ (dequeue (UInt32.ofNat (len - rlen)) 0 sk.receiveQueue).1) n
      { recvSide sk with
        receiveQueue := (dequeue (UInt32.ofNat (len - rlen)) 0 sk.receiveQueue).2.1 } := by
    refine ⟨h.le, ?_, h2, h.ofo⟩
    rw [List.append_assoc, h1]
    exact h.bytes
  obtain ⟨flagPsh, recvSleeping, heq, hgot⟩ := tcpReceiveRound_eq sk len rlen
  rw [heq, hgot]
  exact hround

theorem recvSide_tcpReadStart (sk : TcpSock) (len : ℕ) :
    recvSide (tcpReadStart sk len).1 = recvSide sk := by
  unfold tcpReadStart
  split <;> first | rfl | (split_ifs <;> rfl)

theorem core_tcpReadStart (sk : TcpSock) (len : ℕ) : core (tcpReadStart sk len).1 = core sk := by
  unfold tcpReadStart
  split <;> first | rfl | (split_ifs <;> rfl)

theorem core_tcpReceiveRound (sk : TcpSock) (len rlen : ℕ) :
    core (Sock.tcpReceiveRound sk len rlen).1 = core sk := by
  obtain ⟨flagPsh, recvSleeping, heq, -⟩ := tcpReceiveRound_eq sk len rlen
  rw [heq]; rfl

/-! ### A segment -/

/-- Where the receiver is in the stream: the FIN is still to come, or it was consumed and the sock
is in `CLOSE_WAIT` with all of `S`. -/
def Position (S got : List UInt8) (sk : TcpSock) : Prop :=
  (sk.state = .established ∧ Stream S got (offset sk.irs sk.rcvNxt) (recvSide sk)) ∨
    (sk.state = .closeWait ∧ offset sk.irs (sk.rcvNxt - 1) = S.length ∧
      Stream S got (offset sk.irs (sk.rcvNxt - 1)) (recvSide sk))

/-- What does not touch the receive side keeps the position. -/
theorem Position.congr {sk sk' : TcpSock} (h : Position S got sk)
    (hr : recvSide sk' = recvSide sk) (hc : core sk' = core sk) : Position S got sk' := by
  have h1 : sk'.rcvNxt = sk.rcvNxt := congrArg RecvSide.rcvNxt hr
  have h2 : sk'.irs = sk.irs := congrArg RecvSide.irs hr
  have h3 : sk'.state = sk.state := congrArg Core.state hc
  unfold Position
  rw [h1, h2, h3, hr]
  exact h

theorem Position.synchronized {sk : TcpSock} (h : Position S got sk) : Synchronized sk.state := by
  rcases h with ⟨h, -⟩ | ⟨h, -⟩ <;> rw [h] <;> trivial

theorem rcvNxt_tcpReceiveRound (sk : TcpSock) (len rlen : ℕ) :
    (tcpReceiveRound sk len rlen).1.rcvNxt = sk.rcvNxt ∧
      (tcpReceiveRound sk len rlen).1.irs = sk.irs := by
  obtain ⟨flagPsh, recvSleeping, heq, -⟩ := tcpReceiveRound_eq sk len rlen
  rw [heq]
  exact ⟨rfl, rfl⟩

/-- A read keeps the position. -/
theorem Position.tcpReceiveRound (hS : S.length < 4294967296) {sk : TcpSock}
    (h : Position S got sk) (hirs : sk.irs = irs) (hfreed : sk.freed = false) (len rlen : ℕ) :
    Position S (got ++ (tcpReceiveRound sk len rlen).2.1) (tcpReceiveRound sk len rlen).1 ∧
      (tcpReceiveRound sk len rlen).1.irs = irs ∧
      (tcpReceiveRound sk len rlen).1.freed = false := by
  have hc := core_tcpReceiveRound sk len rlen
  have hst : (Sock.tcpReceiveRound sk len rlen).1.state = sk.state := congrArg Core.state hc
  have hr := rcvNxt_tcpReceiveRound sk len rlen
  refine ⟨?_, hr.2.trans hirs, (congrArg Core.freed hc).trans hfreed⟩
  unfold Position
  rw [hst, hr.1, hr.2]
  rcases h with ⟨hst, h⟩ | ⟨hst, hall, h⟩
  · exact Or.inl ⟨hst, h.tcpReceiveRound hS len rlen⟩
  · exact Or.inr ⟨hst, hall, h.tcpReceiveRound hS len rlen⟩

/-- The text of a conforming segment keeps the position. -/
theorem Position.segmentText (hS : S.length < 4294967296) {sk : TcpSock}
    (h : Position S got sk) (th : TcpHdr) {skb : Skb} (hskb : PartOf S sk.irs skb) :
    Position S got (segmentText sk th skb) := by
  rcases h with ⟨hst, h⟩ | ⟨hst, h⟩
  · have hs := h.segmentText hS th hskb
    rw [← irs_segmentText sk th skb] at hs
    exact Or.inl ⟨(congrArg Core.state (core_segmentText sk th skb)).trans hst, hs⟩
  · unfold Input.segmentText
    rw [hst]
    exact Or.inr ⟨hst, h⟩

/-- The FIN bit of a conforming segment keeps the position: it is consumed at the end of `S` only,
and only once. -/
theorem Position.finCheck (hS : S.length < 4294967296) {sk : TcpSock} (h : Position S got sk)
    {seg : Seg} (hseg : seg.th.fin = true → offset sk.irs seg.th.seq + seg.dlen.toNat = S.length) :
    Position S got (finCheck sk seg.th (tcpInitSegment seg)) := by
  rcases finCheck_cases sk seg.th (tcpInitSegment seg) with heq | ⟨hfin, hseq, heq⟩
  · rw [heq]; exact h
  · have hend := hseg hfin
    -- the FIN is in sequence, so `rcv_nxt` stands at the end of `S`
    have hnxt : sk.rcvNxt = seg.th.seq + seg.dlen := by
      have : sk.rcvNxt - seg.dlen = seg.th.seq := hseq
      grind
    have hoff : offset sk.irs sk.rcvNxt = S.length := by
      rw [hnxt, offset_add _ _ _ (by omega), hend]
    rw [heq]
    rcases h with ⟨hst, h⟩ | ⟨hst, hall, h⟩
    · have hr : (afterFin sk).rcvNxt - 1 = sk.rcvNxt := by
        have : (afterFin sk).rcvNxt = sk.rcvNxt + 1 :=
          congrArg RecvSide.rcvNxt (recvSide_afterFin sk)
        grind
      have hirs : (afterFin sk).irs = sk.irs := congrArg RecvSide.irs (recvSide_afterFin sk)
      have hstate : (afterFin sk).state = .closeWait := by
        have : (afterFin sk).state = finState sk.state := congrArg Core.state (core_afterFin sk)
        rw [this, hst]; rfl
      refine Or.inr ⟨hstate, ?_, ?_⟩
      · rw [hr, hirs, hoff]
      · rw [hr, hirs, recvSide_afterFin]
        exact ⟨h.le, h.bytes, h.len, h.ofo⟩
    · have : sk.rcvNxt = sk.rcvNxt - 1 := offset_inj (hoff.trans hall.symm)
      exact absurd this (by grind)

/-- One segment of a conforming peer: `tcp_process` ends without fault and keeps the position. -/
theorem Position.tcpProcess (hS : S.length < 4294967296) {sk : TcpSock} (h : Position S got sk)
    (hfreed : sk.freed = false) {seg : Seg} (hseg : Conforms S sk.irs seg) :
    ∃ sk', tcpProcess sk seg = .ok sk' ∧ Position S got sk' ∧ sk'.irs = sk.irs ∧
      sk'.freed = false := by
  refine ⟨processed sk seg, tcpProcess_eq h.synchronized hfreed seg, ?_⟩
  have hmid : ∀ sk₁, recvSide sk₁ = recvSide sk → core sk₁ = core sk →
      Position S got sk₁ ∧ sk₁.irs = sk.irs ∧ sk₁.freed = false := fun sk₁ hr hc =>
    ⟨h.congr hr hc, congrArg RecvSide.irs hr, (congrArg Core.freed hc).trans hfreed⟩
  rcases processed_cases sk seg with heq | heq | heq | heq | heq <;> rw [heq]
  · exact hmid _ rfl rfl
  · exact hmid _ (by simp) (by simp)
  · exact hmid _ (by simp) (by simp)
  · exact hmid _ (by simp) (by simp)
  · obtain ⟨h₁, hirs₁, hfreed₁⟩ := hmid (takeAck (afterSyn sk seg.th) seg.th) (by simp) (by simp)
    set sk₁ := takeAck (afterSyn sk seg.th) seg.th
    set sk₂ := Input.segmentText sk₁ seg.th (tcpInitSegment seg) with hsk₂
    have hirs₂ : sk₂.irs = sk.irs := (irs_segmentText _ _ _).trans hirs₁
    have hfreed₂ : sk₂.freed = false :=
      (congrArg Core.freed (core_segmentText _ _ _)).trans hfreed₁
    have h₂ : Position S got sk₂ := h₁.segmentText hS seg.th (hirs₁ ▸ hseg.text)
    have h₃ : Position S got (Input.finCheck sk₂ seg.th (tcpInitSegment seg)) :=
      h₂.finCheck hS (hirs₂ ▸ hseg.fin)
    refine ⟨h₃, ?_⟩
    rcases finCheck_cases sk₂ seg.th (tcpInitSegment seg) with heq | ⟨-, -, heq⟩ <;> rw [heq]
    · exact ⟨hirs₂, hfreed₂⟩
    · exact ⟨(congrArg RecvSide.irs (recvSide_afterFin _)).trans hirs₂,
        (congrArg Core.freed (core_afterFin _)).trans hfreed₂⟩

/-! ### Runs -/

/-- A sock with its one reader, who has got the bytes `got` so far. -/
structure Rx where
  sk : TcpSock
  reader : Reader := .idle
  got : List UInt8 := []

/-- A segment comes in, `tcp_read` is called, or the loop of `tcp_receive` goes round. -/
inductive RxEvent
  | segment (seg : Seg)
  | read (len : ℕ)
  | round

/-- One event. The one reader calls `tcp_read` only when he is back from the last call. -/
def rxStep (r : Rx) : RxEvent → Option Rx
  | .segment seg =>
    match tcpProcess r.sk seg with
    | .ok sk => some { r with sk := sk }
    | .error _ => none
  | .read len =>
    match r.reader with
    | .idle => some { r with sk := (tcpReadStart r.sk len).1, reader := (tcpReadStart r.sk len).2 }
    | .receiving _ _ => none
  | .round =>
    match r.reader with
    | .idle => none
    | .receiving len rlen =>
      some { sk := (tcpReceiveRound r.sk len rlen).1, reader := (tcpReceiveRound r.sk len rlen).2.2,
             got := r.got ++ (tcpReceiveRound r.sk len rlen).2.1 }

/-- The event is a segment of the stream, or a step of the reader. -/
def Admitted (S : List UInt8) (irs : UInt32) : Rx → RxEvent → Prop
  | _, .segment seg => Conforms S irs seg
  | _, _ => True

/-- What one event preserves. -/
theorem position_step (hS : S.length < 4294967296) {r r' : Rx} {e : RxEvent}
    (h : Position S r.got r.sk ∧ r.sk.irs = irs ∧ r.sk.freed = false) (he : Admitted S irs r e)
    (hstep : rxStep r e = some r') :
    Position S r'.got r'.sk ∧ r'.sk.irs = irs ∧ r'.sk.freed = false := by
  obtain ⟨hpos, hirs, hfreed⟩ := h
  cases e with
  | segment seg =>
    obtain ⟨sk', hp, hpos', hirs', hfreed'⟩ := hpos.tcpProcess hS hfreed (hirs ▸ he)
    simp only [rxStep, hp, Option.some.injEq] at hstep
    subst hstep
    exact ⟨hpos', hirs'.trans hirs, hfreed'⟩
  | read len =>
    simp only [rxStep] at hstep
    split at hstep
    · rw [Option.some.injEq] at hstep
      subst hstep
      have hr := recvSide_tcpReadStart r.sk len
      have hc := core_tcpReadStart r.sk len
      exact ⟨hpos.congr hr hc, (congrArg RecvSide.irs hr).trans hirs,
        (congrArg Core.freed hc).trans hfreed⟩
    · exact absurd hstep (by simp)
  | round =>
    simp only [rxStep] at hstep
    split at hstep
    · exact absurd hstep (by simp)
    · rename_i len rlen _
      rw [Option.some.injEq] at hstep
      subst hstep
      exact hpos.tcpReceiveRound hS hirs hfreed len rlen

/-- **Receiver integrity.** After every sequence of conforming segments and steps of the reader the
bytes read and the bytes in the receive queue are the first `rcv_nxt - (irs + 1)` bytes of `S` as
long as the sock is in `ESTABLISHED`; otherwise the FIN was consumed, and they are all of `S`. No
segment makes `tcp_process` fail on the way. -/
theorem receiver_integrity {sk : TcpSock} (hS : S.length < 4294967296)
    (hst : sk.state = .established) (hnxt : sk.rcvNxt = sk.irs + 1) (hfreed : sk.freed = false)
    (hempty : sk.receiveQueue = []) (hofo : ∀ skb ∈ sk.ofoQueue, PartOf S sk.irs skb)
    {events : List RxEvent} {r : Rx} (hadm : Along rxStep (Admitted S sk.irs) { sk := sk } events)
    (hrun : run rxStep { sk := sk } events = some r) :
    ((r.sk.state = .established ∧ offset sk.irs r.sk.rcvNxt ≤ S.length ∧
        r.got ++ text r.sk.receiveQueue = S.take (offset sk.irs r.sk.rcvNxt)) ∨
      (r.sk.state = .closeWait ∧ offset sk.irs (r.sk.rcvNxt - 1) = S.length ∧
        r.got ++ text r.sk.receiveQueue = S)) ∧
      ∀ seg, ∃ sk', tcpProcess r.sk seg = .ok sk' := by
  have hzero : offset sk.irs sk.rcvNxt = 0 := by
    unfold offset
    rw [hnxt, UInt32.sub_self]; rfl
  have hinit : Position S [] sk := by
    refine Or.inl ⟨hst, ?_⟩
    rw [hzero]
    exact ⟨Nat.zero_le _, by simp [recvSide, hempty], by simp [recvSide, hempty], hofo⟩
  obtain ⟨hpos, hirs, hfreed'⟩ := run_inv
    (P := fun r : Rx => Position S r.got r.sk ∧ r.sk.irs = sk.irs ∧ r.sk.freed = false)
    (fun _ _ _ h he hs => position_step hS h he hs) ⟨hinit, rfl, hfreed⟩ hadm hrun
  refine ⟨?_, fun seg => ?_⟩
  swap
  · exact ⟨_, tcpProcess_eq hpos.synchronized hfreed' seg⟩
  rcases hpos with ⟨hst', h⟩ | ⟨hst', hall, h⟩
  · rw [hirs] at h
    exact Or.inl ⟨hst', h.le, h.bytes⟩
  · rw [hirs] at h hall
    refine Or.inr ⟨hst', hall, ?_⟩
    have := h.bytes
    rwa [hall, List.take_length] at this

/-- A client that waits for the first byte of its peer. -/
def client : TcpSock :=
  { state := .established, isn := 4, sndUna := 5, sndNxt := 5, irs := 1000, rcvNxt := 1001,
    rcvWnd := 44477 }

/-- The last byte of the stream `1, 2, 3` comes first, with the FIN; it is sent again with more of
the stream after two bytes were read. -/
def threeBytesRun : List RxEvent :=
  [.segment { th := { seq := 1003, ack := true, ackSeq := 5, fin := true }, dlen := 1,
              payload := [3] },
   .segment { th := { seq := 1001, ack := true, ackSeq := 5 }, dlen := 2, payload := [1, 2] },
   .read 2, .round,
   .segment { th := { seq := 1002, ack := true, ackSeq := 5, fin := true }, dlen := 2,
              payload := [2, 3] }]

theorem threeBytesRun_conforms : ∀ e ∈ threeBytesRun, ∀ r, Admitted [1, 2, 3] 1000 r e := by
  intro e he r
  simp only [threeBytesRun, List.mem_cons, List.not_mem_nil, or_false] at he
  rcases he with rfl | rfl | rfl | rfl | rfl
  · exact ⟨⟨rfl, by decide⟩, fun _ => by decide⟩
  · exact ⟨⟨rfl, by decide⟩, fun h => absurd h (by decide)⟩
  · trivial
  · trivial
  · exact ⟨⟨rfl, by decide⟩, fun _ => by decide⟩

theorem receiver_integrity_threeBytes : ∃ r, run rxStep { sk := client } threeBytesRun = some r ∧
    (((r.sk.state = .established ∧ offset 1000 r.sk.rcvNxt ≤ 3 ∧
        r.got ++ text r.sk.receiveQueue = [1, 2, 3].take (offset 1000 r.sk.rcvNxt)) ∨
      (r.sk.state = .closeWait ∧ offset 1000 (r.sk.rcvNxt - 1) = 3 ∧
        r.got ++ text r.sk.receiveQueue = [1, 2, 3])) ∧
      ∀ seg, ∃ sk', tcpProcess r.sk seg = .ok sk') := by
  have hsome : (run rxStep { sk := client } threeBytesRun).isSome = true := by decide
  obtain ⟨r, hr⟩ := Option.isSome_iff_exists.mp hsome
  have hofo : ∀ skb ∈ client.ofoQueue, PartOf [1, 2, 3] client.irs skb := fun _ h => by
    simp [client] at h
  exact ⟨r, hr, receiver_integrity (by decide) rfl rfl rfl rfl hofo
    (Along.of_forall threeBytesRun_conforms) hr⟩

end ToyIP.Tcp.Receiver
