import ToyIP.Tcp.Effects
import ToyIP.Lib.Circle

/-! # TCP: retransmission after a partial acknowledgement

A segment on the write queue keeps its text, and `tcp_retransmission_timeout` sends it with whatever
`snd_una` is then. Once `snd_una` lies inside the segment, every byte leaves with the number of
another one (`right_iff`). `resends_right_iff` says after which acknowledgements this does not
happen. -/

namespace ToyIP.Tcp.PartialAck

open ToyIP.Lib ToyIP.Lib.Circle ToyIP.Tcp.Types ToyIP.Tcp.Output ToyIP.Tcp.Input ToyIP.Tcp.Sides
  ToyIP.Tcp.Effects

/-- A connection with one data segment that is not acknowledged as a whole. Its text begins at
`start` in the stream; a FIN can follow it. -/
structure OneSegment (start : UInt32) (skb : Skb) (sk : TcpSock) : Prop where
  state : Synchronized sk.state
  freed : sk.freed = false
  text : 0 < skb.payload.length ∧ skb.payload.length < 65536
  queue : ∃ fins, sk.writeQueue = skb :: fins ∧ (∀ f ∈ fins, f.payload = []) ∧ fins.length ≤ 1 ∧
    sk.sndNxt = start + UInt32.ofNat (skb.payload.length + fins.length)
  una : (sk.sndUna - start).toNat < skb.payload.length

/-- Retransmission timeouts, and between them whatever leaves the send side as it is: reads, text
that comes in, delayed acknowledgements. -/
inductive Following (sk : TcpSock) : TcpSock → Prop
  | refl : Following sk sk
  | timeout {sk' : TcpSock} (h : Following sk sk') : Following sk (tcpRetransmissionTimeout sk')
  | other {sk' sk'' : TcpSock} (h : Following sk sk') (heq : sendSide sk'' = sendSide sk') :
    Following sk sk''

/-- The bytes of `seg` are those that were written at their places, `text` being what was written
from `start` on, and they end at `nxt` at the latest. -/
structure Right (start : UInt32) (text : List UInt8) (nxt : UInt32) (seg : Seg) : Prop where
  bytes : ∀ (i : ℕ) (h : i < seg.payload.length),
    text[(seg.th.seq + UInt32.ofNat i - start).toNat]? = some seg.payload[i]
  inside : (seg.th.seq - start).toNat + seg.payload.length ≤ (nxt - start).toNat

/-- Every segment that a following timeout sends is right. -/
def ResendsRight (start : UInt32) (text : List UInt8) (sk : TcpSock) : Prop :=
  ∀ sk', Following sk sk' → ∀ seg, (tcpRetransmissionTimeout sk').out = sk'.out ++ [seg] →
    Right start text sk'.sndNxt seg

/-- The segment moves `snd_una`: by its acknowledgement, or by the reset that is sent for a SYN. -/
def MovesUna (sk : TcpSock) (seg : Seg) : Prop :=
  tcpPacketFilter sk seg.th (tcpInitSegment seg) = true ∧
    (seg.th.syn = true ∨ sk.sndUna < seg.th.ackSeq ∧ seg.th.ackSeq ≤ sk.sndNxt)

/-- The acknowledgement takes the segment off the queue, or `snd_una` stays at its start. -/
def Covered (start : UInt32) (skb : Skb) (sk : TcpSock) (seg : Seg) : Prop :=
  MovesUna sk seg ∧ seg.th.syn = false ∧ skb.endSeq ≤ seg.th.ackSeq ∨
    ¬ MovesUna sk seg ∧ sk.sndUna = start

variable {start : UInt32} {skb : Skb} {sk sk' : TcpSock} {seg : Seg}

/-! ### A retransmitted segment -/

/-- A text leaves with the right numbers only from its start. -/
theorem right_iff {nxt : UInt32} (hpos : 0 < seg.payload.length) (hsize : seg.payload.length < 65536)
    (hseq : (seg.th.seq - start).toNat ≤ seg.payload.length + 1)
    (hnxt : seg.payload.length ≤ (nxt - start).toNat) :
    Right start seg.payload nxt seg ↔ seg.th.seq = start := by
  have hplace : ∀ i, i < seg.payload.length →
      (seg.th.seq + UInt32.ofNat i - start).toNat = (seg.th.seq - start).toNat + i := fun i hi => by
    have hnat : (UInt32.ofNat i).toNat = i := Word32.toNat_ofNat (by omega)
    rw [show seg.th.seq + UInt32.ofNat i - start = seg.th.seq - start + UInt32.ofNat i by grind,
      Word32.toNat_add_of_lt (by omega), hnat]
  constructor
  · intro h
    have hlast := h.bytes (seg.payload.length - 1) (by omega)
    rw [hplace _ (by omega)] at hlast
    obtain ⟨hlt, -⟩ := List.getElem?_eq_some_iff.mp hlast
    have hzero : (seg.th.seq - start).toNat = 0 := by omega
    have hdiff : seg.th.seq - start = 0 := UInt32.toNat_inj.mp hzero
    grind
  · intro h
    have hzero : (seg.th.seq - start).toNat = 0 := by
      rw [h, UInt32.sub_self]
      rfl
    refine ⟨fun i hi => ?_, by omega⟩
    rw [hplace i hi, hzero, Nat.zero_add]
    exact List.getElem?_eq_getElem hi

/-- What a timeout sends. -/
theorem sent_of_timeout (h : (tcpRetransmissionTimeout sk).out = sk.out ++ [seg]) :
    ∃ skb q, sk.writeQueue = skb :: q ∧ seg = sentSeg sk skb sk.sndUna := by
  cases hq : sk.writeQueue with
  | nil =>
    obtain ⟨sleeping, timers, heq⟩ := tcpRetransmissionTimeout_nil hq
    rw [heq] at h
    simp at h
  | cons skb q =>
    obtain ⟨timers, retransmit, heq⟩ := tcpRetransmissionTimeout_cons hq
    rw [heq] at h
    exact ⟨skb, q, rfl, (List.singleton_inj.mp (List.append_cancel_left h)).symm⟩

/-! ### The timeouts -/

/-- What timeouts and the receive side leave as it is: the numbers and the texts of the queue. -/
structure SameTexts (sk sk' : TcpSock) : Prop where
  una : sk'.sndUna = sk.sndUna
  nxt : sk'.sndNxt = sk.sndNxt
  texts : sk'.writeQueue.map Skb.payload = sk.writeQueue.map Skb.payload

theorem SameTexts.trans {a b c : TcpSock} (h : SameTexts a b) (h' : SameTexts b c) :
    SameTexts a c := ⟨h'.una.trans h.una, h'.nxt.trans h.nxt, h'.texts.trans h.texts⟩

theorem SameTexts.of_sendSide (h : sendSide sk' = sendSide sk) : SameTexts sk sk' :=
  ⟨congrArg SendSide.sndUna h, congrArg SendSide.sndNxt h,
    congrArg (fun s => s.writeQueue.map Skb.payload) h⟩

theorem sameTexts_timeout (sk : TcpSock) : SameTexts sk (tcpRetransmissionTimeout sk) := by
  cases hq : sk.writeQueue with
  | nil =>
    obtain ⟨sleeping, timers, heq⟩ := tcpRetransmissionTimeout_nil hq
    rw [heq]
    exact ⟨rfl, rfl, rfl⟩
  | cons skb q =>
    obtain ⟨timers, retransmit, heq⟩ := tcpRetransmissionTimeout_cons hq
    rw [heq]
    refine ⟨rfl, rfl, ?_⟩
    rw [hq]
    rfl

theorem Following.sameTexts (h : Following sk sk') : SameTexts sk sk' := by
  induction h with
  | refl => exact .of_sendSide rfl
  | timeout h ih => exact ih.trans (sameTexts_timeout _)
  | other h heq ih => exact ih.trans (.of_sendSide heq)

/-- While the text is at the head of the queue, the following timeouts send it from `snd_una`. -/
theorem resendsRight_iff {text : List UInt8} {rest : List (List UInt8)} (hpos : 0 < text.length)
    (hsize : text.length < 65536) (htexts : sk.writeQueue.map Skb.payload = text :: rest)
    (huna : (sk.sndUna - start).toNat ≤ text.length + 1)
    (hnxt : text.length ≤ (sk.sndNxt - start).toNat) :
    ResendsRight start text sk ↔ sk.sndUna = start := by
  have hhead : ∀ sk' skb q, Following sk sk' → sk'.writeQueue = skb :: q → skb.payload = text := by
    intro sk' skb q hf hq
    have hsame := hf.sameTexts.texts
    rw [hq, htexts] at hsame
    exact (List.cons.inj hsame).1
  constructor
  · intro h
    obtain ⟨skb, q, hq, hskb, -⟩ := List.map_eq_cons_iff.mp htexts
    obtain ⟨timers, retransmit, heq⟩ := tcpRetransmissionTimeout_cons hq
    have hright := h sk .refl (sentSeg sk skb sk.sndUna) (by rw [heq])
    have hpay : (sentSeg sk skb sk.sndUna).payload = text := hskb
    rw [← hpay] at hright hpos hsize huna hnxt
    exact (right_iff hpos hsize huna hnxt).mp hright
  · intro h sk' hf seg hout
    obtain ⟨skb, q, hq, rfl⟩ := sent_of_timeout hout
    have hpay : (sentSeg sk' skb sk'.sndUna).payload = text := hhead sk' skb q hf hq
    have hseq : (sentSeg sk' skb sk'.sndUna).th.seq = sk.sndUna := hf.sameTexts.una
    rw [← hf.sameTexts.nxt, ← hpay] at hnxt
    rw [← hpay] at hpos hsize huna ⊢
    exact (right_iff hpos hsize (by rwa [hseq]) hnxt).mpr (hseq.trans h)

/-- Without text on the queue the timeouts send at most a FIN. -/
theorem resendsRight_of_fins {text : List UInt8}
    (hfins : ∀ f ∈ sk.writeQueue, f.payload = [])
    (hle : (sk.sndUna - start).toNat ≤ (sk.sndNxt - start).toNat) : ResendsRight start text sk := by
  intro sk' hf seg hout
  obtain ⟨skb, q, hq, rfl⟩ := sent_of_timeout hout
  have hmem : skb.payload ∈ sk.writeQueue.map Skb.payload := by
    rw [← hf.sameTexts.texts, hq]
    exact List.mem_cons_self
  obtain ⟨f, hfmem, hfpay⟩ := List.mem_map.mp hmem
  have hempty : (sentSeg sk' skb sk'.sndUna).payload = [] := hfpay.symm.trans (hfins f hfmem)
  have hseq : (sentSeg sk' skb sk'.sndUna).th.seq = sk.sndUna := hf.sameTexts.una
  refine ⟨fun i hi => ?_, ?_⟩
  · rw [hempty] at hi
    exact absurd hi (Nat.not_lt_zero i)
  · rw [hempty, hseq, hf.sameTexts.nxt]
    exact hle

/-! ### The acknowledgement -/

/-- The send side after a segment with ACK. -/
theorem sendSide_processed (hack : seg.th.ack = true) : sendSide (processed sk seg) =
    if tcpPacketFilter sk seg.th (tcpInitSegment seg) = true then
      sendSide (takeAck (afterSyn sk seg.th) seg.th)
    else sendSide sk := by
  unfold processed
  by_cases hf : tcpPacketFilter sk seg.th (tcpInitSegment seg) = true
  · rw [if_pos hf, if_pos hf, if_pos hack]
    split_ifs
    · exact sendSide_textFin _ _ _
    · rfl
  · rw [if_neg hf, if_neg hf]
    split_ifs
    · rfl
    · exact sendSide_tcpSendAck sk

/-- A SYN in the window: everything that was sent counts as acknowledged, and the queue stays. -/
theorem sendSide_syn (hsyn : seg.th.syn = true) :
    sendSide (takeAck (afterSyn sk seg.th) seg.th) = { sendSide sk with sndUna := sk.sndNxt } := by
  have hreset : afterSyn sk seg.th = tcpSendReset sk := if_pos hsyn
  have hno : ¬ ((tcpSendReset sk).sndUna < seg.th.ackSeq ∧
      seg.th.ackSeq ≤ (tcpSendReset sk).sndNxt) := fun h =>
    absurd (UInt32.lt_of_lt_of_le h.1 h.2) (UInt32.lt_irrefl sk.sndNxt)
  rw [hreset, takeAck_of_not_taken hno]
  rfl

theorem sendSide_taken (hsyn : seg.th.syn = false)
    (h : sk.sndUna < seg.th.ackSeq ∧ seg.th.ackSeq ≤ sk.sndNxt) :
    sendSide (takeAck (afterSyn sk seg.th) seg.th) = { sendSide sk with
      sndUna := seg.th.ackSeq
      writeQueue := sk.writeQueue.dropWhile fun skb => skb.endSeq ≤ seg.th.ackSeq } := by
  have hsame : afterSyn sk seg.th = sk := by
    rw [afterSyn, hsyn]
    rfl
  obtain ⟨timers, retransmit, heq⟩ := takeAck_of_taken h
  rw [hsame, heq]
  rfl

theorem sendSide_not_moved (hack : seg.th.ack = true) (h : ¬ MovesUna sk seg) :
    sendSide (processed sk seg) = sendSide sk := by
  rw [sendSide_processed hack]
  by_cases hf : tcpPacketFilter sk seg.th (tcpInitSegment seg) = true
  · have hno : ¬ (seg.th.syn = true ∨ sk.sndUna < seg.th.ackSeq ∧ seg.th.ackSeq ≤ sk.sndNxt) :=
      fun hcase => h ⟨hf, hcase⟩
    rw [not_or] at hno
    have hsame : afterSyn sk seg.th = sk := if_neg hno.1
    rw [if_pos hf, hsame, takeAck_of_not_taken hno.2]
  · rw [if_neg hf]

/-- Where the numbers of a connection with one segment lie, seen from its start. -/
theorem OneSegment.places (h : OneSegment start skb sk) (hne : seg.th.ackSeq ≠ sk.sndUna)
    (hin : Within sk.sndUna sk.sndNxt seg.th.ackSeq) :
    skb.payload.length ≤ (sk.sndNxt - start).toNat ∧
      (sk.sndNxt - start).toNat ≤ skb.payload.length + 1 ∧ 0 < (seg.th.ackSeq - start).toNat ∧
      (seg.th.ackSeq - start).toNat ≤ (sk.sndNxt - start).toNat := by
  obtain ⟨fins, -, -, hfins, hnxt⟩ := h.queue
  have hsize := h.text.2
  have hnat : (sk.sndNxt - start).toNat = skb.payload.length + fins.length := by
    rw [show sk.sndNxt - start = UInt32.ofNat (skb.payload.length + fins.length) by grind]
    exact Word32.toNat_ofNat (by omega)
  have hpos : 0 < (seg.th.ackSeq - sk.sndUna).toNat := by
    refine Nat.pos_of_ne_zero fun hzero => hne ?_
    have hdiff : seg.th.ackSeq - sk.sndUna = 0 := UInt32.toNat_inj.mp hzero
    grind
  have huna := h.una
  have hle := Word32.le_iff.mp hin
  rw [Word32.toNat_sub] at hle hpos huna hnat ⊢
  rw [Word32.toNat_sub] at hle
  rw [Word32.toNat_sub]
  have ha := seg.th.ackSeq.toNat_lt
  have hu := sk.sndUna.toNat_lt
  have hn := sk.sndNxt.toNat_lt
  have hs := start.toNat_lt
  omega

/-- While the queue is as it was, the timeouts are right only with `snd_una` at the start. -/
theorem OneSegment.resends_kept (h : OneSegment start skb sk) {una : UInt32}
    (hside : sendSide sk' = { sendSide sk with sndUna := una })
    (hlen : skb.payload.length ≤ (sk.sndNxt - start).toNat)
    (huna : (una - start).toNat ≤ skb.payload.length + 1) :
    ResendsRight start skb.payload sk' ↔ una = start := by
  obtain ⟨fins, hqueue, -⟩ := h.queue
  have hq : sk'.writeQueue = sk.writeQueue := congrArg SendSide.writeQueue hside
  have hnxt : sk'.sndNxt = sk.sndNxt := congrArg SendSide.sndNxt hside
  obtain rfl : sk'.sndUna = una := congrArg SendSide.sndUna hside
  have htexts : sk'.writeQueue.map Skb.payload = skb.payload :: fins.map Skb.payload := by
    rw [hq, hqueue]
    rfl
  exact resendsRight_iff h.text.1 h.text.2 htexts huna (hnxt ▸ hlen)

/-- An acknowledgement of the whole segment leaves at most the FIN on the queue. -/
theorem OneSegment.resends_covered (h : OneSegment start skb sk) {una : UInt32}
    (hside : sendSide sk' = { sendSide sk with
      sndUna := una, writeQueue := sk.writeQueue.dropWhile fun skb => skb.endSeq ≤ una })
    (hend : skb.endSeq ≤ una) (hle : (una - start).toNat ≤ (sk.sndNxt - start).toNat) :
    ResendsRight start skb.payload sk' := by
  obtain ⟨fins, hqueue, hfins, -⟩ := h.queue
  have hq : sk'.writeQueue = sk.writeQueue.dropWhile fun skb => skb.endSeq ≤ una :=
    congrArg SendSide.writeQueue hside
  have hnxt : sk'.sndNxt = sk.sndNxt := congrArg SendSide.sndNxt hside
  obtain rfl : sk'.sndUna = una := congrArg SendSide.sndUna hside
  rw [hqueue, List.dropWhile_cons_of_pos (by simpa using hend)] at hq
  refine resendsRight_of_fins (fun f hf => ?_) (hnxt ▸ hle)
  rw [hq] at hf
  exact hfins f ((List.dropWhile_sublist _).subset hf)

/-- A partial acknowledgement moves `snd_una` only. -/
theorem OneSegment.sendSide_partial (h : OneSegment start skb sk) (hsyn : seg.th.syn = false)
    (htaken : sk.sndUna < seg.th.ackSeq ∧ seg.th.ackSeq ≤ sk.sndNxt)
    (hend : ¬ skb.endSeq ≤ seg.th.ackSeq) :
    sendSide (takeAck (afterSyn sk seg.th) seg.th) =
      { sendSide sk with sndUna := seg.th.ackSeq } := by
  obtain ⟨fins, hqueue, -⟩ := h.queue
  rw [sendSide_taken hsyn htaken, hqueue, List.dropWhile_cons_of_neg (by simpa using hend), ← hqueue]
  rfl

theorem ne_of_sub_pos {p : UInt32} (h : 0 < (p - start).toNat) : p ≠ start := by
  rintro rfl
  rw [UInt32.sub_self] at h
  exact absurd h (by decide)

/-! ### The condition -/

/-- **When retransmissions carry the right bytes.** -/
theorem resends_right_iff (start : UInt32) (skb : Skb) (sk sk' : TcpSock) (seg : Seg)
    (h : OneSegment start skb sk) (hack : seg.th.ack = true) (hne : seg.th.ackSeq ≠ sk.sndUna)
    (hin : Within sk.sndUna sk.sndNxt seg.th.ackSeq) (hrun : tcpProcess sk seg = .ok sk') :
    ResendsRight start skb.payload sk' ↔ Covered start skb sk seg := by
  obtain rfl := Except.ok.inj ((tcpProcess_eq h.state h.freed seg).symm.trans hrun)
  obtain ⟨hlen, hlen', hpos, hle⟩ := h.places hne hin
  by_cases hmoves : MovesUna sk seg
  · have hside := @sendSide_processed sk seg hack
    rw [if_pos hmoves.1] at hside
    cases hsyn : seg.th.syn with
    | true =>
      rw [h.resends_kept (hside.trans (sendSide_syn hsyn)) hlen hlen']
      refine iff_of_false (ne_of_sub_pos (by omega)) ?_
      rintro (⟨-, hno, -⟩ | ⟨hno, -⟩)
      · rw [hsyn] at hno
        cases hno
      · exact hno hmoves
    | false =>
      have htaken := hmoves.2.resolve_left (by rw [hsyn]; exact Bool.false_ne_true)
      by_cases hend : skb.endSeq ≤ seg.th.ackSeq
      · refine iff_of_true ?_ (.inl ⟨hmoves, hsyn, hend⟩)
        exact h.resends_covered (hside.trans (sendSide_taken hsyn htaken)) hend hle
      · rw [h.resends_kept (hside.trans (h.sendSide_partial hsyn htaken hend)) hlen (by omega)]
        refine iff_of_false (ne_of_sub_pos hpos) ?_
        rintro (⟨-, -, hno⟩ | ⟨hno, -⟩)
        · exact hend hno
        · exact hno hmoves
  · have hpart := h.una
    rw [h.resends_kept (sendSide_not_moved hack hmoves) hlen (by omega)]
    constructor
    · exact fun heq => .inr ⟨hmoves, heq⟩
    · rintro (⟨hno, -⟩ | ⟨-, heq⟩)
      · exact absurd hno hmoves
      · exact heq

/-- A connection that has sent two bytes. -/
def twoBytes : TcpSock :=
  tcpSend { state := .established, sndUna := 101, sndNxt := 101, isn := 100, rcvNxt := 501
            rcvWnd := 44477 } [0x41, 0x42]

/-- The buffer on its write queue. -/
def twoSkb : Skb := twoBytes.writeQueue.headD {}

/-- An acknowledgement from the peer. -/
def ackTo (a : UInt32) : Seg := { th := { seq := 501, ackSeq := a, ack := true } }

theorem oneSegment_twoBytes : OneSegment 101 twoSkb twoBytes where
  state := trivial
  freed := rfl
  text := by decide
  queue := ⟨[], rfl, by simp, by decide, rfl⟩
  una := by decide

theorem resends_right_iff_whole : ResendsRight 101 twoSkb.payload (processed twoBytes (ackTo 103)) ↔
    Covered 101 twoSkb twoBytes (ackTo 103) :=
  resends_right_iff 101 twoSkb twoBytes _ (ackTo 103) oneSegment_twoBytes rfl (by decide) (by decide)
    (tcpProcess_eq oneSegment_twoBytes.state rfl _)

/-- **The first byte is acknowledged, and both leave again from the second number on.** -/
theorem resends_shifted : ¬ ∀ (start : UInt32) (skb : Skb) (sk sk' : TcpSock) (seg : Seg),
    OneSegment start skb sk → seg.th.ack = true → seg.th.ackSeq ≠ sk.sndUna →
    Within sk.sndUna sk.sndNxt seg.th.ackSeq → tcpProcess sk seg = .ok sk' →
    ResendsRight start skb.payload sk' := by
  intro hall
  have hresends := hall 101 twoSkb twoBytes _ (ackTo 102) oneSegment_twoBytes rfl (by decide)
    (by decide) (tcpProcess_eq oneSegment_twoBytes.state rfl _)
  have hright := hresends _ .refl
    (sentSeg (processed twoBytes (ackTo 102)) twoSkb 102) rfl
  exact absurd hright.inside (by decide)

end ToyIP.Tcp.PartialAck
