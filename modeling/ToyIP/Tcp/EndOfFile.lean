import ToyIP.Tcp.Receive

/-! # TCP: the end of the stream

The reader of a connection goes through `tcp_read` and `tcp_receive` step by step while the segments
of a stream `S` and its FIN come in. `tcp_read` reports the end of the stream by the result `0`. It
does so after all of `S` was returned (`end_of_file`), unless text and the FIN come in between the
reader's `tcp_data_dequeue`, which finds nothing, and his test of the flags (`truncated`).

The invariant counts: `rcv_nxt` is as far behind `irs + 1` as bytes were taken out of the receive
queue or are still on it (`Counts`). It does not need `S` to be shorter than the sequence numbers go
round. -/

namespace ToyIP.Tcp.EndOfFile

open ToyIP.Lib ToyIP.Lib.Run ToyIP.Tcp.Types ToyIP.Tcp.Output ToyIP.Tcp.Data ToyIP.Tcp.Input
  ToyIP.Tcp.Sock ToyIP.Tcp.Sides ToyIP.Tcp.Receiver ToyIP.Tcp.Receive

/-! ### The flags -/

/-- `tsk->flags`. -/
def flags (sk : TcpSock) : Bool × Bool := (sk.flagPsh, sk.flagFin)

theorem flags_tcpSendAck (sk : TcpSock) : flags (tcpSendAck sk) = flags sk := by
  rw [tcpSendAck_eq]; rfl

theorem flags_tcpAckData (sk : TcpSock) (th : TcpHdr) (skb : Skb) :
    flags (tcpAckData sk th skb) = flags sk := by
  unfold tcpAckData
  split_ifs
  · rw [flags_tcpSendAck]; rfl
  · rfl

theorem flags_segmentText (sk : TcpSock) (th : TcpHdr) (skb : Skb) :
    flags (segmentText sk th skb) = flags sk := by
  have hqueue : flags (tcpDataQueue sk th skb) = flags sk := by
    unfold tcpDataQueue
    split_ifs
    · rfl
    · rw [flags_tcpAckData]; rfl
    · rw [flags_tcpSendAck]; rfl
  rcases segmentText_cases sk th skb with h | h <;> rw [h]
  exact hqueue

theorem flags_takeAck (sk : TcpSock) (th : TcpHdr) : flags (takeAck sk th) = flags sk := by
  by_cases h : sk.sndUna < th.ackSeq ∧ th.ackSeq ≤ sk.sndNxt
  · obtain ⟨timers, retransmit, heq⟩ := takeAck_of_taken h
    rw [heq]; rfl
  · rw [takeAck_of_not_taken h]

theorem flags_afterSyn (sk : TcpSock) (th : TcpHdr) : flags (afterSyn sk th) = flags sk := by
  unfold afterSyn; split_ifs <;> rfl

/-- A FIN sets its flag and leaves the other. -/
theorem flagPsh_afterFin (sk : TcpSock) : (afterFin sk).flagPsh = sk.flagPsh := by
  have htake : (takeFin sk).flagPsh = sk.flagPsh :=
    congrArg Prod.fst (flags_tcpSendAck { sk with rcvNxt := sk.rcvNxt + 1, flagFin := true })
  unfold afterFin
  split
  · exact htake
  · exact htake
  · exact htake
  · exact htake
  · exact htake

/-! ### Counting the text -/

/-- A buffer with text. -/
structure Whole (skb : Skb) : Prop extends Sized skb where
  nonempty : 0 < skb.dlen.toNat

/-- The loop of `tcp_consume_ofo_queue` takes `rcv_nxt` as far as it fills the receive queue. -/
theorem consume_count : ∀ {q receive : List Skb} {rcvNxt : UInt32},
    (∀ skb ∈ q, Whole skb) → (∀ skb ∈ receive, Whole skb) → ∃ k,
      (consume rcvNxt q receive).1 = rcvNxt + UInt32.ofNat k ∧
      (text (consume rcvNxt q receive).2.2).length = (text receive).length + k ∧
      (∀ skb ∈ (consume rcvNxt q receive).2.2, Whole skb) ∧
      ∀ skb ∈ (consume rcvNxt q receive).2.1, Whole skb
  | [], receive, rcvNxt, hq, hr => ⟨0, (UInt32.add_zero rcvNxt).symm, rfl, hr, hq⟩
  | skb :: q, receive, rcvNxt, hq, hr => by
    have hskb := hq skb (by simp)
    have hq' : ∀ x ∈ q, Whole x := fun x hx => hq x (by simp [hx])
    unfold consume
    split_ifs with h
    · have hr' : ∀ x ∈ receive ++ [skb], Whole x := by
        intro x hx
        rcases List.mem_append.mp hx with hx | hx
        · exact hr x hx
        · rw [List.mem_singleton] at hx
          exact hx ▸ hskb
      obtain ⟨k, hnxt, hlen, hall⟩ := @consume_count q (receive ++ [skb]) (rcvNxt + skb.dlen) hq' hr'
      refine ⟨skb.dlen.toNat + k, ?_, ?_, hall⟩
      · rw [hnxt, UInt32.ofNat_add, UInt32.ofNat_toNat, UInt32.add_assoc]
      · rw [hlen, text_append, List.length_append, text_cons, text_nil, List.append_nil, hskb.len,
          Nat.add_assoc]
    · exact ⟨0, (UInt32.add_zero rcvNxt).symm, rfl, hr, hq⟩

/-- So does the text of a segment. -/
theorem tcpDataQueue_count {sk : TcpSock} {skb : Skb} (th : TcpHdr) (hskb : Whole skb)
    (hr : ∀ x ∈ sk.receiveQueue, Whole x) (ho : ∀ x ∈ sk.ofoQueue, Whole x) : ∃ k,
      (tcpDataQueue sk th skb).rcvNxt = sk.rcvNxt + UInt32.ofNat k ∧
      (text (tcpDataQueue sk th skb).receiveQueue).length = (text sk.receiveQueue).length + k ∧
      (∀ x ∈ (tcpDataQueue sk th skb).receiveQueue, Whole x) ∧
      ∀ x ∈ (tcpDataQueue sk th skb).ofoQueue, Whole x := by
  have hqueued : Whole (queued skb) := ⟨⟨hskb.len, hskb.small⟩, hskb.nonempty⟩
  by_cases hw : sk.rcvWnd = 0
  · have heq : tcpDataQueue sk th skb = sk := by unfold tcpDataQueue; rw [if_pos hw]
    rw [heq]
    exact ⟨0, (UInt32.add_zero _).symm, rfl, hr, ho⟩
  have hrecv := recvSide_tcpDataQueue hw th skb
  have hnxt : (tcpDataQueue sk th skb).rcvNxt = _ := congrArg RecvSide.rcvNxt hrecv
  have hqueue : (tcpDataQueue sk th skb).receiveQueue = _ := congrArg RecvSide.receiveQueue hrecv
  have hofo : (tcpDataQueue sk th skb).ofoQueue = _ := congrArg RecvSide.ofoQueue hrecv
  rw [hnxt, hqueue, hofo]
  unfold takeText
  by_cases hseq : skb.seq = sk.rcvNxt
  · simp only [if_pos hseq]
    have hr' : ∀ x ∈ sk.receiveQueue ++ [queued skb], Whole x := by
      intro x hx
      rcases List.mem_append.mp hx with hx | hx
      · exact hr x hx
      · rw [List.mem_singleton] at hx
        exact hx ▸ hqueued
    obtain ⟨k, hnxt, hlen, hall⟩ := @consume_count sk.ofoQueue (sk.receiveQueue ++ [queued skb])
      (sk.rcvNxt + skb.dlen) ho hr'
    refine ⟨skb.dlen.toNat + k, ?_, ?_, hall⟩
    · rw [hnxt, UInt32.ofNat_add, UInt32.ofNat_toNat, UInt32.add_assoc]
    · rw [hlen, text_append, List.length_append, text_cons, text_nil, List.append_nil, Nat.add_assoc]
      show _ + (skb.payload.length + k) = _
      rw [hskb.len]
  · simp only [if_neg hseq]
    refine ⟨0, (UInt32.add_zero _).symm, rfl, hr, fun x hx => ?_⟩
    rcases mem_tcpDataInsertOrdered hx with rfl | hx
    · exact hqueued
    · exact ho x hx

/-! ### A segment -/

/-- A segment of a peer that sends `S` and a FIN: its text is the part of `S` from some place `i`
on, and it has a FIN only if it ends where `S` ends. The peer does not run ahead of the `n` bytes
that have arrived by as much as the sequence numbers go round. -/
structure Sends (S : List UInt8) (irs : UInt32) (n : ℕ) (seg : Seg) : Prop where
  text : ∃ i, seg.th.seq = irs + 1 + UInt32.ofNat i ∧
    seg.payload = (S.drop i).take seg.dlen.toNat ∧
    (seg.th.fin = true → i + seg.dlen.toNat = S.length ∧ S.length < n + 4294967296)
  sized : Sized (tcpInitSegment seg)

/-- `n` bytes were taken out of the receive queue. In `ESTABLISHED` the FIN was not received, and
`rcv_nxt` counts the bytes that were taken and those on the queue; in `CLOSE_WAIT` they are all of
`S`. -/
structure Counts (S : List UInt8) (irs : UInt32) (n : ℕ) (sk : TcpSock) : Prop where
  start : sk.irs = irs
  freed : sk.freed = false
  receive : ∀ skb ∈ sk.receiveQueue, Whole skb
  ofo : ∀ skb ∈ sk.ofoQueue, Whole skb
  place : sk.state = .established ∧ sk.flagFin = false ∧
      sk.rcvNxt = irs + 1 + UInt32.ofNat (n + (text sk.receiveQueue).length) ∨
    sk.state = .closeWait ∧ S.length ≤ n + (text sk.receiveQueue).length

variable {S : List UInt8} {irs : UInt32} {n : ℕ} {sk sk' : TcpSock}

theorem Counts.congr (h : Counts S irs n sk) (hr : recvSide sk' = recvSide sk)
    (hc : core sk' = core sk) (hfin : sk'.flagFin = sk.flagFin) : Counts S irs n sk' := by
  have hst : sk'.state = sk.state := congrArg Core.state hc
  have hnxt : sk'.rcvNxt = sk.rcvNxt := congrArg RecvSide.rcvNxt hr
  have hq : sk'.receiveQueue = sk.receiveQueue := congrArg RecvSide.receiveQueue hr
  have ho : sk'.ofoQueue = sk.ofoQueue := congrArg RecvSide.ofoQueue hr
  refine ⟨(congrArg RecvSide.irs hr).trans h.start, (congrArg Core.freed hc).trans h.freed, ?_, ?_, ?_⟩
  · rw [hq]; exact h.receive
  · rw [ho]; exact h.ofo
  · rw [hst, hnxt, hq, hfin]; exact h.place

theorem Counts.synchronized (h : Counts S irs n sk) : Synchronized sk.state := by
  rcases h.place with ⟨h, -⟩ | ⟨h, -⟩ <;> rw [h] <;> trivial

/-- What has arrived in sequence. -/
def arrived (n : ℕ) (sk : TcpSock) : ℕ := n + (text sk.receiveQueue).length

theorem Counts.segmentText (h : Counts S irs n sk) (th : TcpHdr) {skb : Skb} (hskb : Sized skb) :
    Counts S irs n (segmentText sk th skb) ∧ arrived n sk ≤ arrived n (segmentText sk th skb) := by
  rcases h.place with ⟨hst, hfin, hnxt⟩ | ⟨hst, hall⟩
  · by_cases hlen : skb.dlen > 0
    · have heq : Input.segmentText sk th skb = tcpRecvNotify (tcpDataQueue sk th skb) := by
        unfold Input.segmentText
        rw [hst]
        simp only [hlen, if_true]
      have hpos : 0 < skb.dlen.toNat := Word32.pos_iff.mp hlen
      obtain ⟨k, hnxt', hlen', hr', ho'⟩ := tcpDataQueue_count th ⟨hskb, hpos⟩ h.receive h.ofo
      have hcore := core_segmentText sk th skb
      have hflags := flags_segmentText sk th skb
      have hirs := irs_segmentText sk th skb
      rw [heq] at hcore hflags hirs ⊢
      refine ⟨⟨hirs.trans h.start, (congrArg Core.freed hcore).trans h.freed, hr', ho', .inl
        ⟨(congrArg Core.state hcore).trans hst, (congrArg Prod.snd hflags).trans hfin, ?_⟩⟩, ?_⟩
      · show (tcpDataQueue sk th skb).rcvNxt =
          irs + 1 + UInt32.ofNat (n + (text (tcpDataQueue sk th skb).receiveQueue).length)
        rw [hnxt', hnxt, hlen', ← Nat.add_assoc, UInt32.ofNat_add _ k, UInt32.add_assoc]
      · show n + (text sk.receiveQueue).length ≤
          n + (text (tcpDataQueue sk th skb).receiveQueue).length
        omega
    · have heq : Input.segmentText sk th skb = sk := by
        unfold Input.segmentText
        rw [hst]
        simp only [hlen, if_false]
      rw [heq]
      exact ⟨h, le_refl _⟩
  · have heq : Input.segmentText sk th skb = sk := by
      unfold Input.segmentText
      rw [hst]
    rw [heq]
    exact ⟨h, le_refl _⟩

/-- A FIN is taken behind the last byte of `S` only. -/
theorem Counts.finCheck (h : Counts S irs n sk) {seg : Seg} {m : ℕ} (hm : m ≤ arrived n sk)
    (hseg : Sends S irs m seg) :
    Counts S irs n (finCheck sk seg.th (tcpInitSegment seg)) := by
  rcases finCheck_cases sk seg.th (tcpInitSegment seg) with heq | ⟨hfin, hseq, heq⟩
  · rw [heq]; exact h
  · obtain ⟨i, hi, -, hend⟩ := hseg.text
    obtain ⟨hlast, hnear⟩ := hend hfin
    have hrecv := recvSide_afterFin sk
    have hcore := core_afterFin sk
    have hstate : (afterFin sk).state = .closeWait := by
      have hfinState : (afterFin sk).state = finState sk.state := congrArg Core.state hcore
      rw [hfinState]
      rcases h.place with ⟨hst, -⟩ | ⟨hst, -⟩ <;> rw [hst] <;> rfl
    have hq : (afterFin sk).receiveQueue = sk.receiveQueue := congrArg RecvSide.receiveQueue hrecv
    have ho : (afterFin sk).ofoQueue = sk.ofoQueue := congrArg RecvSide.ofoQueue hrecv
    rw [heq]
    refine ⟨(congrArg RecvSide.irs hrecv).trans h.start, (congrArg Core.freed hcore).trans h.freed,
      ?_, ?_, .inr ⟨hstate, ?_⟩⟩
    · rw [hq]; exact h.receive
    · rw [ho]; exact h.ofo
    · rw [hq]
      rcases h.place with ⟨-, -, hnxt⟩ | ⟨-, hall⟩
      · -- the numbers agree modulo `2^32`, and the peer is not a whole round ahead
        have hword : UInt32.ofNat (n + (text sk.receiveQueue).length) = UInt32.ofNat S.length := by
          have hseq' : sk.rcvNxt - seg.dlen = seg.th.seq := hseq
          rw [← hlast, UInt32.ofNat_add i, UInt32.ofNat_toNat]
          rw [hnxt, hi] at hseq'
          grind
        have hmod := UInt32.toNat_inj.mpr hword
        rw [UInt32.toNat_ofNat', UInt32.toNat_ofNat'] at hmod
        unfold arrived at hm
        omega
      · exact hall

/-- One segment: `tcp_process` ends without fault and keeps the count. -/
theorem Counts.tcpProcess (h : Counts S irs n sk) {seg : Seg} (hseg : Sends S irs (arrived n sk) seg) :
    ∃ sk', tcpProcess sk seg = .ok sk' ∧ Counts S irs n sk' ∧ sk'.flagPsh = sk.flagPsh := by
  refine ⟨processed sk seg, tcpProcess_eq h.synchronized h.freed seg, ?_⟩
  have hmid : ∀ sk₁, recvSide sk₁ = recvSide sk → core sk₁ = core sk → flags sk₁ = flags sk →
      Counts S irs n sk₁ ∧ sk₁.flagPsh = sk.flagPsh := fun sk₁ hr hc hf =>
    ⟨h.congr hr hc (congrArg Prod.snd hf), congrArg Prod.fst hf⟩
  have hack : flags (takeAck (afterSyn sk seg.th) seg.th) = flags sk :=
    (flags_takeAck _ _).trans (flags_afterSyn sk seg.th)
  rcases processed_cases sk seg with heq | heq | heq | heq | heq <;> rw [heq]
  · exact hmid _ rfl rfl rfl
  · exact hmid _ (by simp) (by simp) (flags_tcpSendAck sk)
  · exact hmid _ (by simp) (by simp) (flags_afterSyn sk seg.th)
  · exact hmid _ (by simp) (by simp) hack
  · obtain ⟨h₁, hpsh₁⟩ := hmid (takeAck (afterSyn sk seg.th) seg.th) (by simp) (by simp) hack
    have hr₁ : recvSide (takeAck (afterSyn sk seg.th) seg.th) = recvSide sk := by simp
    have hq₁ : (takeAck (afterSyn sk seg.th) seg.th).receiveQueue = sk.receiveQueue :=
      congrArg RecvSide.receiveQueue hr₁
    obtain ⟨h₂, hle⟩ := h₁.segmentText seg.th hseg.sized
    have hpsh₂ := congrArg Prod.fst (flags_segmentText (takeAck (afterSyn sk seg.th) seg.th) seg.th
      (tcpInitSegment seg))
    have hm : arrived n sk = arrived n (takeAck (afterSyn sk seg.th) seg.th) := by
      unfold arrived
      rw [hq₁]
    refine ⟨h₂.finCheck (hm ▸ hle) hseg, ?_⟩
    rcases finCheck_cases (Input.segmentText (takeAck (afterSyn sk seg.th) seg.th) seg.th
      (tcpInitSegment seg)) seg.th (tcpInitSegment seg) with heq | ⟨-, -, heq⟩ <;> rw [heq]
    · exact hpsh₂.trans hpsh₁
    · exact (flagPsh_afterFin _).trans (hpsh₂.trans hpsh₁)

/-! ### The reader -/

/-- The loop of `tcp_data_dequeue` on buffers with text: no byte is lost, and `PSH` comes with some.
-/
theorem dequeue_whole {userlen : UInt32} (hu : userlen.toNat < 2147483648) :
    ∀ {q : List Skb} {rlen : UInt32}, rlen ≤ userlen → (∀ skb ∈ q, Whole skb) →
      (dequeue userlen rlen q).1 ++ text (dequeue userlen rlen q).2.1 = text q ∧
      (∀ skb ∈ (dequeue userlen rlen q).2.1, Whole skb) ∧
      ((dequeue userlen rlen q).2.2 = true → (dequeue userlen rlen q).1 ≠ [])
  | [], rlen, _, _ => by simp [dequeue]
  | skb :: q, rlen, hle, hq => by
    have hskb := hq skb (by simp)
    have hlen := hskb.len
    have hsmall := hskb.small
    have hpos := hskb.nonempty
    have hq' : ∀ x ∈ q, Whole x := fun x hx => hq x (by simp [hx])
    have hnat := Word32.le_iff.mp hle
    unfold dequeue
    by_cases hlt : rlen < userlen
    · rw [if_pos hlt]
      have hcopied := copied_le skb.dlen hlt (by omega)
      have hle' := copied_add_le userlen rlen skb.dlen
      generalize (if rlen + skb.dlen > userlen then userlen - rlen else skb.dlen) = d
        at hcopied hle'
      have hsub : (skb.dlen - d).toNat = skb.dlen.toNat - d.toNat := Word32.toNat_sub_of_le hcopied
      simp only
      by_cases hz : skb.dlen - d = 0
      · have hall : d.toNat = skb.payload.length := by
          rw [Word32.eq_iff_toNat, hsub, UInt32.toNat_zero] at hz
          omega
        obtain ⟨htext, hleft, -⟩ := dequeue_whole hu hle' hq'
        rw [if_pos hz]
        refine ⟨?_, hleft, fun _ hnil => ?_⟩
        · rw [hall, List.take_length, List.append_assoc, htext, text_cons]
        · have htake := (List.append_eq_nil_iff.mp hnil).1
          rw [hall, List.take_length] at htake
          rw [htake] at hlen
          simp at hlen
          omega
      · rw [if_neg hz]
        refine ⟨?_, ?_, fun h => absurd h (by simp)⟩
        · rw [text_cons, text_cons, ← List.append_assoc, List.take_append_drop]
        · intro x hx
          rcases List.mem_cons.mp hx with rfl | hx
          · refine ⟨⟨?_, ?_⟩, ?_⟩
            · show (skb.payload.drop d.toNat).length = (skb.dlen - d).toNat
              rw [List.length_drop, hsub, hlen]
            · show (skb.dlen - d).toNat < 65536
              omega
            · show 0 < (skb.dlen - d).toNat
              exact Nat.pos_of_ne_zero fun h0 => hz (UInt32.toNat_inj.mp h0)
          · exact hq' x hx
    · rw [if_neg hlt]
      exact ⟨rfl, hq, fun h => absurd h (by simp)⟩

/-- Where the one reader is: outside, before `tcp_data_dequeue`, before the test of the flags,
before the entry of `wait_sleep`, or in it. -/
inductive Place
  | idle
  | dequeue (c : Receiving)
  | test (c : Receiving)
  | enter (c : Receiving)
  | asleep (c : Receiving)
  deriving DecidableEq, Repr

/-- The sock, its reader, the bytes that finished reads have returned, and the result of the last.
-/
structure Rd where
  sk : TcpSock
  place : Place := .idle
  got : List UInt8 := []
  result : Option Int := none
  deriving DecidableEq, Repr

/-- A segment comes in, `tcp_read` is called, or the reader goes on. -/
inductive RdEvent
  | segment (seg : Seg)
  | read (len : UInt32)
  | dequeue
  | test
  | enter
  | leave
  deriving DecidableEq, Repr

/-- `tcp_receive` returns. -/
def Rd.return (r : Rd) (sk : TcpSock) (c : Receiving) : Rd :=
  { sk := sk, place := .idle, got := r.got ++ c.buf, result := some c.rlen.toNat }

/-- One event. The test of `tcp_read` and the first test of the loop of `tcp_receive` are one step.
-/
def rdStep (r : Rd) : RdEvent → Option Rd
  | .segment seg =>
    match tcpProcess r.sk seg with
    | .ok sk => some { r with sk := sk }
    | .error _ => none
  | .read len =>
    if r.place = .idle ∧ 0 < len ∧ len < 0x80000000 then
      let t := tcpReadStart r.sk len.toNat
      some (match t.2 with
        | .idle => { r with sk := t.1, result := some (if r.sk.state = .closeWait then 0 else -1) }
        | .receiving _ _ => { r with sk := t.1, place := .dequeue { len := len }, result := none })
    else none
  | .dequeue =>
    match r.place with
    | .dequeue c => some { r with
        sk := (receiveDequeue r.sk c).1, place := .test (receiveDequeue r.sk c).2 }
    | _ => none
  | .test =>
    match r.place with
    | .test c =>
      let t := receiveTest r.sk c
      some (if t.2 then r.return t.1 c else { r with sk := t.1, place := .enter c })
    | _ => none
  | .enter =>
    match r.place with
    | .enter c => some { r with sk := { r.sk with recvSleeping := true }, place := .asleep c }
    | _ => none
  | .leave =>
    match r.place with
    | .asleep c =>
      if r.sk.recvSleeping then none
      else some (if c.rlen < c.len then { r with place := .dequeue c } else r.return r.sk c)
    | _ => none

/-- The bytes of the call that is under way. -/
def Place.buf : Place → List UInt8
  | .idle => []
  | .dequeue c | .test c | .enter c | .asleep c => c.buf

/-- The bytes that were taken out of the receive queue. -/
def Rd.taken (r : Rd) : List UInt8 := r.got ++ r.place.buf

/-- The event is a segment of the stream, or a step of the reader. -/
def Admitted (S : List UInt8) (irs : UInt32) (r : Rd) : RdEvent → Prop
  | .segment seg => Sends S irs (arrived r.taken.length r.sk) seg
  | _ => True

/-- The reader does not test the flags of a connection whose FIN was received with nothing in his
hands and text on the queue. -/
def Fair (r : Rd) : RdEvent → Prop
  | .test => ∀ c, r.place = .test c →
      ¬ (c.rlen = 0 ∧ r.sk.flagFin = true ∧ r.sk.receiveQueue ≠ [])
  | _ => True

/-! ### The invariant -/

/-- A call has as many bytes as it counts, and no more than it asked for. -/
structure InCall (c : Receiving) : Prop where
  count : c.rlen.toNat = c.buf.length
  pos : 0 < c.len
  small : c.len < 0x80000000
  le : c.rlen ≤ c.len

def Place.Ok : Place → Prop
  | .idle => True
  | .dequeue c | .test c | .enter c | .asleep c => InCall c

/-- The bytes are counted, `TCP_PSH` is set for the test of a call that has some, and the last read
has reported the end of the stream only behind its last byte. -/
structure Reads (S : List UInt8) (irs : UInt32) (r : Rd) : Prop where
  counts : Counts S irs r.taken.length r.sk
  call : r.place.Ok
  psh : r.sk.flagPsh = true → ∃ c, r.place = .test c ∧ c.rlen ≠ 0
  eof : r.result = some 0 → S.length ≤ r.got.length

variable {r r' : Rd}

theorem Rd.taken_return {c : Receiving} (sk' : TcpSock) (hbuf : r.place.buf = c.buf) :
    (r.return sk' c).taken = r.taken := by
  unfold Rd.return Rd.taken Place.buf
  rw [← hbuf, List.append_nil]
  rfl

theorem Reads.not_psh (h : Reads S irs r) (hno : ∀ c, r.place ≠ .test c) : r.sk.flagPsh ≠ true :=
  fun hp => by
    obtain ⟨c, hc, -⟩ := h.psh hp
    exact hno c hc

theorem sides_receiveTest (sk : TcpSock) (c : Receiving) :
    recvSide (receiveTest sk c).1 = recvSide sk ∧ core (receiveTest sk c).1 = core sk := by
  unfold receiveTest
  split_ifs <;> exact ⟨rfl, rfl⟩

/-- A read that returns with some bytes does not report the end. -/
theorem Reads.return (h : Reads S irs r) {c : Receiving} {sk' : TcpSock} (hbuf : r.place.buf = c.buf)
    (hrecv : recvSide sk' = recvSide r.sk) (hcore : core sk' = core r.sk)
    (hfin : sk'.flagFin = r.sk.flagFin) (hpsh : sk'.flagPsh = false)
    (hzero : c.rlen = 0 → S.length ≤ r.got.length) : Reads S irs (r.return sk' c) := by
  refine ⟨?_, trivial, fun h' => absurd (hpsh.symm.trans h') (by simp), fun heof => ?_⟩
  · rw [Rd.taken_return sk' hbuf]
    exact h.counts.congr hrecv hcore hfin
  · have hrlen : c.rlen = 0 := by
      have hint : (c.rlen.toNat : Int) = 0 := Option.some.inj heof
      refine UInt32.toNat_inj.mp ?_
      rw [UInt32.toNat_zero]
      omega
    exact (hzero hrlen).trans (by simp [Rd.return])

theorem Reads.segment (h : Reads S irs r) {seg : Seg}
    (hseg : Sends S irs (arrived r.taken.length r.sk) seg) (hs : rdStep r (.segment seg) = some r') : Reads S irs r' := by
  obtain ⟨sk', hp, hcounts, hpsh⟩ := h.counts.tcpProcess hseg
  simp only [rdStep, hp, Option.some.injEq] at hs
  subst hs
  exact ⟨hcounts, h.call, fun h' => h.psh (hpsh.symm.trans h'), h.eof⟩

/-- In `CLOSE_WAIT` with nothing on the queue `tcp_read` reports the end. -/
theorem Reads.read (h : Reads S irs r) {len : UInt32} (hs : rdStep r (.read len) = some r') :
    Reads S irs r' := by
  simp only [rdStep, Option.ite_none_right_eq_some, Option.some.injEq] at hs
  obtain ⟨⟨hidle, hpos, hsmall⟩, rfl⟩ := hs
  have hlen : 0 < len.toNat := Word32.pos_iff.mp hpos
  have htaken : r.taken = r.got := by
    unfold Rd.taken
    rw [hidle]
    exact List.append_nil _
  have hcall : InCall { len := len } := ⟨rfl, hpos, hsmall, UInt32.zero_le⟩
  have hnopsh := h.not_psh fun c => by simp [hidle]
  have hgo : Reads S irs { r with sk := r.sk, place := .dequeue { len := len }, result := none } := by
    refine ⟨?_, hcall, fun hp => (hnopsh hp).elim, fun heof => absurd heof (by simp)⟩
    have hsame : (r.got ++ (Place.dequeue { len := len }).buf).length = r.taken.length := by
      rw [htaken]
      exact congrArg List.length (List.append_nil _)
    show Counts S irs (r.got ++ (Place.dequeue { len := len }).buf).length r.sk
    rw [hsame]
    exact h.counts
  rcases h.counts.place with ⟨hst, -⟩ | ⟨hst, hall⟩
  · have hstart : tcpReadStart r.sk len.toNat = (r.sk, .receiving len.toNat 0) := by
      unfold tcpReadStart
      rw [hst]
      simp [hlen]
    simp only [hstart]
    exact hgo
  · by_cases hend : r.sk.receiveQueue = [] ∧ r.sk.flagFin = true
    · have hstart : tcpReadStart r.sk len.toNat = ({ r.sk with flagFin := false }, .idle) := by
        unfold tcpReadStart
        rw [hst]
        simp [hst, hend]
      simp only [hstart]
      rw [hend.1, text_nil, htaken] at hall
      refine ⟨?_, h.call, fun hp => (hnopsh hp).elim, fun _ => hall⟩
      have hc := h.counts
      exact ⟨hc.start, hc.freed, hc.receive, hc.ofo, hc.place.imp (fun hp => ⟨hp.1, rfl, hp.2.2⟩) id⟩
    · have hstart : tcpReadStart r.sk len.toNat = (r.sk, .receiving len.toNat 0) := by
        unfold tcpReadStart
        rw [hst]
        simp [hend, hlen]
      simp only [hstart]
      exact hgo

theorem Reads.dequeue (h : Reads S irs r) (hs : rdStep r .dequeue = some r') : Reads S irs r' := by
  cases hplace : r.place with
  | dequeue c =>
    simp only [rdStep, hplace, Option.some.injEq] at hs
    subst hs
    have hcall : InCall c := by
      have hok := h.call
      rwa [hplace] at hok
    have hu : (c.len - c.rlen).toNat < 2147483648 := by
      have hle := Word32.le_iff.mp hcall.le
      have hsmall := Word32.lt_iff.mp hcall.small
      rw [Word32.toNat_sub_of_le hle]
      have hlit : (0x80000000 : UInt32).toNat = 2147483648 := rfl
      omega
    obtain ⟨htext, hleft, hpsh⟩ := dequeue_whole hu (UInt32.zero_le) h.counts.receive
    have hcount := toNat_dequeued hu (UInt32.zero_le) fun skb hskb =>
      (h.counts.receive skb hskb).toSized
    have hle := Word32.le_iff.mp
      (dequeued_le (q := r.sk.receiveQueue) (n := c.len - c.rlen) UInt32.zero_le)
    have hlenle := Word32.le_iff.mp hcall.le
    rw [Word32.toNat_sub_of_le hlenle] at hle
    have hlen32 := c.len.toNat_lt
    have hrlen : (c.rlen + dequeued (c.len - c.rlen) 0 r.sk.receiveQueue).toNat =
        c.rlen.toNat + (Data.dequeue (c.len - c.rlen) 0 r.sk.receiveQueue).1.length := by
      rw [Word32.toNat_add_of_lt (by omega), hcount, UInt32.toNat_zero, Nat.zero_add]
    have htaken : r.taken.length = r.got.length + c.buf.length := by
      unfold Rd.taken
      rw [hplace]
      exact List.length_append
    have hlens := congrArg List.length htext
    rw [List.length_append] at hlens
    refine ⟨⟨h.counts.start, h.counts.freed, hleft, h.counts.ofo, ?_⟩, ⟨?_, hcall.pos, hcall.small, ?_⟩,
      fun hp => ⟨_, rfl, ?_⟩, h.eof⟩
    · have hsum : (r.got ++ (c.buf ++ (Data.dequeue (c.len - c.rlen) 0 r.sk.receiveQueue).1)).length +
          (text (Data.dequeue (c.len - c.rlen) 0 r.sk.receiveQueue).2.1).length =
          r.taken.length + (text r.sk.receiveQueue).length := by
        rw [List.length_append, List.length_append]
        omega
      show r.sk.state = .established ∧ r.sk.flagFin = false ∧ r.sk.rcvNxt = irs + 1 + UInt32.ofNat
          ((r.got ++ (c.buf ++ (Data.dequeue (c.len - c.rlen) 0 r.sk.receiveQueue).1)).length +
          (text (Data.dequeue (c.len - c.rlen) 0 r.sk.receiveQueue).2.1).length) ∨
        r.sk.state = .closeWait ∧ S.length ≤
          (r.got ++ (c.buf ++ (Data.dequeue (c.len - c.rlen) 0 r.sk.receiveQueue).1)).length +
          (text (Data.dequeue (c.len - c.rlen) 0 r.sk.receiveQueue).2.1).length
      rw [hsum]
      exact h.counts.place
    · show (c.rlen + dequeued (c.len - c.rlen) 0 r.sk.receiveQueue).toNat =
        (c.buf ++ (Data.dequeue (c.len - c.rlen) 0 r.sk.receiveQueue).1).length
      rw [hrlen, List.length_append, hcall.count]
    · show c.rlen + dequeued (c.len - c.rlen) 0 r.sk.receiveQueue ≤ c.len
      rw [Word32.le_iff, hrlen]
      omega
    · -- the flag was clear before, so it came with a buffer that was used up
      have hclear : r.sk.flagPsh = false := by
        by_contra hset
        obtain ⟨c', hc', -⟩ := h.psh (by simpa using hset)
        rw [hplace] at hc'
        exact absurd hc' (by simp)
      have hused : (Data.dequeue (c.len - c.rlen) 0 r.sk.receiveQueue).2.2 = true := by
        have hor : (r.sk.flagPsh || (Data.dequeue (c.len - c.rlen) 0 r.sk.receiveQueue).2.2) = true := hp
        rwa [hclear, Bool.false_or] at hor
      have hsome := List.length_pos_iff.mpr (hpsh hused)
      intro hzero
      have hnat := congrArg UInt32.toNat hzero
      rw [UInt32.toNat_zero] at hnat
      have hsum : (c.rlen + dequeued (c.len - c.rlen) 0 r.sk.receiveQueue).toNat = 0 := hnat
      omega
  | _ => simp [rdStep, hplace] at hs

/-- The test of the flags. -/
theorem Reads.test (h : Reads S irs r) (hfair : Fair r .test) (hs : rdStep r .test = some r') :
    Reads S irs r' := by
  cases hplace : r.place with
  | test c =>
    simp only [rdStep, hplace, Option.some.injEq] at hs
    have hcall : InCall c := by
      have hok := h.call
      rwa [hplace] at hok
    have hbuf : r.place.buf = c.buf := congrArg Place.buf hplace
    by_cases hpsh : r.sk.flagPsh = true
    · obtain ⟨c', hc', hne⟩ := h.psh hpsh
      rw [hplace, Place.test.injEq] at hc'
      subst hc'
      have htest : receiveTest r.sk c = ({ r.sk with flagPsh := false }, true) := by
        unfold receiveTest
        rw [if_pos hpsh]
      rw [htest] at hs
      subst hs
      exact h.return hbuf rfl rfl rfl rfl fun hzero => absurd hzero hne
    · have htest : receiveTest r.sk c = (r.sk, r.sk.flagFin || decide (c.rlen = c.len)) := by
        unfold receiveTest
        rw [if_neg hpsh]
      rw [htest] at hs
      by_cases hend : (r.sk.flagFin || decide (c.rlen = c.len)) = true
      · rw [if_pos hend] at hs
        subst hs
        refine h.return hbuf rfl rfl rfl (by simpa using hpsh) fun hzero => ?_
        have hfin : r.sk.flagFin = true := by
          simp only [Bool.or_eq_true, decide_eq_true_eq] at hend
          refine hend.resolve_right fun hfull => ?_
          have hpos := hcall.pos
          rw [← hfull, hzero] at hpos
          exact absurd hpos (by decide)
        have hempty : r.sk.receiveQueue = [] := by
          by_contra hne
          exact hfair c hplace ⟨hzero, hfin, hne⟩
        have hcount := hcall.count
        rw [hzero, UInt32.toNat_zero] at hcount
        rcases h.counts.place with ⟨-, hno, -⟩ | ⟨-, hall⟩
        · rw [hno] at hfin
          exact absurd hfin (by simp)
        · rw [hempty, text_nil] at hall
          unfold Rd.taken at hall
          rw [hbuf, List.length_append, ← hcount] at hall
          exact hall
      · rw [if_neg hend] at hs
        subst hs
        refine ⟨?_, hcall, fun hp => absurd hp hpsh, h.eof⟩
        have hcounts := h.counts
        unfold Rd.taken at hcounts
        rw [hbuf] at hcounts
        exact hcounts
  | _ => simp [rdStep, hplace] at hs

theorem Reads.enter (h : Reads S irs r) (hs : rdStep r .enter = some r') : Reads S irs r' := by
  cases hplace : r.place with
  | enter c =>
    simp only [rdStep, hplace, Option.some.injEq] at hs
    subst hs
    have hcounts := h.counts
    have hcall := h.call
    unfold Rd.taken at hcounts
    rw [hplace] at hcounts hcall
    have hnopsh := h.not_psh fun c' => by simp [hplace]
    exact ⟨hcounts.congr rfl rfl rfl, hcall, fun hp => (hnopsh hp).elim, h.eof⟩
  | _ => simp [rdStep, hplace] at hs

theorem Reads.leave (h : Reads S irs r) (hs : rdStep r .leave = some r') : Reads S irs r' := by
  cases hplace : r.place with
  | asleep c =>
    simp only [rdStep, hplace, Option.ite_none_left_eq_some, Option.some.injEq] at hs
    obtain ⟨-, hs⟩ := hs
    have hcounts := h.counts
    have hcall := h.call
    have hnopsh := h.not_psh fun c' => by simp [hplace]
    have hbuf : r.place.buf = c.buf := congrArg Place.buf hplace
    rw [hplace] at hcall
    split_ifs at hs with hlt
    · subst hs
      unfold Rd.taken at hcounts
      rw [hbuf] at hcounts
      exact ⟨hcounts, hcall, fun hp => (hnopsh hp).elim, h.eof⟩
    · subst hs
      refine h.return hbuf rfl rfl rfl (by simpa using hnopsh) fun hzero => ?_
      rw [hzero] at hlt
      exact absurd hcall.pos hlt
  | _ => simp [rdStep, hplace] at hs

/-- What one event preserves. -/
theorem reads_step {e : RdEvent} (h : Reads S irs r) (hc : Admitted S irs r e ∧ Fair r e)
    (hs : rdStep r e = some r') : Reads S irs r' := by
  cases e with
  | segment seg => exact h.segment hc.1 hs
  | read len => exact h.read hs
  | dequeue => exact h.dequeue hs
  | test => exact h.test hc.2 hs
  | enter => exact h.enter hs
  | leave => exact h.leave hs

/-! ### The bytes -/

/-- On a stream that is shorter than `2^32` the place of a text is its sequence number. -/
theorem Sends.conforms (hS : S.length < 4294967296) {seg : Seg} (h : Sends S irs n seg) :
    Conforms S irs seg := by
  obtain ⟨i, hseq, htext, hend⟩ := h.text
  have hlen : seg.payload.length = seg.dlen.toNat := h.sized.len
  have hoff : offset irs seg.th.seq = i % 4294967296 := by
    unfold offset
    rw [hseq, show irs + 1 + UInt32.ofNat i - (irs + 1) = UInt32.ofNat i by grind, UInt32.toNat_ofNat']
  refine ⟨⟨hlen, ?_⟩, fun hfin => ?_⟩
  · show seg.payload = (S.drop (offset irs seg.th.seq)).take seg.dlen.toNat
    by_cases hzero : seg.dlen.toNat = 0
    · rw [htext, hzero, List.take_zero, List.take_zero]
    · rw [htext, List.length_take, List.length_drop] at hlen
      rw [hoff, Nat.mod_eq_of_lt (by omega)]
      exact htext
  · obtain ⟨hlast, -⟩ := hend hfin
    rw [hoff, Nat.mod_eq_of_lt (by omega)]
    exact hlast

/-- The bytes that were taken and those on the queue are the first of `S`. -/
def Bytes (S : List UInt8) (irs : UInt32) (r : Rd) : Prop :=
  Position S r.taken r.sk ∧ r.sk.irs = irs ∧ r.sk.freed = false

theorem Bytes.congr (h : Bytes S irs r) (htaken : r'.taken = r.taken)
    (hr : recvSide r'.sk = recvSide r.sk) (hc : core r'.sk = core r.sk) : Bytes S irs r' := by
  refine ⟨?_, (congrArg RecvSide.irs hr).trans h.2.1, (congrArg Core.freed hc).trans h.2.2⟩
  rw [htaken]
  exact h.1.congr hr hc

/-- `tcp_data_dequeue` takes bytes from the front of the queue. -/
theorem Bytes.dequeue (hS : S.length < 4294967296) (h : Bytes S irs r)
    (hs : rdStep r .dequeue = some r') : Bytes S irs r' := by
  cases hplace : r.place with
  | dequeue c =>
    simp only [rdStep, hplace, Option.some.injEq] at hs
    subst hs
    refine ⟨?_, h.2⟩
    have htaken : ({ r with
        sk := (receiveDequeue r.sk c).1, place := .test (receiveDequeue r.sk c).2 } : Rd).taken =
        r.taken ++ (Data.dequeue (c.len - c.rlen) 0 r.sk.receiveQueue).1 := by
      unfold Rd.taken
      rw [hplace]
      exact (List.append_assoc _ _ _).symm
    have hstream : ∀ m, Stream S r.taken m (recvSide r.sk) →
        Stream S (r.taken ++ (Data.dequeue (c.len - c.rlen) 0 r.sk.receiveQueue).1) m
          (recvSide (receiveDequeue r.sk c).1) := by
      intro m hm
      have hle : (r.taken ++ text r.sk.receiveQueue).length ≤ S.length := by
        rw [show r.taken ++ text r.sk.receiveQueue = S.take m from hm.bytes, List.length_take]
        exact Nat.min_le_right _ _
      rw [List.length_append] at hle
      obtain ⟨htext, hleft⟩ := dequeue_spec (c.len - c.rlen) r.sk.receiveQueue 0 hm.len
        (by rw [UInt32.toNat_zero]; omega)
      refine ⟨hm.le, ?_, hleft, hm.ofo⟩
      show _ ++ text (Data.dequeue (c.len - c.rlen) 0 r.sk.receiveQueue).2.1 = S.take m
      rw [List.append_assoc, htext]
      exact hm.bytes
    rw [htaken]
    exact h.1.imp (fun hp => ⟨hp.1, hstream _ hp.2⟩) fun hp => ⟨hp.1, hp.2.1, hstream _ hp.2.2⟩
  | _ => simp [rdStep, hplace] at hs

theorem bytes_step (hS : S.length < 4294967296) {e : RdEvent} (h : Bytes S irs r)
    (hc : Admitted S irs r e) (hs : rdStep r e = some r') : Bytes S irs r' := by
  cases e with
  | segment seg =>
    obtain ⟨hpos, hirs, hfreed⟩ := h
    obtain ⟨sk', hp, hpos', hirs', hfreed'⟩ :=
      hpos.tcpProcess hS hfreed (hirs ▸ Sends.conforms hS hc)
    simp only [rdStep, hp, Option.some.injEq] at hs
    subst hs
    exact ⟨hpos', hirs'.trans hirs, hfreed'⟩
  | read len =>
    simp only [rdStep, Option.ite_none_right_eq_some, Option.some.injEq] at hs
    obtain ⟨⟨hidle, -, -⟩, rfl⟩ := hs
    have hr := recvSide_tcpReadStart r.sk len.toNat
    have hcore := core_tcpReadStart r.sk len.toNat
    refine h.congr ?_ ?_ ?_ <;> cases (tcpReadStart r.sk len.toNat).2
    · rfl
    · unfold Rd.taken
      rw [hidle]
      rfl
    · exact hr
    · exact hr
    · exact hcore
    · exact hcore
  | dequeue => exact h.dequeue hS hs
  | test =>
    cases hplace : r.place with
    | test c =>
      simp only [rdStep, hplace, Option.some.injEq] at hs
      obtain ⟨hr, hcore⟩ := sides_receiveTest r.sk c
      have hbuf : r.place.buf = c.buf := congrArg Place.buf hplace
      split_ifs at hs <;> subst hs
      · exact h.congr (Rd.taken_return _ hbuf) hr hcore
      · refine h.congr ?_ hr hcore
        unfold Rd.taken
        rw [hbuf]
        rfl
    | _ => simp [rdStep, hplace] at hs
  | enter =>
    cases hplace : r.place with
    | enter c =>
      simp only [rdStep, hplace, Option.some.injEq] at hs
      subst hs
      refine h.congr ?_ rfl rfl
      unfold Rd.taken
      rw [hplace]
      rfl
    | _ => simp [rdStep, hplace] at hs
  | leave =>
    cases hplace : r.place with
    | asleep c =>
      simp only [rdStep, hplace, Option.ite_none_left_eq_some, Option.some.injEq] at hs
      obtain ⟨-, hs⟩ := hs
      have hbuf : r.place.buf = c.buf := congrArg Place.buf hplace
      split_ifs at hs <;> subst hs
      · refine h.congr ?_ rfl rfl
        unfold Rd.taken
        rw [hbuf]
        rfl
      · exact h.congr (Rd.taken_return _ hbuf) rfl rfl
    | _ => simp [rdStep, hplace] at hs

/-! ### Runs -/

/-- A connection that is just open: nothing has arrived. -/
structure Fresh (sk : TcpSock) : Prop where
  state : sk.state = .established
  nxt : sk.rcvNxt = sk.irs + 1
  freed : sk.freed = false
  receive : sk.receiveQueue = []
  ofo : sk.ofoQueue = []
  flags : flags sk = (false, false)

/-- **No premature end of file.** A read that reports the end of the stream has been preceded by as
many bytes as `S` has, and these are `S` if it is shorter than `2^32`. -/
theorem end_of_file {S : List UInt8} {sk : TcpSock} (hsk : Fresh sk) {events : List RdEvent} {r : Rd}
    (hadm : Along rdStep (Admitted S sk.irs) { sk := sk } events)
    (hfair : Along rdStep Fair { sk := sk } events)
    (hrun : run rdStep { sk := sk } events = some r) (heof : r.result = some 0) :
    S.length ≤ r.got.length ∧ (S.length < 4294967296 → r.got = S) := by
  have hstart : Reads S sk.irs { sk := sk } := by
    refine ⟨⟨rfl, hsk.freed, ?_, ?_, .inl ⟨hsk.state, congrArg Prod.snd hsk.flags, ?_⟩⟩, trivial,
      fun hp => ?_, fun h => absurd h (by simp)⟩
    · rw [hsk.receive]; simp
    · rw [hsk.ofo]; simp
    · show sk.rcvNxt = sk.irs + 1 + UInt32.ofNat (0 + (text sk.receiveQueue).length)
      rw [hsk.nxt, hsk.receive]
      exact (UInt32.add_zero _).symm
    · have hclear : sk.flagPsh = false := congrArg Prod.fst hsk.flags
      exact absurd (hclear.symm.trans hp) (by simp)
  have hreads := run_inv (P := Reads S sk.irs) (C := fun r e => Admitted S sk.irs r e ∧ Fair r e)
    (fun _ _ _ h hc hs => reads_step h hc hs) hstart (hadm.and hfair) hrun
  have hlen := hreads.eof heof
  refine ⟨hlen, fun hS => ?_⟩
  have hzero : offset sk.irs sk.rcvNxt = 0 := by
    unfold offset
    rw [hsk.nxt, UInt32.sub_self]
    rfl
  have hbytes₀ : Bytes S sk.irs { sk := sk } := by
    refine ⟨.inl ⟨hsk.state, ?_⟩, rfl, hsk.freed⟩
    show Stream S [] (offset sk.irs sk.rcvNxt) (recvSide sk)
    rw [hzero]
    exact ⟨Nat.zero_le _, by simp [recvSide, hsk.receive], by simp [recvSide, hsk.receive],
      by simp [recvSide, hsk.ofo]⟩
  have hbytes := run_inv (P := Bytes S sk.irs) (fun _ _ _ h hc hs => bytes_step hS h hc hs) hbytes₀
    hadm hrun
  have hprefix : r.got <+: S := by
    have htaken : r.taken ++ text r.sk.receiveQueue <+: S := by
      rcases hbytes.1 with ⟨-, h⟩ | ⟨-, -, h⟩
      · exact h.isPrefix
      · exact h.isPrefix
    exact ((List.prefix_append r.got _).trans (List.prefix_append r.taken _)).trans htaken
  exact hprefix.eq_of_length (Nat.le_antisymm hprefix.length_le hlen)

theorem client_fresh : Fresh client := ⟨rfl, rfl, rfl, rfl, rfl, rfl⟩

/-- The stream `1, 2, 3` with its FIN. -/
def threeBytes : Seg :=
  { th := { seq := 1001, ack := true, ackSeq := 5, psh := true, fin := true }, dlen := 3
    payload := [1, 2, 3] }

theorem threeBytes_sends (n : ℕ) : Sends [1, 2, 3] client.irs n threeBytes := by
  refine ⟨⟨0, rfl, rfl, fun _ => ⟨rfl, ?_⟩⟩, ⟨rfl, by decide⟩⟩
  show 3 < n + 4294967296
  omega

/-- A read takes the three bytes, and the next one reports the end. -/
theorem end_of_file_threeBytes : ∃ r,
    run rdStep { sk := client } [.segment threeBytes, .read 5, .dequeue, .test, .read 5] = some r ∧
      r.result = some 0 ∧ r.got = [1, 2, 3] := by
  have hrun : (run rdStep { sk := client } [.segment threeBytes, .read 5, .dequeue, .test, .read 5]).map
      Rd.result = some (some 0) := by decide
  have hmid : (run rdStep { sk := client } [.segment threeBytes, .read 5, .dequeue]).map
      (fun u => u.sk.receiveQueue) = some [] := by decide
  obtain ⟨r, hr, heof⟩ := Option.map_eq_some_iff.mp hrun
  obtain ⟨u, hu, hempty⟩ := Option.map_eq_some_iff.mp hmid
  have hadm : ∀ e ∈ [RdEvent.segment threeBytes, .read 5, .dequeue, .test, .read 5], ∀ r,
      Admitted [1, 2, 3] client.irs r e := by
    intro e he r
    simp only [List.mem_cons, List.not_mem_nil, or_false] at he
    rcases he with rfl | rfl | rfl | rfl | rfl
    · exact threeBytes_sends _
    all_goals trivial
  have hbefore : Along rdStep Fair { sk := client } [.segment threeBytes, .read 5, .dequeue] := by
    refine Along.of_forall fun e he s => ?_
    simp only [List.mem_cons, List.not_mem_nil, or_false] at he
    rcases he with rfl | rfl | rfl <;> trivial
  have hfair : Along rdStep Fair { sk := client }
      ([.segment threeBytes, .read 5, .dequeue] ++ [.test, .read 5]) := by
    refine hbefore.append fun v hv => ?_
    obtain rfl := Option.some.inj (hu.symm.trans hv)
    exact ⟨fun _ _ hbad => hbad.2.2 hempty, fun _ _ => ⟨trivial, fun _ _ => trivial⟩⟩
  exact ⟨r, hr, heof, (end_of_file client_fresh (Along.of_forall hadm) hfair hr heof).2 (by decide)⟩

/-- The reader finds nothing, the stream comes in with its FIN, and the reader tests the flags. -/
theorem truncated : ¬ ∀ (S : List UInt8) (sk : TcpSock) (events : List RdEvent) (r : Rd), Fresh sk →
    Along rdStep (Admitted S sk.irs) { sk := sk } events →
    run rdStep { sk := sk } events = some r → r.result = some 0 → S.length ≤ r.got.length := by
  intro hall
  have hrun : (run rdStep { sk := client } [.read 5, .dequeue, .segment threeBytes, .test]).map
      (fun r => (r.result, r.got)) = some (some 0, []) := by decide
  obtain ⟨r, hr, heq⟩ := Option.map_eq_some_iff.mp hrun
  have hadm : ∀ e ∈ [RdEvent.read 5, .dequeue, .segment threeBytes, .test], ∀ r,
      Admitted [1, 2, 3] client.irs r e := by
    intro e he r
    simp only [List.mem_cons, List.not_mem_nil, or_false] at he
    rcases he with rfl | rfl | rfl | rfl
    · trivial
    · trivial
    · exact threeBytes_sends _
    · trivial
  have hlen := hall [1, 2, 3] client _ r client_fresh (Along.of_forall hadm) hr (congrArg Prod.fst heq)
  have hgot : r.got = [] := congrArg Prod.snd heq
  rw [hgot] at hlen
  exact absurd hlen (by decide)

end ToyIP.Tcp.EndOfFile
