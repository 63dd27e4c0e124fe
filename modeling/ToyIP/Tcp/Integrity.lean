import ToyIP.Tcp.Network
import ToyIP.Tcp.Receiver

/-! # TCP: end-to-end integrity of the stream

The bytes a client reads against the bytes written on the other side, over a network that loses,
duplicates, delays and reorders. The receiver only relies on every segment carrying the part of the
stream at its sequence number (`Tcp.Receiver`). `tcp_send` keeps to this; a retransmission does not,
since it takes `snd_una` for the sequence number of the head of the write queue, and the head may
start later. As long as every retransmission finds the head at `snd_una` (`Aligned`), what the
client has is a prefix of what was written: `integrity`. -/

namespace ToyIP.Tcp.Integrity

open ToyIP.Lib ToyIP.Lib.Run ToyIP.Tcp.Types ToyIP.Tcp.Output ToyIP.Tcp.Input ToyIP.Tcp.Sock
  ToyIP.Tcp.Sides ToyIP.Tcp.Effects ToyIP.Tcp.Network ToyIP.Tcp.Receiver

/-- No side closes the connection. -/
def NoClose : LinkEvent → Prop
  | .close _ => False
  | _ => True

/-- A timer of the child that sends the head of the write queue again finds all of the queue, and
nothing else, between `snd_una` and `snd_nxt`. -/
def Aligned (l : Link) : LinkEvent → Prop
  | .timer .child i => ∀ c t, l.child = some c → c.timers[i]? = some t → t.cancelled = false →
      t.handler = .tcpRetransmissionTimeout ∨ t.handler = .tcpConnectRto → c.writeQueue ≠ [] →
      c.sndUna.toNat + (text c.writeQueue).length = c.sndNxt.toNat
  | _ => True

/-- A segment of the child: a part of the stream, or the answer to the SYN with the number `iss`. -/
structure SentBy (iss isn : UInt32) (S : List UInt8) (s : Seg) : Prop where
  part : PartOf S isn (tcpInitSegment s)
  fin : s.th.fin = false
  syn : s.th.syn = true → s.th.ack = true ∧ s.th.ackSeq = iss + 1 ∧ s.th.seq = isn

/-- The child as the sender of the stream `S`. -/
structure Sends (iss : UInt32) (S : List UInt8) (c : TcpSock) : Prop where
  out : ∀ s ∈ c.out, SentBy iss c.isn S s
  mss : 0 < c.smss
  nxt : c.sndNxt.toNat = c.isn.toNat + 1 + S.length
  queue : text c.writeQueue <:+ S
  plain : ∀ skb ∈ c.writeQueue,
    skb.payload.length = skb.dlen.toNat ∧ skb.th.fin = false ∧ skb.th.syn = false

/-- The states of a child that is never closed. -/
def Open (c : TcpSock) : Prop :=
  c.state = .synReceived ∧ c.parent = some .listen ∨ Live c.state

variable {iss isn : UInt32} {S got : List UInt8} {c c' : TcpSock}

/-! ### The segments of the child -/

theorem offset_eq {isn seq : UInt32} (hw : isn.toNat + 1 < 4294967296)
    (h : isn.toNat + 1 ≤ seq.toNat) : offset isn seq = seq.toNat - (isn.toNat + 1) := by
  have hone : (isn + 1).toNat = isn.toNat + 1 := Word32.toNat_add_of_lt hw
  unfold offset
  rw [Word32.toNat_sub_of_le (by omega), hone]

theorem sentBy_of_pureAck {r : UInt32} {s : Seg} (h : PureAck r s) (isn : UInt32) :
    SentBy iss isn S s := by
  refine ⟨⟨?_, ?_⟩, h.fin, fun hs => absurd h.syn (by rw [hs]; simp)⟩
  · show s.payload.length = s.dlen.toNat
    rw [h.payload, h.dlen]; rfl
  · show s.payload = List.take s.dlen.toNat _
    rw [h.payload, h.dlen]; rfl

theorem SentBy.append {isn : UInt32} {s : Seg} (h : SentBy iss isn S s) (T : List UInt8) :
    SentBy iss isn (S ++ T) s := ⟨h.part.append T, h.fin, h.syn⟩

/-- What sends no text and at most forgets buffers from the front of the write queue. -/
theorem Sends.quiet (h : Sends iss S c) (hisn : c'.isn = c.isn) (hnxt : c'.sndNxt = c.sndNxt)
    (hmss : c'.smss = c.smss) (hq : c'.writeQueue <:+ c.writeQueue)
    (hout : Emits (fun s => ∃ r, PureAck r s) c c') : Sends iss S c' where
  out := fun s hs => by
    rw [hisn]
    rcases hout.mem hs with hs | ⟨r, hr⟩
    · exact h.out s hs
    · exact sentBy_of_pureAck hr _
  mss := hmss ▸ h.mss
  nxt := by rw [hnxt, hisn]; exact h.nxt
  queue := by
    obtain ⟨l, hl⟩ := hq
    refine List.IsSuffix.trans ⟨text l, ?_⟩ h.queue
    rw [← text_append, hl]
  plain := fun skb hskb => h.plain skb (hq.subset hskb)

/-- One round of `tcp_send`: a chunk of the stream leaves at its own sequence number. -/
theorem Sends.chunk (h : Sends iss S c) {chunk : List UInt8} (psh : Bool)
    (hlen : chunk.length < 65536)
    (hw : c.isn.toNat + 1 + (S ++ chunk).length < 4294967296) :
    Sends iss (S ++ chunk) (tcpQueueTransmitSkb c (dataSkb chunk psh)) := by
  have hd : (dataSkb chunk psh).dlen.toNat = chunk.length := Word32.toNat_ofNat (by omega)
  have hnxt := h.nxt
  rw [List.length_append] at hw
  have hoff : offset c.isn c.sndNxt = S.length := by
    rw [offset_eq (by omega) (by omega)]
    omega
  obtain ⟨timers, retransmit, heq⟩ := tcpQueueTransmitSkb_eq c (dataSkb chunk psh)
  rw [heq]
  refine ⟨fun s hs => ?_, h.mss, ?_, ?_, fun skb hskb => ?_⟩
  · rcases List.mem_append.mp hs with hs | hs
    · exact (h.out s hs).append chunk
    · rw [List.mem_singleton] at hs
      subst hs
      refine ⟨⟨hd.symm, ?_⟩, rfl, fun hs => absurd hs (by simp [sentSeg, fillHeader, dataSkb])⟩
      show chunk = ((S ++ chunk).drop (offset c.isn c.sndNxt)).take (dataSkb chunk psh).dlen.toNat
      rw [hoff, hd, List.drop_left, List.take_length]
  · show (c.sndNxt + (dataSkb chunk psh).dlen).toNat = c.isn.toNat + 1 + (S ++ chunk).length
    rw [Word32.toNat_add_of_lt (by omega), hd, List.length_append]
    omega
  · show text (c.writeQueue ++ [_]) <:+ _
    obtain ⟨l, hl⟩ := h.queue
    refine ⟨l, ?_⟩
    rw [text_append, ← List.append_assoc, hl, text_cons, text_nil, List.append_nil]
    rfl
  · rcases List.mem_append.mp hskb with hskb | hskb
    · exact h.plain skb hskb
    · rw [List.mem_singleton] at hskb
      subst hskb
      exact ⟨hd.symm, rfl, rfl⟩

theorem isn_tcpQueueTransmitSkb (sk : TcpSock) (skb : Skb) :
    (tcpQueueTransmitSkb sk skb).isn = sk.isn := by
  obtain ⟨timers, retransmit, heq⟩ := tcpQueueTransmitSkb_eq sk skb
  rw [heq]

/-- `tcp_send` appends its buffer to the stream. -/
theorem Sends.tcpSend (h : Sends iss S c) {buf : List UInt8}
    (hw : c.isn.toNat + 1 + (S ++ buf).length < 4294967296) :
    Sends iss (S ++ buf) (tcpSend c buf) ∧ (tcpSend c buf).isn = c.isn := by
  have hall : ∃ T, T ++ [] = S ++ buf ∧ Sends iss T (Output.tcpSend c buf) ∧
      (Output.tcpSend c buf).isn = c.isn := by
    refine tcpSend_ind
      (P := fun sk rest => ∃ T, T ++ rest = S ++ buf ∧ Sends iss T sk ∧ sk.isn = c.isn) ?_ h.mss
      ⟨S, rfl, h, rfl⟩
    rintro sk chunk rest psh - hlen ⟨T, hT, hs, hisn⟩
    have hle : (T ++ chunk).length ≤ (S ++ buf).length := by
      rw [← hT, ← List.append_assoc]
      simp
    refine ⟨T ++ chunk, by rw [List.append_assoc, hT], hs.chunk psh hlen ?_, ?_⟩
    · rw [hisn]; omega
    · rw [isn_tcpQueueTransmitSkb]; exact hisn
  obtain ⟨T, hT, hs, hisn⟩ := hall
  rw [List.append_nil] at hT
  exact ⟨hT ▸ hs, hisn⟩

/-- The head of the queue sent at `snd_una`, if this is where it starts. -/
theorem Sends.resend (h : Sends iss S c) (hw : c.isn.toNat + 1 + S.length < 4294967296)
    {skb : Skb} {q : List Skb} (hq : c.writeQueue = skb :: q)
    (hal : c.sndUna.toNat + (text c.writeQueue).length = c.sndNxt.toNat) :
    SentBy iss c.isn S (sentSeg c skb c.sndUna) := by
  obtain ⟨hlen, hfin, hsyn⟩ := h.plain skb (by rw [hq]; simp)
  have hsub := h.queue
  have hle := hsub.length_le
  have hnxt := h.nxt
  have hoff : offset c.isn c.sndUna = S.length - (text c.writeQueue).length := by
    rw [offset_eq (by omega) (by omega)]
    omega
  have hdrop : S.drop (S.length - (text c.writeQueue).length) = text c.writeQueue :=
    (List.suffix_iff_eq_drop.mp hsub).symm
  refine ⟨⟨hlen, ?_⟩, hfin, fun hs => ?_⟩
  · show skb.payload = (S.drop (offset c.isn c.sndUna)).take skb.dlen.toNat
    rw [hoff, hdrop, hq, text_cons, ← hlen, List.take_left]
  · have : skb.th.syn = true := hs
    rw [hsyn] at this
    exact absurd this (by simp)

/-! ### Steps of the child -/

/-- The child: all it has sent are parts of `S`, and it goes on so as long as it is not freed. -/
structure ChildInv (iss isn : UInt32) (S : List UInt8) (c : TcpSock) : Prop where
  isn : c.isn = isn
  wrap : c.isn.toNat + 1 + S.length < 4294967296
  out : ∀ s ∈ c.out, SentBy iss c.isn S s
  sends : c.freed = false → Sends iss S c ∧ Open c

theorem ChildInv.of_sends (hisn : c.isn = isn)
    (hw : c.isn.toNat + 1 + S.length < 4294967296) (h : Sends iss S c) (ho : Open c) :
    ChildInv iss isn S c := ⟨hisn, hw, h.out, fun _ => ⟨h, ho⟩⟩

/-- A child that at most forgets buffers stays what it was. -/
theorem ChildInv.quiet (h : ChildInv iss isn S c) (hf : c.freed = false) (hk : KeepsQueue c c')
    (hmss : c'.smss = c.smss) (hout : Emits (fun s => ∃ r, PureAck r s) c c') (ho : Open c') :
    ChildInv iss isn S c' := by
  have hs := (h.sends hf).1.quiet hk.isn hk.nxt hmss hk.queue hout
  exact .of_sends (hk.isn.trans h.isn) (hk.isn ▸ h.wrap) hs ho

/-- A segment, whatever it says. -/
theorem ChildInv.segment (h : ChildInv iss isn S c) (hf : c.freed = false) {seg : Seg}
    (hstep : tcpProcess c seg = .ok c') : ChildInv iss isn S c' := by
  rcases (h.sends hf).2 with ⟨hst, hp⟩ | hlive
  · rw [tcpProcess_synReceived hst hp hf] at hstep
    have hopen : ∀ sk, core sk = core c → Open sk := fun sk hc =>
      Or.inl ⟨(congrArg Core.state hc).trans hst, (congrArg Core.parent hc).trans hp⟩
    have hreset : Emits (fun s => ∃ r, PureAck r s) c (tcpSendReset c) :=
      ⟨[resetSeg c], rfl, fun s hs => by
        rw [List.mem_singleton] at hs
        exact hs ▸ ⟨c.rcvNxt, rfl, rfl, rfl, rfl, rfl⟩⟩
    split_ifs at hstep with hfil hsyn hack hack hrange hrst <;>
      obtain rfl := Except.ok.inj hstep
    · refine ⟨h.isn, h.wrap, fun s hs => ?_,
        fun hfree => absurd hfree (by simp [tcpFreeSock])⟩
      rcases hreset.mem hs with hs | ⟨r, hr⟩
      · exact h.out s hs
      · exact sentBy_of_pureAck hr _
    · have hacc : KeepsQueue c (accept c seg.th.ackSeq) := ⟨rfl, rfl, List.suffix_refl _⟩
      have hlive : Live (accept c seg.th.ackSeq).state := trivial
      obtain ⟨hcore, hlive'⟩ := core_textFin hlive seg.th (tcpInitSegment seg)
      refine h.quiet hf (hacc.trans (.of_sendSide (sendSide_textFin _ _ _)))
        (congrArg Core.smss hcore) ?_ (Or.inr hlive')
      exact (Emits.of_out rfl).trans (emits_textFin _ _ _)
    · exact h.quiet hf ⟨rfl, rfl, List.suffix_refl _⟩ rfl hreset (hopen _ rfl)
    · exact h
    · exact h
    · exact h.quiet hf (.of_sendSide (sendSide_tcpSendAck c))
        (congrArg Core.smss (core_tcpSendAck c))
        ((emits_tcpSendAck c).mono fun _ h => ⟨_, h⟩) (hopen _ (core_tcpSendAck c))
  · rw [tcpProcess_eq hlive.synchronized hf] at hstep
    obtain rfl := Except.ok.inj hstep
    obtain ⟨hcore, hlive'⟩ := core_processed hlive seg
    exact h.quiet hf (keepsQueue_processed c seg) (congrArg Core.smss hcore)
      (emits_processed c seg) (Or.inr hlive')

/-- A timer, if a retransmission finds the queue aligned. -/
theorem ChildInv.timer (h : ChildInv iss isn S c) (hf : c.freed = false) {i : ℕ}
    (hstep : fireTimer c i = some c')
    (hal : ∀ t, c.timers[i]? = some t → t.cancelled = false →
      t.handler = .tcpRetransmissionTimeout ∨ t.handler = .tcpConnectRto → c.writeQueue ≠ [] →
      c.sndUna.toNat + (text c.writeQueue).length = c.sndNxt.toNat) : ChildInv iss isn S c' := by
  obtain ⟨t, ht, hcan, heff⟩ := fireTimer_some hstep
  obtain ⟨hs, ho⟩ := h.sends hf
  have hopen : ∀ sk, core sk = core c → Open sk := fun sk hc => by
    have hst : sk.state = c.state := congrArg Core.state hc
    have hp : sk.parent = c.parent := congrArg Core.parent hc
    unfold Open
    rw [hst, hp]
    exact ho
  cases heff with
  | quiet send recv core out =>
    exact h.quiet hf (.of_sendSide send) (congrArg Core.smss core)
      (out.mono fun _ h => ⟨_, h⟩) (hopen _ core)
  | freed freed receiveQueue out hisn =>
    refine ⟨hisn.trans h.isn, hisn ▸ h.wrap, ?_, fun hfree => absurd hfree (by rw [freed]; simp)⟩
    rw [out, hisn]
    exact h.out
  | resend skb q queue handler send recv core state out =>
    have hseg := hs.resend h.wrap queue (hal t ht hcan handler (by rw [queue]; simp))
    have hplain := hs.plain skb (by rw [queue]; simp)
    have hisn : c'.isn = c.isn := congrArg SendSide.isn send
    have hwq : c'.writeQueue = sentSkb c skb c.sndUna :: q := congrArg SendSide.writeQueue send
    have hst : c'.state = c.state := by
      rcases state with hst | ⟨hfin, -⟩
      · exact hst
      · rw [hplain.2.1] at hfin; exact absurd hfin (by simp)
    rw [hst] at core
    refine .of_sends (hisn.trans h.isn) (hisn ▸ h.wrap) ⟨?_, ?_, ?_, ?_, ?_⟩ (hopen _ core)
    · rw [out, hisn]
      intro s hs
      rcases List.mem_append.mp hs with hs | hs
      · exact h.out s hs
      · rw [List.mem_singleton] at hs
        exact hs ▸ hseg
    · rw [show c'.smss = c.smss from congrArg Core.smss core]
      exact hs.mss
    · rw [hisn, show c'.sndNxt = c.sndNxt from congrArg SendSide.sndNxt send]
      exact hs.nxt
    · rw [hwq]
      have := hs.queue
      rw [queue] at this
      exact this
    · rw [hwq]
      intro x hx
      rcases List.mem_cons.mp hx with rfl | hx
      · exact hplain
      · exact hs.plain x (by rw [queue]; simp [hx])

/-- `tcp_write` appends the bytes it takes to the stream. -/
theorem ChildInv.write (h : ChildInv iss isn S c) (hf : c.freed = false) {buf : List UInt8}
    (hw : c.sndNxt.toNat + buf.length < 4294967296) :
    ChildInv iss isn (S ++ if (tcpWrite c buf).2 < 0 then [] else buf) (tcpWrite c buf).1 := by
  obtain ⟨hs, ho⟩ := h.sends hf
  have hnxt := hs.nxt
  by_cases hopen : c.state = .established ∨ c.state = .closeWait
  · have hres : ¬ (tcpWrite c buf).2 < 0 := by
      unfold tcpWrite
      rcases hopen with hst | hst <;> rw [hst] <;> simp
    rw [if_neg hres, tcpWrite_open hopen]
    have hw' : c.isn.toNat + 1 + (S ++ buf).length < 4294967296 := by
      rw [List.length_append]; omega
    obtain ⟨hs', hisn⟩ := hs.tcpSend hw'
    refine .of_sends (hisn.trans h.isn) (hisn ▸ hw') hs' ?_
    have hcore := core_tcpSend hs.mss buf
    have hst : (Output.tcpSend c buf).state = c.state := congrArg Core.state hcore
    refine Or.inr ?_
    rw [hst]
    rcases hopen with hst | hst <;> rw [hst] <;> trivial
  · rw [not_or] at hopen
    have hres : (tcpWrite c buf).2 < 0 := by
      unfold tcpWrite
      split
      · rename_i hst; exact absurd hst hopen.1
      · rename_i hst; exact absurd hst hopen.2
      · simp
    rw [if_pos hres, tcpWrite_not_open hopen.1 hopen.2, List.append_nil]
    exact h

/-! ### Steps of the client -/

/-- The client: freed, or waiting for the answer to its SYN, or in the middle of the stream `S` that
starts behind `isn`. -/
inductive ClientInv (iss : UInt32) (isn : Option UInt32) (S got : List UInt8) (sk : TcpSock) : Prop
  | freed (freed : sk.freed = true) (receiveQueue : sk.receiveQueue = []) (got : got <+: S)
  | connecting (connecting : Connecting iss sk) (got : got = [])
  | reading (live : Live sk.state) (freed : sk.freed = false) (mss : 0 < sk.smss)
      (isn : isn = some sk.irs) (stream : Stream S got (offset sk.irs sk.rcvNxt) (recvSide sk))

variable {sk sk' : TcpSock} {o : Option UInt32}

/-- The bytes read and the bytes queued are a prefix of the stream. -/
theorem ClientInv.isPrefix (h : ClientInv iss o S got sk) :
    got ++ text sk.receiveQueue <+: S := by
  cases h with
  | freed _ hq hg => rw [hq, text_nil, List.append_nil]; exact hg
  | connecting hc hg => rw [hc.receiveQueue, hg]; exact List.nil_prefix
  | reading _ _ _ _ hs => exact hs.isPrefix

/-- The stream grows. -/
theorem ClientInv.append (h : ClientInv iss o S got sk) (T : List UInt8) :
    ClientInv iss o (S ++ T) got sk := by
  cases h with
  | freed hf hq hg => exact .freed hf hq (hg.trans (List.prefix_append S T))
  | connecting hc hg => exact .connecting hc hg
  | reading hl hf hm hi hs => exact .reading hl hf hm hi (hs.append T)

/-- A live client whose receive side is left alone. -/
theorem ClientInv.congr (hl : Live sk'.state) (hc : core sk' = { core sk with state := sk'.state })
    (hr : recvSide sk' = recvSide sk) (hf : sk.freed = false) (hm : 0 < sk.smss)
    (hi : o = some sk.irs) (hs : Stream S got (offset sk.irs sk.rcvNxt) (recvSide sk)) :
    ClientInv iss o S got sk' := by
  have h1 : sk'.rcvNxt = sk.rcvNxt := congrArg RecvSide.rcvNxt hr
  have h2 : sk'.irs = sk.irs := congrArg RecvSide.irs hr
  have h3 : sk'.smss = sk.smss := congrArg Core.smss hc
  refine .reading hl ((congrArg Core.freed hc).trans hf) (h3 ▸ hm) (h2 ▸ hi) ?_
  rw [h1, h2, hr]
  exact hs

/-- A segment of the child or a reset of the listener. -/
theorem ClientInv.segment (hiss : iss.toNat + 1 < 4294967296) (hS : S.length < 4294967296)
    (h : ClientInv iss o S got sk) (hf : sk.freed = false) {seg : Seg}
    (hseg : (∃ r, PureAck r seg) ∨ ∃ isn, o = some isn ∧ SentBy iss isn S seg)
    (hstep : tcpProcess sk seg = .ok sk') : ClientInv iss o S got sk' := by
  have hsyn : seg.th.syn = true → seg.th.ack = true ∧ seg.th.ackSeq = iss + 1 := fun hs => by
    rcases hseg with ⟨r, hr⟩ | ⟨isn, -, hsent⟩
    · rw [hr.syn] at hs; exact absurd hs (by simp)
    · exact ⟨(hsent.syn hs).1, (hsent.syn hs).2.1⟩
  cases h with
  | freed hfreed _ _ => rw [hf] at hfreed; exact absurd hfreed (by simp)
  | connecting hc hg =>
    rcases hc.segment hiss hsyn with heq | ⟨hs, timers, retransmit, heq⟩ <;>
      rw [heq] at hstep <;> obtain rfl := Except.ok.inj hstep
    · exact .connecting hc hg
    · rcases hseg with ⟨r, hr⟩ | ⟨isn, ho, hsent⟩
      · rw [hr.syn] at hs; exact absurd hs (by simp)
      · have hisn : seg.th.seq = isn := (hsent.syn hs).2.2
        have hzero : offset seg.th.seq (seg.th.seq + 1) = 0 := by
          unfold offset
          rw [UInt32.sub_self]; rfl
        have hmss : 0 < sk.smss := by rw [hc.smss]; decide
        refine .reading trivial hc.freed hmss (by rw [ho, ← hisn]; rfl) ?_
        show Stream S got (offset seg.th.seq (seg.th.seq + 1)) _
        rw [hzero, hg]
        exact ⟨Nat.zero_le _, by simp [recvSide, answered, hc.receiveQueue],
          by simp [recvSide, answered, hc.receiveQueue], by simp [recvSide, answered, hc.ofoQueue]⟩
  | reading hl _ hm hi hs =>
    rw [tcpProcess_eq hl.synchronized hf] at hstep
    obtain rfl := Except.ok.inj hstep
    have hpart : PartOf S sk.irs (tcpInitSegment seg) ∧ seg.th.fin = false := by
      rcases hseg with ⟨r, hr⟩ | ⟨isn, ho, hsent⟩
      · have hsent : SentBy iss sk.irs S seg := sentBy_of_pureAck hr sk.irs
        exact ⟨hsent.part, hsent.fin⟩
      · rw [hi, Option.some.injEq] at ho
        exact ⟨ho ▸ hsent.part, hsent.fin⟩
    obtain ⟨hcore, hlive⟩ := core_processed hl seg
    have hquiet : recvSide (processed sk seg) = recvSide sk →
        ClientInv iss o S got (processed sk seg) := fun hr =>
      .congr hlive hcore hr hf hm hi hs
    rcases processed_cases sk seg with heq | heq | heq | heq | heq
    · exact hquiet (by rw [heq])
    · exact hquiet (by rw [heq]; simp)
    · exact hquiet (by rw [heq]; simp)
    · exact hquiet (by rw [heq]; simp)
    · have hack : recvSide (takeAck (afterSyn sk seg.th) seg.th) = recvSide sk := by simp
      have hnofin : ∀ sk₁, finCheck sk₁ seg.th (tcpInitSegment seg) = sk₁ := fun sk₁ => by
        rcases finCheck_cases sk₁ seg.th (tcpInitSegment seg) with heq | ⟨hfin, -⟩
        · exact heq
        · rw [hpart.2] at hfin; exact absurd hfin (by simp)
      rw [heq, hnofin] at hcore hlive ⊢
      set sk₁ := takeAck (afterSyn sk seg.th) seg.th
      have hirs : sk₁.irs = sk.irs := congrArg RecvSide.irs hack
      have hnxt : sk₁.rcvNxt = sk.rcvNxt := congrArg RecvSide.rcvNxt hack
      have hs₁ : Stream S got (offset sk₁.irs sk₁.rcvNxt) (recvSide sk₁) := by
        rw [hirs, hnxt, hack]; exact hs
      have hs₂ := hs₁.segmentText hS seg.th (hirs ▸ hpart.1)
      have hirs₂ := irs_segmentText sk₁ seg.th (tcpInitSegment seg)
      refine .reading hlive ((congrArg Core.freed hcore).trans hf) ?_ ?_ ?_
      · rw [show (segmentText sk₁ seg.th _).smss = sk.smss from congrArg Core.smss hcore]
        exact hm
      · rw [hirs₂, hirs]; exact hi
      · rw [hirs₂]; exact hs₂

/-- A timer of the client. -/
theorem ClientInv.timer (h : ClientInv iss o S got sk) (hf : sk.freed = false) {i : ℕ}
    (hstep : fireTimer sk i = some sk') : ClientInv iss o S got sk' := by
  cases h with
  | freed hfreed _ _ => rw [hf] at hfreed; exact absurd hfreed (by simp)
  | connecting hc hg =>
    rcases hc.timer hstep with hc' | ⟨hf', hq', -⟩
    · exact .connecting hc' hg
    · exact .freed hf' hq' (hg ▸ List.nil_prefix)
  | reading hl _ hm hi hs =>
    obtain ⟨t, -, -, heff⟩ := fireTimer_some hstep
    cases heff with
    | quiet send recv core out =>
      have hst : sk'.state = sk.state := congrArg Core.state core
      exact .congr (hst ▸ hl) (by rw [core, hst]; rfl) recv hf hm hi hs
    | freed hf' hq' _ _ =>
      exact .freed hf' hq' ((List.prefix_append _ _).trans hs.isPrefix)
    | resend skb q queue handler send recv core state out =>
      refine .congr ?_ core recv hf hm hi hs
      rcases state with hst | ⟨-, hst⟩
      · rw [hst]; exact hl
      · rw [hst]; exact live_refinState hl

/-- A write on the client. -/
theorem ClientInv.write (h : ClientInv iss o S got sk) (hf : sk.freed = false)
    (buf : List UInt8) : ClientInv iss o S got (tcpWrite sk buf).1 := by
  cases h with
  | freed hfreed _ _ => rw [hf] at hfreed; exact absurd hfreed (by simp)
  | connecting hc hg =>
    rw [tcpWrite_not_open (by rw [hc.state]; simp) (by rw [hc.state]; simp)]
    exact .connecting hc hg
  | reading hl _ hm hi hs =>
    by_cases hopen : sk.state = .established ∨ sk.state = .closeWait
    · rw [tcpWrite_open hopen]
      have hcore := core_tcpSend hm buf
      have hst : (tcpSend sk buf).state = sk.state := congrArg Core.state hcore
      exact .congr (hst ▸ hl) (by rw [hcore, hst]; rfl) (recvSide_tcpSend hm buf) hf hm hi hs
    · rw [not_or] at hopen
      rw [tcpWrite_not_open hopen.1 hopen.2]
      exact .reading hl hf hm hi hs

/-- A step of the reader. -/
theorem ClientInv.round (hS : S.length < 4294967296) (h : ClientInv iss o S got sk)
    (hf : sk.freed = false) (len rlen : ℕ) :
    ClientInv iss o S (got ++ (tcpReceiveRound sk len rlen).2.1)
      (tcpReceiveRound sk len rlen).1 := by
  cases h with
  | freed hfreed _ _ => rw [hf] at hfreed; exact absurd hfreed (by simp)
  | connecting hc hg =>
    obtain ⟨flagPsh, recvSleeping, heq, hgot⟩ := tcpReceiveRound_eq sk len rlen
    rw [hc.receiveQueue] at heq hgot
    rw [heq, hgot, hg]
    exact .connecting ⟨hc.state, hc.freed, hc.smss, hc.isn, hc.una, hc.nxt, hc.queue, hc.out,
      hc.timers, rfl, hc.ofoQueue⟩ rfl
  | reading hl _ hm hi hs =>
    have hs' := hs.tcpReceiveRound hS len rlen
    have hc := core_tcpReceiveRound sk len rlen
    have hr := rcvNxt_tcpReceiveRound sk len rlen
    have hst : (tcpReceiveRound sk len rlen).1.state = sk.state := congrArg Core.state hc
    refine .reading (hst ▸ hl) ((congrArg Core.freed hc).trans hf) ?_ (hr.2 ▸ hi) ?_
    · rw [show (tcpReceiveRound sk len rlen).1.smss = sk.smss from congrArg Core.smss hc]
      exact hm
    · rw [hr.1, hr.2]; exact hs'

/-- The call of `tcp_read`. -/
theorem ClientInv.read (h : ClientInv iss o S got sk) (hf : sk.freed = false) (len : ℕ) :
    ClientInv iss o S got (tcpReadStart sk len).1 := by
  cases h with
  | freed hfreed _ _ => rw [hf] at hfreed; exact absurd hfreed (by simp)
  | connecting hc hg =>
    have : (tcpReadStart sk len).1 = sk := by
      unfold tcpReadStart
      rw [hc.state]
    rw [this]
    exact .connecting hc hg
  | reading hl _ hm hi hs =>
    have hc := core_tcpReadStart sk len
    have hst : (tcpReadStart sk len).1.state = sk.state := congrArg Core.state hc
    exact .congr (hst ▸ hl) (by rw [hc, hst]; rfl) (recvSide_tcpReadStart sk len) hf hm hi hs

/-! ### Runs -/

/-- The invariant of the two endpoints. The network to the client is what the child and the listener
have sent; as long as there is no child, the client is not connected. -/
structure Inv (iss : UInt32) (l : Link) : Prop where
  short : l.written.length < 4294967296
  listener : l.listener.state = .listen ∧ ∀ s ∈ l.listener.out, ∃ r, PureAck r s
  client : ClientInv iss (l.child.map TcpSock.isn) l.written l.got l.client
  child : ∀ c, l.child = some c → ChildInv iss c.isn l.written c
  noChild : l.child = none → l.written = [] ∧ ∀ s ∈ l.client.out, s.th.syn = true → s.th.seq = iss

variable {l l' : Link}

theorem Inv.connecting (h : Inv iss l) (hf : l.client.freed = false) (hn : l.child = none) :
    Connecting iss l.client := by
  have hc := h.client
  rw [hn] at hc
  cases hc with
  | freed hfreed _ _ => rw [hf] at hfreed; exact absurd hfreed (by simp)
  | connecting hc _ => exact hc
  | reading _ _ _ hi _ => exact absurd hi (by simp)

/-- A step of the client. -/
theorem Inv.of_client (h : Inv iss l) {sk : TcpSock} {reader : Reader} {got : List UInt8}
    {est : Bool} (hc : ClientInv iss (l.child.map TcpSock.isn) l.written got sk)
    (hn : l.child = none → ∀ s ∈ sk.out, s.th.syn = true → s.th.seq = iss) :
    Inv iss { l with client := sk, reader := reader, got := got, established := est } :=
  ⟨h.short, h.listener, hc, h.child, fun hnone => ⟨(h.noChild hnone).1, hn hnone⟩⟩

/-- A step of the child. -/
theorem Inv.of_child (h : Inv iss l) {c c' : TcpSock} {T : List UInt8} (hc : l.child = some c)
    (hc' : ChildInv iss c.isn (l.written ++ T) c') :
    Inv iss { l with child := some c', written := l.written ++ T } := by
  have hw := hc'.wrap
  refine ⟨?_, h.listener, ?_, ?_, fun hnone => absurd hnone (by simp)⟩
  · show (l.written ++ T).length < _
    omega
  · have hcl := h.client.append T
    rw [hc] at hcl
    show ClientInv iss (some c'.isn) _ _ _
    rw [hc'.isn]
    exact hcl
  · intro c'' heq
    obtain rfl := Option.some.inj heq
    rw [hc'.isn]
    exact hc'

/-- A child that the listener makes. -/
theorem Inv.of_listener (h : Inv iss l) {seg : Seg} {isn : UInt32} (hn : l.child = none)
    (hw : isn.toNat + 1 < 4294967296) (hseg : seg ∈ l.client.out) :
    Inv iss { l with
      listener := (tcpHandleListen l.listener seg isn).1
      child := (tcpHandleListen l.listener seg isn).2 } := by
  obtain ⟨hwr, hsyn⟩ := h.noChild hn
  have hcl := h.client
  rw [hn] at hcl
  rcases tcpHandleListen_cases l.listener seg isn with heq | heq | ⟨hs, heq, c, hc⟩
  · rw [heq]
    exact ⟨h.short, h.listener, hcl, fun c hc => absurd hc (by simp), fun _ => ⟨hwr, hsyn⟩⟩
  · rw [heq]
    refine ⟨h.short, ⟨h.listener.1, fun s hs => ?_⟩, hcl, fun c hc => absurd hc (by simp),
      fun _ => ⟨hwr, hsyn⟩⟩
    rcases List.mem_append.mp hs with hs | hs
    · exact h.listener.2 s hs
    · rw [List.mem_singleton] at hs
      exact hs ▸ ⟨l.listener.rcvNxt, rfl, rfl, rfl, rfl, rfl⟩
  · have hfresh := fresh_of_tcpHandleListen hc
    obtain ⟨s, hout, hsyn', hack, hfin, hseq, hackSeq, hdlen, hpay⟩ := hfresh.out
    rw [heq, hc]
    have hone : (isn + 1).toNat = isn.toNat + 1 := Word32.toNat_add_of_lt hw
    refine ⟨h.short, h.listener, ?_, ?_, fun hnone => absurd hnone (by simp)⟩
    · cases hcl with
      | freed hf hq hg => exact .freed hf hq hg
      | connecting hcon hg => exact .connecting hcon hg
      | reading _ _ _ hi _ => exact absurd hi (by simp)
    · intro c' hc'
      obtain rfl := Option.some.inj hc'
      rw [hwr]
      refine .of_sends rfl (by rw [hfresh.isn]; simpa using hw) ⟨?_, ?_, ?_, ?_, ?_⟩
        (Or.inl ⟨hfresh.state, hfresh.parent.trans (congrArg some h.listener.1)⟩)
      · intro s' hs'
        rw [hout, List.mem_singleton] at hs'
        subst hs'
        refine ⟨⟨?_, ?_⟩, hfin, fun _ => ⟨hack, ?_, hseq.trans hfresh.isn.symm⟩⟩
        · show s'.payload.length = s'.dlen.toNat
          rw [hpay, hdlen]; rfl
        · show s'.payload = List.take s'.dlen.toNat _
          rw [hpay, hdlen]; rfl
        · rw [hackSeq, hsyn seg hseg hs]
      · rw [hfresh.smss]; decide
      · rw [hfresh.nxt, hfresh.isn, hone]; rfl
      · rw [hfresh.writeQueue]; exact List.suffix_refl _
      · rw [hfresh.writeQueue]; simp

/-- What one event preserves. -/
theorem inv_step (hiss : iss.toNat + 1 < 4294967296) {e : LinkEvent} (h : Inv iss l)
    (hc : NoClose e ∧ Aligned l e) (hstep : linkStep l e = some l') : Inv iss l' := by
  match e with
  | .write .client buf =>
    obtain ⟨hf, sk, hsk, rfl⟩ := onClient_some hstep
    obtain ⟨-, rfl⟩ := write_some hsk
    refine h.of_client (h.client.write hf buf) fun hn => ?_
    have hcon := h.connecting hf hn
    rw [tcpWrite_not_open (by rw [hcon.state]; simp) (by rw [hcon.state]; simp)]
    exact (h.noChild hn).2
  | .write .child buf =>
    obtain ⟨l₁, hl₁, rfl⟩ := Option.map_eq_some_iff.mp hstep
    obtain ⟨c, c', hchild, hf, hc', rfl⟩ := onChild_some hl₁
    obtain ⟨hw, rfl⟩ := write_some hc'
    have htaken : taken l buf = if (tcpWrite c buf).2 < 0 then [] else buf := by
      unfold taken; rw [hchild]
    rw [htaken]
    exact h.of_child hchild ((h.child c hchild).write hf hw)
  | .close p => exact hc.1.elim
  | .timer .client i =>
    have hstep : onClient l (fun sk => fireTimer sk i) = some l' := hstep
    obtain ⟨hf, sk, hsk, rfl⟩ := onClient_some hstep
    refine h.of_client (h.client.timer hf hsk) fun hn => ?_
    rcases (h.connecting hf hn).timer hsk with hcon | ⟨-, -, hout⟩
    · exact fun s hs _ => (hcon.out s hs).2.2.2.1
    · rw [hout]; exact (h.noChild hn).2
  | .timer .child i =>
    obtain ⟨c, c', hchild, hf, hc', rfl⟩ := onChild_some hstep
    have hci := (h.child c hchild).timer hf hc' fun t => hc.2 c t hchild
    have := h.of_child (T := []) hchild (by rw [List.append_nil]; exact hci)
    rwa [List.append_nil] at this
  | .toClient i =>
    obtain ⟨hf, sk, hsk, rfl⟩ := onClient_some hstep
    obtain ⟨seg, hseg, hp⟩ := receive_some hsk
    obtain ⟨c, hchild, hseg⟩ := Option.bind_eq_some_iff.mp hseg
    have hsent := (h.child c hchild).out seg (List.mem_of_getElem? hseg)
    refine h.of_client (h.client.segment hiss h.short hf (Or.inr ⟨c.isn, ?_, hsent⟩) hp)
      fun hn => ?_
    · rw [hchild]; rfl
    · rw [hchild] at hn; exact absurd hn (by simp)
  | .resetToClient i =>
    obtain ⟨hf, sk, hsk, rfl⟩ := onClient_some hstep
    obtain ⟨seg, hseg, hp⟩ := receive_some hsk
    have hpure := h.listener.2 seg (List.mem_of_getElem? hseg)
    refine h.of_client (h.client.segment hiss h.short hf (Or.inl hpure) hp) fun hn => ?_
    obtain ⟨r, hr⟩ := hpure
    rcases (h.connecting hf hn).segment hiss (fun hs => absurd hr.syn (by rw [hs]; simp)) with
      heq | ⟨hs, -⟩
    · rw [heq] at hp
      obtain rfl := Except.ok.inj hp
      exact (h.noChild hn).2
    · rw [hr.syn] at hs; exact absurd hs (by simp)
  | .toServer i isn =>
    cases hchild : l.child with
    | some c =>
      simp only [linkStep, hchild] at hstep
      obtain ⟨c₁, c', hc₁, hf, hc', rfl⟩ := onChild_some hstep
      obtain ⟨seg, -, hp⟩ := receive_some hc'
      have := h.of_child (T := []) hc₁
        (by rw [List.append_nil]; exact (h.child c₁ hc₁).segment hf hp)
      rwa [List.append_nil] at this
    | none =>
      simp only [linkStep, hchild] at hstep
      split_ifs at hstep with hw
      obtain ⟨seg, hseg, rfl⟩ := Option.map_eq_some_iff.mp hstep
      exact h.of_listener hchild hw (List.mem_of_getElem? hseg)
  | .read len =>
    simp only [linkStep] at hstep
    split at hstep
    · obtain ⟨l₁, hl₁, rfl⟩ := Option.map_eq_some_iff.mp hstep
      obtain ⟨hf, sk, hsk, rfl⟩ := onClient_some hl₁
      obtain rfl := Option.some.inj hsk
      refine h.of_client (h.client.read hf len) fun hn => ?_
      have hcon := h.connecting hf hn
      have : (tcpReadStart l.client len).1 = l.client := by
        unfold tcpReadStart
        rw [hcon.state]
      rw [this]
      exact (h.noChild hn).2
    · exact absurd hstep (by simp)
  | .round =>
    simp only [linkStep] at hstep
    split at hstep
    · exact absurd hstep (by simp)
    · rename_i len rlen _
      obtain ⟨l₁, hl₁, rfl⟩ := Option.map_eq_some_iff.mp hstep
      obtain ⟨hf, sk, hsk, rfl⟩ := onClient_some hl₁
      obtain rfl := Option.some.inj hsk
      refine h.of_client (h.client.round h.short hf len rlen) fun hn => ?_
      obtain ⟨flagPsh, recvSleeping, heq, -⟩ := tcpReceiveRound_eq l.client len rlen
      rw [heq]
      exact (h.noChild hn).2

/-- **End-to-end integrity.** In every run in which no side closes and every retransmission of the
child finds its write queue aligned, what the client has read, followed by what is in its receive
queue, is a prefix of what was written on the child. -/
theorem integrity {saddr daddr : UInt32} {sport dport : UInt16} {isn : UInt32}
    (hw : isn.toNat + 1 < 4294967296) {events : List LinkEvent} {l : Link}
    (hal : Along linkStep (fun l e => NoClose e ∧ Aligned l e)
      (start saddr daddr sport dport isn) events)
    (hrun : run linkStep (start saddr daddr sport dport isn) events = some l) :
    l.got ++ text l.client.receiveQueue <+: l.written := by
  have hinit : Inv isn (start saddr daddr sport dport isn) := by
    have hcon := connecting_start saddr daddr sport dport isn
    refine ⟨by show 0 < _; omega, ⟨rfl, ?_⟩, .connecting hcon rfl, ?_, fun _ => ⟨rfl, ?_⟩⟩
    · intro s hs
      exact absurd hs (by simp [start, listenSock, tcpAllocSock])
    · intro c hc
      exact absurd hc (by simp [start])
    · exact fun s hs _ => (hcon.out s hs).2.2.2.1
  exact (run_inv (fun _ _ _ h hc hs => inv_step hw h hc hs) hinit hal hrun).client.isPrefix

/-- A handshake, two bytes and one byte on the child, of which the first two arrive. -/
def smallWrites : List LinkEvent :=
  [.toServer 0 500, .toClient 0, .toServer 1 0, .write .child [1, 2], .write .child [3], .toClient 1]

theorem smallWrites_aligned : Along linkStep (fun l e => NoClose e ∧ Aligned l e)
    (start 1 2 10 20 100) smallWrites :=
  Along.of_forall fun e he l => by
    simp only [smallWrites, List.mem_cons, List.not_mem_nil, or_false] at he
    rcases he with rfl | rfl | rfl | rfl | rfl | rfl <;> exact ⟨trivial, trivial⟩

theorem integrity_smallWrites : ∃ l,
    run linkStep (start 1 2 10 20 100) smallWrites = some l ∧
      l.got ++ text l.client.receiveQueue <+: l.written := by
  have hsome : (run linkStep (start 1 2 10 20 100) smallWrites).isSome = true := by decide
  obtain ⟨l, hl⟩ := Option.isSome_iff_exists.mp hsome
  exact ⟨l, hl, integrity (by decide) smallWrites_aligned hl⟩

/-- The third byte is lost, and its buffer is dropped with the acknowledgement of the first two. The
next byte written is sent, and sent again in place of the lost one. -/
def lostByte : List LinkEvent :=
  smallWrites ++ [.toServer 2 0, .write .child [4], .timer .child 1, .toClient 4]

theorem lostByte_not_prefix : ¬ ∀ (saddr daddr : UInt32) (sport dport : UInt16) (isn : UInt32),
    isn.toNat + 1 < 4294967296 → ∀ (events : List LinkEvent) (l : Link),
      (∀ e ∈ events, NoClose e) → run linkStep (start saddr daddr sport dport isn) events = some l →
        l.got ++ text l.client.receiveQueue <+: l.written := by
  intro h
  have hrun : (run linkStep (start 1 2 10 20 100) lostByte).map
      (fun l => (l.got ++ text l.client.receiveQueue, l.written)) =
        some ([1, 2, 4], [1, 2, 3, 4]) := by decide
  have hopen : ∀ e ∈ lostByte, NoClose e := by
    intro e he
    simp only [lostByte, smallWrites, List.cons_append, List.nil_append, List.mem_cons,
      List.not_mem_nil, or_false] at he
    rcases he with rfl | rfl | rfl | rfl | rfl | rfl | rfl | rfl | rfl | rfl <;> trivial
  obtain ⟨l, hl, heq⟩ := Option.map_eq_some_iff.mp hrun
  have hpre := h 1 2 10 20 100 (by decide) _ l hopen hl
  rw [(Prod.mk.inj heq).1, (Prod.mk.inj heq).2] at hpre
  exact absurd hpre (by decide)

end ToyIP.Tcp.Integrity
