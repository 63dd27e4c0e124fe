import ToyIP.Tcp.Agreement

/-! # TCP: segments in turn

`carried` is a receiver without a sock: it takes a segment if it starts at the number it waits for.
A child sends nothing that such a receiver would have to wait for (`InTurn`, `Sends`): what is new
starts at `snd_nxt`, and what it sends again starts at `snd_una`, before it. And a client does with
a segment what the receiver does, as long as nothing is missing (`Reads`). -/

namespace ToyIP.Tcp.Turn

open ToyIP.Lib ToyIP.Lib.Run ToyIP.Lib.AckFlow ToyIP.Tcp.Types ToyIP.Tcp.Output ToyIP.Tcp.Data
  ToyIP.Tcp.Input ToyIP.Tcp.Sock ToyIP.Tcp.Sides ToyIP.Tcp.Effects ToyIP.Tcp.Network
  ToyIP.Tcp.Receiver ToyIP.Tcp.Flows ToyIP.Tcp.Agreement

/-! ### Segments in order -/

/-- A receiver: the number it waits for, the text it has taken, and whether it has seen a FIN. -/
structure Carried where
  nxt : ℕ
  text : List UInt8 := []
  fin : Bool := false

/-- A segment is taken if it starts at the number that is waited for. -/
def Carried.add (t : Carried) (s : Seg) : Carried :=
  if s.th.seq.toNat = t.nxt then ⟨t.nxt + segLen s, t.text ++ s.payload, t.fin || s.th.fin⟩ else t

/-- What the segments of a side with the number `isn` carry. -/
def carried (isn : UInt32) (out : List Seg) : Carried :=
  out.foldl Carried.add { nxt := isn.toNat + 1 }

/-- The next segment for a receiver is empty, or starts before the number it waits for, or just
there. -/
inductive Fits (t : Carried) (s : Seg) : Prop
  | bare (dlen : s.dlen = 0) (fin : s.th.fin = false) (payload : s.payload = [])
  | old (seq : s.th.seq.toNat < t.nxt)
  | next (seq : s.th.seq.toNat = t.nxt) (more : t.fin = false) (ack : s.th.ack = true)
      (len : s.payload.length = s.dlen.toNat) (fin : s.th.fin = true → s.dlen = 0)

/-- Each segment fits those before it, only the first has a SYN, and the acknowledgements rise. -/
structure InTurn (isn : UInt32) (out : List Seg) : Prop where
  fits : ∀ i s, out[i]? = some s → Fits (carried isn (out.take i)) s
  syn : ∀ i s, out[i]? = some s → s.th.syn = true → i = 0 ∧ s.th.seq = isn
  acks : out.Pairwise fun s s' => s.th.ack = true → s'.th.ack = true → s.th.ackSeq ≤ s'.th.ackSeq

variable {isn r : UInt32} {out l : List Seg} {s : Seg} {t : Carried}

theorem carried_append (isn : UInt32) (out l : List Seg) :
    carried isn (out ++ l) = l.foldl Carried.add (carried isn out) := by
  unfold carried
  rw [List.foldl_append]

theorem carried_take_succ {i : ℕ} (h : out[i]? = some s) :
    carried isn (out.take (i + 1)) = (carried isn (out.take i)).add s := by
  obtain ⟨hi, rfl⟩ := List.getElem?_eq_some_iff.mp h
  rw [List.take_succ_eq_append_getElem hi, carried_append]
  rfl

theorem Carried.add_of_eq (h : s.th.seq.toNat = t.nxt) :
    t.add s = ⟨t.nxt + segLen s, t.text ++ s.payload, t.fin || s.th.fin⟩ := if_pos h

theorem Carried.add_of_ne (h : s.th.seq.toNat ≠ t.nxt) : t.add s = t := if_neg h

theorem Carried.add_of_bare (hdlen : s.dlen = 0) (hfin : s.th.fin = false) (hpay : s.payload = []) :
    t.add s = t := by
  unfold Carried.add segLen
  rw [hdlen, hfin, hpay]
  simp

theorem Carried.le_add (t : Carried) (s : Seg) :
    t.nxt ≤ (t.add s).nxt ∧ t.text <+: (t.add s).text := by
  unfold Carried.add
  split_ifs
  · exact ⟨Nat.le_add_right _ _, List.prefix_append _ _⟩
  · exact ⟨le_rfl, List.prefix_refl _⟩

/-- What the first segments carry is the beginning of what all carry. -/
theorem carried_take_le (isn : UInt32) (out : List Seg) (i : ℕ) :
    (carried isn (out.take i)).nxt ≤ (carried isn out).nxt ∧
      (carried isn (out.take i)).text <+: (carried isn out).text := by
  have hmono : ∀ (l : List Seg) (t : Carried), t.nxt ≤ (l.foldl Carried.add t).nxt ∧
      t.text <+: (l.foldl Carried.add t).text := by
    intro l
    induction l with
    | nil => exact fun t => ⟨le_rfl, List.prefix_refl _⟩
    | cons s l ih =>
      intro t
      obtain ⟨h1, h2⟩ := ih (t.add s)
      obtain ⟨h3, h4⟩ := t.le_add s
      exact ⟨h3.trans h1, h4.trans h2⟩
  have hle := hmono (out.drop i) (carried isn (out.take i))
  rwa [← carried_append, List.take_append_drop] at hle

theorem InTurn.snoc (h : InTurn isn out) (hfits : Fits (carried isn out) s)
    (hsyn : s.th.syn = false)
    (hack : s.th.ack = true → ∀ x ∈ out, x.th.ack = true → x.th.ackSeq ≤ s.th.ackSeq) :
    InTurn isn (out ++ [s]) := by
  -- a segment of the longer list is one of the shorter, or the last
  have hcases : ∀ i x, (out ++ [s])[i]? = some x → out[i]? = some x ∧ i < out.length ∨
      i = out.length ∧ x = s := by
    intro i x hx
    rcases Nat.lt_or_ge i out.length with hi | hi
    · exact Or.inl ⟨by rwa [List.getElem?_append_left hi] at hx, hi⟩
    · rw [List.getElem?_append_right hi] at hx
      obtain ⟨hlt, rfl⟩ := List.getElem?_eq_some_iff.mp hx
      rw [List.length_singleton] at hlt
      exact Or.inr ⟨by omega, by simp⟩
  refine ⟨fun i x hx => ?_, fun i x hx hs => ?_, ?_⟩
  · rcases hcases i x hx with ⟨hx, hi⟩ | ⟨rfl, rfl⟩
    · rw [List.take_append_of_le_length hi.le]
      exact h.fits i x hx
    · rw [List.take_append_of_le_length le_rfl, List.take_length]
      exact hfits
  · rcases hcases i x hx with ⟨hx, -⟩ | ⟨-, rfl⟩
    · exact h.syn i x hx hs
    · rw [hsyn] at hs; exact absurd hs (by simp)
  · refine List.pairwise_append.mpr ⟨h.acks, List.pairwise_singleton _ _, fun x hx y hy hxa hya => ?_⟩
    obtain rfl := List.mem_singleton.mp hy
    exact hack hya x hx hxa

/-- Pure acknowledgements carry nothing. -/
theorem InTurn.append (h : InTurn isn out) (hl : ∀ s ∈ l, PureAck r s)
    (hr : ∀ x ∈ out, x.th.ack = true → x.th.ackSeq ≤ r) :
    InTurn isn (out ++ l) ∧ carried isn (out ++ l) = carried isn out := by
  induction l generalizing out with
  | nil => simpa using h
  | cons s l ih =>
    have hs := hl s (List.mem_cons_self ..)
    have hstay : carried isn (out ++ [s]) = carried isn out := by
      rw [carried_append]
      exact Carried.add_of_bare hs.dlen hs.fin hs.payload
    have hsnoc := h.snoc (.bare hs.dlen hs.fin hs.payload) hs.syn
      fun _ x hx hxa => hs.ackSeq ▸ hr x hx hxa
    obtain ⟨h1, h2⟩ := ih hsnoc (fun x hx => hl x (List.mem_cons_of_mem s hx)) fun x hx hxa => by
      rcases List.mem_append.mp hx with hx | hx
      · exact hr x hx hxa
      · rw [List.mem_singleton.mp hx, hs.ackSeq]
        exact UInt32.le_refl r
    rw [List.append_cons]
    exact ⟨h1, h2.trans hstay⟩

/-! ### The child -/

/-- The states of a side that has sent its FIN. -/
def Closing : TcpState → Prop
  | .finWait1 | .closing | .lastAck => True
  | _ => False

/-- The child has sent the bytes `S` in turn. Its window is closed, so it takes no text. -/
structure Sends (S : List UInt8) (c : TcpSock) : Prop where
  turn : InTurn c.isn c.out
  le : ∀ s ∈ c.out, s.th.ack = true → s.th.ackSeq ≤ c.rcvNxt
  nxt : (carried c.isn c.out).nxt = c.sndNxt.toNat
  text : (carried c.isn c.out).text = S
  fin : (carried c.isn c.out).fin = true → Closing c.state
  wnd : c.rcvWnd = 0
  short : S.length ≤ c.sndNxt.toNat

/-- The child `c` has gone on to `c'`. -/
structure SendsOn (S : List UInt8) (c c' : TcpSock) : Prop where
  sends : Sends S c'
  isn : c'.isn = c.isn
  out : c.out <+: c'.out

variable {S T : List UInt8} {c c' : TcpSock}

theorem SendsOn.trans {c₁ : TcpSock} (h : SendsOn S c c₁) (h' : SendsOn T c₁ c') :
    SendsOn T c c' := ⟨h'.sends, h'.isn.trans h.isn, h.out.trans h'.out⟩

theorem Sends.same (h : Sends S c) : SendsOn S c c := ⟨h, rfl, List.prefix_refl _⟩

theorem closing_finState {s : TcpState} (h : Closing s) : Closing (finState s) := by
  cases s <;> first | exact h.elim | trivial

theorem closing_refinState {s : TcpState} (h : Closing s) : Closing (refinState s) := by
  cases s <;> first | exact h.elim | trivial

/-- A step in which the child sends pure acknowledgements at most. -/
theorem Sends.quiet (h : Sends S c) (hisn : c'.isn = c.isn) (hnxt : c'.sndNxt = c.sndNxt)
    (hwnd : c'.rcvWnd = c.rcvWnd) (hout : Emits (PureAck c'.rcvNxt) c c')
    (hle : c.rcvNxt ≤ c'.rcvNxt) (hst : Closing c.state → Closing c'.state) : SendsOn S c c' := by
  obtain ⟨l, hl, hP⟩ := hout
  have hle' : ∀ s ∈ c.out, s.th.ack = true → s.th.ackSeq ≤ c'.rcvNxt := fun s hs ha =>
    UInt32.le_trans (h.le s hs ha) hle
  obtain ⟨hturn, hsame⟩ := h.turn.append hP hle'
  refine ⟨⟨by rwa [hisn, hl], fun s hs ha => ?_, ?_, ?_, ?_, hwnd.trans h.wnd,
    hnxt ▸ h.short⟩, hisn, l, hl.symm⟩
  · rw [hl] at hs
    rcases List.mem_append.mp hs with hs | hs
    · exact hle' s hs ha
    · rw [(hP s hs).ackSeq]
      exact UInt32.le_refl _
  · rw [hisn, hl, hsame, hnxt]; exact h.nxt
  · rw [hisn, hl, hsame]; exact h.text
  · rw [hisn, hl, hsame]
    exact fun hf => hst (h.fin hf)

/-- A new buffer leaves at `snd_nxt`. -/
theorem Sends.send (h : Sends S c) {skb : Skb} (hlen : skb.payload.length = skb.dlen.toNat)
    (hflags : skb.th.ack = true ∧ skb.th.syn = false ∧ (skb.th.fin = true → skb.dlen = 0))
    (hopen : ¬ Closing c.state) (hout : c'.out = c.out ++ [sentSeg c skb c.sndNxt])
    (hnxt : c'.sndNxt.toNat = c.sndNxt.toNat + skbLen skb) (hisn : c'.isn = c.isn)
    (hr : recvSide c' = recvSide c) (hst : skb.th.fin = true → Closing c'.state) :
    SendsOn (S ++ skb.payload) c c' := by
  have hrcv : c'.rcvNxt = c.rcvNxt := congrArg RecvSide.rcvNxt hr
  have hmore : (carried c.isn c.out).fin = false := by
    by_contra hf
    exact hopen (h.fin (by simpa using hf))
  have hfits : Fits (carried c.isn c.out) (sentSeg c skb c.sndNxt) :=
    .next h.nxt.symm hmore hflags.1 hlen hflags.2.2
  have hadd : carried c'.isn c'.out =
      ⟨c'.sndNxt.toNat, S ++ skb.payload, skb.th.fin⟩ := by
    have hadd : (carried c.isn c.out).add (sentSeg c skb c.sndNxt) = _ :=
      Carried.add_of_eq h.nxt.symm
    rw [h.nxt, h.text, hmore] at hadd
    rw [hisn, hout, carried_append, hnxt]
    exact hadd
  refine ⟨⟨?_, fun s hs ha => ?_, ?_, ?_, ?_, ?_, ?_⟩, hisn, _, hout.symm⟩
  · rw [hisn, hout]
    exact h.turn.snoc hfits hflags.2.1 fun _ => h.le
  · rw [hrcv]
    rw [hout] at hs
    rcases List.mem_append.mp hs with hs | hs
    · exact h.le s hs ha
    · rw [List.mem_singleton.mp hs]
      exact UInt32.le_refl _
  · rw [hadd]
  · rw [hadd]
  · rw [hadd]; exact hst
  · rw [show c'.rcvWnd = c.rcvWnd from congrArg RecvSide.rcvWnd hr]
    exact h.wnd
  · have hshort := h.short
    rw [List.length_append, hlen, hnxt]
    unfold skbLen
    omega

/-- The head of the queue leaves again, before `snd_nxt`. -/
theorem Sends.resend (h : Sends S c) {skb : Skb} (hsyn : skb.th.syn = false)
    (hlt : c.sndUna.toNat < c.sndNxt.toNat) (hout : c'.out = c.out ++ [sentSeg c skb c.sndUna])
    (hnxt : c'.sndNxt = c.sndNxt) (hisn : c'.isn = c.isn) (hr : recvSide c' = recvSide c)
    (hst : Closing c.state → Closing c'.state) : SendsOn S c c' := by
  have hrcv : c'.rcvNxt = c.rcvNxt := congrArg RecvSide.rcvNxt hr
  have hold : (sentSeg c skb c.sndUna).th.seq.toNat < (carried c.isn c.out).nxt := by
    rw [h.nxt]; exact hlt
  have hsame : carried c'.isn c'.out = carried c.isn c.out := by
    rw [hisn, hout, carried_append]
    exact Carried.add_of_ne hold.ne
  refine ⟨⟨?_, fun s hs ha => ?_, ?_, ?_, ?_, ?_, ?_⟩, hisn, _, hout.symm⟩
  · rw [hisn, hout]
    exact h.turn.snoc (.old hold) hsyn fun _ => h.le
  · rw [hrcv]
    rw [hout] at hs
    rcases List.mem_append.mp hs with hs | hs
    · exact h.le s hs ha
    · rw [List.mem_singleton.mp hs]
      exact UInt32.le_refl _
  · rw [hsame, hnxt]; exact h.nxt
  · rw [hsame]; exact h.text
  · rw [hsame]
    exact fun hf => hst (h.fin hf)
  · rw [show c'.rcvWnd = c.rcvWnd from congrArg RecvSide.rcvWnd hr]
    exact h.wnd
  · rw [hnxt]; exact h.short

/-- With a closed window the text of a segment is not taken, and a FIN is acknowledged. -/
theorem textFin_of_wnd {sk : TcpSock} (hw : sk.rcvWnd = 0) (th : TcpHdr) (skb : Skb) :
    Emits (PureAck (finCheck (segmentText sk th skb) th skb).rcvNxt) sk
        (finCheck (segmentText sk th skb) th skb) ∧
      (finCheck (segmentText sk th skb) th skb).rcvWnd = 0 ∧
      ((finCheck (segmentText sk th skb) th skb).rcvNxt = sk.rcvNxt ∨
        (finCheck (segmentText sk th skb) th skb).rcvNxt = sk.rcvNxt + 1) := by
  have htext : segmentText sk th skb = sk ∨ segmentText sk th skb = tcpRecvNotify sk := by
    have hq : tcpDataQueue sk th skb = sk := by
      unfold tcpDataQueue
      rw [if_pos hw]
    rcases segmentText_cases sk th skb with heq | heq
    · exact Or.inl heq
    · exact Or.inr (heq.trans (by rw [hq]))
  have hall : ∀ sk₁ : TcpSock, sk₁.out = sk.out → recvSide sk₁ = recvSide sk →
      Emits (PureAck (finCheck sk₁ th skb).rcvNxt) sk (finCheck sk₁ th skb) ∧
        (finCheck sk₁ th skb).rcvWnd = 0 ∧ ((finCheck sk₁ th skb).rcvNxt = sk.rcvNxt ∨
          (finCheck sk₁ th skb).rcvNxt = sk.rcvNxt + 1) := by
    intro sk₁ hout hr
    have hr₁ : sk₁.rcvNxt = sk.rcvNxt := congrArg RecvSide.rcvNxt hr
    have hw₁ : sk₁.rcvWnd = 0 := (congrArg RecvSide.rcvWnd hr).trans hw
    rcases finCheck_cases sk₁ th skb with heq | ⟨-, -, heq⟩ <;> rw [heq]
    · exact ⟨Emits.of_out hout, hw₁, Or.inl hr₁⟩
    · have hfin := recvSide_afterFin sk₁
      have hnxt : (afterFin sk₁).rcvNxt = sk₁.rcvNxt + 1 := congrArg RecvSide.rcvNxt hfin
      rw [hnxt, ← hr₁]
      exact ⟨(Emits.of_out hout).trans (emits_afterFin sk₁),
        (congrArg RecvSide.rcvWnd hfin).trans hw₁, Or.inr rfl⟩
  rcases htext with heq | heq <;> rw [heq]
  · exact hall sk rfl rfl
  · exact hall (tcpRecvNotify sk) rfl rfl

/-- So it is with a segment without SYN as a whole. -/
theorem processed_of_wnd {sk : TcpSock} (hw : sk.rcvWnd = 0) {seg : Seg}
    (hsyn : tcpPacketFilter sk seg.th (tcpInitSegment seg) = true → seg.th.syn = false) :
    Emits (PureAck (processed sk seg).rcvNxt) sk (processed sk seg) ∧
      (processed sk seg).rcvWnd = 0 ∧
      ((processed sk seg).rcvNxt = sk.rcvNxt ∨ (processed sk seg).rcvNxt = sk.rcvNxt + 1) := by
  have hsame : Emits (PureAck sk.rcvNxt) sk sk ∧ sk.rcvWnd = 0 ∧
      (sk.rcvNxt = sk.rcvNxt ∨ sk.rcvNxt = sk.rcvNxt + 1) := ⟨Emits.refl sk, hw, Or.inl rfl⟩
  have hafter : tcpPacketFilter sk seg.th (tcpInitSegment seg) = true → afterSyn sk seg.th = sk :=
    fun hf => by unfold afterSyn; rw [hsyn hf]; rfl
  have hack := recvSide_takeAck sk seg.th
  have hnxt : (takeAck sk seg.th).rcvNxt = sk.rcvNxt := congrArg RecvSide.rcvNxt hack
  have hwnd : (takeAck sk seg.th).rcvWnd = 0 := (congrArg RecvSide.rcvWnd hack).trans hw
  unfold processed
  split_ifs with hf _ _ _
  · rw [hafter hf]
    have htext := textFin_of_wnd hwnd seg.th (tcpInitSegment seg)
    rw [hnxt] at htext
    exact ⟨(Emits.of_out (out_takeAck sk seg.th)).trans htext.1, htext.2⟩
  · rw [hafter hf, hnxt]
    exact ⟨Emits.of_out (out_takeAck sk seg.th), hwnd, Or.inl rfl⟩
  · rw [hafter hf]
    exact hsame
  · exact hsame
  · have hr := recvSide_tcpSendAck sk
    have hnxt' : (tcpSendAck sk).rcvNxt = sk.rcvNxt := congrArg RecvSide.rcvNxt hr
    rw [hnxt']
    exact ⟨emits_tcpSendAck sk, (congrArg RecvSide.rcvWnd hr).trans hw, Or.inl rfl⟩

variable {P Q : Seg → Prop} {iss : UInt32} {X : TcpSock}

theorem le_of_succ {r r' : UInt32} (h : r' = r ∨ r' = r + 1) (hpos : 0 < r') : r ≤ r' := by
  rcases h with rfl | rfl
  · exact UInt32.le_refl _
  · rw [Word32.pos_iff, Word32.toNat_add] at hpos
    rw [Word32.le_iff, Word32.toNat_add]
    have := r.toNat_lt
    have : (1 : UInt32).toNat = 1 := rfl
    omega

/-- The child takes no SYN number, so it waits for a number behind one. -/
theorem rcvNxt_pos (h : Pair P (ClientSyn iss) c X) : 0 < c.rcvNxt := by
  have hlt : iss < c.rcvNxt := h.agree.2.past ⟨0, 0, { seq := iss }, 0, []⟩ rfl
  exact UInt32.lt_of_le_of_lt UInt32.zero_le hlt

/-- A segment of the client. -/
theorem Sends.segment (h : Sends S c) (hp : Pair P (ClientSyn iss) c X)
    (hp' : Pair P (ClientSyn iss) c' X) {seg : Seg} (hseg : From X seg)
    (hstep : tcpProcess c seg = .ok c') : SendsOn S c c' := by
  have hsyn := fun hf => hp.no_syn hseg hf
  rcases hp.left.state with hlive | ⟨hst, hparent, -, -⟩
  · rw [tcpProcess_eq hlive.synchronized hp.left.freed] at hstep
    obtain rfl := Except.ok.inj hstep
    obtain ⟨hout, hwnd, hnxt⟩ := processed_of_wnd h.wnd hsyn
    have hkeep := keepsQueue_processed c seg
    refine h.quiet hkeep.isn hkeep.nxt (hwnd.trans h.wnd.symm) hout
      (le_of_succ hnxt (rcvNxt_pos hp')) fun hclosing => ?_
    rcases (state_processed c seg).2 with hst | hst <;> rw [hst]
    · exact hclosing
    · exact closing_finState hclosing
  · have hnot : Closing c.state → Closing c'.state := fun hc => by
      rw [hst] at hc; exact hc.elim
    rw [tcpProcess_synReceived hst hparent hp.left.freed] at hstep
    split_ifs at hstep with hf hs hack hack hrange hrst
    · rw [hsyn hf] at hs; exact absurd hs (by simp)
    · obtain rfl := Except.ok.inj hstep
      have hacc : (accept c seg.th.ackSeq).rcvWnd = 0 := h.wnd
      obtain ⟨hout, hwnd, hnxt⟩ := textFin_of_wnd hacc seg.th (tcpInitSegment seg)
      have hs := sendSide_textFin (accept c seg.th.ackSeq) seg.th (tcpInitSegment seg)
      exact h.quiet (congrArg SendSide.isn hs) (congrArg SendSide.sndNxt hs) (hwnd.trans h.wnd.symm)
        ((Emits.of_out rfl).trans hout) (le_of_succ hnxt (rcvNxt_pos hp')) hnot
    · obtain rfl := Except.ok.inj hstep
      refine h.quiet rfl rfl rfl ⟨[resetSeg c], rfl, fun s hs => ?_⟩ (UInt32.le_refl _) hnot
      rw [List.mem_singleton.mp hs]
      exact ⟨rfl, rfl, rfl, rfl, rfl⟩
    · obtain rfl := Except.ok.inj hstep; exact h.same
    · obtain rfl := Except.ok.inj hstep; exact h.same
    · obtain rfl := Except.ok.inj hstep
      have hr := recvSide_tcpSendAck c
      have hs := sendSide_tcpSendAck c
      have hnxt : (tcpSendAck c).rcvNxt = c.rcvNxt := congrArg RecvSide.rcvNxt hr
      have hout := emits_tcpSendAck c
      rw [← hnxt] at hout
      exact h.quiet (congrArg SendSide.isn hs) (congrArg SendSide.sndNxt hs)
        (congrArg RecvSide.rcvWnd hr) hout (UInt32.le_of_eq hnxt.symm) hnot

/-- While something is queued, something is not acknowledged. -/
theorem una_lt_nxt (h : FlowInv P c X) {skb : Skb} {q : List Skb} (hq : c.writeQueue = skb :: q) :
    c.sndUna.toNat < c.sndNxt.toNat := by
  have hitems : (flow c X).items =
      ⟨c.sndNxt.toNat - queueLen (skb :: q), skbLen skb, skb.endSeq.toNat⟩ ::
        layout c.sndNxt.toNat q := by
    show layout _ c.writeQueue = _
    rw [hq]; rfl
  obtain ⟨huna, hnxt, hpos, -⟩ := h.inv.item _ (by rw [hitems]; exact List.mem_cons_self ..)
  have huna : c.sndUna.toNat ≤ _ := huna
  have hnxt : _ ≤ c.sndNxt.toNat := hnxt
  simp only at huna hnxt hpos
  omega

/-- A timer. -/
theorem Sends.timer (h : Sends S c) (hp : Pair P Q c X) {i : ℕ} (hstep : fireTimer c i = some c') :
    c'.freed = true ∨ SendsOn S c c' := by
  obtain ⟨t, -, -, heff⟩ := fireTimer_some hstep
  cases heff with
  | quiet send recv core out =>
    have hnxt : c'.rcvNxt = c.rcvNxt := congrArg RecvSide.rcvNxt recv
    have hst : c'.state = c.state := congrArg Core.state core
    rw [← hnxt] at out
    exact Or.inr (h.quiet (congrArg SendSide.isn send) (congrArg SendSide.sndNxt send)
      (congrArg RecvSide.rcvWnd recv) out (UInt32.le_of_eq hnxt.symm) fun hc => hst ▸ hc)
  | freed freed _ _ _ => exact Or.inl freed
  | resend skb q queue handler send recv core state out =>
    refine Or.inr (h.resend (hp.agree.1.queue skb (by rw [queue]; simp)).1
      (una_lt_nxt hp.agree.1 queue) out (congrArg SendSide.sndNxt send)
      (congrArg SendSide.isn send) recv fun hc => ?_)
    rcases state with hst | ⟨-, hst⟩ <;> rw [hst]
    · exact hc
    · exact closing_refinState hc

/-- `tcp_write`. -/
theorem Sends.write (h : Sends S c) (hmss : 0 < c.smss) {buf : List UInt8}
    (hw : c.sndNxt.toNat + buf.length < 4294967296) :
    SendsOn (S ++ if (tcpWrite c buf).2 < 0 then [] else buf) c (tcpWrite c buf).1 := by
  by_cases hopen : c.state = .established ∨ c.state = .closeWait
  swap
  · rw [not_or] at hopen
    have hres : (tcpWrite c buf).2 < 0 := by
      unfold tcpWrite
      split
      · exact absurd ‹_› hopen.1
      · exact absurd ‹_› hopen.2
      · simp
    rw [if_pos hres, List.append_nil, tcpWrite_not_open hopen.1 hopen.2]
    exact h.same
  have hres : ¬ (tcpWrite c buf).2 < 0 := by
    unfold tcpWrite
    rcases hopen with hst | hst <;> rw [hst] <;> simp
  have hnot : ¬ Closing c.state := by
    rcases hopen with hst | hst <;> rw [hst] <;> exact id
  rw [if_neg hres, tcpWrite_open hopen]
  have hall : ∃ T, T ++ [] = S ++ buf ∧ SendsOn T c (tcpSend c buf) ∧
      core (tcpSend c buf) = core c ∧ (tcpSend c buf).sndNxt.toNat + 0 < 4294967296 := by
    refine tcpSend_ind (P := fun sk rest => ∃ T, T ++ rest = S ++ buf ∧ SendsOn T c sk ∧
      core sk = core c ∧ sk.sndNxt.toNat + rest.length < 4294967296) ?_ hmss
      ⟨S, rfl, h.same, rfl, hw⟩
    rintro sk chunk rest psh - hlen ⟨T, hT, hs, hcore, hroom⟩
    have hd : (dataSkb chunk psh).dlen.toNat = chunk.length := Word32.toNat_ofNat (by omega)
    have hskb : skbLen (dataSkb chunk psh) = chunk.length := by
      unfold skbLen
      rw [hd]; rfl
    rw [List.length_append] at hroom
    have hnxt : (sk.sndNxt + (dataSkb chunk psh).dlen).toNat = sk.sndNxt.toNat + chunk.length := by
      rw [Word32.toNat_add_of_lt (by omega), hd]
    have hst : sk.state = c.state := congrArg Core.state hcore
    have hkeep := core_tcpQueueTransmitSkb sk (dataSkb chunk psh)
    obtain ⟨timers, retransmit, heq⟩ := tcpQueueTransmitSkb_eq sk (dataSkb chunk psh)
    rw [heq] at hkeep ⊢
    refine ⟨T ++ chunk, by rw [List.append_assoc, hT], ?_, hkeep.trans hcore, ?_⟩
    · have hsize : (dataSkb chunk psh).payload.length = (dataSkb chunk psh).dlen.toNat := hd.symm
      exact hs.trans (hs.sends.send hsize
        ⟨rfl, rfl, fun hf => absurd hf (by simp [dataSkb])⟩ (by rw [hst]; exact hnot) rfl
        (by rw [hskb]; exact hnxt) rfl rfl fun hf => absurd hf (by simp [dataSkb]))
    · show (sk.sndNxt + (dataSkb chunk psh).dlen).toNat + rest.length < _
      rw [hnxt]
      omega
  obtain ⟨T, hT, hs, -, -⟩ := hall
  rw [List.append_nil] at hT
  exact hT ▸ hs

/-- A FIN. -/
theorem Sends.queueFin (h : Sends S c) (hw : c.sndNxt.toNat + 1 < 4294967296)
    (hopen : ¬ Closing c.state) {st : TcpState} (hst : Closing st) :
    SendsOn S c (tcpSetState (tcpQueueFin c) st) := by
  have hnxt : (c.sndNxt + 0 + 1).toNat = c.sndNxt.toNat + 1 := by
    rw [UInt32.add_zero]
    exact Word32.toNat_add_of_lt hw
  obtain ⟨timers, retransmit, heq⟩ :=
    tcpQueueTransmitSkb_eq c { tcpAllocSkb 0 with th := { fin := true, ack := true } }
  unfold tcpQueueFin
  rw [heq]
  have hsize : ({ tcpAllocSkb 0 with th := { fin := true, ack := true } } : Skb).payload.length =
      (0 : UInt32).toNat := rfl
  rw [← List.append_nil S]
  exact h.send hsize
    ⟨rfl, rfl, fun _ => rfl⟩ hopen rfl hnxt rfl rfl fun _ => hst

/-- `tcp_close`. -/
theorem Sends.close (h : Sends S c) (hup : Up c) (hw : c.sndNxt.toNat + 1 < 4294967296) :
    SendsOn S c (tcpClose c).1 := by
  have hagain : SendsOn S c { c with err := -9 } :=
    h.quiet rfl rfl rfl (Emits.of_out rfl) (UInt32.le_refl _) id
  rcases hup.state with hlive | ⟨hst, -⟩
  · cases hst : c.state <;> rw [hst] at hlive
    case established =>
      rw [tcpClose_open (Or.inl hst)]
      exact h.queueFin hw (by rw [hst]; exact id) trivial
    case closeWait =>
      rw [tcpClose_closeWait hst]
      exact h.queueFin hw (by rw [hst]; exact id) trivial
    case finWait1 | closing | lastAck =>
      rw [tcpClose_closing (by simp [hst])]
      exact hagain
    all_goals exact hlive.elim
  · rw [tcpClose_open (Or.inr (Or.inl hst))]
    exact h.queueFin hw (by rw [hst]; exact id) trivial

/-! ### The client -/

/-- The client with a reader who has `got` is where the receiver `t` is. -/
structure Reads (t : Carried) (got : List UInt8) (sk : TcpSock) : Prop where
  nxt : sk.rcvNxt.toNat = t.nxt
  bytes : got ++ text sk.receiveQueue = t.text
  len : ∀ skb ∈ sk.receiveQueue, skb.payload.length = skb.dlen.toNat
  ofo : sk.ofoQueue = []
  wnd : sk.rcvWnd = 44477
  state : t.fin = false → sk.state = .established ∨ sk.state = .finWait1

variable {got : List UInt8} {sk sk' : TcpSock} {seg : Seg}

/-- What leaves the receive side alone. -/
theorem Reads.congr (h : Reads t got sk) (hr : recvSide sk' = recvSide sk)
    (hst : sk.state = .established ∨ sk.state = .finWait1 →
      sk'.state = .established ∨ sk'.state = .finWait1) : Reads t got sk' := by
  have hq : sk'.receiveQueue = sk.receiveQueue := congrArg RecvSide.receiveQueue hr
  refine ⟨?_, ?_, ?_, ?_, ?_, fun hf => hst (h.state hf)⟩
  · rw [show sk'.rcvNxt = sk.rcvNxt from congrArg RecvSide.rcvNxt hr]; exact h.nxt
  · rw [hq]; exact h.bytes
  · rw [hq]; exact h.len
  · rw [show sk'.ofoQueue = sk.ofoQueue from congrArg RecvSide.ofoQueue hr]; exact h.ofo
  · rw [show sk'.rcvWnd = sk.rcvWnd from congrArg RecvSide.rcvWnd hr]; exact h.wnd

theorem Reads.congr_core (h : Reads t got sk) (hr : recvSide sk' = recvSide sk)
    (hc : core sk' = core sk) : Reads t got sk' :=
  h.congr hr fun hst => by rwa [show sk'.state = sk.state from congrArg Core.state hc]

/-- A segment that carries nothing. -/
theorem Reads.bare (h : Reads t got sk) (hdlen : seg.dlen = 0) (hfin : seg.th.fin = false) :
    Reads t got (processed sk seg) := by
  have hack : Reads t got (takeAck (afterSyn sk seg.th) seg.th) := h.congr_core (by simp) (by simp)
  have htext : segmentText (takeAck (afterSyn sk seg.th) seg.th) seg.th (tcpInitSegment seg) =
      takeAck (afterSyn sk seg.th) seg.th := by
    refine segmentText_of_not_pos ?_ _ _
    show ¬ 0 < seg.dlen
    rw [hdlen]
    exact UInt32.lt_irrefl 0
  rcases processed_cases sk seg with heq | heq | heq | heq | heq <;> rw [heq]
  · exact h
  · exact h.congr_core (by simp) (by simp)
  · exact h.congr_core (by simp) (by simp)
  · exact hack
  · rw [htext, finCheck_of_not_fin hfin]
    exact hack

/-- A segment below the window. -/
theorem Reads.old (h : Reads t got sk) (hseq : seg.th.seq.toNat < t.nxt) :
    Reads t got (processed sk seg) := by
  have hlt : seg.th.seq < sk.rcvNxt := Word32.lt_iff.mpr (by rw [h.nxt]; exact hseq)
  have hf : ¬ tcpPacketFilter sk seg.th (tcpInitSegment seg) = true := by
    unfold tcpPacketFilter
    simp [hlt]
  unfold processed
  rw [if_neg hf]
  split_ifs
  · exact h
  · exact h.congr_core (by simp) (by simp)

/-- The text at the number that is waited for. -/
theorem Reads.inOrder (h : Reads t got sk) (hmore : t.fin = false)
    (hseq : seg.th.seq.toNat = t.nxt) (hlen : seg.payload.length = seg.dlen.toNat)
    (hfin : seg.th.fin = false) (hpos : 0 < seg.dlen)
    (hroom : t.nxt + seg.dlen.toNat < 4294967296) :
    Reads (t.add seg) got (segmentText sk seg.th (tcpInitSegment seg)) := by
  have hw : sk.rcvWnd ≠ 0 := by rw [h.wnd]; decide
  have hst : sk.state = .established ∨ sk.state = .finWait1 ∨ sk.state = .finWait2 :=
    (h.state hmore).imp_right Or.inl
  have heq : seg.th.seq = sk.rcvNxt := by rw [Word32.eq_iff_toNat, hseq, h.nxt]
  have hadd : t.add seg = ⟨t.nxt + seg.dlen.toNat, t.text ++ seg.payload, false⟩ := by
    rw [Carried.add_of_eq hseq, hmore, hfin]
    unfold segLen
    rw [hfin]; rfl
  have hrecv := recvSide_tcpDataQueue hw seg.th (tcpInitSegment seg)
  have htake : takeText sk.rcvNxt sk.ofoQueue sk.receiveQueue (tcpInitSegment seg) =
      (sk.rcvNxt + seg.dlen, [], sk.receiveQueue ++ [queued (tcpInitSegment seg)]) := by
    have heq : (tcpInitSegment seg).seq = sk.rcvNxt := heq
    unfold takeText
    rw [if_pos heq, h.ofo]
    rfl
  have hcore := core_tcpDataQueue sk seg.th (tcpInitSegment seg)
  rw [htake] at hrecv
  rw [hadd, segmentText_of_pos hst hpos]
  generalize tcpDataQueue sk seg.th (tcpInitSegment seg) = sk' at hrecv hcore
  have hq : sk'.receiveQueue = sk.receiveQueue ++ [queued (tcpInitSegment seg)] :=
    congrArg RecvSide.receiveQueue hrecv
  refine ⟨?_, ?_, ?_, congrArg RecvSide.ofoQueue hrecv,
    (congrArg RecvSide.rcvWnd hrecv).trans h.wnd, fun _ => ?_⟩
  · show sk'.rcvNxt.toNat = _
    rw [show sk'.rcvNxt = sk.rcvNxt + seg.dlen from congrArg RecvSide.rcvNxt hrecv,
      Word32.toNat_add_of_lt (by rw [h.nxt]; exact hroom), h.nxt]
  · show got ++ text sk'.receiveQueue = _
    rw [hq, text_append, ← List.append_assoc, h.bytes, text_cons, text_nil, List.append_nil]
    rfl
  · show ∀ skb ∈ sk'.receiveQueue, _
    rw [hq]
    intro skb hskb
    rcases List.mem_append.mp hskb with hskb | hskb
    · exact h.len skb hskb
    · rw [List.mem_singleton.mp hskb]
      exact hlen
  · show sk'.state = _ ∨ sk'.state = _
    rw [show sk'.state = sk.state from congrArg Core.state hcore]
    exact h.state hmore

/-- The FIN at the number that is waited for. -/
theorem Reads.fin (h : Reads t got sk) (hlive : Live sk.state) (hseq : seg.th.seq.toNat = t.nxt)
    (hfin : seg.th.fin = true) (hdlen : seg.dlen = 0) (hlen : seg.payload.length = seg.dlen.toNat)
    (hroom : t.nxt + 1 < 4294967296) :
    Reads (t.add seg) got (finCheck sk seg.th (tcpInitSegment seg)) := by
  have heq : sk.rcvNxt - seg.dlen = seg.th.seq := by
    rw [hdlen, UInt32.sub_zero, Word32.eq_iff_toNat, hseq, h.nxt]
  have hpay : seg.payload = [] := List.eq_nil_of_length_eq_zero (by rw [hlen, hdlen]; rfl)
  have hadd : t.add seg = ⟨t.nxt + 1, t.text, true⟩ := by
    rw [Carried.add_of_eq hseq, hfin, hpay, List.append_nil, Bool.or_true]
    unfold segLen
    rw [hfin, hdlen]; rfl
  obtain ⟨⟨hs, -⟩, hc, hl⟩ := ne_of_synchronized hlive.synchronized
  have hrecv := recvSide_afterFin sk
  rw [hadd, finCheck_of_fin hfin heq, if_neg (by simp [hs, hc, hl])]
  generalize afterFin sk = sk' at hrecv
  have hq : sk'.receiveQueue = sk.receiveQueue := congrArg RecvSide.receiveQueue hrecv
  refine ⟨?_, by rw [hq]; exact h.bytes, by rw [hq]; exact h.len,
    (congrArg RecvSide.ofoQueue hrecv).trans h.ofo,
    (congrArg RecvSide.rcvWnd hrecv).trans h.wnd, fun hf => absurd hf (by simp)⟩
  rw [show sk'.rcvNxt = sk.rcvNxt + 1 from congrArg RecvSide.rcvNxt hrecv,
    Word32.toNat_add_of_lt (by rw [h.nxt]; exact hroom), h.nxt]
  rfl

/-- **The client takes what arrives in turn.** -/
theorem Reads.arrive (h : Reads t got sk) (hlive : Live sk.state) (hfits : Fits t seg)
    (hsyn : seg.th.syn = false)
    (hack : seg.th.ack = true → sk.sndUna ≤ seg.th.ackSeq ∧ seg.th.ackSeq ≤ sk.sndNxt)
    (hroom : (t.add seg).nxt + 44477 < 4294967296) :
    Reads (t.add seg) got (processed sk seg) := by
  cases hfits with
  | bare hdlen hfin hpay =>
    rw [Carried.add_of_bare hdlen hfin hpay]
    exact h.bare hdlen hfin
  | old hseq =>
    rw [Carried.add_of_ne hseq.ne]
    exact h.old hseq
  | next hseq hmore ha hlen hfin =>
    have hend : seg.th.seq.toNat + segLen seg + 44477 < 4294967296 := by
      rw [Carried.add_of_eq hseq] at hroom
      rw [hseq]
      exact hroom
    have heq : seg.th.seq = sk.rcvNxt := by rw [Word32.eq_iff_toNat, hseq, h.nxt]
    have hwin : ¬ sk.rcvNxt > sk.rcvNxt + sk.rcvWnd := by
      have hsum : (sk.rcvNxt + 44477).toNat = sk.rcvNxt.toNat + 44477 :=
        Word32.toNat_add_of_lt (by rw [← heq]; show _ + 44477 < _; omega)
      rw [gt_iff_lt, Word32.lt_iff, h.wnd, hsum]
      omega
    have hf : tcpPacketFilter sk seg.th (tcpInitSegment seg) = true := by
      have hw : sk.rcvWnd ≠ 0 := by rw [h.wnd]; decide
      unfold tcpPacketFilter
      rw [heq, decide_eq_false hw, decide_eq_false hwin, decide_eq_false (UInt32.lt_irrefl _),
        Bool.and_false]
      rfl
    have hafter : afterSyn sk seg.th = sk := by unfold afterSyn; rw [hsyn]; rfl
    have hok : ackOk (takeAck sk seg.th) seg.th = true := (ackOk_takeAck sk seg.th).mpr (hack ha)
    unfold processed
    rw [if_pos hf, if_pos ha, hafter, if_pos hok]
    have hcore := core_takeAck sk seg.th
    have h₁ : Reads t got (takeAck sk seg.th) := h.congr_core (recvSide_takeAck sk seg.th) hcore
    have hlive₁ : Live (takeAck sk seg.th).state := by
      rw [show (takeAck sk seg.th).state = sk.state from congrArg Core.state hcore]
      exact hlive
    unfold segLen at hend
    by_cases hpos : 0 < seg.dlen
    · have hnofin : seg.th.fin = false := by
        by_contra hfin'
        rw [hfin (by simpa using hfin')] at hpos
        exact absurd hpos (by decide)
      rw [finCheck_of_not_fin hnofin]
      exact h₁.inOrder hmore hseq hlen hnofin hpos (by omega)
    · have hzero : seg.dlen = 0 := by
        rw [Word32.pos_iff] at hpos
        exact Word32.eq_iff_toNat.mpr (Nat.eq_zero_of_not_pos hpos)
      rw [segmentText_of_not_pos hpos]
      cases hfin' : seg.th.fin
      · rw [finCheck_of_not_fin hfin', Carried.add_of_bare hzero hfin'
          (List.eq_nil_of_length_eq_zero (by rw [hlen, hzero]; rfl))]
        exact h₁
      · exact h₁.fin hlive₁ hseq hfin' hzero hlen (by omega)

/-- A read moves bytes from the queue to the reader. -/
theorem Reads.round (h : Reads t got sk) (hshort : t.text.length < 4294967296) (len rlen : ℕ) :
    Reads t (got ++ (tcpReceiveRound sk len rlen).2.1) (tcpReceiveRound sk len rlen).1 := by
  have hle : (text sk.receiveQueue).length ≤ t.text.length := by
    rw [← h.bytes, List.length_append]
    omega
  obtain ⟨h1, h2⟩ := dequeue_spec (UInt32.ofNat (len - rlen)) sk.receiveQueue 0 h.len
    (by rw [UInt32.toNat_zero]; omega)
  obtain ⟨flagPsh, recvSleeping, heq, hgot⟩ := tcpReceiveRound_eq sk len rlen
  rw [heq, hgot]
  refine ⟨h.nxt, ?_, h2, h.ofo, h.wnd, h.state⟩
  rw [List.append_assoc]
  exact (congrArg (got ++ ·) h1).trans h.bytes

/-- What the client counts as acknowledged comes from the segment, if it changes. -/
theorem sndUna_processed (hsyn : tcpPacketFilter sk seg.th (tcpInitSegment seg) = true →
      seg.th.syn = false) : (processed sk seg).sndUna = sk.sndUna ∨
    seg.th.ack = true ∧ (processed sk seg).sndUna = seg.th.ackSeq := by
  have hack : (takeAck sk seg.th).sndUna = sk.sndUna ∨
      (takeAck sk seg.th).sndUna = seg.th.ackSeq := by
    by_cases ht : sk.sndUna < seg.th.ackSeq ∧ seg.th.ackSeq ≤ sk.sndNxt
    · obtain ⟨timers, retransmit, heq⟩ := takeAck_of_taken ht
      rw [heq]
      exact Or.inr rfl
    · rw [takeAck_of_not_taken ht]
      exact Or.inl rfl
  have hafter : tcpPacketFilter sk seg.th (tcpInitSegment seg) = true → afterSyn sk seg.th = sk :=
    fun hf => by unfold afterSyn; rw [hsyn hf]; rfl
  unfold processed
  split_ifs with hf ha _ _
  · rw [hafter hf]
    have hs := sendSide_textFin (takeAck sk seg.th) seg.th (tcpInitSegment seg)
    rw [show (finCheck _ seg.th (tcpInitSegment seg)).sndUna = (takeAck sk seg.th).sndUna from
      congrArg SendSide.sndUna hs]
    exact hack.imp_right fun h => ⟨ha, h⟩
  · rw [hafter hf]
    exact hack.imp_right fun h => ⟨ha, h⟩
  · rw [hafter hf]
    exact Or.inl rfl
  · exact Or.inl rfl
  · exact Or.inl (congrArg SendSide.sndUna (sendSide_tcpSendAck sk))

/-! ### Steps of the ends -/

/-- A step of an end that neither writes nor reads. -/
inductive Own (P : Seg → Prop) (sk : TcpSock) : TcpSock → Prop
  | close (h : sk.sndNxt.toNat + 1 < 4294967296) : Own P sk (tcpClose sk).1
  | timer (i : ℕ) {sk' : TcpSock} (h : fireTimer sk i = some sk') : Own P sk sk'
  | segment (seg : Seg) (hP : P seg) {sk' : TcpSock} (h : tcpProcess sk seg = .ok sk') :
      Own P sk sk'

theorem Own.endStep {P : Seg → Prop} (h : Own P sk sk') : EndStep P sk sk' := by
  cases h with
  | close h => exact .close h
  | timer i h => exact .timer i h
  | segment seg hP h => exact .segment seg hP h

theorem Own.mono {P Q : Seg → Prop} (h : Own P sk sk') (hPQ : ∀ s, P s → Q s) : Own Q sk sk' := by
  cases h with
  | close h => exact .close h
  | timer i h => exact .timer i h
  | segment seg hP h => exact .segment seg (hPQ seg hP) h

theorem own_receive {P : Seg → Prop} {o : Option Seg} (hP : ∀ seg, o = some seg → P seg)
    (h : receive o sk = some sk') : Own P sk sk' := by
  obtain ⟨seg, hseg, hp⟩ := receive_some h
  exact .segment seg (hP seg hseg) hp

theorem own_close {P : Seg → Prop} (h : close sk = some sk') : Own P sk sk' := by
  obtain ⟨hw, rfl⟩ := close_some h
  exact .close hw

/-- A step of the client that has nothing to do with what it receives. -/
structure Calm (sk sk' : TcpSock) : Prop where
  recv : recvSide sk' = recvSide sk
  una : sk'.sndUna = sk.sndUna
  core : core sk' = { core sk with state := sk'.state }
  state : sk'.state = sk.state ∨ sk'.state = refinState sk.state

theorem Calm.onward (h : Calm sk sk') : Onward sk sk' := ⟨h.core, h.state.imp_right Or.inr⟩

theorem Calm.of_same (hr : recvSide sk' = recvSide sk) (hs : sendSide sk' = sendSide sk)
    (hc : Sides.core sk' = Sides.core sk) : Calm sk sk' := by
  have hst : sk'.state = sk.state := congrArg Core.state hc
  exact ⟨hr, congrArg SendSide.sndUna hs, by rw [hc, hst]; rfl, Or.inl hst⟩

theorem Calm.reads (h : Calm sk sk') (hr : Reads t got sk) : Reads t got sk' := by
  refine hr.congr h.recv fun hst => ?_
  rcases h.state with heq | heq <;> rw [heq]
  · exact hst
  · rcases hst with hst | hst <;> rw [hst]
    · exact Or.inr rfl
    · exact Or.inr rfl

theorem calm_tcpWrite (hmss : 0 < sk.smss) (buf : List UInt8) : Calm sk (tcpWrite sk buf).1 := by
  have hcore := core_tcpWrite hmss buf
  have hst : (tcpWrite sk buf).1.state = sk.state := congrArg Core.state hcore
  have hkeep : recvSide (tcpWrite sk buf).1 = recvSide sk ∧ (tcpWrite sk buf).1.sndUna = sk.sndUna :=
    tcpWrite_keeps (P := fun sk' => recvSide sk' = recvSide sk ∧ sk'.sndUna = sk.sndUna)
      (fun sk' skb h => by
        obtain ⟨timers, retransmit, heq⟩ := tcpQueueTransmitSkb_eq sk' skb
        rw [heq]
        exact h) ⟨rfl, rfl⟩ buf
  exact ⟨hkeep.1, hkeep.2, by rw [hcore, hst]; rfl, Or.inl hst⟩

theorem calm_tcpClose (hlive : Live sk.state) : Calm sk (tcpClose sk).1 := by
  have hfin : ∀ st, st = refinState sk.state → Calm sk (tcpSetState (tcpQueueFin sk) st) := by
    intro st hst
    have hcore := core_tcpQueueFin sk
    have hc : core (tcpSetState (tcpQueueFin sk) st) = { core (tcpQueueFin sk) with state := st } :=
      rfl
    obtain ⟨timers, retransmit, heq⟩ :=
      tcpQueueTransmitSkb_eq sk { tcpAllocSkb 0 with th := { fin := true, ack := true } }
    refine ⟨?_, ?_, by rw [hc, hcore]; rfl, Or.inr hst⟩
    · unfold tcpQueueFin
      rw [heq]; rfl
    · unfold tcpQueueFin
      rw [heq]; rfl
  cases hst : sk.state <;> rw [hst] at hlive
  case established =>
    rw [tcpClose_open (Or.inl hst)]
    exact hfin _ (by rw [hst]; rfl)
  case closeWait =>
    rw [tcpClose_closeWait hst]
    exact hfin _ (by rw [hst]; rfl)
  case finWait1 | closing | lastAck =>
    rw [tcpClose_closing (by simp [hst])]
    exact .of_same rfl rfl rfl
  all_goals exact hlive.elim

theorem calm_own {P : Seg → Prop} (hlive : Live sk.state) (hf : sk.freed = false)
    (hP : ∀ s, P s → s.th.syn = false ∧ s.th.ack = false) (h : Own P sk sk') :
    sk'.freed = true ∨ Calm sk sk' := by
  cases h with
  | close _ => exact Or.inr (calm_tcpClose hlive)
  | timer i hi =>
    obtain ⟨t, -, -, heff⟩ := fireTimer_some hi
    cases heff with
    | quiet send recv core out => exact Or.inr (.of_same recv send core)
    | freed freed _ _ _ => exact Or.inl freed
    | resend skb q queue handler send recv core state out =>
      exact Or.inr ⟨recv, congrArg SendSide.sndUna send, core, state.imp_right And.right⟩
  | segment seg hseg hp =>
    obtain ⟨hsyn, hack⟩ := hP seg hseg
    rw [tcpProcess_eq hlive.synchronized hf] at hp
    obtain rfl := Except.ok.inj hp
    have hafter : afterSyn sk seg.th = sk := by unfold afterSyn; rw [hsyn]; rfl
    refine Or.inr ?_
    unfold processed
    rw [hack, hafter, if_neg (by simp : ¬ false = true)]
    split_ifs
    · exact .of_same rfl rfl rfl
    · exact .of_same rfl rfl rfl
    · exact .of_same (recvSide_tcpSendAck sk) (sendSide_tcpSendAck sk) (core_tcpSendAck sk)

theorem calm_tcpReadStart (sk : TcpSock) (len : ℕ) : Calm sk (tcpReadStart sk len).1 := by
  refine .of_same (recvSide_tcpReadStart sk len) ?_ (core_tcpReadStart sk len)
  unfold tcpReadStart
  split <;> first | rfl | (split_ifs <;> rfl)

theorem Sends.own (h : Sends S c) (hp : Pair P (ClientSyn iss) c X) (hstep : Own (From X) c c') :
    c'.freed = true ∨ Pair P (ClientSyn iss) c' X ∧ SendsOn S c c' := by
  rcases hp.step hstep.endStep with hfreed | hp'
  · exact Or.inl hfreed
  cases hstep with
  | close hw => exact Or.inr ⟨hp', h.close hp.left hw⟩
  | timer i hi =>
    rcases h.timer hp hi with hfreed | hs
    · exact Or.inl hfreed
    · exact Or.inr ⟨hp', hs⟩
  | segment seg hseg hstep => exact Or.inr ⟨hp', h.segment hp hp' hseg hstep⟩

/-- The child that answers a SYN. -/
theorem sends_fresh {sk : TcpSock} {seg : Seg} (hw : isn.toNat + 1 < 4294967296)
    (hc : Fresh sk seg isn c) (hwnd : c.rcvWnd = 0) : Sends [] c := by
  obtain ⟨s, hout, hsyn, hack, hfin, hseq, hackSeq, hdlen, hpay⟩ := hc.out
  have hone : (isn + 1).toNat = isn.toNat + 1 := Word32.toNat_add_of_lt hw
  have hsame : carried c.isn c.out = { nxt := isn.toNat + 1 } := by
    rw [hout, hc.isn]
    exact Carried.add_of_bare hdlen hfin hpay
  have hone' : ∀ i x, c.out[i]? = some x → i = 0 ∧ x = s := by
    intro i x hx
    rw [hout] at hx
    obtain ⟨hi, rfl⟩ := List.getElem?_eq_some_iff.mp hx
    rw [List.length_singleton] at hi
    obtain rfl : i = 0 := by omega
    exact ⟨rfl, rfl⟩
  refine ⟨⟨fun i x hx => ?_, fun i x hx _ => ?_, ?_⟩, fun x hx _ => ?_, ?_, ?_, ?_, hwnd,
    Nat.zero_le _⟩
  · rw [(hone' i x hx).2]
    exact .bare hdlen hfin hpay
  · rw [(hone' i x hx).2, hc.isn]
    exact ⟨(hone' i x hx).1, hseq⟩
  · rw [hout]; exact List.pairwise_singleton _ _
  · rw [hout, List.mem_singleton] at hx
    rw [hx, hackSeq, hc.rcvNxt]
    exact UInt32.le_refl _
  · rw [hsame, hc.nxt, hone]
  · rw [hsame]
  · rw [hsame]
    exact fun hf => absurd hf (by simp)

theorem rcvWnd_tcpHandleListen {sk c : TcpSock} {seg : Seg} {isn : UInt32}
    (h : (tcpHandleListen sk seg isn).2 = some c) : c.rcvWnd = 0 := by
  unfold tcpHandleListen at h
  split_ifs at h
  obtain rfl := Option.some.inj h
  rfl

end ToyIP.Tcp.Turn
