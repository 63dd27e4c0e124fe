import ToyIP.Lib.AckFlow
import ToyIP.Tcp.Network
import ToyIP.Tcp.Receiver

/-! # TCP: the two directions of a connection

Each direction of a connection is a numbered flow (`Lib.AckFlow`): `una` and `nxt` are the numbers
of the sender, `rcv` is what the receiver waits for, the items are the buffers of the write queue at
their own numbers, and the packets and acknowledgements are the segments that were ever sent.
`Agree` says that the invariant of a flow holds in both directions. What one end can do, as sender
and as receiver, keeps it. -/

namespace ToyIP.Tcp.Flows

open ToyIP.Lib ToyIP.Lib.Run ToyIP.Lib.AckFlow ToyIP.Tcp.Types ToyIP.Tcp.Output ToyIP.Tcp.Data
  ToyIP.Tcp.Input ToyIP.Tcp.Sock ToyIP.Tcp.Sides ToyIP.Tcp.Effects ToyIP.Tcp.Network
  ToyIP.Tcp.Receiver

/-! ### The flow from one end to the other -/

/-- The sequence numbers a buffer takes, with its FIN. -/
def skbLen (skb : Skb) : ℕ := skb.dlen.toNat + skb.th.fin.toNat

/-- The sequence numbers a segment takes, with its FIN. -/
def segLen (s : Seg) : ℕ := s.dlen.toNat + s.th.fin.toNat

/-- The sequence numbers a queue takes. -/
def queueLen : List Skb → ℕ
  | [] => 0
  | skb :: q => skbLen skb + queueLen q

/-- The buffers of a queue that ends at `e`, at their own numbers. -/
def layout (e : ℕ) : List Skb → List Item
  | [] => []
  | skb :: q => ⟨e - queueLen (skb :: q), skbLen skb, skb.endSeq.toNat⟩ :: layout e q

/-- The text and the FINs that were ever sent. -/
def packets (sk : TcpSock) : Set (ℕ × ℕ) :=
  {p | ∃ s ∈ sk.out, s.th.syn = false ∧ p = (s.th.seq.toNat, segLen s) ∧ 0 < segLen s}

/-- The acknowledgements that were ever sent. -/
def acks (sk : TcpSock) : Set ℕ := {a | ∃ s ∈ sk.out, s.th.ack = true ∧ a = s.th.ackSeq.toNat}

/-- The flow from `X` to `Y`. -/
def flow (X Y : TcpSock) : Flow where
  una := X.sndUna.toNat
  nxt := X.sndNxt.toNat
  rcv := Y.rcvNxt.toNat
  items := layout X.sndNxt.toNat X.writeQueue
  packets := packets X
  acks := acks Y

/-- The flow from `X` to `Y` is in order. Segments with SYN satisfy `S`, and `Y` is past all such.
-/
structure FlowInv (S : Seg → Prop) (X Y : TcpSock) : Prop where
  inv : (flow X Y).Inv
  isn : X.isn.toNat ≤ X.sndUna.toNat ∧ ∀ a ∈ acks Y, X.isn.toNat ≤ a
  queue : ∀ x ∈ X.writeQueue, x.th.syn = false ∧ (x.th.fin = true → x.dlen = 0)
  out : ∀ s ∈ X.out, (s.th.syn = true → S s) ∧ (s.th.fin = true → s.dlen = 0)
  past : ∀ s, S s → s.th.seq < Y.rcvNxt
  ofo : ∀ x ∈ Y.ofoQueue, (x.seq.toNat, x.dlen.toNat) ∈ packets X

/-- Both directions. -/
def Agree (S T : Seg → Prop) (X Y : TcpSock) : Prop := FlowInv S X Y ∧ FlowInv T Y X

variable {S T : Seg → Prop} {X X' Y : TcpSock}

theorem Agree.symm (h : Agree S T X Y) : Agree T S Y X := ⟨h.2, h.1⟩

/-! ### Queues as items -/

theorem queueLen_append (x : Skb) : ∀ q : List Skb, queueLen (q ++ [x]) = queueLen q + skbLen x
  | [] => Nat.add_comm _ _
  | y :: q => by
    show skbLen y + queueLen (q ++ [x]) = skbLen y + queueLen q + skbLen x
    rw [queueLen_append x q, Nat.add_assoc]

/-- A buffer at the end of the queue is an item at the end of the flow. -/
theorem layout_append (e : ℕ) (x : Skb) : ∀ q : List Skb,
    layout (e + skbLen x) (q ++ [x]) = layout e q ++ [⟨e, skbLen x, x.endSeq.toNat⟩]
  | [] => by
    show [Item.mk (e + skbLen x - (skbLen x + 0)) _ _] = [Item.mk e _ _]
    rw [Nat.add_zero, Nat.add_sub_cancel]
  | y :: q => by
    show Item.mk (e + skbLen x - queueLen (y :: q ++ [x])) _ _ :: layout _ (q ++ [x]) = _
    rw [queueLen_append, Nat.add_sub_add_right, layout_append e x q]
    rfl

/-- The clean-up of the queue on its items. -/
theorem layout_dropWhile (e : ℕ) (ack : UInt32) : ∀ q : List Skb,
    (layout e q).dropWhile (fun x => x.endp ≤ ack.toNat) =
      layout e (q.dropWhile fun skb => skb.endSeq ≤ ack)
  | [] => rfl
  | y :: q => by
    have hcons : layout e (y :: q) =
        ⟨e - queueLen (y :: q), skbLen y, y.endSeq.toNat⟩ :: layout e q := rfl
    rw [hcons]
    by_cases h : y.endSeq ≤ ack
    · have h' := Word32.le_iff.mp h
      rw [List.dropWhile_cons_of_pos (by simpa using h'),
        List.dropWhile_cons_of_pos (by simpa using h), layout_dropWhile e ack q]
    · have h' := fun h' => h (Word32.le_iff.mpr h')
      rw [List.dropWhile_cons_of_neg (by simpa using h'),
        List.dropWhile_cons_of_neg (by simpa using h)]
      rfl

/-! ### What one end sends -/

/-- Nothing that was sent is taken back, and what is new satisfies `P`. -/
structure Sent (P : Seg → Prop) (a b : TcpSock) : Prop where
  keeps : ∀ p ∈ packets a, p ∈ packets b
  news : ∀ s ∈ b.out, s ∈ a.out ∨ P s

theorem Sent.of_emits {P : Seg → Prop} {a b : TcpSock} (h : Emits P a b) : Sent P a b where
  keeps := by
    rintro p ⟨s, hs, hrest⟩
    obtain ⟨l, hl, -⟩ := h
    exact ⟨s, by rw [hl]; exact List.mem_append_left _ hs, hrest⟩
  news := fun _ hs => h.mem hs

theorem Sent.mono {P Q : Seg → Prop} {a b : TcpSock} (hPQ : ∀ s, P s → Q s) (h : Sent P a b) :
    Sent Q a b := ⟨h.keeps, fun s hs => (h.news s hs).imp_right (hPQ s)⟩

/-- A segment that takes no sequence number, except perhaps by a SYN with `S`. -/
structure Bare (S : Seg → Prop) (s : Seg) : Prop where
  dlen : s.dlen = 0
  fin : s.th.fin = false
  syn : s.th.syn = true → S s

/-- An acknowledgement, if it is one, of everything before `r`. -/
def AcksTo (r : UInt32) (s : Seg) : Prop := s.th.ack = true → s.th.ackSeq = r

theorem bare_of_pureAck {r : UInt32} {s : Seg} (h : PureAck r s) : Bare S s :=
  ⟨h.dlen, h.fin, fun hs => absurd h.syn (by rw [hs]; simp)⟩

theorem acksTo_of_pureAck {r : UInt32} {s : Seg} (h : PureAck r s) : AcksTo r s := fun _ => h.ackSeq

/-- A bare segment is no packet. -/
theorem packets_of_bare (h : Sent (Bare S) X X') : ∀ p ∈ packets X', p ∈ packets X := by
  rintro p ⟨s, hs, hsyn, hp, hpos⟩
  rcases h.news s hs with hs | hb
  · exact ⟨s, hs, hsyn, hp, hpos⟩
  · unfold segLen at hpos
    rw [hb.dlen, hb.fin] at hpos
    exact absurd hpos (by decide)

theorem not_mem_packets (h : ∀ s ∈ X.out, Bare S s) (p : ℕ × ℕ) : p ∉ packets X := by
  rintro ⟨s, hs, -, -, hpos⟩
  unfold segLen at hpos
  rw [(h s hs).dlen, (h s hs).fin] at hpos
  exact absurd hpos (by decide)

/-- A flow on which nothing was sent yet. -/
theorem FlowInv.idle (hq : X.writeQueue = []) (hofo : Y.ofoQueue = [])
    (hout : ∀ s ∈ X.out, Bare S s) (hacks : ∀ s ∈ Y.out, AcksTo Y.rcvNxt s)
    (hisn : X.isn.toNat ≤ X.sndUna.toNat) (huna : X.sndUna.toNat ≤ Y.rcvNxt.toNat)
    (hrcv : Y.rcvNxt.toNat ≤ X.sndNxt.toNat) (hpast : ∀ s, S s → s.th.seq < Y.rcvNxt) :
    FlowInv S X Y := by
  have hall : ∀ a ∈ acks Y, a = Y.rcvNxt.toNat := by
    rintro a ⟨s, hs, ha, rfl⟩
    rw [hacks s hs ha]
  have hitems : (flow X Y).items = [] := by
    show layout _ X.writeQueue = []
    rw [hq]; rfl
  refine ⟨⟨huna, hrcv, fun a ha => (hall a ha).le, ?_, ?_, ?_, ?_⟩, ⟨hisn, fun a ha => ?_⟩, ?_, ?_,
    hpast, ?_⟩
  · rw [hitems]; exact List.Pairwise.nil
  · rw [hitems]; simp
  · rw [hitems]; simp
  · exact fun p hp => absurd hp (not_mem_packets hout p)
  · rw [hall a ha]; exact hisn.trans huna
  · rw [hq]; simp
  · exact fun s hs => ⟨(hout s hs).syn, fun _ => (hout s hs).dlen⟩
  · rw [hofo]; simp

/-- The sender sends bare segments only. -/
theorem FlowInv.quiet (h : FlowInv S X Y) (hs : sendSide X' = sendSide X)
    (ho : Sent (Bare S) X X') : FlowInv S X' Y := by
  have huna : X'.sndUna = X.sndUna := congrArg SendSide.sndUna hs
  have hnxt : X'.sndNxt = X.sndNxt := congrArg SendSide.sndNxt hs
  have hisn : X'.isn = X.isn := congrArg SendSide.isn hs
  have hq : X'.writeQueue = X.writeQueue := congrArg SendSide.writeQueue hs
  refine ⟨?_, by rw [huna, hisn]; exact h.isn, by rw [hq]; exact h.queue, fun s hs => ?_, h.past,
    fun x hx => ho.keeps _ (h.ofo x hx)⟩
  · have hinv := h.inv.mono (packets_of_bare ho) fun a ha => Or.inr ha
    unfold flow at hinv ⊢
    rw [huna, hnxt, hq]
    exact hinv
  · rcases ho.news s hs with hs | hb
    · exact h.out s hs
    · exact ⟨hb.syn, fun hf => absurd hf (by rw [hb.fin]; simp)⟩

/-- The receiver has come to `rcvNxt`, and acknowledges as much. -/
theorem FlowInv.advance (h : FlowInv S Y X)
    (hinv : Flow.Inv { flow Y X with rcv := X'.rcvNxt.toNat }) (hle : X.rcvNxt ≤ X'.rcvNxt)
    (hofo : ∀ x ∈ X'.ofoQueue, (x.seq.toNat, x.dlen.toNat) ∈ packets Y)
    (ho : Sent (AcksTo X'.rcvNxt) X X') : FlowInv S Y X' := by
  have hacks : ∀ a ∈ acks X', a = X'.rcvNxt.toNat ∨ a ∈ acks X := by
    rintro a ⟨s, hs, hack, rfl⟩
    rcases ho.news s hs with hs | hr
    · exact Or.inr ⟨s, hs, hack, rfl⟩
    · exact Or.inl (by rw [hr hack])
  refine ⟨hinv.mono (fun p hp => hp) hacks, ⟨h.isn.1, fun a ha => ?_⟩, h.queue, h.out,
    fun s hs => UInt32.lt_of_lt_of_le (h.past s hs) hle, hofo⟩
  rcases hacks a ha with rfl | ha
  · exact h.isn.1.trans hinv.una_le
  · exact h.isn.2 a ha

/-- The receiver waits for the same number as before. -/
theorem FlowInv.wait (h : FlowInv S Y X) (hr : recvSide X' = recvSide X)
    (ho : Sent (AcksTo X.rcvNxt) X X') : FlowInv S Y X' := by
  have hnxt : X'.rcvNxt = X.rcvNxt := congrArg RecvSide.rcvNxt hr
  have hq : X'.ofoQueue = X.ofoQueue := congrArg RecvSide.ofoQueue hr
  refine h.advance (by rw [hnxt]; exact h.inv) (by rw [hnxt]; exact UInt32.le_refl _) ?_ ?_
  · rw [hq]; exact h.ofo
  · rw [hnxt]; exact ho

/-- An end that sends bare segments and takes nothing. -/
theorem Agree.quiet (h : Agree S T X Y) (hs : sendSide X' = sendSide X)
    (hr : recvSide X' = recvSide X)
    (ho : Sent (fun s => Bare S s ∧ AcksTo X.rcvNxt s) X X') : Agree S T X' Y :=
  ⟨h.1.quiet hs (ho.mono fun _ h => h.1), h.2.wait hr (ho.mono fun _ h => h.2)⟩

/-- Pure acknowledgements of what the end waits for. -/
theorem Agree.pureAck (h : Agree S T X Y) (hs : sendSide X' = sendSide X)
    (hr : recvSide X' = recvSide X) (ho : Emits (PureAck X.rcvNxt) X X') : Agree S T X' Y :=
  h.quiet hs hr ((Sent.of_emits ho).mono fun _ h => ⟨bare_of_pureAck h, acksTo_of_pureAck h⟩)

/-! ### Steps of the sender -/

/-- An acknowledgement of the other end. -/
theorem Agree.takeAck (h : Agree S T X Y) {seg : Seg} (hseg : seg ∈ Y.out)
    (hack : seg.th.ack = true) : Agree S T (takeAck X seg.th) Y := by
  by_cases ht : X.sndUna < seg.th.ackSeq ∧ seg.th.ackSeq ≤ X.sndNxt
  swap
  · rw [takeAck_of_not_taken ht]
    exact h
  have hmem : seg.th.ackSeq.toNat ∈ acks Y := ⟨seg, hseg, hack, rfl⟩
  have hinv := h.1.inv.take hmem (Word32.lt_iff.mp ht.1)
  obtain ⟨timers, retransmit, heq⟩ := takeAck_of_taken ht
  rw [heq]
  refine ⟨⟨?_, ⟨?_, h.1.isn.2⟩, fun x hx => ?_, h.1.out, h.1.past, h.1.ofo⟩,
    h.2.wait rfl (Sent.of_emits (Emits.of_out rfl))⟩
  · unfold flow at hinv ⊢
    simp only [layout_dropWhile] at hinv
    exact hinv
  · exact h.1.isn.2 _ hmem
  · exact h.1.queue x ((List.dropWhile_suffix _).subset hx)

/-- The acknowledgement that establishes the child; nothing is queued yet. -/
theorem Agree.accept (h : Agree S T X Y) (hq : X.writeQueue = []) {seg : Seg} (hseg : seg ∈ Y.out)
    (hack : seg.th.ack = true) : Agree S T (accept X seg.th.ackSeq) Y := by
  have hmem : seg.th.ackSeq.toNat ∈ acks Y := ⟨seg, hseg, hack, rfl⟩
  have hnil : (flow X Y).items = [] := by
    show layout _ X.writeQueue = []
    rw [hq]; rfl
  exact ⟨⟨h.1.inv.take_nil hnil hmem, ⟨h.1.isn.2 _ hmem, h.1.isn.2⟩, h.1.queue, h.1.out, h.1.past,
    h.1.ofo⟩, h.2.wait rfl (Sent.of_emits (Emits.of_out rfl))⟩

/-- A segment that the sender has in its write queue. -/
theorem FlowInv.emit (h : FlowInv S X Y) {skb : Skb} {seq : UInt32}
    (hskb : skb.th.syn = false ∧ (skb.th.fin = true → skb.dlen = 0))
    (hinv : Flow.Inv { flow X' Y with packets := insert (seq.toNat, skbLen skb) (packets X) })
    (huna : X'.sndUna = X.sndUna) (hisn : X'.isn = X.isn)
    (hqueue : ∀ x ∈ X'.writeQueue, x.th.syn = false ∧ (x.th.fin = true → x.dlen = 0))
    (hout : X'.out = X.out ++ [sentSeg X skb seq]) : FlowInv S X' Y := by
  have hpackets : ∀ p ∈ packets X', p ∈ insert (seq.toNat, skbLen skb) (packets X) := by
    rintro p ⟨s, hs, hsyn, hp, hpos⟩
    rw [hout] at hs
    rcases List.mem_append.mp hs with hs | hs
    · exact Set.mem_insert_of_mem _ ⟨s, hs, hsyn, hp, hpos⟩
    · rw [List.mem_singleton] at hs
      subst hs
      exact Set.mem_insert_iff.mpr (Or.inl hp)
  refine ⟨hinv.mono hpackets fun a ha => Or.inr ha, by rw [huna, hisn]; exact h.isn, hqueue,
    fun s hs => ?_, h.past, fun x hx => ?_⟩
  · rw [hout] at hs
    rcases List.mem_append.mp hs with hs | hs
    · exact h.out s hs
    · rw [List.mem_singleton] at hs
      subst hs
      refine ⟨fun hs => ?_, hskb.2⟩
      rw [show (sentSeg X skb seq).th.syn = skb.th.syn from rfl, hskb.1] at hs
      exact absurd hs (by simp)
  · obtain ⟨s, hs, hrest⟩ := h.ofo x hx
    exact ⟨s, by rw [hout]; exact List.mem_append_left _ hs, hrest⟩

/-- Whatever leaves acknowledges what the sender waits for. -/
theorem sent_sentSeg {skb : Skb} {seq : UInt32} (hout : X'.out = X.out ++ [sentSeg X skb seq]) :
    Sent (AcksTo X.rcvNxt) X X' :=
  .of_emits ⟨[sentSeg X skb seq], hout, fun s hs => by
    rw [List.mem_singleton] at hs
    exact hs ▸ fun _ => rfl⟩

/-- A new buffer leaves at `snd_nxt`. -/
theorem Agree.send (h : Agree S T X Y) {skb : Skb} {nxt : UInt32}
    (hskb : skb.th.syn = false ∧ (skb.th.fin = true → skb.dlen = 0)) (hpos : 0 < skbLen skb)
    (hnxt : nxt.toNat = X.sndNxt.toNat + skbLen skb)
    (hs : sendSide X' = { sendSide X with
      writeQueue := X.writeQueue ++ [sentSkb X skb X.sndNxt], sndNxt := nxt })
    (hr : recvSide X' = recvSide X) (hout : X'.out = X.out ++ [sentSeg X skb X.sndNxt]) :
    Agree S T X' Y := by
  have huna : X'.sndUna = X.sndUna := congrArg SendSide.sndUna hs
  have hnxt' : X'.sndNxt = nxt := congrArg SendSide.sndNxt hs
  have hisn : X'.isn = X.isn := congrArg SendSide.isn hs
  have hq : X'.writeQueue = X.writeQueue ++ [sentSkb X skb X.sndNxt] :=
    congrArg SendSide.writeQueue hs
  have hend : (sentSkb X skb X.sndNxt).endSeq.toNat ≤ X.sndUna.toNat + skbLen skb := by
    show (X.sndUna + skb.dlen).toNat ≤ _
    rw [Word32.toNat_add]
    exact (Nat.mod_le _ _).trans (Nat.add_le_add_left (Nat.le_add_right _ _) _)
  have hinv := h.1.inv.send hpos hend
  refine ⟨h.1.emit hskb ?_ huna hisn ?_ hout, h.2.wait hr (sent_sentSeg hout)⟩
  · unfold flow at hinv ⊢
    rw [huna, hnxt', hq, hnxt,
      show skbLen skb = skbLen (sentSkb X skb X.sndNxt) from rfl, layout_append]
    exact hinv
  · rw [hq]
    intro x hx
    rcases List.mem_append.mp hx with hx | hx
    · exact h.1.queue x hx
    · rw [List.mem_singleton] at hx
      subst hx
      exact hskb

/-- The head of the queue leaves again, at `snd_una`. -/
theorem Agree.resend (h : Agree S T X Y) {skb : Skb} {q : List Skb} (hq : X.writeQueue = skb :: q)
    (hs : sendSide X' = { sendSide X with writeQueue := sentSkb X skb X.sndUna :: q })
    (hr : recvSide X' = recvSide X) (hout : X'.out = X.out ++ [sentSeg X skb X.sndUna]) :
    Agree S T X' Y := by
  have huna : X'.sndUna = X.sndUna := congrArg SendSide.sndUna hs
  have hnxt : X'.sndNxt = X.sndNxt := congrArg SendSide.sndNxt hs
  have hisn : X'.isn = X.isn := congrArg SendSide.isn hs
  have hq' : X'.writeQueue = sentSkb X skb X.sndUna :: q := congrArg SendSide.writeQueue hs
  have hskb := h.1.queue skb (by rw [hq]; simp)
  have hend : (sentSkb X skb X.sndUna).endSeq.toNat ≤ X.sndUna.toNat + skbLen skb := by
    show (X.sndUna + skb.dlen).toNat ≤ _
    rw [Word32.toNat_add]
    exact (Nat.mod_le _ _).trans (Nat.add_le_add_left (Nat.le_add_right _ _) _)
  have hitems : (flow X Y).items = ⟨X.sndNxt.toNat - queueLen (skb :: q), skbLen skb,
      skb.endSeq.toNat⟩ :: layout X.sndNxt.toNat q := by
    show layout _ X.writeQueue = _
    rw [hq]; rfl
  have hinv := h.1.inv.resend hitems hend
  refine ⟨h.1.emit hskb ?_ huna hisn ?_ hout, h.2.wait hr (sent_sentSeg hout)⟩
  · unfold flow at hinv ⊢
    rw [huna, hnxt, hq']
    exact hinv
  · rw [hq']
    intro x hx
    rcases List.mem_cons.mp hx with rfl | hx
    · exact hskb
    · exact h.1.queue x (by rw [hq]; exact List.mem_cons_of_mem _ hx)

/-! ### Steps of the receiver -/

/-- The loop of `tcp_consume_ofo_queue` takes packets. -/
theorem consume_inv {f : Flow} (hw : f.nxt < 4294967296) :
    ∀ {ofo : List Skb} (receive : List Skb) {r : UInt32}, Flow.Inv { f with rcv := r.toNat } →
      (∀ x ∈ ofo, (x.seq.toNat, x.dlen.toNat) ∈ f.packets) →
      Flow.Inv { f with rcv := (consume r ofo receive).1.toNat } ∧
        r ≤ (consume r ofo receive).1 ∧ ∀ x ∈ (consume r ofo receive).2.1, x ∈ ofo
  | [], receive, r, hinv, _ => ⟨hinv, UInt32.le_refl r, fun _ hx => hx⟩
  | skb :: ofo, receive, r, hinv, hofo => by
    unfold consume
    split_ifs with hr
    swap
    · exact ⟨hinv, UInt32.le_refl r, fun _ hx => hx⟩
    have hmem : (r.toNat, skb.dlen.toNat) ∈ f.packets := by
      rw [hr]
      exact hofo skb (List.mem_cons_self ..)
    have hinv' := hinv.receive hmem
    have hle : r.toNat + skb.dlen.toNat ≤ f.nxt := hinv'.rcv_le
    have hadd : (r + skb.dlen).toNat = r.toNat + skb.dlen.toNat :=
      Word32.toNat_add_of_lt (by omega)
    have hinv' : Flow.Inv { f with rcv := (r + skb.dlen).toNat } := by rw [hadd]; exact hinv'
    obtain ⟨h1, h2, h3⟩ := consume_inv hw (receive ++ [skb]) hinv'
      fun x hx => hofo x (List.mem_cons_of_mem _ hx)
    refine ⟨h1, ?_, fun x hx => List.mem_cons_of_mem _ (h3 x hx)⟩
    rw [Word32.le_iff] at h2 ⊢
    omega

/-- The text of a segment of the other end. -/
theorem Agree.tcpDataQueue (h : Agree S T X Y) {seg : Seg} (hseg : seg ∈ Y.out)
    (hsyn : seg.th.syn = false) (hpos : 0 < seg.dlen) (th : TcpHdr) :
    Agree S T (tcpDataQueue X th (tcpInitSegment seg)) Y := by
  by_cases hw : X.rcvWnd = 0
  · have : Data.tcpDataQueue X th (tcpInitSegment seg) = X := by
      unfold Data.tcpDataQueue
      rw [if_pos hw]
    rw [this]
    exact h
  have hfin : seg.th.fin = false := by
    by_contra hfin
    rw [(h.2.out seg hseg).2 (by simpa using hfin)] at hpos
    exact absurd hpos (by decide)
  have hpos' : 0 < seg.dlen.toNat := Word32.pos_iff.mp hpos
  have hmem : (seg.th.seq.toNat, seg.dlen.toNat) ∈ packets Y :=
    ⟨seg, hseg, hsyn, by simp [segLen, hfin], by unfold segLen; omega⟩
  have hrecv := recvSide_tcpDataQueue hw th (tcpInitSegment seg)
  have hemit := emits_tcpDataQueue X th (tcpInitSegment seg)
  have hsend := sendSide_tcpDataQueue X th (tcpInitSegment seg)
  generalize Data.tcpDataQueue X th (tcpInitSegment seg) = X' at hrecv hemit hsend
  have hnxt : X'.rcvNxt = _ := congrArg RecvSide.rcvNxt hrecv
  have hofo : X'.ofoQueue = _ := congrArg RecvSide.ofoQueue hrecv
  have hbare : Sent (Bare S) X X' :=
    (Sent.of_emits hemit).mono fun _ h => bare_of_pureAck h
  have hacks : Sent (AcksTo X'.rcvNxt) X X' :=
    (Sent.of_emits hemit).mono fun _ h => acksTo_of_pureAck h
  refine ⟨h.1.quiet hsend hbare, ?_⟩
  simp only [takeText] at hnxt hofo
  have hshort : (flow Y X).nxt < 4294967296 := Y.sndNxt.toNat_lt
  split_ifs at hnxt hofo with hseq
  · -- the segment itself, then what the out-of-order queue has behind it
    have hseq' : seg.th.seq = X.rcvNxt := hseq
    rw [hseq'] at hmem
    have hinv := h.2.inv.receive hmem
    have hle : X.rcvNxt.toNat + seg.dlen.toNat ≤ Y.sndNxt.toNat := hinv.rcv_le
    have hadd : (X.rcvNxt + seg.dlen).toNat = X.rcvNxt.toNat + seg.dlen.toNat :=
      Word32.toNat_add_of_lt (hle.trans_lt hshort)
    have hinv' : Flow.Inv { flow Y X with rcv := (X.rcvNxt + seg.dlen).toNat } := by
      rw [hadd]; exact hinv
    obtain ⟨h1, h2, h3⟩ := consume_inv hshort
      (X.receiveQueue ++ [queued (tcpInitSegment seg)]) hinv' h.2.ofo
    have hdlen : (tcpInitSegment seg).dlen = seg.dlen := rfl
    rw [hdlen] at hnxt hofo
    refine h.2.advance (by rw [hnxt]; exact h1) ?_ (fun x hx => ?_) hacks
    · rw [hnxt]
      rw [Word32.le_iff] at h2 ⊢
      omega
    · rw [hofo] at hx
      exact h.2.ofo x (h3 x hx)
  · refine h.2.advance (by rw [hnxt]; exact h.2.inv) (by rw [hnxt]; exact UInt32.le_refl _)
      (fun x hx => ?_) hacks
    rw [hofo] at hx
    rcases mem_tcpDataInsertOrdered hx with rfl | hx
    · exact hmem
    · exact h.2.ofo x hx

/-- A FIN of the other end. -/
theorem Agree.afterFin (h : Agree S T X Y) {seg : Seg} (hseg : seg ∈ Y.out)
    (hsyn : seg.th.syn = false) (hfin : seg.th.fin = true) (hseq : seg.th.seq = X.rcvNxt) :
    Agree S T (afterFin X) Y := by
  have hdlen := (h.2.out seg hseg).2 hfin
  have hmem : (X.rcvNxt.toNat, 1) ∈ packets Y := by
    refine ⟨seg, hseg, hsyn, ?_, ?_⟩
    · rw [hseq]; simp [segLen, hdlen, hfin]
    · simp [segLen, hfin]
  have hinv := h.2.inv.receive hmem
  have hle : X.rcvNxt.toNat + 1 ≤ Y.sndNxt.toNat := hinv.rcv_le
  have hadd : (X.rcvNxt + 1).toNat = X.rcvNxt.toNat + 1 :=
    Word32.toNat_add_of_lt (hle.trans_lt Y.sndNxt.toNat_lt)
  have hrecv := recvSide_afterFin X
  have hemit := emits_afterFin X
  have hsend := sendSide_afterFin X
  generalize Sides.afterFin X = X' at hrecv hemit hsend
  have hnxt : X'.rcvNxt = X.rcvNxt + 1 := congrArg RecvSide.rcvNxt hrecv
  have hofo : X'.ofoQueue = X.ofoQueue := congrArg RecvSide.ofoQueue hrecv
  refine ⟨h.1.quiet hsend ((Sent.of_emits hemit).mono fun _ h => bare_of_pureAck h),
    h.2.advance ?_ ?_ (by rw [hofo]; exact h.2.ofo) ?_⟩
  · rw [hnxt, hadd]; exact hinv
  · rw [hnxt, Word32.le_iff, hadd]
    exact Nat.le_succ _
  · rw [hnxt]
    exact (Sent.of_emits hemit).mono fun _ h => acksTo_of_pureAck h

/-- The text and the FIN of a segment of the other end; a segment has one of them at most. -/
theorem Agree.textFin (h : Agree S T X Y) {seg : Seg} (hseg : seg ∈ Y.out)
    (hsyn : seg.th.syn = false) : Agree S T
      (finCheck (segmentText X seg.th (tcpInitSegment seg)) seg.th (tcpInitSegment seg)) Y := by
  by_cases hpos : 0 < seg.dlen
  · have htext : Agree S T (segmentText X seg.th (tcpInitSegment seg)) Y := by
      rcases segmentText_cases X seg.th (tcpInitSegment seg) with heq | heq <;> rw [heq]
      · exact h
      · exact (h.tcpDataQueue hseg hsyn hpos seg.th).quiet rfl rfl (.of_emits (Emits.of_out rfl))
    rcases finCheck_cases (segmentText X seg.th (tcpInitSegment seg)) seg.th (tcpInitSegment seg)
      with heq | ⟨hfin, -⟩
    · rw [heq]; exact htext
    · rw [(h.2.out seg hseg).2 hfin] at hpos
      exact absurd hpos (by decide)
  · have hzero : seg.dlen = 0 := by
      rw [Word32.pos_iff] at hpos
      exact Word32.eq_iff_toNat.mpr (Nat.eq_zero_of_not_pos hpos)
    rw [segmentText_of_not_pos hpos]
    rcases finCheck_cases X seg.th (tcpInitSegment seg) with heq | ⟨hfin, hseq, heq⟩ <;> rw [heq]
    · exact h
    · refine h.afterFin hseg hsyn hfin ?_
      have hseq : X.rcvNxt - seg.dlen = seg.th.seq := hseq
      rw [← hseq, hzero, UInt32.sub_zero]

end ToyIP.Tcp.Flows
