import Mathlib.Data.List.Forall2
import Mathlib.Data.List.GetD
import ToyIP.Lib.Resequence
import ToyIP.Lib.Word32
import ToyIP.Tcp.Receiver

/-! # TCP: reassembly of segments in any order

An `ESTABLISHED` sock gets segments that tile a stretch of the stream, each of them once. The
out-of-order queue then is the resequencing queue of `Lib.Resequence` on the places of the
segments in the stream: `skb_queue_add` links a buffer behind the first buffer with a greater
sequence number, not in front of it. So the stretch is received in full if and only if no three
segments arrive in decreasing order: `complete_iff`. -/

namespace ToyIP.Tcp.Reassembly

open ToyIP.Lib ToyIP.Tcp.Types ToyIP.Tcp.Data ToyIP.Tcp.Input ToyIP.Tcp.Sides
open ToyIP.Tcp.Receiver (client)

/-- A segment with nothing but text for a sock that waits for an acknowledgement of `una`. -/
structure TextSeg (una : UInt32) (s : Seg) : Prop where
  ack : s.th.ack = true
  ackSeq : s.th.ackSeq = una
  syn : s.th.syn = false
  fin : s.th.fin = false
  nonempty : s.payload ≠ []
  dlen : s.dlen.toNat = s.payload.length

/-- The bytes of a list of segments. -/
def text (l : List Seg) : List UInt8 := l.flatMap Seg.payload

/-- The segments tile the sequence numbers from `start` on, in the order of the stream. -/
def Tiles : ℕ → List Seg → Prop
  | _, [] => True
  | start, s :: l => s.th.seq.toNat = start ∧ Tiles (start + s.payload.length) l

/-- No three segments of a list arrive in decreasing order of their sequence numbers. -/
def NoDecreasingTriple (order : List Seg) : Prop :=
  ∀ a b c, [a, b, c].Sublist order → ¬ (b.th.seq < a.th.seq ∧ c.th.seq < b.th.seq)

/-- After its run the sock has received the text of `l` in full. -/
def Complete (sk : TcpSock) (l : List Seg) (r : Except Fault TcpSock) : Prop :=
  ∃ sk', r = .ok sk' ∧ sk'.rcvNxt = sk.rcvNxt + UInt32.ofNat (text l).length ∧
    sk'.ofoQueue = [] ∧
    ∃ new, sk'.receiveQueue = sk.receiveQueue ++ new ∧ new.flatMap Skb.payload = text l

/-! ### One segment -/

/-- In the window the text of a segment is queued, and nothing else happens. -/
theorem tcpProcess_text {sk : TcpSock} {s : Seg} (hst : sk.state = .established)
    (hs : TextSeg sk.sndUna s) (hsnd : sk.sndUna ≤ sk.sndNxt)
    (hf : tcpPacketFilter sk s.th (tcpInitSegment s) = true) :
    tcpProcess sk s = .ok (tcpRecvNotify (tcpDataQueue sk s.th (tcpInitSegment s))) := by
  have hdlen : (tcpInitSegment s).dlen > 0 := by
    show 0 < s.dlen
    rw [Word32.pos_iff, hs.dlen]
    exact List.length_pos_iff.mpr hs.nonempty
  have hack : ackCheck sk s.th = .ok (sk, true) := by
    unfold ackCheck
    rw [hst, hs.ackSeq]
    have h1 : ¬ (sk.sndUna > sk.sndNxt) := UInt32.not_lt.mpr hsnd
    simp [h1]
  have hin : processInWindow sk s.th (tcpInitSegment s) =
      .ok (tcpRecvNotify (tcpDataQueue sk s.th (tcpInitSegment s))) := by
    unfold processInWindow
    simp only [hs.syn, hs.ack, Bool.not_true, Bool.false_and, if_false, Bool.false_eq_true]
    rw [hack]
    simp only [segmentText_of_pos (.inl hst) hdlen, finCheck_of_not_fin hs.fin]
  rw [tcpProcess_filter (by simp [hst]) (by simp [hst]) (by simp [hst]), if_pos hf]
  exact hin

/-! ### Places in the stream -/

/-- The segment at place `i` of the stream. -/
def segAt (l : List Seg) (i : ℕ) : Seg := l.getD i { th := {} }

/-- The buffer of the segment at place `i`, once it is queued. -/
def skbAt (l : List Seg) (i : ℕ) : Skb := queued (tcpInitSegment (segAt l i))

/-- The offset of the segment at place `i`. -/
def offset (l : List Seg) (i : ℕ) : ℕ := (text (l.take i)).length

variable {l : List Seg} {start i j : ℕ}

theorem text_append (l l' : List Seg) : text (l ++ l') = text l ++ text l' := by
  simp [text]

theorem segAt_eq (h : i < l.length) : segAt l i = l[i] := List.getD_eq_getElem _ _ h

theorem segAt_mem (h : i < l.length) : segAt l i ∈ l := segAt_eq h ▸ List.getElem_mem h

theorem take_succ_eq (h : i < l.length) : l.take (i + 1) = l.take i ++ [segAt l i] := by
  rw [segAt_eq h, List.take_append_getElem]

theorem offset_succ (h : i < l.length) :
    offset l (i + 1) = offset l i + (segAt l i).payload.length := by
  unfold offset
  rw [take_succ_eq h, text_append]
  simp [text]

theorem offset_mono (h : i ≤ j) : offset l i ≤ offset l j := by
  obtain ⟨k, rfl⟩ := Nat.exists_eq_add_of_le h
  unfold offset
  rw [List.take_add, text_append, List.length_append]
  omega

theorem offset_le (i : ℕ) : offset l i ≤ (text l).length := by
  have h : text (l.take i ++ l.drop i) = _ := text_append (l.take i) (l.drop i)
  rw [List.take_append_drop] at h
  rw [h, List.length_append]
  exact Nat.le_add_right _ _

theorem tiles_seq : ∀ {l : List Seg} {start i : ℕ}, Tiles start l → i < l.length →
    (segAt l i).th.seq.toNat = start + offset l i
  | s :: l, start, 0, h, _ => by simpa [segAt, offset, text] using h.1
  | s :: l, start, i + 1, h, hi => by
    have ih := tiles_seq h.2 (Nat.lt_of_succ_lt_succ hi)
    have hs : segAt (s :: l) (i + 1) = segAt l i := rfl
    have ho : offset (s :: l) (i + 1) = s.payload.length + offset l i := by
      simp [offset, text]
    rw [hs, ih, ho, Nat.add_assoc]

/-! ### The out-of-order queue on places -/

/-- The tiling fits below `2^32`, and every segment has text. -/
structure Stretch (una : UInt32) (start : ℕ) (l : List Seg) : Prop where
  tiles : Tiles start l
  texts : ∀ s ∈ l, TextSeg una s
  wrap : start + (text l).length < 4294967296

variable {una : UInt32}

theorem Stretch.dlen (h : Stretch una start l) (hi : i < l.length) :
    (skbAt l i).dlen.toNat = offset l (i + 1) - offset l i := by
  have hd := (h.texts _ (segAt_mem hi)).dlen
  rw [offset_succ hi, Nat.add_sub_cancel_left]
  exact hd

theorem Stretch.lt (h : Stretch una start l) (hi : i < l.length) :
    offset l i < offset l (i + 1) := by
  rw [offset_succ hi]
  have := List.length_pos_iff.mpr (h.texts _ (segAt_mem hi)).nonempty
  omega

theorem Stretch.seq (h : Stretch una start l) (hi : i < l.length) :
    (skbAt l i).seq.toNat = start + offset l i := tiles_seq h.tiles hi

theorem Stretch.endSeq (h : Stretch una start l) (hi : i < l.length) :
    (skbAt l i).endSeq.toNat = start + offset l (i + 1) := by
  have hlt := h.lt hi
  have hle := offset_le (l := l) (i + 1)
  have hw := h.wrap
  have hs := h.seq hi
  have hd := h.dlen hi
  have : (skbAt l i).endSeq = (skbAt l i).seq + (skbAt l i).dlen := rfl
  rw [this, Word32.toNat_add_of_lt (by omega)]
  omega

/-- The sequence numbers are ordered as the places are. -/
theorem Stretch.seq_lt (h : Stretch una start l) (hi : i < l.length) (hj : j < l.length) :
    (skbAt l i).seq < (skbAt l j).seq ↔ i < j := by
  rw [Word32.lt_iff, h.seq hi, h.seq hj]
  constructor
  · intro hlt
    by_contra hij
    have := offset_mono (l := l) (Nat.not_lt.mp hij)
    omega
  · intro hij
    have := offset_mono (l := l) (show i + 1 ≤ j from hij)
    have := h.lt hi
    omega

theorem Stretch.visit_eq (h : Stretch una start l) (hi : i < l.length) (hj : j < l.length)
    (hij : i ≠ j) :
    visit (tcpInitSegment (segAt l i)) (skbAt l j) = if i < j then .insert else .next := by
  have hlt := h.seq_lt hi hj
  have hend : i < j → ¬ (skbAt l i).endSeq > (skbAt l j).seq := by
    intro hij
    have := offset_mono (l := l) (show i + 1 ≤ j from hij)
    rw [gt_iff_lt, Word32.lt_iff, h.endSeq hi, h.seq hj]
    omega
  have hne : (skbAt l i).seq ≠ (skbAt l j).seq := by
    rcases Nat.lt_or_gt_of_ne hij with h' | h'
    · exact UInt32.ne_of_lt (hlt.mpr h')
    · exact (UInt32.ne_of_lt ((h.seq_lt hj hi).mpr h')).symm
  unfold visit
  change (if (skbAt l i).seq < (skbAt l j).seq then
      if (skbAt l i).endSeq > (skbAt l j).seq then Visit.next else .insert
    else if (skbAt l i).seq = (skbAt l j).seq then .duplicate else .next) = _
  rw [if_neg hne]
  by_cases hij' : i < j
  · rw [if_pos (hlt.mpr hij'), if_neg (hend hij'), if_pos hij']
  · rw [if_neg (fun h' => hij' (hlt.mp h')), if_neg hij']

/-- Insertion into the out-of-order queue is insertion of the place. -/
theorem Stretch.insert (h : Stretch una start l) (hi : i < l.length) : ∀ {q : List ℕ},
    (∀ j ∈ q, j < l.length ∧ i ≠ j) →
      tcpDataInsertOrdered (q.map (skbAt l)) (tcpInitSegment (segAt l i)) =
        (Resequence.insertBehind i q).map (skbAt l)
  | [], _ => rfl
  | j :: q, hq => by
    obtain ⟨hj, hij⟩ := hq j (by simp)
    have ih := Stretch.insert h hi (q := q) fun x hx => hq x (by simp [hx])
    rw [List.map_cons]
    unfold tcpDataInsertOrdered Resequence.insertBehind
    rw [h.visit_eq hi hj hij]
    by_cases hlt : i < j
    · rw [if_pos hlt, if_pos hlt]; rfl
    · rw [if_neg hlt, if_neg hlt]
      simp [ih]

/-- The loop of `tcp_consume_ofo_queue` drains the places. -/
theorem Stretch.consume (h : Stretch una start l) (rq : List Skb) : ∀ {q : List ℕ} {e : ℕ}
    {rcvNxt : UInt32}, (∀ j ∈ q, j < l.length) → rcvNxt.toNat = start + offset l e →
      e ≤ l.length → ∃ rcvNxt', rcvNxt'.toNat = start + offset l (Resequence.drain e q).1 ∧
        (Resequence.drain e q).1 ≤ l.length ∧
        consume rcvNxt (q.map (skbAt l)) (rq ++ (List.range e).map (skbAt l)) =
          (rcvNxt', (Resequence.drain e q).2.map (skbAt l),
            rq ++ (List.range (Resequence.drain e q).1).map (skbAt l))
  | [], e, rcvNxt, _, hr, he => ⟨rcvNxt, hr, he, rfl⟩
  | j :: q, e, rcvNxt, hq, hr, he => by
    have hj := hq j (by simp)
    have hiff : rcvNxt = (skbAt l j).seq ↔ j = e := by
      rw [Word32.eq_iff_toNat, hr, h.seq hj]
      constructor
      · intro heq
        by_contra hne
        rcases Nat.lt_or_gt_of_ne hne with h' | h'
        · have := offset_mono (l := l) (show j + 1 ≤ e from h')
          have := h.lt hj
          omega
        · have := offset_mono (l := l) (show e + 1 ≤ j from h')
          have := h.lt (Nat.lt_trans h' hj)
          omega
      · rintro rfl; rfl
    rw [List.map_cons]
    unfold Data.consume Resequence.drain
    by_cases hje : j = e
    · subst hje
      have hnext : (rcvNxt + (skbAt l j).dlen).toNat = start + offset l (j + 1) := by
        have hlt := h.lt hj
        have hle := offset_le (l := l) (j + 1)
        have hw := h.wrap
        have hd := h.dlen hj
        rw [Word32.toNat_add_of_lt (by omega)]
        omega
      obtain ⟨rcvNxt', h1, h2, h3⟩ := Stretch.consume h rq (q := q)
        (fun x hx => hq x (by simp [hx])) hnext (show j + 1 ≤ l.length from hj)
      refine ⟨rcvNxt', ?_, ?_, ?_⟩
      · rw [if_pos rfl]; exact h1
      · rw [if_pos rfl]; exact h2
      · rw [if_pos (hiff.mpr rfl), if_pos rfl, ← h3]
        simp [List.range_succ]
    · refine ⟨rcvNxt, ?_, ?_, ?_⟩
      · rw [if_neg hje]; exact hr
      · rw [if_neg hje]; exact he
      · rw [if_neg (fun h' => hje (hiff.mp h')), if_neg hje, List.map_cons]

/-! ### The sock follows the resequencing queue -/

/-- `sk'` is the sock `sk` after arrivals that have taken the resequencing queue to `s`. -/
structure Sim (sk : TcpSock) (l : List Seg) (s : ℕ × List ℕ) (sk' : TcpSock) : Prop where
  state : sk'.state = .established
  send : sendSide sk' = sendSide sk
  recv : recvSide sk' = { recvSide sk with
    rcvNxt := sk'.rcvNxt
    ofoQueue := s.2.map (skbAt l)
    receiveQueue := sk.receiveQueue ++ (List.range s.1).map (skbAt l) }
  rcvNxt : sk'.rcvNxt.toNat = sk.rcvNxt.toNat + offset l s.1
  le : s.1 ≤ l.length

variable {sk : TcpSock}

/-- What the claim grants: the stretch starts at `rcv_nxt`, fits the window and nothing wraps. -/
structure Fits (sk : TcpSock) (l : List Seg) : Prop where
  stretch : Stretch sk.sndUna sk.rcvNxt.toNat l
  snd : sk.sndUna ≤ sk.sndNxt
  wnd : (text l).length ≤ sk.rcvWnd.toNat
  wrap : sk.rcvNxt.toNat + (text l).length + sk.rcvWnd.toNat < 4294967296

/-- A segment that is still missing passes the window filter. -/
theorem Fits.filter (h : Fits sk l) {s : ℕ × List ℕ} {sk' : TcpSock} (hsim : Sim sk l s sk')
    (hi : i < l.length) (hle : s.1 ≤ i) :
    tcpPacketFilter sk' (segAt l i).th (tcpInitSegment (segAt l i)) = true := by
  have hw : sk'.rcvWnd = sk.rcvWnd := congrArg RecvSide.rcvWnd hsim.recv
  have hlt := h.stretch.lt hi
  have hlen := offset_le (l := l) (i + 1)
  have hlen' := offset_le (l := l) s.1
  have hmono := offset_mono (l := l) hle
  have hr := hsim.rcvNxt
  have hseq : (segAt l i).th.seq.toNat = sk.rcvNxt.toNat + offset l i := h.stretch.seq hi
  have hwnd := h.wnd
  have hwrap := h.wrap
  have hsum : (sk'.rcvNxt + sk'.rcvWnd).toNat = sk'.rcvNxt.toNat + sk.rcvWnd.toNat := by
    rw [hw, Word32.toNat_add_of_lt (by omega)]
  have h1 : sk'.rcvWnd ≠ 0 := by
    rw [hw, Ne, Word32.eq_iff_toNat, UInt32.toNat_zero]
    omega
  have h2 : ¬ (segAt l i).th.seq < sk'.rcvNxt := by rw [Word32.lt_iff]; omega
  have h3 : ¬ (segAt l i).th.seq > sk'.rcvNxt + sk'.rcvWnd := by
    rw [gt_iff_lt, Word32.lt_iff, hsum]
    omega
  unfold tcpPacketFilter
  simp [h1, h2, h3]

/-- The text of a missing segment takes the two queues where its place takes the machine. -/
theorem Fits.takeText (h : Fits sk l) {s : ℕ × List ℕ} {sk' : TcpSock} (hsim : Sim sk l s sk')
    (hq : ∀ j ∈ s.2, j < l.length ∧ i ≠ j) (hi : i < l.length) (hle : s.1 ≤ i) :
    ∃ r, r.toNat = sk.rcvNxt.toNat + offset l (Resequence.arrive s i).1 ∧
      (Resequence.arrive s i).1 ≤ l.length ∧
      takeText sk'.rcvNxt (s.2.map (skbAt l))
          (sk.receiveQueue ++ (List.range s.1).map (skbAt l)) (tcpInitSegment (segAt l i)) =
        (r, (Resequence.arrive s i).2.map (skbAt l),
          sk.receiveQueue ++ (List.range (Resequence.arrive s i).1).map (skbAt l)) := by
  have hlt := h.stretch.lt hi
  have hr := hsim.rcvNxt
  have hseq := h.stretch.seq hi
  have hiff : (tcpInitSegment (segAt l i)).seq = sk'.rcvNxt ↔ i = s.1 := by
    rw [Word32.eq_iff_toNat, hr]
    constructor
    · intro heq
      have heq : (skbAt l i).seq.toNat = _ := heq
      by_contra hne
      have := offset_mono (l := l) (show s.1 + 1 ≤ i by omega)
      have := h.stretch.lt (show s.1 < l.length by omega)
      omega
    · rintro rfl; exact hseq
  unfold Sides.takeText Resequence.arrive
  by_cases his : i = s.1
  · have hnext : (sk'.rcvNxt + (skbAt l i).dlen).toNat =
        sk.rcvNxt.toNat + offset l (s.1 + 1) := by
      have hlen := offset_le (l := l) (i + 1)
      have hw := h.wrap
      have hd := h.stretch.dlen hi
      rw [← his] at hr ⊢
      rw [Word32.toNat_add_of_lt (by omega)]
      omega
    obtain ⟨r, h1, h2, h3⟩ := h.stretch.consume sk.receiveQueue (fun j hj => (hq j hj).1) hnext
      (show s.1 + 1 ≤ l.length by omega)
    rw [if_pos his]
    refine ⟨r, h1, h2, ?_⟩
    rw [if_pos (hiff.mpr his), ← h3, List.range_succ, ← his]
    simp [skbAt, queued]
  · rw [if_neg his]
    refine ⟨sk'.rcvNxt, hr, hsim.le, ?_⟩
    rw [if_neg (fun h' => his (hiff.mp h')), h.stretch.insert hi hq]

theorem Sim.arrive (h : Fits sk l) {p : List ℕ} {s : ℕ × List ℕ} {sk' : TcpSock}
    (hsim : Sim sk l s sk') (hold : Resequence.Holds p s) (hp : ∀ j ∈ p, j < l.length)
    (hi : i < l.length) (hip : i ∉ p) :
    ∃ sk'', tcpProcess sk' (segAt l i) = .ok sk'' ∧ Sim sk l (Resequence.arrive s i) sk'' := by
  rw [hold.mem, not_or, Nat.not_lt] at hip
  have hq : ∀ j ∈ s.2, j < l.length ∧ i ≠ j := fun j hj =>
    ⟨hp j ((hold.mem j).mpr (Or.inr hj)), fun hij => hip.2 (hij ▸ hj)⟩
  have hf := h.filter hsim hi hip.1
  have huna : sk'.sndUna = sk.sndUna := congrArg SendSide.sndUna hsim.send
  have hnxt : sk'.sndNxt = sk.sndNxt := congrArg SendSide.sndNxt hsim.send
  have hofo : sk'.ofoQueue = s.2.map (skbAt l) := congrArg RecvSide.ofoQueue hsim.recv
  have hrq : sk'.receiveQueue = sk.receiveQueue ++ (List.range s.1).map (skbAt l) :=
    congrArg RecvSide.receiveQueue hsim.recv
  have htext : TextSeg sk'.sndUna (segAt l i) := huna ▸ h.stretch.texts _ (segAt_mem hi)
  have hwnd : sk'.rcvWnd ≠ 0 := by
    intro h0
    have := hf
    unfold tcpPacketFilter at this
    have hpos : (tcpInitSegment (segAt l i)).dlen > 0 := by
      show 0 < (skbAt l i).dlen
      rw [Word32.pos_iff, h.stretch.dlen hi]
      have := h.stretch.lt hi
      omega
    simp [h0, hpos] at this
  refine ⟨_, tcpProcess_text hsim.state htext (by rw [huna, hnxt]; exact h.snd) hf, ?_⟩
  obtain ⟨r, hr, hle, htake⟩ := h.takeText hsim hq hi hip.1
  have hrecv := recvSide_tcpDataQueue hwnd (segAt l i).th (tcpInitSegment (segAt l i))
  rw [hofo, hrq, htake, hsim.recv] at hrecv
  have hr' : (tcpDataQueue sk' (segAt l i).th (tcpInitSegment (segAt l i))).rcvNxt = r :=
    congrArg RecvSide.rcvNxt hrecv
  refine ⟨?_, ?_, ?_, ?_, hle⟩
  · exact (congrArg Core.state (core_tcpDataQueue _ _ _)).trans hsim.state
  · exact (sendSide_tcpDataQueue _ _ _).trans hsim.send
  · refine Eq.trans hrecv ?_
    show _ = RecvSide.mk (tcpDataQueue sk' (segAt l i).th (tcpInitSegment (segAt l i))).rcvNxt
      _ _ _ _
    rw [hr']
  · exact (congrArg UInt32.toNat hr').trans hr

theorem sim_nil (hst : sk.state = .established) (hofo : sk.ofoQueue = []) :
    Sim sk l (0, []) sk := by
  refine ⟨hst, rfl, ?_, by simp [offset, text], Nat.zero_le _⟩
  simp [recvSide, hofo]

/-- Every run of arrivals is followed by the resequencing queue. -/
theorem sim_foldl (h : Fits sk l) : ∀ (idx p : List ℕ) (s : ℕ × List ℕ) (sk' : TcpSock),
    Sim sk l s sk' → Resequence.Holds p s → (p ++ idx).Nodup → (∀ j ∈ p ++ idx, j < l.length) →
      ∃ sk'', (idx.map (segAt l)).foldlM tcpProcess sk' = .ok sk'' ∧
        Sim sk l (idx.foldl Resequence.arrive s) sk''
  | [], _, _, sk', hsim, _, _, _ => ⟨sk', rfl, hsim⟩
  | i :: idx, p, s, sk', hsim, hold, hn, hlt => by
    have hip : i ∉ p := by
      rw [List.nodup_append] at hn
      exact fun hip => hn.2.2 i hip i (by simp) rfl
    obtain ⟨sk₁, hstep, hsim₁⟩ := hsim.arrive h hold (fun j hj => hlt j (by simp [hj]))
      (hlt i (by simp)) hip
    obtain ⟨sk₂, hrun, hsim₂⟩ := sim_foldl h idx (p ++ [i]) _ sk₁ hsim₁ (hold.arrive hip)
      (by simpa using hn) (by simpa using hlt)
    refine ⟨sk₂, ?_, hsim₂⟩
    rw [List.map_cons, List.foldlM_cons, hstep]
    exact hrun

/-! ### The exact condition -/

theorem payload_skbAt (l : List Seg) :
    ((List.range l.length).map (skbAt l)).flatMap Skb.payload = text l := by
  have hseg : (List.range l.length).map (segAt l) = l := by
    refine List.ext_getElem (by simp) fun i h₁ h₂ => ?_
    simp [segAt_eq h₂]
  have hpay : ((List.range l.length).map (skbAt l)).flatMap Skb.payload =
      ((List.range l.length).map (segAt l)).flatMap Seg.payload := by
    rw [List.flatMap_map, List.flatMap_map]
    rfl
  rw [hpay, hseg]
  rfl

/-- A permutation of the segments is a permutation of their places. -/
theorem exists_places {order : List Seg} (h : order.Perm l) :
    ∃ idx : List ℕ, order = idx.map (segAt l) ∧ idx.Perm (List.range l.length) := by
  have hall : List.Forall₂ (fun s i => s = segAt l i) l (List.range l.length) := by
    rw [List.forall₂_iff_get]
    refine ⟨by simp, fun i h₁ h₂ => ?_⟩
    simp [segAt_eq h₁]
  obtain ⟨idx, hidx, hperm⟩ := List.perm_comp_forall₂ h hall
  refine ⟨idx, ?_, hperm⟩
  clear hperm hall h
  induction hidx with
  | nil => rfl
  | cons h _ ih => rw [h, ih, List.map_cons]

theorem noDecreasingTriple_iff (h : Stretch una start l) {idx : List ℕ}
    (hidx : ∀ i ∈ idx, i < l.length) :
    NoDecreasingTriple (idx.map (segAt l)) ↔ Resequence.No321 idx := by
  have hlt : ∀ i ∈ idx, ∀ j ∈ idx, (segAt l i).th.seq < (segAt l j).th.seq ↔ i < j :=
    fun i hi j hj => h.seq_lt (hidx i hi) (hidx j hj)
  constructor
  · intro hno a b c hsub habc
    have ha := hsub.subset (List.mem_cons_self (a := a))
    have hb : b ∈ idx := hsub.subset (by simp)
    have hc : c ∈ idx := hsub.subset (by simp)
    have := hno _ _ _ (hsub.map (segAt l))
    rw [hlt b hb a ha, hlt c hc b hb] at this
    exact this habc
  · intro hno a b c hsub habc
    obtain ⟨l', hl', heq⟩ := List.sublist_map_iff.mp hsub
    obtain _ | ⟨a', _ | ⟨b', _ | ⟨c', _ | _⟩⟩⟩ := l' <;> simp at heq
    obtain ⟨rfl, rfl, rfl⟩ := heq
    have ha : a' ∈ idx := hl'.subset (by simp)
    have hb : b' ∈ idx := hl'.subset (by simp)
    have hc : c' ∈ idx := hl'.subset (by simp)
    rw [hlt b' hb a' ha, hlt c' hc b' hb] at habc
    exact hno _ _ _ hl' habc

/-- **A tiling that is delivered once is received in full if and only if no three of its segments
arrive in decreasing order.** -/
theorem complete_iff {order : List Seg} (hst : sk.state = .established)
    (hofo : sk.ofoQueue = []) (hsnd : sk.sndUna ≤ sk.sndNxt)
    (htile : Tiles sk.rcvNxt.toNat l) (htext : ∀ s ∈ l, TextSeg sk.sndUna s)
    (hwnd : (text l).length ≤ sk.rcvWnd.toNat)
    (hwrap : sk.rcvNxt.toNat + (text l).length + sk.rcvWnd.toNat < 4294967296)
    (hperm : order.Perm l) :
    Complete sk l (order.foldlM tcpProcess sk) ↔ NoDecreasingTriple order := by
  have h : Fits sk l := ⟨⟨htile, htext, by omega⟩, hsnd, hwnd, hwrap⟩
  obtain ⟨idx, rfl, hidx⟩ := exists_places hperm
  have hlt : ∀ i ∈ idx, i < l.length := fun i hi => List.mem_range.mp (hidx.mem_iff.mp hi)
  have hn : idx.Nodup := hidx.nodup_iff.mpr List.nodup_range
  obtain ⟨sk', hrun, hsim⟩ := sim_foldl h idx [] (0, []) sk (sim_nil hst hofo)
    Resequence.holds_nil (by simpa using hn) (by simpa using hlt)
  have hsim : Sim sk l (Resequence.deliver idx) sk' := hsim
  have hq : sk'.ofoQueue = (Resequence.deliver idx).2.map (skbAt l) :=
    congrArg RecvSide.ofoQueue hsim.recv
  have hrq : sk'.receiveQueue =
      sk.receiveQueue ++ (List.range (Resequence.deliver idx).1).map (skbAt l) :=
    congrArg RecvSide.receiveQueue hsim.recv
  rw [noDecreasingTriple_iff h.stretch hlt, ← Resequence.delivers_iff hidx, hrun]
  constructor
  · rintro ⟨sk'', heq, -, hempty, -⟩
    obtain rfl : sk' = sk'' := Except.ok.inj heq
    rw [hq, List.map_eq_nil_iff] at hempty
    exact hempty
  · intro hempty
    have hm := Resequence.fst_deliver_of_empty hidx hempty
    have hr := hsim.rcvNxt
    have hall : offset l l.length = (text l).length := by simp [offset]
    rw [hm, hall] at hr
    refine ⟨sk', rfl, ?_, by rw [hq, hempty, List.map_nil], _, hrq, ?_⟩
    · rw [Word32.eq_iff_toNat, hr, Word32.toNat_add_of_lt] <;>
        rw [Word32.toNat_ofNat (by omega)]
      omega
    · rw [hm, payload_skbAt]

/-- A segment with one byte for `client`. -/
def byteSeg (seq : UInt32) (b : UInt8) : Seg :=
  { th := { seq := seq, ackSeq := 5, ack := true }, dlen := 1, payload := [b] }

/-- Three bytes in three segments. -/
def threeBytes : List Seg := [byteSeg 1001 1, byteSeg 1002 2, byteSeg 1003 3]

theorem threeBytes_text : ∀ s ∈ threeBytes, TextSeg client.sndUna s := by
  intro s hs
  simp only [threeBytes, List.mem_cons, List.not_mem_nil, or_false] at hs
  rcases hs with rfl | rfl | rfl <;> exact ⟨rfl, rfl, rfl, rfl, by simp [byteSeg], rfl⟩

theorem threeBytes_tiles : Tiles client.rcvNxt.toNat threeBytes := ⟨rfl, rfl, rfl, trivial⟩

theorem complete_iff_swapped :
    Complete client threeBytes
        ([byteSeg 1002 2, byteSeg 1001 1, byteSeg 1003 3].foldlM tcpProcess client) ↔
      NoDecreasingTriple [byteSeg 1002 2, byteSeg 1001 1, byteSeg 1003 3] :=
  complete_iff rfl rfl (by decide) threeBytes_tiles threeBytes_text (by decide) (by decide)
    (List.Perm.swap _ _ _)

/-- Three segments in reverse order: two of them stay in the out-of-order queue for good. -/
theorem reverse_not_complete :
    ¬ ∀ (sk : TcpSock) (l order : List Seg), sk.state = .established → sk.ofoQueue = [] →
      sk.sndUna ≤ sk.sndNxt → Tiles sk.rcvNxt.toNat l → (∀ s ∈ l, TextSeg sk.sndUna s) →
      (text l).length ≤ sk.rcvWnd.toNat →
      sk.rcvNxt.toNat + (text l).length + sk.rcvWnd.toNat < 4294967296 → order.Perm l →
      Complete sk l (order.foldlM tcpProcess sk) := by
  intro h
  obtain ⟨sk', hrun, -, hofo, -⟩ := h client threeBytes threeBytes.reverse rfl rfl (by decide)
    threeBytes_tiles threeBytes_text (by decide) (by decide) (List.reverse_perm _)
  have hlen : (threeBytes.reverse.foldlM tcpProcess client).map (fun sk => sk.ofoQueue.length) =
      .ok 2 := by decide
  rw [hrun] at hlen
  simp [Except.map, hofo] at hlen

end ToyIP.Tcp.Reassembly
