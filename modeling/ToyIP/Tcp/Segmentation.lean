import ToyIP.Tcp.Effects
import ToyIP.Lib.Chunks

/-! # TCP: the segments of a text

`tcp_send` cuts its buffer into segments of `smss` bytes. Here its loop is written as in C, with the
results of `tcp_queue_transmit_skb`, which only decide what is printed. `segmentation_exact` says
that it ends and what it has queued and sent then. -/

namespace ToyIP.Tcp.Segmentation

open ToyIP.Lib ToyIP.Lib.Chunks ToyIP.Tcp.Types ToyIP.Tcp.Output ToyIP.Tcp.Effects

/-- The variables of `tcp_send`: what `buf` points to, `slen`, and the calls of
`tcp_queue_transmit_skb` and of `perror` so far. -/
structure Sending where
  sk : TcpSock
  buf : List UInt8
  slen : ℤ
  calls : ℕ := 0
  errors : ℕ := 0

/-- The body of the loop; `rc` are the results of the calls. -/
def sendRound (rc : ℕ → ℤ) (mss : ℤ) (s : Sending) : Sending :=
  let dlen := if s.slen > mss then mss else s.slen
  let slen := s.slen - dlen
  let skb := { tcpAllocSkb dlen.toNat with
    payload := s.buf.take dlen.toNat, th := { ack := true, psh := slen = 0 } }
  { sk := tcpQueueTransmitSkb s.sk skb
    buf := s.buf.drop dlen.toNat
    slen := slen
    calls := s.calls + 1
    errors := if rc s.calls = -1 then s.errors + 1 else s.errors }

/-- The loop, with at most `fuel` tests of its condition. -/
def sendWhile (rc : ℕ → ℤ) (mss : ℤ) : ℕ → Sending → Option Sending
  | 0, _ => none
  | fuel + 1, s => if s.slen > 0 then sendWhile rc mss fuel (sendRound rc mss s) else some s

/-- `tcp_send` with the results of the transmissions. -/
def tcpSendRc (rc : ℕ → ℤ) (fuel : ℕ) (sk : TcpSock) (buf : List UInt8) : Option Sending :=
  sendWhile rc sk.smss.toNat fuel { sk := sk, buf := buf, slen := buf.length }

/-- A header, a `dlen` and a text are those of the part `i` of a text that begins at `start`. -/
structure Piece (start : UInt32) (parts : List (List UInt8)) (i : ℕ) (th : TcpHdr) (dlen : UInt32)
    (payload : List UInt8) : Prop where
  text : parts[i]? = some payload
  dlen : dlen = UInt32.ofNat payload.length
  seq : th.seq = start + UInt32.ofNat (parts.take i).flatten.length
  ack : th.ack = true
  psh : th.psh = decide (i + 1 = parts.length)
  plain : th.syn = false ∧ th.fin = false ∧ th.rst = false

/-- **The segments of a text.** They are appended to the write queue and handed to `ip_output`, one
for each part and in the same order. -/
structure Segmented (sk : TcpSock) (buf : List UInt8) (parts : List (List UInt8)) (sk' : TcpSock) :
    Prop where
  count : parts.length = (buf.length + sk.smss.toNat - 1) / sk.smss.toNat
  text : parts.flatten = buf
  size : ∀ p ∈ parts, 1 ≤ p.length ∧ p.length ≤ sk.smss.toNat
  queue : ∃ skbs, sk'.writeQueue = sk.writeQueue ++ skbs ∧ skbs.length = parts.length ∧
    ∀ i skb, skbs[i]? = some skb → Piece sk.sndNxt parts i skb.th skb.dlen skb.payload
  out : ∃ segs, sk'.out = sk.out ++ segs ∧ segs.length = parts.length ∧
    ∀ i seg, segs[i]? = some seg → Piece sk.sndNxt parts i seg.th seg.dlen seg.payload
  nxt : sk'.sndNxt = sk.sndNxt + UInt32.ofNat buf.length

/-! ### The loop -/

/-- A round takes one part off the buffer, whatever the transmission returns. -/
theorem sendRound_eq (rc : ℕ → ℤ) (mss : ℕ) {s : Sending} (hslen : s.slen = s.buf.length) :
    ∃ errors, sendRound rc mss s = {
      sk := tcpQueueTransmitSkb s.sk { tcpAllocSkb (min s.buf.length mss) with
        payload := s.buf.take (min s.buf.length mss)
        th := { ack := true, psh := s.buf.length - min s.buf.length mss = 0 } }
      buf := s.buf.drop (min s.buf.length mss)
      slen := (s.buf.drop (min s.buf.length mss)).length
      calls := s.calls + 1
      errors := errors } := by
  have hdlen : (if (s.buf.length : ℤ) > mss then (mss : ℤ) else s.buf.length) =
      (min s.buf.length mss : ℕ) := by
    split_ifs <;> omega
  have hleft : (s.buf.length : ℤ) - (min s.buf.length mss : ℕ) =
      (s.buf.drop (min s.buf.length mss)).length := by
    rw [List.length_drop]
    omega
  have hpsh : decide (((s.buf.drop (min s.buf.length mss)).length : ℤ) = 0) =
      decide (s.buf.length - min s.buf.length mss = 0) := by
    rw [List.length_drop]
    exact decide_eq_decide.mpr (by omega)
  refine ⟨if rc s.calls = -1 then s.errors + 1 else s.errors, ?_⟩
  unfold sendRound
  simp only [hslen, hdlen, hleft, Int.toNat_natCast, hpsh]

/-- The loop ends with the rounds of `tcpSendLoop`. -/
theorem sendWhile_eq (rc : ℕ → ℤ) {mss : ℕ} (hmss : 0 < mss) : ∀ (fuel : ℕ) (s : Sending),
    s.slen = s.buf.length → s.buf.length ≤ fuel → ∃ s', sendWhile rc mss (fuel + 1) s = some s' ∧
      s'.sk = tcpSendLoop s.sk mss fuel s.buf
  | fuel, s, hslen, hle => by
    by_cases hnil : s.buf = []
    · rw [hnil, List.length_nil] at hslen
      refine ⟨s, ?_, ?_⟩
      · rw [sendWhile, if_neg (by omega)]
      · cases fuel with
        | zero => rfl
        | succ fuel => rw [tcpSendLoop, if_pos hnil]
    have hpos := List.length_pos_iff.mpr hnil
    obtain ⟨fuel, rfl⟩ : ∃ k, fuel = k + 1 := ⟨fuel - 1, by omega⟩
    obtain ⟨errors, hround⟩ := sendRound_eq rc mss hslen
    obtain ⟨s', hrun, hsk⟩ := sendWhile_eq rc hmss fuel (sendRound rc mss s) (by rw [hround])
      (by rw [hround, List.length_drop]; omega)
    refine ⟨s', ?_, ?_⟩
    · rw [sendWhile, if_pos (by omega)]
      exact hrun
    · rw [hsk, hround, tcpSendLoop, if_neg hnil]

/-- What the rounds do to the sock: `start + k` is where the rest of the text begins. -/
theorem tcpSendLoop_eq {mss : ℕ} (hmss : 0 < mss) (start : UInt32) : ∀ (fuel k : ℕ) (sk : TcpSock)
    (buf : List UInt8), buf.length ≤ fuel → sk.sndNxt = start + UInt32.ofNat k →
    ∃ timers retransmit, tcpSendLoop sk mss fuel buf = { sk with
      writeQueue := sk.writeQueue ++ placed (fun k part last =>
        sentSkb sk (dataSkb part last) (start + UInt32.ofNat k)) k (chunks mss buf)
      out := sk.out ++ placed (fun k part last =>
        sentSeg sk (dataSkb part last) (start + UInt32.ofNat k)) k (chunks mss buf)
      sndNxt := start + UInt32.ofNat (k + buf.length)
      timers := timers
      retransmit := retransmit }
  | fuel, k, sk, buf, hle, hnxt => by
    by_cases hnil : buf = []
    · have hloop : tcpSendLoop sk mss fuel buf = sk := by
        cases fuel with
        | zero => rfl
        | succ fuel => rw [tcpSendLoop, if_pos hnil]
      rw [hloop, hnil, chunks_nil, placed, placed, List.append_nil, List.append_nil,
        List.length_nil, Nat.add_zero, ← hnxt]
      exact ⟨sk.timers, sk.retransmit, rfl⟩
    have hpos := List.length_pos_iff.mpr hnil
    obtain ⟨fuel, rfl⟩ : ∃ n, fuel = n + 1 := ⟨fuel - 1, by omega⟩
    have hpart : buf.take (min buf.length mss) = buf.take mss := by
      rw [List.take_eq_take_iff]
      omega
    have hrest : buf.drop (min buf.length mss) = buf.drop mss := by
      rcases Nat.le_total mss buf.length with hcase | hcase
      · rw [Nat.min_eq_right hcase]
      · rw [Nat.min_eq_left hcase, List.drop_length, List.drop_of_length_le hcase]
    have hlen : (buf.take mss).length = min buf.length mss := by
      rw [List.length_take, Nat.min_comm]
    have hlast : decide (buf.length - min buf.length mss = 0) =
        (chunks mss (buf.drop mss)).isEmpty := by
      rw [Bool.eq_iff_iff, decide_eq_true_iff, List.isEmpty_iff, chunks_eq_nil hmss,
        List.drop_eq_nil_iff]
      omega
    have hround : tcpSendLoop sk mss (fuel + 1) buf = tcpSendLoop (tcpQueueTransmitSkb sk
        (dataSkb (buf.take mss) (chunks mss (buf.drop mss)).isEmpty)) mss fuel (buf.drop mss) := by
      rw [tcpSendLoop, if_neg hnil]
      unfold dataSkb
      simp only [← hlast, hlen, hpart, hrest]
    obtain ⟨timers, retransmit, hqueue⟩ := tcpQueueTransmitSkb_eq sk
      (dataSkb (buf.take mss) (chunks mss (buf.drop mss)).isEmpty)
    have hnxt' : sk.sndNxt + (dataSkb (buf.take mss) (chunks mss (buf.drop mss)).isEmpty).dlen =
        start + UInt32.ofNat (k + (buf.take mss).length) := by
      rw [hnxt, UInt32.add_assoc, UInt32.ofNat_add]
      rfl
    obtain ⟨timers', retransmit', ih⟩ := tcpSendLoop_eq hmss start fuel (k + (buf.take mss).length)
      (tcpQueueTransmitSkb sk (dataSkb (buf.take mss) (chunks mss (buf.drop mss)).isEmpty))
      (buf.drop mss) (by rw [List.length_drop]; omega) (by rw [hqueue]; exact hnxt')
    refine ⟨timers', retransmit', ?_⟩
    have hall : k + (buf.take mss).length + (buf.drop mss).length = k + buf.length := by
      rw [hlen, List.length_drop]
      omega
    rw [hround, ih, hqueue, hall, chunks_cons hmss hnil, placed, placed, hnxt,
      List.append_assoc, List.append_assoc]
    rfl

/-! ### The result -/

theorem segmented_tcpSend {sk : TcpSock} (hmss : 0 < sk.smss) (buf : List UInt8) :
    Segmented sk buf (chunks sk.smss.toNat buf) (tcpSend sk buf) := by
  have hpos : 0 < sk.smss.toNat := UInt16.lt_iff_toNat_lt.mp hmss
  obtain ⟨timers, retransmit, heq⟩ := tcpSendLoop_eq hpos sk.sndNxt buf.length 0 sk buf
    (Nat.le_refl _) (UInt32.add_zero _).symm
  have hsend : tcpSend sk buf = _ := heq
  rw [hsend]
  refine ⟨length_chunks hpos buf, flatten_chunks hpos buf, fun p hp => length_of_mem_chunks hpos hp,
    ⟨_, rfl, length_placed _ _ _, fun i skb hskb => ?_⟩,
    ⟨_, rfl, length_placed _ _ _, fun i seg hseg => ?_⟩, by rw [Nat.zero_add]⟩
  · rw [getElem?_placed, Nat.zero_add] at hskb
    obtain ⟨part, hpart, rfl⟩ := Option.map_eq_some_iff.mp hskb
    exact ⟨hpart, rfl, rfl, rfl, rfl, rfl, rfl, rfl⟩
  · rw [getElem?_placed, Nat.zero_add] at hseg
    obtain ⟨part, hpart, rfl⟩ := Option.map_eq_some_iff.mp hseg
    exact ⟨hpart, rfl, rfl, rfl, rfl, rfl, rfl, rfl⟩

/-- **Segmentation is exact.** -/
theorem segmentation_exact (rc : ℕ → ℤ) (sk : TcpSock) (buf : List UInt8) (hmss : 0 < sk.smss) :
    ∃ fuel s parts, tcpSendRc rc fuel sk buf = some s ∧ s.sk = tcpSend sk buf ∧
      Segmented sk buf parts s.sk := by
  have hpos : 0 < sk.smss.toNat := UInt16.lt_iff_toNat_lt.mp hmss
  obtain ⟨s, hrun, hsk⟩ := sendWhile_eq rc hpos buf.length
    { sk := sk, buf := buf, slen := buf.length } rfl (Nat.le_refl _)
  refine ⟨buf.length + 1, s, chunks sk.smss.toNat buf, hrun, hsk, ?_⟩
  rw [hsk]
  exact segmented_tcpSend hmss buf

/-- Three bytes with an `smss` of two, and no transmission succeeds. -/
theorem segmentation_exact_three : ∃ fuel s parts,
    tcpSendRc (fun _ => -1) fuel { tcpAllocSock with smss := 2 } [1, 2, 3] = some s ∧
      s.sk = tcpSend { tcpAllocSock with smss := 2 } [1, 2, 3] ∧
      Segmented { tcpAllocSock with smss := 2 } [1, 2, 3] parts s.sk :=
  segmentation_exact (fun _ => -1) { tcpAllocSock with smss := 2 } [1, 2, 3] (by decide)

end ToyIP.Tcp.Segmentation
