import ToyIP.Tcp.Receiver

/-! # TCP: the steps of `tcp_receive`

`tcp_receive` takes bytes out of the receive queue under its lock and tests the flags afterwards,
without the lock. Here the two are separate steps, and the bytes are counted as the code counts
them, by the `dlen` of the buffers. A round of `tcpReceiveRound` is the two steps in one
(`tcpReceiveRound_steps`). -/

namespace ToyIP.Tcp.Receive

open ToyIP.Lib ToyIP.Tcp.Types ToyIP.Tcp.Data ToyIP.Tcp.Sock

/-- A call of `tcp_receive` under way: `buf` are the bytes that it has copied. -/
structure Receiving where
  len : UInt32
  rlen : UInt32 := 0
  buf : List UInt8 := []
  deriving DecidableEq, Repr

/-- The `rlen` that the loop of `tcp_data_dequeue` ends with. -/
def dequeued (userlen : UInt32) : UInt32 → List Skb → UInt32
  | rlen, [] => rlen
  | rlen, skb :: rest =>
    if rlen < userlen then
      let dlen := if rlen + skb.dlen > userlen then userlen - rlen else skb.dlen
      if skb.dlen - dlen = 0 then dequeued userlen (rlen + dlen) rest else rlen + dlen
    else rlen

/-- The first step of a round: `tcp_data_dequeue` and the sum of the lengths. -/
def receiveDequeue (sk : TcpSock) (r : Receiving) : TcpSock × Receiving :=
  let d := tcpDataDequeue sk (r.len - r.rlen)
  (d.1, { r with
    rlen := r.rlen + dequeued (r.len - r.rlen) 0 sk.receiveQueue, buf := r.buf ++ d.2 })

/-- The second step: the flags are tested, and the call returns or goes on to sleep. -/
def receiveTest (sk : TcpSock) (r : Receiving) : TcpSock × Bool :=
  if sk.flagPsh then ({ sk with flagPsh := false }, true)
  else (sk, sk.flagFin || r.rlen = r.len)

/-- `tcp_data_dequeue` stops at the end of the queue or at the end of the reader's buffer. -/
theorem dequeue_empty_or_full {n : UInt32} : ∀ {q : List Skb} {rlen : UInt32}, rlen ≤ n →
    (dequeue n rlen q).2.1 = [] ∨ dequeued n rlen q = n
  | [], rlen, _ => .inl rfl
  | skb :: q, rlen, hle => by
    unfold dequeue dequeued
    by_cases hlt : rlen < n
    · rw [if_pos hlt, if_pos hlt]
      by_cases hgt : rlen + skb.dlen > n
      · have hfull : rlen + (n - rlen) = n := by grind
        simp only [if_pos hgt]
        by_cases hz : skb.dlen - (n - rlen) = 0
        · rw [if_pos hz, if_pos hz, hfull]
          exact dequeue_empty_or_full (UInt32.le_refl _)
        · rw [if_neg hz, if_neg hz, hfull]
          exact .inr rfl
      · have hz : skb.dlen - skb.dlen = 0 := UInt32.sub_self _
        simp only [if_neg hgt, if_pos hz]
        exact dequeue_empty_or_full (UInt32.not_lt.mp hgt)
    · rw [if_neg hlt, if_neg hlt]
      exact .inr (UInt32.le_antisymm hle (UInt32.not_lt.mp hlt))

/-- One buffer does not take the reader beyond the end of its own. -/
theorem copied_add_le (userlen rlen dlen : UInt32) :
    rlen + (if rlen + dlen > userlen then userlen - rlen else dlen) ≤ userlen := by
  split_ifs with hgt
  · rw [show rlen + (userlen - rlen) = userlen by grind]
    exact UInt32.le_refl _
  · exact UInt32.not_lt.mp hgt

theorem dequeued_le {n : UInt32} : ∀ {q : List Skb} {rlen : UInt32}, rlen ≤ n →
    dequeued n rlen q ≤ n
  | [], rlen, hle => hle
  | skb :: q, rlen, hle => by
    have hcopied := copied_add_le n rlen skb.dlen
    unfold dequeued
    by_cases hlt : rlen < n
    · rw [if_pos hlt]
      generalize (if rlen + skb.dlen > n then n - rlen else skb.dlen) = d at hcopied
      simp only
      split_ifs with hz
      · exact dequeued_le hcopied
      · exact hcopied
    · rw [if_neg hlt]
      exact hle

/-- After the first step nothing is left in the queue, or the call has all that it asked for. -/
theorem receiveDequeue_empty_or_full (sk : TcpSock) (r : Receiving) :
    (receiveDequeue sk r).1.receiveQueue = [] ∨ (receiveDequeue sk r).2.rlen = r.len := by
  rcases dequeue_empty_or_full (q := sk.receiveQueue) (n := r.len - r.rlen) UInt32.zero_le
    with hempty | hfull
  · exact .inl hempty
  · refine .inr ?_
    show r.rlen + dequeued (r.len - r.rlen) 0 sk.receiveQueue = r.len
    rw [hfull]
    grind

/-- The test of a call that goes on to sleep leaves the sock as it is. -/
theorem receiveTest_of_sleep {sk : TcpSock} {r : Receiving} (h : (receiveTest sk r).2 = false) :
    (receiveTest sk r).1 = sk ∧ sk.flagFin = false ∧ r.rlen ≠ r.len := by
  unfold receiveTest at h ⊢
  by_cases hpsh : sk.flagPsh = true
  · rw [if_pos hpsh] at h
    exact absurd h (by simp)
  · rw [if_neg hpsh] at h ⊢
    simpa using h

/-- A call that goes on to sleep has found nothing more to wait for. -/
theorem not_ready_of_sleep {sk : TcpSock} {r : Receiving}
    (h : (receiveTest (receiveDequeue sk r).1 (receiveDequeue sk r).2).2 = false) :
    (receiveDequeue sk r).1.receiveQueue = [] ∧ (receiveDequeue sk r).1.flagFin = false := by
  obtain ⟨-, hfin, hlen⟩ := receiveTest_of_sleep h
  exact ⟨(receiveDequeue_empty_or_full sk r).resolve_right hlen, hfin⟩

/-! ### Buffers whose `dlen` is the length of their text -/

/-- A buffer with the text of an IP packet. -/
structure Sized (skb : Skb) : Prop where
  len : skb.payload.length = skb.dlen.toNat
  small : skb.dlen.toNat < 65536

/-- `rlen` counts the bytes that are copied. -/
theorem toNat_dequeued {n : UInt32} (hu : n.toNat < 2147483648) :
    ∀ {q : List Skb} {rlen : UInt32}, rlen ≤ n → (∀ skb ∈ q, Sized skb) →
      (dequeued n rlen q).toNat = rlen.toNat + (dequeue n rlen q).1.length
  | [], rlen, _, _ => rfl
  | skb :: q, rlen, hle, hq => by
    have hskb := hq skb (by simp)
    have hlen := hskb.len
    have hsmall := hskb.small
    have hq' : ∀ x ∈ q, Sized x := fun x hx => hq x (by simp [hx])
    have hnat := Word32.le_iff.mp hle
    unfold dequeue dequeued
    by_cases hlt : rlen < n
    · rw [if_pos hlt, if_pos hlt]
      have hcopied := Receiver.copied_le skb.dlen hlt (by omega)
      have hle' := copied_add_le n rlen skb.dlen
      generalize (if rlen + skb.dlen > n then n - rlen else skb.dlen) = d
        at hcopied hle'
      have hnext : (rlen + d).toNat = rlen.toNat + d.toNat := Word32.toNat_add_of_lt (by omega)
      have htake : (skb.payload.take d.toNat).length = d.toNat := by
        rw [List.length_take]
        omega
      simp only
      split_ifs with hz
      · rw [toNat_dequeued hu hle' hq', List.length_append, htake, hnext, Nat.add_assoc]
      · rw [htake, hnext]
    · rw [if_neg hlt, if_neg hlt]
      rfl

/-- A round of `tcp_receive` without anything between its two steps. -/
theorem tcpReceiveRound_steps {sk : TcpSock} (hq : ∀ skb ∈ sk.receiveQueue, Sized skb) {len rlen : ℕ}
    (hlen : len < 2147483648) (hle : rlen ≤ len) :
    tcpReceiveRound sk len rlen =
      (let d := receiveDequeue sk ⟨UInt32.ofNat len, UInt32.ofNat rlen, []⟩
       let t := receiveTest d.1 d.2
       if t.2 then (t.1, d.2.buf, .idle)
       else ({ t.1 with recvSleeping := true }, d.2.buf, .receiving len d.2.rlen.toNat)) := by
  have hlen' : (UInt32.ofNat len).toNat = len := by
    rw [UInt32.toNat_ofNat']
    omega
  have hrlen' : (UInt32.ofNat rlen).toNat = rlen := by
    rw [UInt32.toNat_ofNat']
    omega
  have hsub : UInt32.ofNat len - UInt32.ofNat rlen = UInt32.ofNat (len - rlen) := by
    rw [← UInt32.toNat_inj, Word32.toNat_sub, hlen', hrlen', UInt32.toNat_ofNat']
    omega
  have hu : (UInt32.ofNat (len - rlen)).toNat = len - rlen := by
    rw [UInt32.toNat_ofNat']
    omega
  have hcount := toNat_dequeued (q := sk.receiveQueue) (n := UInt32.ofNat (len - rlen))
    (by omega) UInt32.zero_le hq
  have hfull := dequeued_le (q := sk.receiveQueue) (n := UInt32.ofNat (len - rlen))
    UInt32.zero_le
  rw [Word32.le_iff, hu] at hfull
  have hgot : (receiveDequeue sk ⟨UInt32.ofNat len, UInt32.ofNat rlen, []⟩).2.buf =
      (tcpDataDequeue sk (UInt32.ofNat (len - rlen))).2 := by
    rw [← hsub]
    rfl
  have hsk : (receiveDequeue sk ⟨UInt32.ofNat len, UInt32.ofNat rlen, []⟩).1 =
      (tcpDataDequeue sk (UInt32.ofNat (len - rlen))).1 := by
    rw [← hsub]
    rfl
  have hrlen : (receiveDequeue sk ⟨UInt32.ofNat len, UInt32.ofNat rlen, []⟩).2.rlen.toNat =
      rlen + (tcpDataDequeue sk (UInt32.ofNat (len - rlen))).2.length := by
    show (UInt32.ofNat rlen + dequeued (UInt32.ofNat len - UInt32.ofNat rlen) 0 sk.receiveQueue).toNat
      = rlen + (dequeue (UInt32.ofNat (len - rlen)) 0 sk.receiveQueue).1.length
    rw [hsub, Word32.toNat_add_of_lt (by omega), hrlen', hcount, UInt32.toNat_zero, Nat.zero_add]
  have hlast : ((receiveDequeue sk ⟨UInt32.ofNat len, UInt32.ofNat rlen, []⟩).2.rlen =
      (receiveDequeue sk ⟨UInt32.ofNat len, UInt32.ofNat rlen, []⟩).2.len) ↔
      rlen + (tcpDataDequeue sk (UInt32.ofNat (len - rlen))).2.length = len := by
    rw [← UInt32.toNat_inj, hrlen]
    show _ = (UInt32.ofNat len).toNat ↔ _
    rw [hlen']
  unfold tcpReceiveRound receiveTest
  simp only [hgot, hsk, hrlen, hlast]
  by_cases hpsh : (tcpDataDequeue sk (UInt32.ofNat (len - rlen))).1.flagPsh = true
  · simp [hpsh]
  · by_cases hend : (tcpDataDequeue sk (UInt32.ofNat (len - rlen))).1.flagFin = true ∨
        rlen + (tcpDataDequeue sk (UInt32.ofNat (len - rlen))).2.length = len
    · simp [hpsh, hend]
    · simp [hpsh, hend]

end ToyIP.Tcp.Receive
