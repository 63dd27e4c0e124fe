import ToyIP.Tcp.Phases

/-! # TCP: the send numbers of a sock

Against any segments, `snd_nxt` counts what the sock was given to send, and `snd_una` only moves
forward up to it. Both are read as offsets from `isn`, so the numbers may wrap; the comparisons of
the code then accept no acknowledgement at all, or the right ones. -/

namespace ToyIP.Tcp.Numbers

open ToyIP.Lib ToyIP.Lib.Run ToyIP.Tcp.Types ToyIP.Tcp.Input ToyIP.Tcp.Sock ToyIP.Tcp.Sides
  ToyIP.Tcp.Effects ToyIP.Tcp.Network ToyIP.Tcp.Life ToyIP.Tcp.RetransmitTimer ToyIP.Tcp.History
  ToyIP.Tcp.Phases

/-- The sequence numbers used up: one for the SYN, one for every byte that `tcp_write` accepted, and
one for the FIN if it was queued. -/
def sent (p : Past) : ℕ := 1 + p.bytes + if p.queued.any (·.th.fin) then 1 else 0

/-- The sequence numbers that were acknowledged. -/
def acked (isn : UInt32) (p : Past) : ℕ := (p.sk.sndUna - isn).toNat

/-- `snd_nxt` and `snd_una` as offsets from `isn`. -/
structure InSequence (isn : UInt32) (p : Past) : Prop where
  nxt : p.sk.sndNxt = isn + UInt32.ofNat (sent p)
  una : p.sk.sndUna = isn + UInt32.ofNat (acked isn p)
  le : acked isn p ≤ sent p

/-- The invariant of a past, as long as the numbers have not gone round. -/
structure Counted (isn : UInt32) (p : Past) : Prop where
  phased : Phased p
  start : p.sk.isn = isn
  nxt : p.sk.sndNxt = isn + UInt32.ofNat (sent p)
  le : p.sk.sndUna - isn ≤ p.sk.sndNxt - isn

variable {isn : UInt32} {p q : Past} {e : LifeEvent}

theorem add_sub_self (isn a : UInt32) : isn + a - isn = a := by grind

theorem Counted.acked_le (h : Counted isn p) (hfew : sent p < 4294967296) :
    acked isn p ≤ sent p := by
  have hle := h.le
  rw [h.nxt, add_sub_self, Word32.le_iff, Word32.toNat_ofNat hfew] at hle
  exact hle

theorem Counted.inSequence (h : Counted isn p) (hfew : sent p < 4294967296) : InSequence isn p where
  nxt := h.nxt
  una := by
    unfold acked
    rw [UInt32.ofNat_toNat]
    grind
  le := h.acked_le hfew

/-! ### One event -/

theorem sent_le (hstep : pastStep p e = some q) : sent p ≤ sent q := by
  obtain ⟨-, hbytes, hqueued, -⟩ := pastStep_some hstep
  have hany : p.queued.any (·.th.fin) = true → q.queued.any (·.th.fin) = true := fun hp => by
    rw [hqueued, List.any_append, hp, Bool.true_or]
  unfold sent
  split_ifs with hp hq
  · omega
  · exact absurd (hany hp) hq
  · omega
  · omega

theorem any_fin_eq_false {l : List Skb} (h : ∀ skb ∈ l, skb.th.fin = false) :
    l.any (·.th.fin) = false := by
  rw [List.any_eq_false]
  exact fun skb hskb => Bool.eq_false_iff.mp (h skb hskb)

/-- What one event preserves. -/
theorem Counted.step (h : Counted isn p) (hstep : pastStep p e = some q)
    (hfew : sent q < 4294967296) : Counted isn q ∧ acked isn p ≤ acked isn q := by
  have hphased := (h.phased.step hstep).1
  obtain ⟨hlife, hbytes, hqueued, -⟩ := pastStep_some hstep
  obtain ⟨hf, -⟩ := lifeStep_some hlife
  obtain ⟨harm, hbegun⟩ : Armed p.sk ∧ Begun p.sk.state := by
    refine h.phased.alive.resolve_left ?_
    rw [hf]
    simp
  -- a later `snd_nxt` is farther from `isn`, since the numbers do not go round
  have hfar : ∀ n, sent q = sent p + n → q.sk.sndNxt = p.sk.sndNxt + UInt32.ofNat n →
      q.sk.sndUna = p.sk.sndUna → q.sk.isn = p.sk.isn →
      Counted isn q ∧ acked isn p ≤ acked isn q := by
    intro n hn hnxt huna hisn
    have hnxt' : q.sk.sndNxt = isn + UInt32.ofNat (sent q) := by
      rw [hnxt, h.nxt, hn, UInt32.ofNat_add, UInt32.add_assoc]
    have hacked := h.acked_le (by omega)
    refine ⟨⟨hphased, hisn.trans h.start, hnxt', ?_⟩, ?_⟩
    · rw [hnxt', huna, add_sub_self, Word32.le_iff, Word32.toNat_ofNat hfew]
      unfold acked at hacked
      omega
    · unfold acked
      rw [huna]
  rcases queues_of_lifeStep harm hbegun hlife with ⟨hk, hacc⟩ | ⟨hst, hd⟩ | ⟨hst, hd, hacc⟩
  · have hsent : sent q = sent p := by
      unfold sent
      rw [hbytes, hacc, hqueued, hk.appended, List.append_nil, Nat.add_zero]
    have huna := hk.una
    rw [h.start] at huna
    obtain ⟨hfwd, hle⟩ := huna h.le
    refine ⟨⟨hphased, hk.isn.trans h.start, ?_, ?_⟩, ?_⟩
    · rw [hk.nxt, hsent, h.nxt]
    · rw [hk.nxt]
      exact hle
    · exact Word32.le_iff.mp hfwd
  · have hout := not_finOut_of_data hst
    obtain ⟨data, hdata, hfin⟩ := hd.queue
    have happ := appended_eq hdata
    refine hfar (accepted p.sk e) ?_ hd.nxt hd.una hd.isn
    unfold sent
    rw [hbytes, hqueued, List.any_append, any_fin_eq_false (h.phased.no_fin hout).2, happ,
      any_fin_eq_false hfin]
    simp only [Bool.or_false, Bool.false_eq_true, if_false]
    omega
  · have hout := not_finOut_of_fin hst
    obtain ⟨fin, hfin, hwq⟩ := hd.queue
    have happ := appended_eq hwq
    refine hfar 1 ?_ hd.nxt hd.una hd.isn
    unfold sent
    rw [hbytes, hqueued, List.any_append, any_fin_eq_false (h.phased.no_fin hout).2, happ, hacc]
    simp only [List.any_cons, hfin, Bool.true_or, Bool.or_true, if_true, Bool.false_eq_true,
      if_false]
    omega

/-! ### Runs -/

theorem counted_opening {sk : TcpSock} (h : Opened isn sk) : Counted isn (opening sk) := by
  have hsent : sent (opening sk) = 1 := by
    unfold sent opening
    simp only
    rw [any_fin_eq_false h.no_fin.1]
    rfl
  refine ⟨phased_opening h, ?_, ?_, ?_⟩
  · cases h with
    | connected saddr daddr sport dport => rfl
    | child listener seg sk h => exact (fresh_of_tcpHandleListen h).isn
  · rw [hsent]
    cases h with
    | connected saddr daddr sport dport =>
      show isn + 0 + 1 = isn + 1
      rw [UInt32.add_zero]
    | child listener seg sk h => exact (fresh_of_tcpHandleListen h).nxt
  · have huna : (opening sk).sk.sndUna = isn := by
      cases h with
      | connected saddr daddr sport dport => rfl
      | child listener seg sk h => exact (fresh_of_tcpHandleListen h).una
    rw [huna, UInt32.sub_self, Word32.le_iff]
    exact Nat.zero_le _

theorem Counted.run {es : List LifeEvent} (h : Counted isn p)
    (hrun : run pastStep p es = some q) (hfew : sent q < 4294967296) :
    Counted isn q ∧ acked isn p ≤ acked isn q := by
  refine run_inv (C := fun _ _ => True)
    (P := fun q => sent q < 4294967296 → Counted isn q ∧ acked isn p ≤ acked isn q)
    (fun s e s' hs _ hstep hfew => ?_) (fun _ => ⟨h, Nat.le_refl _⟩)
    (Along.of_forall fun _ _ _ => trivial) hrun hfew
  obtain ⟨hcount, hle⟩ := hs (Nat.lt_of_le_of_lt (sent_le hstep) hfew)
  obtain ⟨hcount', hle'⟩ := hcount.step hstep hfew
  exact ⟨hcount', hle.trans hle'⟩

theorem sent_le_run : ∀ {es : List LifeEvent} {p : Past}, Run.run pastStep p es = some q →
    sent p ≤ sent q := by
  intro es
  induction es with
  | nil =>
    intro p hrun
    rw [run_nil, Option.some.injEq] at hrun
    rw [hrun]
  | cons e es ih =>
    intro p hrun
    obtain ⟨p', hstep, hrun'⟩ := run_cons.mp hrun
    exact (sent_le hstep).trans (ih hrun')

/-- **The send numbers of a sock, in any two states of a run.** -/
theorem inSequence_life {sk : TcpSock} {es₁ es₂ : List LifeEvent} (hopen : Opened isn sk)
    (hp : run pastStep (opening sk) es₁ = some p) (hq : run pastStep p es₂ = some q)
    (hfew : sent q < 4294967296) :
    InSequence isn p ∧ InSequence isn q ∧ acked isn p ≤ acked isn q := by
  have hfew' := Nat.lt_of_le_of_lt (sent_le_run hq) hfew
  have hcount := ((counted_opening hopen).run hp hfew').1
  obtain ⟨hcount', hle⟩ := hcount.run hq hfew
  exact ⟨hcount.inSequence hfew', hcount'.inSequence hfew, hle⟩

/-- The numbers of a client wrap: its SYN has the number `2^32 - 2`. -/
theorem inSequence_life_wrapped : ∃ p q,
    Opened 4294967294 (tcpV4Connect tcpAllocSock 1 2 3 4 4294967294) ∧
    run pastStep (opening (tcpV4Connect tcpAllocSock 1 2 3 4 4294967294))
      [.sock (.segment { th := { seq := 500, ackSeq := 4294967295, syn := true, ack := true } }),
        .sock (.write [1, 2, 3])] = some p ∧
    run pastStep p [.sock (.segment { th := { seq := 501, ackSeq := 2, ack := true } }),
        .sock .close] = some q ∧ sent q < 4294967296 ∧
    q.sk.sndNxt = 3 ∧
    InSequence 4294967294 p ∧ InSequence 4294967294 q ∧
      acked 4294967294 p ≤ acked 4294967294 q := by
  have hend : (run pastStep (opening (tcpV4Connect tcpAllocSock 1 2 3 4 4294967294))
      ([.sock (.segment { th := { seq := 500, ackSeq := 4294967295, syn := true, ack := true } }),
        .sock (.write [1, 2, 3])] ++
      [.sock (.segment { th := { seq := 501, ackSeq := 2, ack := true } }), .sock .close])).map
        (fun q => (q.sk.sndNxt, sent q)) = some (3, 5) := by decide
  obtain ⟨q, hrun, hend⟩ := Option.map_eq_some_iff.mp hend
  obtain ⟨p, hp, hq⟩ := run_append.mp hrun
  obtain ⟨hnxt, hsent⟩ := Prod.mk.inj hend
  have hfew : sent q < 4294967296 := by
    rw [hsent]
    decide
  exact ⟨p, q, .connected 1 2 3 4, hp, hq, hfew, hnxt, inSequence_life (.connected 1 2 3 4) hp hq hfew⟩

end ToyIP.Tcp.Numbers
