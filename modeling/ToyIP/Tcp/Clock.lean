import ToyIP.Lib.Owner
import ToyIP.Tcp.Life

/-! # TCP: the timers of a sock and the pointers to them

A sock has at most one pending timer that retransmits and at most one that sends a delayed
acknowledgement, and its fields `retransmit` and `delack` name them: `Clocked`. The lemmas follow
the functions of `tcp.c` and `tcp_output.c` that stop, release and add timers. An expired timer is
marked before its callback releases it, so what the callback finds is `expired`. -/

namespace ToyIP.Tcp.Clock

open ToyIP.Lib.Owner ToyIP.Tcp.Types ToyIP.Tcp.Timer ToyIP.Tcp.Output ToyIP.Tcp.Sock

/-- A timer that can still fire, with a callback in `K`. -/
def Pending (K : Handler → Prop) (t : Timer) : Prop := t.cancelled = false ∧ K t.handler

/-- The two retransmission handlers. -/
def IsRetransmission (h : Handler) : Prop := h = .tcpConnectRto ∨ h = .tcpRetransmissionTimeout

/-- The handler of a delayed acknowledgement. -/
def IsDelack (h : Handler) : Prop := h = .tcpSendDelack

/-- The timers of a sock and its pointers to them. -/
structure Timing where
  timers : List Timer
  retransmit : Option ℕ
  delack : Option ℕ

def clock (sk : TcpSock) : Timing := ⟨sk.timers, sk.retransmit, sk.delack⟩

theorem clock_tcpSendAck (sk : TcpSock) : clock (tcpSendAck sk) = clock sk := by
  rw [Sides.tcpSendAck_eq]
  rfl

/-- The pointers name the pending timers, one of each kind at most, and a pending timer has one
reference. -/
structure Clocked (c : Timing) : Prop where
  retransmit : Owns (Pending IsRetransmission) c.timers c.retransmit
  delack : Owns (Pending IsDelack) c.timers c.delack
  refcnt : ∀ t ∈ c.timers, t.cancelled = false → t.refcnt = 1
  linger : ∀ t ∈ c.timers, t.handler ≠ .tcpLinger

theorem clocked_nil : Clocked ⟨[], none, none⟩ :=
  ⟨owns_nil, owns_nil, by simp, by simp⟩

/-- A pending timer was there before another one was cancelled. -/
theorem mem_of_pending_modify {ts : List Timer} {i : ℕ} {f : Timer → Timer}
    (hc : ∀ t, (f t).cancelled = true) {K : Handler → Prop} {t : Timer} (ht : t ∈ ts.modify i f)
    (hp : Pending K t) : t ∈ ts := by
  obtain ⟨j, hj, rfl⟩ := List.mem_iff_getElem.mp ht
  rw [List.length_modify] at hj
  unfold Pending at hp
  rw [List.getElem_modify] at hp ⊢
  split_ifs at hp ⊢
  · rw [hc] at hp
    exact absurd hp.1 (by simp)
  · exact List.getElem_mem hj

/-- No timer is of both kinds. -/
theorem Clocked.ne {ts : List Timer} {p q : Option ℕ} (h : Clocked ⟨ts, p, q⟩) {i : ℕ}
    (hp : p = some i) : q ≠ some i := fun hq => by
  obtain ⟨t, ht, -, hr⟩ := (h.retransmit i).mp hp
  obtain ⟨u, hu, -, hd⟩ := (h.delack i).mp hq
  obtain rfl := Option.some.inj (ht.symm.trans hu)
  rw [hd] at hr
  rcases hr with hr | hr <;> simp at hr

/-- A timer is cancelled, with what else happens to it. -/
theorem Clocked.kill {ts : List Timer} {p q : Option ℕ} (h : Clocked ⟨ts, p, q⟩) (i : ℕ)
    {f : Timer → Timer} (hc : ∀ t, (f t).cancelled = true) (hh : ∀ t, (f t).handler = t.handler) :
    Clocked ⟨ts.modify i f, if p = some i then none else p, if q = some i then none else q⟩ := by
  have hmem : ∀ t ∈ ts.modify i f, ∃ u ∈ ts, t = u ∨ t = f u := by
    intro t ht
    obtain ⟨j, hj, rfl⟩ := List.mem_iff_getElem.mp ht
    rw [List.length_modify] at hj
    rw [List.getElem_modify]
    split_ifs
    · exact ⟨_, List.getElem_mem hj, Or.inr rfl⟩
    · exact ⟨_, List.getElem_mem hj, Or.inl rfl⟩
  refine ⟨h.retransmit.kill (fun t ht => ?_) i, h.delack.kill (fun t ht => ?_) i, ?_, ?_⟩
  · rw [Pending, hc] at ht
    exact absurd ht.1 (by simp)
  · rw [Pending, hc] at ht
    exact absurd ht.1 (by simp)
  · intro t ht hn
    obtain ⟨u, hu, rfl | rfl⟩ := hmem t ht
    · exact h.refcnt t hu hn
    · rw [hc] at hn
      exact absurd hn (by simp)
  · intro t ht
    obtain ⟨u, hu, rfl | rfl⟩ := hmem t ht
    · exact h.linger t hu
    · rw [hh]
      exact h.linger u hu

/-- A timer is added. -/
theorem Clocked.add {ts : List Timer} {p q : Option ℕ} (h : Clocked ⟨ts, p, q⟩) (expire : UInt32)
    {handler : Handler} (hl : handler ≠ .tcpLinger) {p' q' : Option ℕ}
    (hp : Owns (Pending IsRetransmission) (ts ++ [{ handler := handler, expire := expire }]) p')
    (hq : Owns (Pending IsDelack) (ts ++ [{ handler := handler, expire := expire }]) q') :
    Clocked ⟨ts ++ [{ handler := handler, expire := expire }], p', q'⟩ := by
  refine ⟨hp, hq, fun t ht hn => ?_, fun t ht => ?_⟩
  · rcases List.mem_append.mp ht with ht | ht
    · exact h.refcnt t ht hn
    · rw [List.mem_singleton.mp ht]
  · rcases List.mem_append.mp ht with ht | ht
    · exact h.linger t ht
    · rw [List.mem_singleton.mp ht]
      exact hl

/-! ### Stopping a timer -/

theorem clocked_tcpStopRetransmissionTimer {sk : TcpSock} (h : Clocked (clock sk)) :
    Clocked (clock (tcpStopRetransmissionTimer sk)) := by
  cases hp : sk.retransmit with
  | none =>
    have heq : clock (tcpStopRetransmissionTimer sk) = clock sk := by
      unfold tcpStopRetransmissionTimer timerCancel clock
      rw [hp]
    rw [heq]
    exact h
  | some i =>
    have hk := h.kill i (f := fun t => { t with refcnt := t.refcnt - 1, cancelled := true })
      (fun _ => rfl) (fun _ => rfl)
    rw [hp, if_pos rfl, if_neg (h.ne hp)] at hk
    unfold tcpStopRetransmissionTimer timerCancel clock
    rw [hp]
    exact hk

theorem clocked_tcpStopDelackTimer {sk : TcpSock} (h : Clocked (clock sk)) :
    Clocked (clock (tcpStopDelackTimer sk)) := by
  cases hq : sk.delack with
  | none =>
    have heq : clock (tcpStopDelackTimer sk) = clock sk := by
      unfold tcpStopDelackTimer timerCancel clock
      rw [hq]
    rw [heq]
    exact h
  | some i =>
    have hk := h.kill i (f := fun t => { t with refcnt := t.refcnt - 1, cancelled := true })
      (fun _ => rfl) (fun _ => rfl)
    rw [hq, if_pos rfl, if_neg fun hp => h.ne hp hq] at hk
    unfold tcpStopDelackTimer timerCancel clock
    rw [hq]
    exact hk

/-- A pending timer was there before the delayed acknowledgement was called off. -/
theorem mem_of_pending_stopDelack {sk : TcpSock} {K : Handler → Prop} {t : Timer}
    (ht : t ∈ (tcpStopDelackTimer sk).timers) (hp : Pending K t) : t ∈ sk.timers := by
  unfold tcpStopDelackTimer timerCancel at ht
  cases hq : sk.delack with
  | none => rw [hq] at ht; exact ht
  | some i =>
    rw [hq] at ht
    refine mem_of_pending_modify (f := fun t => { t with refcnt := t.refcnt - 1, cancelled := true })
      (fun _ => rfl) ht hp

theorem mem_of_pending_stopRetransmission {sk : TcpSock} {K : Handler → Prop} {t : Timer}
    (ht : t ∈ (tcpStopRetransmissionTimer sk).timers) (hp : Pending K t) : t ∈ sk.timers := by
  unfold tcpStopRetransmissionTimer timerCancel at ht
  cases hq : sk.retransmit with
  | none => rw [hq] at ht; exact ht
  | some i =>
    rw [hq] at ht
    refine mem_of_pending_modify (f := fun t => { t with refcnt := t.refcnt - 1, cancelled := true })
      (fun _ => rfl) ht hp

/-! ### Adding a timer -/

/-- The pending retransmission timer of a sock that had none. -/
theorem Clocked.addRetransmission {ts : List Timer} {q : Option ℕ} (h : Clocked ⟨ts, none, q⟩)
    (expire : UInt32) {handler : Handler} (hr : IsRetransmission handler) :
    Clocked ⟨ts ++ [{ handler := handler, expire := expire }], some ts.length, q⟩ := by
  refine h.add expire ?_ (h.retransmit.append_live ⟨rfl, hr⟩) (h.delack.append_dead ?_)
  · rcases hr with rfl | rfl <;> simp
  · rintro ⟨-, hd⟩
    rw [show handler = .tcpSendDelack from hd] at hr
    rcases hr with hr | hr <;> simp at hr

theorem Clocked.addDelack {ts : List Timer} {p : Option ℕ} (h : Clocked ⟨ts, p, none⟩)
    (expire : UInt32) :
    Clocked ⟨ts ++ [{ handler := .tcpSendDelack, expire := expire }], p, some ts.length⟩ := by
  refine h.add expire (by simp) (h.retransmit.append_dead ?_) (h.delack.append_live ⟨rfl, rfl⟩)
  rintro ⟨-, hr | hr⟩ <;> simp at hr

theorem isRetransmission_retransmissionTimer (sk : TcpSock) :
    IsRetransmission (retransmissionTimer sk).2 := by
  unfold retransmissionTimer
  split_ifs
  · exact Or.inl rfl
  · exact Or.inr rfl

/-- The timer is set anew where there is none. -/
theorem tcpResetRetransmissionTimer_none {sk : TcpSock} (hp : sk.retransmit = none) :
    tcpResetRetransmissionTimer sk = { sk with
      timers := sk.timers ++
        [{ handler := (retransmissionTimer sk).2, expire := (retransmissionTimer sk).1 }]
      retransmit := some sk.timers.length } := by
  have hrel : tcpReleaseRetransmissionTimer sk = sk := by
    unfold tcpReleaseRetransmissionTimer timerRelease
    rw [hp]
    cases sk
    simp_all
  unfold tcpResetRetransmissionTimer
  rw [hrel]
  rfl

theorem clocked_tcpResetRetransmissionTimer {sk : TcpSock} (h : Clocked (clock sk))
    (hp : sk.retransmit = none) : Clocked (clock (tcpResetRetransmissionTimer sk)) := by
  unfold clock at h
  rw [hp] at h
  rw [tcpResetRetransmissionTimer_none hp]
  exact h.addRetransmission _ (isRetransmission_retransmissionTimer sk)

/-! ### An expired timer -/

/-- The sock that the callback of its timer `i` finds. -/
def expired (sk : TcpSock) (i : ℕ) : TcpSock :=
  { sk with timers := sk.timers.modify i fun t => { t with cancelled := true } }

variable {sk sk' : TcpSock} {i : ℕ} {t : Timer}

/-- The callback of a retransmission timer drops the pointer. -/
theorem clocked_releaseRetransmission (h : Clocked (clock sk)) (hp : sk.retransmit = some i) :
    Clocked (clock (tcpReleaseRetransmissionTimer (expired sk i))) := by
  have hk := h.kill i
    (f := (fun t => { t with refcnt := t.refcnt - 1 }) ∘ fun t => { t with cancelled := true })
    (fun _ => rfl) (fun _ => rfl)
  rw [hp, if_pos rfl, if_neg (h.ne hp)] at hk
  have hp' : (expired sk i).retransmit = some i := hp
  unfold tcpReleaseRetransmissionTimer timerRelease clock
  rw [hp']
  simp only [expired, List.modify_modify_eq]
  exact hk

theorem clocked_releaseDelack (h : Clocked (clock sk)) (hq : sk.delack = some i) :
    Clocked (clock (tcpReleaseDelackTimer (expired sk i))) := by
  have hk := h.kill i
    (f := (fun t => { t with refcnt := t.refcnt - 1 }) ∘ fun t => { t with cancelled := true })
    (fun _ => rfl) (fun _ => rfl)
  rw [hq, if_pos rfl, if_neg fun hp => h.ne hp hq] at hk
  have hq' : (expired sk i).delack = some i := hq
  unfold tcpReleaseDelackTimer timerRelease clock
  rw [hq']
  simp only [expired, List.modify_modify_eq]
  exact hk

theorem mem_of_pending_releaseDelack (hq : sk.delack = some i) {K : Handler → Prop} {u : Timer}
    (hu : u ∈ (tcpReleaseDelackTimer (expired sk i)).timers) (hp : Pending K u) : u ∈ sk.timers := by
  have hq' : (expired sk i).delack = some i := hq
  unfold tcpReleaseDelackTimer timerRelease at hu
  rw [hq'] at hu
  simp only [expired, List.modify_modify_eq] at hu
  exact mem_of_pending_modify (fun _ => rfl) hu hp

/-- What can fire: the timer that `retransmit` names, or the one that `delack` names. -/
theorem Clocked.fireTimer (h : Clocked (clock sk)) (hfire : fireTimer sk i = some sk') :
    (sk.retransmit = some i ∧ (∃ t, sk.timers[i]? = some t ∧ t.handler = .tcpConnectRto) ∧
        sk' = tcpConnectRto (expired sk i)) ∨
      (sk.retransmit = some i ∧ sk' = tcpRetransmissionTimeout (expired sk i)) ∨
      (sk.delack = some i ∧ sk' = tcpSendDelack (expired sk i)) := by
  obtain ⟨t, ht, hc, rfl⟩ := fireTimer_runs hfire
  cases hh : t.handler with
  | tcpConnectRto =>
    exact Or.inl ⟨(h.retransmit i).mpr ⟨t, ht, hc, Or.inl hh⟩, ⟨t, ht, hh⟩, rfl⟩
  | tcpRetransmissionTimeout =>
    exact Or.inr (Or.inl ⟨(h.retransmit i).mpr ⟨t, ht, hc, Or.inr hh⟩, rfl⟩)
  | tcpSendDelack => exact Or.inr (Or.inr ⟨(h.delack i).mpr ⟨t, ht, hc, hh⟩, rfl⟩)
  | tcpLinger => exact absurd hh (h.linger t (List.mem_of_getElem? ht))

end ToyIP.Tcp.Clock
