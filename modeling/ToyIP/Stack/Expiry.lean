import ToyIP.Lib.Word32
import ToyIP.Stack.Timers

/-! # When timers fire

`timer_add` computes `tick + expire`, and `timers_tick` compares the result with `tick` as a plain
unsigned number; both wrap at `2 ^ 32`. `keepsTime_iff` says for which ticks and delays a timer
fires when it should. Where it does, the first tick behind the deadline is tick `d + 1` after
`timer_add`: `Aging` follows a timer that is not cancelled from tick to tick. -/

namespace ToyIP.Stack.Expiry

open ToyIP.Lib ToyIP.Lib.Run ToyIP.Lib.CircularList ToyIP.Stack.Timers

/-! ### The property and its condition -/

/-- How often `timers_start` has counted up `tick`. -/
def ticks (es : List Event) : ℕ := es.count .tick

/-- `n` ticks after it was added with the delay `d`, the handler of the timer has run neither early
nor late. -/
def Punctual (d : UInt32) (t n : ℕ) (notes : List Note) : Prop :=
  (n ≤ d.toNat → .fired t ∉ notes) ∧ (d.toNat + 1 < n → .fired t ∈ notes)

/-- A timer that is added now with the delay `d` is punctual at all times, unless it is cancelled.
-/
def KeepsTime (s : State) (d : UInt32) : Prop :=
  ∀ s₁ fs s', step s (.add d) = some s₁ → Along step Allowed s₁ fs →
    .cancel (some s.fresh) ∉ fs → run step s₁ fs = some s' → Punctual d s.fresh (ticks fs) s'.notes

/-- The walk under way comes to a timer that is added now. -/
def Reached (s : State) : Prop := ∃ t u b, s.walk = some ⟨.timer t, some (.timer u), b⟩

/-- The deadline does not wrap and is not the last number, or `tick` is about to wrap itself. -/
def InTime (s : State) (d : UInt32) : Prop :=
  s.tick.toNat + d.toNat < 4294967295 ∨ s.tick.toNat = 4294967295 ∧ 0 < d.toNat ∧ ¬ Reached s

/-- The deadline is behind, `k` ticks after the tick `start`. -/
def Ripe (start d : UInt32) (k : ℕ) : Prop := start + d < start + UInt32.ofNat k

/-! ### The notes of the walk -/

/-- The notes since `timers_tick` was entered last. -/
def thisWalk (notes : List Note) : List Note := notes.takeWhile (· ≠ .began)

theorem thisWalk_append {ns : List Note} (h : .began ∉ ns) (notes : List Note) :
    thisWalk (ns ++ notes) = ns ++ thisWalk notes :=
  List.takeWhile_append_of_pos fun m hm => decide_eq_true fun he : m = .began => h (he ▸ hm)

theorem thisWalk_split {during before : List Note} (h : .began ∉ during) :
    thisWalk (during ++ .began :: before) = during := by
  rw [thisWalk_append h, thisWalk, List.takeWhile_cons_of_neg (by simp), List.append_nil]

/-- A note behind the start of the walk belongs to it. -/
theorem split_cons {n : Note} {notes during before : List Note} (hn : n ≠ .began)
    (h : n :: notes = during ++ .began :: before) (hd : .began ∉ during) :
    ∃ during', notes = during' ++ .began :: before ∧ .began ∉ during' := by
  cases during with
  | nil => exact absurd (List.cons.inj h).1 hn
  | cons m during =>
    obtain ⟨-, h⟩ := List.cons.inj h
    exact ⟨during, h, fun hin => hd (List.mem_cons_of_mem _ hin)⟩

theorem split_append {ns notes during before : List Note} (hn : .began ∉ ns)
    (h : ns ++ notes = during ++ .began :: before) (hd : .began ∉ during) :
    ∃ during', notes = during' ++ .began :: before ∧ .began ∉ during' := by
  induction ns generalizing during with
  | nil => exact ⟨during, h, hd⟩
  | cons n ns ih =>
    obtain ⟨during', h', hd'⟩ := split_cons (fun he => hn (he ▸ List.mem_cons_self)) h hd
    exact ih (fun hin => hn (List.mem_cons_of_mem _ hin)) h' hd'

/-! ### One timer from tick to tick -/

/-- The walk does not come to `t` any more. -/
def Passing (t : ℕ) (s : State) : Prop :=
  ∀ w, s.walk = some w → w.pos = .timers ∨ ∃ u, u ≠ t ∧ w.pos = .timer u ∧ w.p = some .timers

/-- The timer `t` was added at the tick `start` with the delay `d` and has not been cancelled, `n`
ticks have passed since, and `reached` says whether the walk of that time came to it. It fires in
the first walk that finds the deadline behind. -/
structure Aging (start d : UInt32) (reached : Prop) (t n : ℕ) (s : State) : Prop where
  tick : s.tick = start + UInt32.ofNat n
  added : .added t ∈ s.notes
  uncancelled : .cancelled t ∉ s.notes
  waits : .fired t ∉ s.notes →
    ∃ x, s.timers t = some x ∧ x.expires = start + d ∧ x.cancelled = false
  early : .fired t ∈ s.notes → ∃ k ≤ n, Ripe start d k ∧ (k = 0 → reached)
  passed : n = 0 → ¬ reached → .fired t ∉ s.notes ∧ Passing t s
  late : ∀ k, 1 ≤ k → k < n → Ripe start d k → .fired t ∈ s.notes
  now : Ripe start d n → .visited t ∈ thisWalk s.notes → .fired t ∈ s.notes
  done : 1 ≤ n → Ripe start d n → s.walk = none → .fired t ∈ s.notes
  before : 1 ≤ n → ∀ during before, s.notes = during ++ .began :: before → .began ∉ during →
    .added t ∈ before

/-- A step that is about other timers. -/
structure Leaves (t : ℕ) (s s' : State) : Prop where
  tick : s'.tick = s.tick
  notes : ∃ ns, s'.notes = ns ++ s.notes ∧
    ∀ m ∈ ns, m ≠ .began ∧ m ≠ .visited t ∧ m ≠ .fired t ∧ m ≠ .cancelled t
  timer : ∀ x, s.timers t = some x → x.cancelled = false →
    ∃ x', s'.timers t = some x' ∧ x'.expires = x.expires ∧ x'.cancelled = false

variable {start d : UInt32} {reached : Prop} {t n : ℕ} {s s' : State} {l : List ℕ}

theorem Leaves.refl (t : ℕ) (s : State) : Leaves t s s :=
  ⟨rfl, ⟨[], rfl, by simp⟩, fun x hx hc => ⟨x, hx, rfl, hc⟩⟩

theorem Aging.leaves (h : Aging start d reached t n s) (hl : Leaves t s s')
    (hpassing : Passing t s → Passing t s')
    (hdone : 1 ≤ n → Ripe start d n → s'.walk = none → .fired t ∈ s'.notes) :
    Aging start d reached t n s' := by
  obtain ⟨ns, hnotes, hns⟩ := hl.notes
  have hfired : .fired t ∈ s'.notes ↔ .fired t ∈ s.notes := by
    rw [hnotes, List.mem_append]
    exact or_iff_right fun hin => (hns _ hin).2.2.1 rfl
  have hbegan : .began ∉ ns := fun hin => (hns _ hin).1 rfl
  have hwalk : .visited t ∈ thisWalk s'.notes ↔ .visited t ∈ thisWalk s.notes := by
    rw [hnotes, thisWalk_append hbegan, List.mem_append]
    exact or_iff_right fun hin => (hns _ hin).2.1 rfl
  refine ⟨hl.tick.trans h.tick, ?_, fun hin => ?_, fun hno => ?_, fun hf => ?_, fun hn hr => ?_,
    fun k h1 hk hr => ?_, fun hr hv => ?_, hdone, fun hn during before heq hd => ?_⟩
  · rw [hnotes]
    exact List.mem_append_right _ h.added
  · rw [hnotes] at hin
    rcases List.mem_append.mp hin with hin | hin
    · exact (hns _ hin).2.2.2 rfl
    · exact h.uncancelled hin
  · obtain ⟨x, hx, hexp, hc⟩ := h.waits fun hf => hno (hfired.mpr hf)
    obtain ⟨x', hx', hexp', hc'⟩ := hl.timer x hx hc
    exact ⟨x', hx', hexp'.trans hexp, hc'⟩
  · exact h.early (hfired.mp hf)
  · obtain ⟨hno, hp⟩ := h.passed hn hr
    exact ⟨fun hf => hno (hfired.mp hf), hpassing hp⟩
  · exact hfired.mpr (h.late k h1 hk hr)
  · exact hfired.mpr (h.now hr (hwalk.mp hv))
  · rw [hnotes] at heq
    obtain ⟨during', heq', hd'⟩ := split_append hbegan heq hd
    exact h.before hn during' before heq' hd'

/-- A timer is freed only when it is cancelled or has fired. -/
theorem Aging.mem (h : Aging start d reached t n s) (hi : Inv s l) (hno : .fired t ∉ s.notes) :
    t ∈ l := by
  refine (hi.live t).mpr ⟨h.added, fun hfreed => ?_⟩
  obtain ⟨after, before, heq⟩ := List.append_of_mem hfreed
  have hin : ∀ m ∈ before, m ∈ s.notes := fun m hm => by
    rw [heq]
    exact List.mem_append_right _ (List.mem_cons_of_mem _ hm)
  rcases (hi.order after _ before heq).2.1 with hover | hover
  · exact h.uncancelled (hin _ hover)
  · exact hno (hin _ hover)

/-! ### The events -/

theorem leaves_add {e : UInt32} (ht : t ≠ s.fresh) (h : timerAdd e s = some s') :
    Leaves t s s' ∧ s'.walk = s.walk := by
  obtain ⟨links, -, h⟩ := Option.bind_eq_some_iff.mp h
  obtain rfl := (Option.some.inj h).symm
  refine ⟨⟨rfl, ⟨[.added s.fresh], rfl, by simp⟩, fun x hx hc => ⟨x, ?_, rfl, hc⟩⟩, rfl⟩
  show (if t = s.fresh then _ else if t = s.fresh then _ else s.timers t) = _
  rw [if_neg ht, if_neg ht, hx]

theorem leaves_cancel {u : Option ℕ} (hu : u ≠ some t) (h : timerCancel u s = some s') :
    Leaves t s s' ∧ s'.walk = s.walk := by
  cases u with
  | none =>
    obtain rfl := Option.some.inj h
    exact ⟨.refl t s, rfl⟩
  | some u =>
    have hut : u ≠ t := fun he => hu (congrArg some he)
    obtain ⟨y, -, h⟩ := Option.bind_eq_some_iff.mp h
    obtain rfl := (Option.some.inj h).symm
    refine ⟨⟨rfl, ⟨[.cancelled u], rfl, by simp [hut]⟩, fun x hx hc => ⟨x, ?_, rfl, hc⟩⟩, rfl⟩
    exact (if_neg hut.symm).trans hx

theorem leaves_release {u : Option ℕ} (h : timerRelease u s = some s') :
    Leaves t s s' ∧ s'.walk = s.walk := by
  cases u with
  | none =>
    obtain rfl := Option.some.inj h
    exact ⟨.refl t s, rfl⟩
  | some u =>
    obtain ⟨y, hy, h⟩ := Option.bind_eq_some_iff.mp h
    obtain rfl := (Option.some.inj h).symm
    refine ⟨⟨rfl, ⟨[.released u], rfl, by simp⟩, fun x hx hc => ?_⟩, rfl⟩
    by_cases hut : t = u
    · subst hut
      obtain rfl := Option.some.inj (hy.symm.trans hx)
      exact ⟨_, if_pos rfl, rfl, hc⟩
    · exact ⟨x, (if_neg hut).trans hx, rfl, hc⟩

theorem leaves_visit {u : ℕ} {p : Option Node} (hu : u ≠ t) (h : tickVisit u p s = some s') :
    Leaves t s s' ∧ s'.walk = some ⟨.timer u, p, true⟩ := by
  obtain ⟨y, -, h⟩ := Option.bind_eq_some_iff.mp h
  simp only at h
  split_ifs at h <;> obtain rfl := (Option.some.inj h).symm
  · refine ⟨⟨rfl, ⟨[.fired u, .visited u], rfl, by simp [hu]⟩, fun x hx hc => ⟨x, ?_, rfl, hc⟩⟩, rfl⟩
    exact (if_neg hu.symm).trans hx
  · exact ⟨⟨rfl, ⟨[.visited u], rfl, by simp [hu]⟩, fun x hx hc => ⟨x, hx, rfl, hc⟩⟩, rfl⟩

/-- A timer that is not cancelled is not freed. -/
theorem leaves_free {busy : Bool} {u : ℕ}
    (hu : ∀ x, s.timers t = some x → x.cancelled = false → u ≠ t)
    (h : timerFree busy u s = some s') : Leaves t s s' := by
  unfold timerFree at h
  split_ifs at h
  · obtain rfl := (Option.some.inj h).symm
    exact ⟨rfl, ⟨[.busy u], rfl, by simp⟩, fun x hx hc => ⟨x, hx, rfl, hc⟩⟩
  · obtain ⟨links, -, h⟩ := Option.bind_eq_some_iff.mp h
    obtain rfl := (Option.some.inj h).symm
    exact ⟨rfl, ⟨[.freed u], rfl, by simp⟩,
      fun x hx hc => ⟨x, (if_neg (hu x hx hc).symm).trans hx, rfl, hc⟩⟩

theorem leaves_next {busy : Bool} {u : ℕ} {p : Option Node} (h : tickNext busy u p s = some s') :
    Leaves t s s' ∧ ∃ w, s'.walk = some w ∧ p = some w.pos := by
  obtain ⟨y, hy, h⟩ := Option.bind_eq_some_iff.mp h
  obtain ⟨s₁, hs₁, h⟩ := Option.bind_eq_some_iff.mp h
  obtain ⟨w, hw, h⟩ := Option.bind_eq_some_iff.mp h
  obtain rfl := (Option.some.inj h).symm
  have hfree : Leaves t s s₁ := by
    split_ifs at hs₁ with hcond
    · refine leaves_free (fun x hx hc hut => ?_) hs₁
      rw [← hut, hy, Option.some.injEq] at hx
      rw [hx, hc] at hcond
      exact Bool.false_ne_true hcond.1
    · obtain rfl := Option.some.inj hs₁
      exact .refl t s
  refine ⟨⟨hfree.tick, hfree.notes, hfree.timer⟩, w, rfl, ?_⟩
  obtain ⟨pos, rfl, hpos⟩ := Option.bind_eq_some_iff.mp hw
  obtain ⟨q, -, hpos⟩ := Option.bind_eq_some_iff.mp hpos
  rw [← Option.some.inj hpos]

/-- One tick more. The walk before has ended, so what was due then has been done. -/
theorem Aging.tickBegin (h : Aging start d reached t n s) (hw : s.walk = none)
    (hs : Timers.tickBegin s = some s') : Aging start d reached t (n + 1) s' := by
  obtain ⟨q, -, hs⟩ := Option.bind_eq_some_iff.mp hs
  obtain ⟨w, -, hs⟩ := Option.bind_eq_some_iff.mp hs
  obtain rfl := (Option.some.inj hs).symm
  have hmem : ∀ {m : Note}, m ≠ .began → (m ∈ Note.began :: s.notes ↔ m ∈ s.notes) := fun hm =>
    ⟨fun hin => (List.mem_cons.mp hin).resolve_left hm, List.mem_cons_of_mem _⟩
  refine ⟨?_, (hmem (by simp)).mpr h.added, fun hc => h.uncancelled ((hmem (by simp)).mp hc),
    fun hno => h.waits fun hf => hno ((hmem (by simp)).mpr hf), fun hf => ?_,
    fun h0 => absurd h0 (by omega), fun k h1 hk hr => (hmem (by simp)).mpr ?_, fun _ hv => ?_,
    fun _ _ hnone => absurd hnone (by simp [State.note]), fun _ during before heq hd => ?_⟩
  · show s.tick + 1 = start + UInt32.ofNat (n + 1)
    rw [h.tick, UInt32.ofNat_add, UInt32.add_assoc]
    rfl
  · obtain ⟨k, hk, hr, hreach⟩ := h.early ((hmem (by simp)).mp hf)
    exact ⟨k, by omega, hr, hreach⟩
  · by_cases hkn : k = n
    · exact h.done (hkn ▸ h1) (hkn ▸ hr) hw
    · exact h.late k h1 (by omega) hr
  · simp [thisWalk, State.note] at hv
  · cases during with
    | nil => exact (List.cons.inj heq).2 ▸ h.added
    | cons m during => exact absurd ((List.cons.inj heq).1 ▸ List.mem_cons_self) hd

/-- The visit of the timer itself. -/
theorem Aging.visit {p : Option Node} (h : Aging start d reached t n s)
    (hw : s.walk = some ⟨.timer t, p, false⟩) (hs : tickVisit t p s = some s') :
    Aging start d reached t n s' := by
  obtain ⟨x, hx, hs⟩ := Option.bind_eq_some_iff.mp hs
  have hreach : n = 0 → reached := fun h0 => by
    by_contra hno
    rcases (h.passed h0 hno).2 _ hw with hpos | ⟨u, hu, hpos, -⟩
    · exact absurd hpos (by simp)
    · exact hu (Node.timer.inj hpos).symm
  have hripe : .fired t ∉ s.notes → (x.cancelled = false ∧ x.expires < s.tick ↔ Ripe start d n) :=
    fun hno => by
      obtain ⟨x', hx', hexp, hc⟩ := h.waits hno
      obtain rfl := Option.some.inj (hx.symm.trans hx')
      rw [hexp, h.tick]
      exact and_iff_right hc
  have hbefore : ∀ ns, .began ∉ ns → 1 ≤ n → ∀ during before,
      ns ++ s.notes = during ++ .began :: before → .began ∉ during → .added t ∈ before :=
    fun ns hns hn during before heq hd => by
      obtain ⟨during', heq', hd'⟩ := split_append hns heq hd
      exact h.before hn during' before heq' hd'
  simp only at hs
  split_ifs at hs with hfire <;> obtain rfl := (Option.some.inj hs).symm
  · have hmem : .fired t ∈ Note.fired t :: .visited t :: s.notes := List.mem_cons_self
    refine ⟨h.tick, ?_, ?_, fun hno => absurd hmem hno, fun _ => ?_,
      fun h0 hno => absurd (hreach h0) hno, fun _ _ _ _ => hmem, fun _ _ => hmem,
      fun _ _ hnone => absurd hnone (by simp [State.note, State.setTimer]),
      hbefore [.fired t, .visited t] (by simp)⟩
    · simpa [State.note, State.setTimer] using h.added
    · simpa [State.note, State.setTimer] using h.uncancelled
    · by_cases hold : .fired t ∈ s.notes
      · exact h.early hold
      · exact ⟨n, le_rfl, (hripe hold).mp hfire, hreach⟩
  · have hmem : .fired t ∈ Note.visited t :: s.notes ↔ .fired t ∈ s.notes := by simp
    refine ⟨h.tick, ?_, ?_, fun hno => h.waits fun hf => hno (hmem.mpr hf),
      fun hf => h.early (hmem.mp hf), fun h0 hno => absurd (hreach h0) hno,
      fun k h1 hk hr => hmem.mpr (h.late k h1 hk hr), fun hr _ => hmem.mpr ?_,
      fun _ _ hnone => absurd hnone (by simp [State.note]), hbefore [.visited t] (by simp)⟩
    · simpa [State.note] using h.added
    · simpa [State.note] using h.uncancelled
    · by_contra hno
      exact hfire ((hripe hno).mpr hr)

/-- The walk ends behind all timers that were in the list at its start. -/
theorem Aging.stop {p : Option Node} {b : Bool} (h : Aging start d reached t n s) (hi : Inv s l)
    (hw : s.walk = some ⟨.timers, p, b⟩) :
    Aging start d reached t n ({ s with walk := none }.note .ended) := by
  refine h.leaves ⟨rfl, ⟨[.ended], rfl, by simp⟩, fun x hx hc => ⟨x, hx, rfl, hc⟩⟩
    (fun _ w hnone => by simp [State.note] at hnone) fun hn hr _ => ?_
  by_contra hno
  have hfired : .fired t ∉ s.notes := fun hf => hno (List.mem_cons_of_mem _ hf)
  obtain ⟨during, before, passed, todo, later, hwalk⟩ := hi.walk _ hw
  have hnil : todo = [] := by
    have hpos := hwalk.pos
    cases todo with
    | nil => rfl
    | cons u rest => simp at hpos
  have hlive := (hi.live t).mp (h.mem hi hfired)
  have hbefore : Live t before := by
    refine ⟨h.before hn during before hwalk.split hwalk.latest, fun hf => hlive.2 ?_⟩
    rw [hwalk.split]
    exact List.mem_append_right _ (List.mem_cons_of_mem _ hf)
  have hcount := hwalk.visits t hbefore
  rw [hnil] at hcount
  have hvisited : .visited t ∈ thisWalk s.notes := by
    rw [hwalk.split, thisWalk_split hwalk.latest]
    exact List.count_pos_iff.mp (by rw [hcount]; simp)
  exact hfired (h.now hr hvisited)

/-- What one event preserves. -/
theorem Aging.step {e : Event} (h : Aging start d reached t n s) (hi : Inv s l) (ha : Allowed s e)
    (hc : e ≠ .cancel (some t)) (hs : Timers.step s e = some s') :
    Aging start d reached t (n + ticks [e]) s' := by
  have hlt : t ≠ s.fresh := fun he => absurd (hi.fresh _ h.added t rfl) (by omega)
  have hsame : s'.walk = s.walk → Leaves t s s' → Aging start d reached t n s' := fun hw hl => by
    obtain ⟨ns, hnotes, -⟩ := hl.notes
    refine h.leaves hl (fun hp w hw' => hp w (hw ▸ hw')) fun hn hr hnone => ?_
    rw [hnotes]
    exact List.mem_append_right _ (h.done hn hr (hw ▸ hnone))
  cases e with
  | add e =>
    obtain ⟨hl, hw⟩ := leaves_add hlt hs
    exact hsame hw hl
  | cancel u =>
    obtain ⟨hl, hw⟩ := leaves_cancel (fun hu => hc (congrArg Event.cancel hu)) hs
    exact hsame hw hl
  | release u =>
    obtain ⟨hl, hw⟩ := leaves_release hs
    exact hsame hw hl
  | tick => exact h.tickBegin ha ((if_pos ha).symm.trans hs)
  | visit =>
    obtain ⟨u, p, hw⟩ := ha
    have hs : tickVisit u p s = some s' := by rwa [Timers.step, hw] at hs
    by_cases hu : u = t
    · subst hu
      exact h.visit hw hs
    · obtain ⟨hl, hw'⟩ := leaves_visit hu hs
      refine h.leaves hl (fun hp w hw'' => ?_) fun _ _ hnone => absurd (hw'.symm.trans hnone) (by simp)
      obtain rfl := Option.some.inj (hw'.symm.trans hw'')
      exact hp ⟨.timer u, p, false⟩ hw
  | next busy =>
    obtain ⟨u, p, hw⟩ := ha
    have hs : tickNext busy u p s = some s' := by rwa [Timers.step, hw] at hs
    obtain ⟨hl, w, hw', hp⟩ := leaves_next hs
    refine h.leaves hl (fun hpass w' hw'' => ?_) fun _ _ hnone =>
      absurd (hw'.symm.trans hnone) (by simp)
    obtain rfl := Option.some.inj (hw'.symm.trans hw'')
    rcases hpass _ hw with hpos | ⟨v, -, -, hlast⟩
    · exact absurd hpos (by simp)
    · exact .inl (Option.some.inj (hp.symm.trans hlast))
  | stop =>
    obtain ⟨p, b, hw⟩ := ha
    have hs : some ({ s with walk := none }.note .ended) = some s' := by rwa [Timers.step, hw] at hs
    obtain rfl := Option.some.inj hs
    exact h.stop hi hw

theorem ticks_cons (e : Event) (es : List Event) : ticks (e :: es) = ticks [e] + ticks es := by
  rw [ticks, ← List.singleton_append, List.count_append, ← ticks, ← ticks]

/-- What a whole run preserves. -/
theorem Aging.run {fs : List Event} (h : Aging start d reached t n s) (hi : Inv s l)
    (ha : Along Timers.step Allowed s fs) (hc : .cancel (some t) ∉ fs)
    (hs : Lib.Run.run Timers.step s fs = some s') : Aging start d reached t (n + ticks fs) s' := by
  induction fs generalizing s n l with
  | nil => exact Option.some.inj hs ▸ h
  | cons e fs ih =>
    obtain ⟨s₁, hs₁, hs⟩ := run_cons.mp hs
    obtain ⟨s₂, l', hs₂, hi'⟩ := inv_step hi ha.1
    obtain rfl := Option.some.inj (hs₁.symm.trans hs₂)
    have hone := h.step hi ha.1 (fun he => hc (he ▸ List.mem_cons_self)) hs₁
    rw [ticks_cons, ← Nat.add_assoc]
    exact ih hone hi' (ha.2 s₁ hs₁) (fun hin => hc (List.mem_cons_of_mem _ hin)) hs

/-- A timer is new when it is added. -/
theorem aging_add {s₁ : State} (hi : Inv s l) (hs : timerAdd d s = some s₁) :
    Aging s.tick d (Reached s) s.fresh 0 s₁ := by
  obtain ⟨links, -, hs⟩ := Option.bind_eq_some_iff.mp hs
  obtain rfl := (Option.some.inj hs).symm
  have hnew : ∀ m ∈ s.notes, m.timer ≠ some s.fresh := fun m hm he =>
    Nat.lt_irrefl _ (hi.fresh m hm _ he)
  have hmem : ∀ {m : Note}, m.timer = some s.fresh → m ≠ .added s.fresh →
      m ∉ Note.added s.fresh :: s.notes := fun hm hne hin =>
    (List.mem_cons.mp hin).elim hne fun hin => hnew _ hin hm
  refine ⟨(UInt32.add_zero _).symm, List.mem_cons_self, hmem rfl (by simp), fun _ => ?_,
    fun hf => absurd hf (hmem rfl (by simp)), fun _ hno => ⟨hmem rfl (by simp), fun w hw => ?_⟩,
    fun k h1 hk => absurd hk (by omega), fun _ hv => ?_, fun h1 => absurd h1 (by omega),
    fun h1 => absurd h1 (by omega)⟩
  · exact ⟨⟨1, s.tick + d, false⟩, if_pos rfl, rfl, rfl⟩
  · obtain ⟨during, before, passed, todo, later, hwalk⟩ := hi.walk w hw
    obtain ⟨pos, p, b⟩ := w
    cases pos with
    | timers => exact .inl rfl
    | timer u =>
      obtain ⟨rest, rfl, hu⟩ := hwalk.at_timer
      refine .inr ⟨u, fun he => absurd (hi.lt_fresh hu) (by omega), rfl, ?_⟩
      have hp : p = some ((rest.map Node.timer).headD .timers) := hwalk.p (by simp)
      cases rest with
      | nil => exact hp
      | cons v rest => exact absurd ⟨u, v, b, hp ▸ hw⟩ hno
  · exact absurd ((List.takeWhile_prefix _).subset hv) (hmem rfl (by simp))

/-! ### The deadline -/

theorem ripe_iff {k : ℕ} : Ripe start d k ↔
    (start.toNat + d.toNat) % 4294967296 < (start.toNat + k % 4294967296) % 4294967296 := by
  rw [Ripe, Word32.lt_iff, Word32.toNat_add, Word32.toNat_add, UInt32.toNat_ofNat']

/-- Without a wrap between `tick` and the deadline, it is behind from tick `d + 1` on. -/
theorem ripe_iff_of_lt {k : ℕ} (h : start.toNat + d.toNat < 4294967295) (hk : k ≤ d.toNat + 1) :
    Ripe start d k ↔ d.toNat < k := by
  rw [ripe_iff]
  omega

theorem ripe_iff_of_last {k : ℕ} (h : start.toNat = 4294967295) (hd : 0 < d.toNat)
    (hlt : d.toNat < 2147483648) (h1 : 1 ≤ k) (hk : k ≤ d.toNat + 1) :
    Ripe start d k ↔ d.toNat < k := by
  rw [ripe_iff]
  omega

/-- Under the condition a timer fires with the first tick behind its deadline. -/
theorem punctual_of_inTime {s₀ : State} (hlt : d.toNat < 2147483648) (h : InTime s₀ d)
    (ha : Aging s₀.tick d (Reached s₀) t n s) : Punctual d t n s.notes := by
  have hripe : ∀ k, 1 ≤ k → k ≤ d.toNat + 1 → (Ripe s₀.tick d k ↔ d.toNat < k) := fun k h1 hk => by
    rcases h with h | ⟨hlast, hpos, -⟩
    · exact ripe_iff_of_lt h hk
    · exact ripe_iff_of_last hlast hpos hlt h1 hk
  constructor
  · intro hn hf
    obtain ⟨k, hk, hr, hreach⟩ := ha.early hf
    rcases Nat.eq_zero_or_pos k with h0 | h1
    · rcases h with h | ⟨-, -, hno⟩
      · have := (ripe_iff_of_lt h (by omega)).mp hr
        omega
      · exact hno (hreach h0)
    · have := (hripe k h1 (by omega)).mp hr
      omega
  · intro hn
    exact ha.late (d.toNat + 1) (by omega) hn ((hripe _ (by omega) le_rfl).mpr (by omega))

/-! ### Ticks to come -/

/-- A run without a cancel that counts `tick` up `n` times and ends between two walks. -/
structure Quiet (s : State) (n : ℕ) (fs : List Event) (s' : State) : Prop where
  along : Along step Allowed s fs
  uncancelled : ∀ u, .cancel u ∉ fs
  ticks : ticks fs = n
  run : run step s fs = some s'
  walk : s'.walk = none
  inv : ∃ l, Inv s' l

theorem Quiet.trans {s₁ s₂ : State} {m : ℕ} {fs gs : List Event} (h : Quiet s m fs s₁)
    (h' : Quiet s₁ n gs s₂) : Quiet s (m + n) (fs ++ gs) s₂ where
  along := h.along.append fun u hu => by
    obtain rfl := Option.some.inj (h.run.symm.trans hu)
    exact h'.along
  uncancelled u := by simp [h.uncancelled u, h'.uncancelled u]
  ticks := by rw [Expiry.ticks, List.count_append, ← Expiry.ticks, ← Expiry.ticks, h.ticks, h'.ticks]
  run := run_append.mpr ⟨s₁, h.run, h'.run⟩
  walk := h'.walk
  inv := h'.inv

/-- One step in front of a quiet run. -/
theorem Quiet.cons {s₁ : State} {e : Event} {fs : List Event} (ha : Allowed s e)
    (he : ∀ u, .cancel u ≠ e) (hs : step s e = some s₁) (h : Quiet s₁ n fs s') :
    Quiet s (Expiry.ticks [e] + n) (e :: fs) s' where
  along := ⟨ha, fun u hu => by
    obtain rfl := Option.some.inj (hs.symm.trans hu)
    exact h.along⟩
  uncancelled u := by simp [he u, h.uncancelled u]
  ticks := by rw [ticks_cons, h.ticks]
  run := run_cons.mpr ⟨s₁, hs, h.run⟩
  walk := h.walk
  inv := h.inv

/-- The visit of the timer at which the walk is. -/
theorem walking_visit {during before passed rest later : List _} {p : Option Node} (h : Inv s l)
    (hw : s.walk = some ⟨.timer t, p, false⟩)
    (hwalk : Walking s.notes l ⟨.timer t, p, false⟩ during before passed (t :: rest) later) :
    ∃ s' during', tickVisit t p s = some s' ∧ Inv s' l ∧ s'.walk = some ⟨.timer t, p, true⟩ ∧
      Walking s'.notes l ⟨.timer t, p, true⟩ during' before passed (t :: rest) later ∧
      ∃ ns, .began ∉ ns ∧ .visited t ∈ ns ∧ s'.notes = ns ++ s.notes := by
  obtain ⟨s', hs', hinv⟩ := inv_visit h hw
  have hvisit := hwalk.visit h.nodup
  refine ⟨s', ?_⟩
  obtain ⟨x, -, hs⟩ := Option.bind_eq_some_iff.mp hs'
  simp only at hs
  split_ifs at hs <;> obtain rfl := (Option.some.inj hs).symm
  · exact ⟨_, hs', hinv, rfl, hvisit.note (n := .fired t) (by simp) (by simp),
      [.fired t, .visited t], by simp, by simp, rfl⟩
  · exact ⟨_, hs', hinv, rfl, hvisit, [.visited t], by simp, by simp, rfl⟩

/-- **Every walk ends**, and visits all timers that it has still to come to. The induction is on
those. -/
theorem walk_ends {w : Walk} {during before passed todo later : List _} (h : Inv s l)
    (hw : s.walk = some w) (hwalk : Walking s.notes l w during before passed todo later) :
    ∃ fs s', Quiet s 0 fs s' ∧ (∀ u, .visited u ∈ thisWalk s.notes → .visited u ∈ thisWalk s'.notes) ∧
      ∀ u ∈ if w.handled then todo.tail else todo, .visited u ∈ thisWalk s'.notes := by
  induction todo generalizing s l w during passed with
  | nil =>
    obtain ⟨pos, p, b⟩ := w
    obtain rfl : pos = .timers := hwalk.pos
    have hs : step s .stop = some ({ s with walk := none }.note .ended) := by rw [step, hw]
    have hq : Quiet ({ s with walk := none }.note .ended) 0 [] ({ s with walk := none }.note .ended) :=
      ⟨trivial, by simp, rfl, rfl, rfl, l, inv_stop h hw⟩
    refine ⟨[.stop], _, hq.cons (e := .stop) ⟨p, b, hw⟩ (by simp) hs, fun u hu => ?_, by simp⟩
    have hnone : Note.began ∉ [Note.ended] := by simp
    exact (thisWalk_append hnone s.notes) ▸ List.mem_cons_of_mem _ hu
  | cons t rest ih =>
    obtain ⟨pos, p, b⟩ := w
    obtain rfl : pos = .timer t := hwalk.pos
    -- from the second test of the body on
    have hhandled : ∀ {s₁ : State} {during' : List Note}, Inv s₁ l →
        s₁.walk = some ⟨.timer t, p, true⟩ →
        Walking s₁.notes l ⟨.timer t, p, true⟩ during' before passed (t :: rest) later →
        ∃ fs s', Quiet s₁ 0 fs s' ∧
          (∀ u, .visited u ∈ thisWalk s₁.notes → .visited u ∈ thisWalk s'.notes) ∧
          ∀ u ∈ rest, .visited u ∈ thisWalk s'.notes := fun {s₁} _ h₁ hw₁ hwalk₁ => by
      obtain ⟨s₂, l', w', _, _, hs₂, hinv, hw', hw'', hwalk'⟩ := walking_next h₁ false hwalk₁
      obtain ⟨fs, s', hq, hkeep, hall⟩ := ih hinv hw' hwalk'
      obtain ⟨ns, hnotes, hns⟩ := (leaves_next (t := 0) hs₂).1.notes
      have hstep : step s₁ (.next false) = some s₂ := by rwa [step, hw₁]
      refine ⟨_, s', hq.cons (e := .next false) ⟨t, p, hw₁⟩ (by simp) hstep, fun u hu => hkeep u ?_,
        fun u hu => hall u (by simpa [hw''] using hu)⟩
      rw [hnotes, thisWalk_append fun hin => (hns _ hin).1 rfl]
      exact List.mem_append_right _ hu
    cases b with
    | true => exact hhandled h hw hwalk
    | false =>
      obtain ⟨s₁, _, hs₁, hinv, hw₁, hwalk₁, ns, hns, hvis, hnotes⟩ := walking_visit h hw hwalk
      obtain ⟨fs, s', hq, hkeep, hall⟩ := hhandled hinv hw₁ hwalk₁
      have hmem : ∀ u, .visited u ∈ ns ∨ .visited u ∈ thisWalk s.notes → .visited u ∈ thisWalk s'.notes :=
        fun u hu => hkeep u (by rw [hnotes, thisWalk_append hns]; exact List.mem_append.mpr hu)
      have hstep : step s .visit = some s₁ := by rwa [step, hw]
      refine ⟨_, s', hq.cons (e := .visit) ⟨t, p, hw⟩ (by simp) hstep, fun u hu => hmem u (.inr hu),
        fun u hu => ?_⟩
      rcases List.mem_cons.mp hu with rfl | hu
      · exact hmem u (.inl hvis)
      · exact hall u hu

/-- The walk under way can end without a tick. -/
theorem exists_quiet_zero (h : Inv s l) : ∃ fs s', Quiet s 0 fs s' := by
  cases hw : s.walk with
  | none => exact ⟨[], s, trivial, by simp, rfl, rfl, hw, l, h⟩
  | some w =>
    obtain ⟨_, _, _, _, _, hwalk⟩ := h.walk w hw
    obtain ⟨fs, s', hq, -, -⟩ := walk_ends h hw hwalk
    exact ⟨fs, s', hq⟩

/-- There are always more ticks. -/
theorem exists_quiet (h : Inv s l) (n : ℕ) : ∃ fs s', Quiet s n fs s' := by
  induction n with
  | zero => exact exists_quiet_zero h
  | succ n ih =>
    obtain ⟨fs, s₁, hq⟩ := ih
    obtain ⟨l₁, h₁⟩ := hq.inv
    obtain ⟨s₂, hs₂, h₂⟩ := inv_tick h₁
    obtain ⟨gs, s', hq'⟩ := exists_quiet_zero h₂
    have hstep : step s₁ .tick = some s₂ := (if_pos hq.walk).trans hs₂
    exact ⟨_, s', hq.trans (hq'.cons (e := .tick) hq.walk (by simp) hstep)⟩

/-! ### The two directions -/

/-- The timers at the end of the list are still to come, if the walk has not saved the end. -/
theorem Walking.mem_tail {notes l₀ during before passed todo later : List _} {u v : ℕ} {b : Bool}
    (h : Walking notes (l₀ ++ [v]) ⟨.timer t, some (.timer u), b⟩ during before passed todo later) :
    v ∈ todo.tail := by
  obtain ⟨rest, rfl, -⟩ := h.at_timer
  have hp : some (Node.timer u) = some ((rest.map .timer).headD .timers) := h.p (by simp)
  have hrest : rest ≠ [] := by
    rintro rfl
    simp at hp
  have hlast := congrArg List.getLast? h.list
  rw [h.behind hrest, List.append_nil, List.getLast?_concat, List.getLast?_append_of_ne_nil _ (by simp),
    List.getLast?_cons_of_ne_nil hrest] at hlast
  exact List.mem_of_getLast? hlast.symm

/-- After the addition a quiet run leaves the timer as old as the ticks of the run. -/
theorem aging_quiet {s₁ : State} {fs : List Event} (hi : Inv s l) (hs₁ : timerAdd d s = some s₁)
    (hq : Quiet s₁ n fs s') : Aging s.tick d (Reached s) s.fresh n s' := by
  obtain ⟨s₂, hs₂, hi₁⟩ := inv_add hi d
  obtain rfl := Option.some.inj (hs₁.symm.trans hs₂)
  have h := (aging_add hi hs₁).run hi₁ hq.along (hq.uncancelled _) hq.run
  rwa [hq.ticks, Nat.zero_add] at h

theorem inTime_of_keepsTime (hi : Inv s l) (h : KeepsTime s d) : InTime s d := by
  obtain ⟨s₁, hs₁, hi₁⟩ := inv_add hi d
  have hwalk₁ : s₁.walk = s.walk := by
    obtain ⟨links, -, heq⟩ := Option.bind_eq_some_iff.mp hs₁
    obtain rfl := (Option.some.inj heq).symm
    rfl
  have hkeeps : ∀ {n : ℕ} {fs : List Event} {s' : State}, Quiet s₁ n fs s' →
      Punctual d s.fresh n s'.notes := fun hq =>
    hq.ticks ▸ h s₁ _ _ hs₁ hq.along (hq.uncancelled _) hq.run
  have htick := s.tick.toNat_lt
  have hdelay := d.toNat_lt
  by_contra hno
  rw [InTime, not_or] at hno
  by_cases hlast : s.tick.toNat + d.toNat = 4294967295
  · -- no tick is behind the last number
    obtain ⟨fs, s', hq⟩ := exists_quiet hi₁ (d.toNat + 2)
    obtain ⟨k, -, hr, -⟩ := (aging_quiet hi hs₁ hq).early ((hkeeps hq).2 (by omega))
    rw [ripe_iff] at hr
    omega
  by_cases htick' : s.tick.toNat = 4294967295
  · -- the deadline has wrapped and `tick` has not, so the walk under way fires
    obtain ⟨t, u, b, hw⟩ : Reached s := by
      by_contra hreach
      exact hno.2 ⟨htick', by omega, hreach⟩
    obtain ⟨during, before, passed, todo, later, hwalk⟩ := hi₁.walk _ (hwalk₁.trans hw)
    obtain ⟨fs, s', hq, -, hall⟩ := walk_ends hi₁ (hwalk₁.trans hw) hwalk
    have htail : s.fresh ∈ if b then todo.tail else todo := by
      split
      · exact Walking.mem_tail hwalk
      · exact List.mem_of_mem_tail (Walking.mem_tail hwalk)
    have hripe : Ripe s.tick d 0 := ripe_iff.mpr (by omega)
    exact (hkeeps hq).1 (Nat.zero_le _) ((aging_quiet hi hs₁ hq).now hripe (hall _ htail))
  · -- the deadline has wrapped, so the next tick fires
    obtain ⟨fs, s', hq⟩ := exists_quiet hi₁ 1
    have hripe : Ripe s.tick d 1 := ripe_iff.mpr (by omega)
    exact (hkeeps hq).1 (by omega) ((aging_quiet hi hs₁ hq).done le_rfl hripe hq.walk)

/-- **When a timer keeps time**, for every state that a run of the module reaches and every delay:
neither may the deadline wrap, nor be the last number, unless `tick` itself wraps with the next
tick and no walk comes to the timer before. -/
theorem keepsTime_iff (es : List Event) (s : State) (d : UInt32) (ha : Along step Allowed init es)
    (hs : run step init es = some s) (hd : d.toNat < 2147483648) : KeepsTime s d ↔ InTime s d := by
  obtain ⟨s₀, l, hs₀, hi⟩ := inv_run inv_init ha
  obtain rfl := Option.some.inj (hs.symm.trans hs₀)
  refine ⟨inTime_of_keepsTime hi, fun h s₁ fs s' hs₁ hfs hc hrun => ?_⟩
  obtain ⟨s₂, hs₂, hi₁⟩ := inv_add hi d
  obtain rfl := Option.some.inj (hs₁.symm.trans hs₂)
  have haging := (aging_add hi hs₂).run hi₁ hfs hc hrun
  rw [Nat.zero_add] at haging
  exact punctual_of_inTime hd h haging

theorem keepsTime_iff_start : KeepsTime init 3 ↔ InTime init 3 :=
  keepsTime_iff [] init 3 trivial rfl (by decide)

/-- `n` ticks of a stack without timers. -/
def idle : ℕ → List Event
  | 0 => []
  | n + 1 => .tick :: .stop :: idle n

theorem idle_run (n : ℕ) (t : UInt32) (notes : List Note) :
    Along step Allowed { init with tick := t, notes := notes } (idle n) ∧
      ∃ notes', run step { init with tick := t, notes := notes } (idle n) =
        some { init with tick := t + UInt32.ofNat n, notes := notes' } := by
  induction n generalizing t notes with
  | zero => exact ⟨trivial, notes, by rw [show t + UInt32.ofNat 0 = t from UInt32.add_zero t]; rfl⟩
  | succ n ih =>
    obtain ⟨ha, notes', hrun⟩ := ih (t + 1) (.ended :: .began :: notes)
    have hstep : step { init with tick := t, notes := notes } .tick =
        some { init with
          tick := t + 1, walk := some ⟨.timers, some .timers, false⟩, notes := .began :: notes } := rfl
    have hstop : step { init with
          tick := t + 1, walk := some ⟨.timers, some .timers, false⟩, notes := .began :: notes } .stop =
        some { init with tick := t + 1, notes := .ended :: .began :: notes } := rfl
    refine ⟨⟨rfl, fun s₁ h₁ => ?_⟩, notes', run_cons.mpr ⟨_, hstep, run_cons.mpr ⟨_, hstop, ?_⟩⟩⟩
    · obtain rfl := Option.some.inj (hstep.symm.trans h₁)
      refine ⟨⟨_, _, rfl⟩, fun s₂ h₂ => ?_⟩
      obtain rfl := Option.some.inj (hstop.symm.trans h₂)
      exact ha
    · rw [hrun, UInt32.add_assoc, UInt32.add_comm 1, UInt32.ofNat_add]
      rfl

/-- The clock stands at `2 ^ 32 - 2`, and the delay is two ticks: the handler runs at the first. -/
theorem not_keepsTime : ∃ s s', Along step Allowed init (idle 4294967294) ∧
    run step init (idle 4294967294) = some s ∧ s.tick = 4294967294 ∧
    run step s [.add 2, .tick, .visit] = some s' ∧ .fired 0 ∈ s'.notes ∧ ¬ KeepsTime s 2 := by
  obtain ⟨ha, notes, hrun⟩ := idle_run 4294967294 0 []
  let s : State := { init with tick := 4294967294, notes := notes }
  obtain ⟨s₁, hs₁, hfresh⟩ : ∃ s₁, step s (.add 2) = some s₁ ∧ s.fresh = 0 := ⟨_, rfl, rfl⟩
  obtain ⟨s₂, hs₂, hw, htick, ⟨x, hx, hexp, hc⟩⟩ : ∃ s₂, step s₁ .tick = some s₂ ∧
      s₂.walk = some ⟨.timer 0, some .timers, false⟩ ∧ s₂.tick = 4294967295 ∧
      ∃ x, s₂.timers 0 = some x ∧ x.expires = 0 ∧ x.cancelled = false := by
    obtain rfl := Option.some.inj hs₁
    exact ⟨_, rfl, rfl, rfl, _, rfl, show (4294967294 : UInt32) + 2 = 0 by decide, rfl⟩
  have hdue : x.cancelled = false ∧ x.expires < s₂.tick := ⟨hc, by rw [hexp, htick]; decide⟩
  obtain ⟨s', hs', hfired⟩ : ∃ s', step s₂ .visit = some s' ∧ .fired 0 ∈ s'.notes := by
    let done := { s₂ with walk := some ⟨.timer 0, some .timers, true⟩ }.note (.visited 0)
    refine ⟨(done.setTimer 0 (some { x with cancelled := true })).note (.fired 0), ?_,
      List.mem_cons_self⟩
    simp only [step, hw, tickVisit, hx, Option.bind_eq_bind, Option.bind_some]
    exact if_pos hdue
  have hrun₁ : run step s₁ [.tick, .visit] = some s' := by simp [run, hs₂, hs']
  have hallowed : Along step Allowed s₁ [.tick, .visit] := by
    refine ⟨?_, fun s₃ h₃ => ?_⟩
    · obtain rfl := Option.some.inj hs₁
      rfl
    · obtain rfl := Option.some.inj (hs₂.symm.trans h₃)
      exact ⟨⟨_, _, hw⟩, fun _ _ => trivial⟩
  refine ⟨s, s', ha, hrun, rfl, run_cons.mpr ⟨s₁, hs₁, hrun₁⟩, hfired, fun h => ?_⟩
  exact (h s₁ [.tick, .visit] s' hs₁ hallowed (by simp) hrun₁).1 (by decide) (hfresh ▸ hfired)

end ToyIP.Stack.Expiry
