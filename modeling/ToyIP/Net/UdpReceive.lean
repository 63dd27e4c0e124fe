import ToyIP.Lib.Word32
import ToyIP.Net.Wakeups

/-! # Network: one datagram for each call

`udp_in` puts datagrams at the end of the receive queue, and each turn of the loop of `udp_recvfrom`
and `udp_read` takes the first one off with `udp_data_dequeue`. That function returns -1 both for an
empty queue and for a datagram without text, so the loop goes on after an empty datagram, which is
gone by then. `oneEach_iff` says that nothing else can go wrong between deliveries and calls. -/

namespace ToyIP.Net.UdpReceive

open ToyIP.Lib ToyIP.Lib.Run ToyIP.Lib.WaitFlag
open ToyIP.Net.Packets (Datagram)
open ToyIP.Net.Wakeups (udpRlen)

/-! ### The calls and their history -/

/-- A datagram whose text is in its frame. -/
structure Whole (d : Datagram) : Prop where
  length : d.payload.length = d.dlen.toNat
  fits : d.payload.length ≤ 65527

/-- A call of `udp_recvfrom` with or without an address to fill in, or of `udp_read`, which has none.
-/
structure Call where
  userlen : UInt32
  saddr : Bool
  pos : 0 < userlen.toNat

/-- What a call returns: its result, what it has copied, and the address it has filled in. -/
structure Result where
  rlen : ℤ
  bytes : List UInt8
  addr : Option (UInt32 × UInt16)
  deriving DecidableEq, Repr

/-- The receive queue of the sock and the call under way, with all that has been delivered and
returned so far. -/
structure Reader where
  queue : List {d // Whole d} := []
  call : Option Call := none
  delivered : List {d // Whole d} := []
  returned : List (Call × Result) := []

/-- `udp_data_dequeue` on the first datagram of the queue. -/
def copy (d : Datagram) (c : Call) : Result where
  rlen := if udpRlen d c.userlen = 0 then -1 else (udpRlen d c.userlen).toInt32.toInt
  bytes := d.payload.take (udpRlen d c.userlen).toNat
  addr := if c.saddr then some (d.saddr, d.sport) else none

/-- One turn of the loop, and whether the call goes to sleep. -/
def turn (r : Reader) : Reader × Bool :=
  match r.call, r.queue with
  | some c, d :: rest =>
    if (copy d c).rlen ≠ -1 then
      ({ r with queue := rest, call := none, returned := r.returned ++ [(c, copy d c)] }, false)
    else ({ r with queue := rest }, true)
  | _, _ => (r, true)

/-- The calls on one sock, one after the other, and the deliveries of `udp_in`. -/
def udpCalls : Blocking Reader Call {d // Whole d} where
  call c r := some { r with call := some c }
  check := turn
  again := true
  change d r := { r with queue := r.queue ++ [d], delivered := r.delivered ++ [d] }
  ready r := r.queue ≠ []
  skips r := r.call = none ∨ ∃ c d rest, r.call = some c ∧ r.queue = d :: rest ∧ rest ≠ [] ∧
    (copy d c).rlen = -1
  not_ready r hskip hsleep := by
    rw [not_or] at hskip
    obtain ⟨c, hc⟩ := Option.ne_none_iff_exists'.mp hskip.1
    cases hq : r.queue with
    | nil => simp [turn, hc, hq]
    | cons d rest =>
      simp only [turn, hc, hq] at hsleep ⊢
      split_ifs at hsleep with hrc
      rw [not_not] at hrc
      have hrest : rest = [] := by
        by_contra hne
        exact hskip.2 ⟨c, d, rest, hc, hq, hne, hrc⟩
      simp [hrc, hrest]

/-! ### The property and its condition -/

/-- What a call should return for a datagram. -/
def expected (c : Call) (d : Datagram) : Result where
  rlen := min d.payload.length c.userlen.toNat
  bytes := d.payload.take (min d.payload.length c.userlen.toNat)
  addr := if c.saddr then some (d.saddr, d.sport) else none

/-- **One datagram for each call.** The first call has returned the first datagram and so on, and
those that no call has returned are in the queue. -/
structure OneEach (r : Reader) : Prop where
  each : ∀ (k : ℕ) c x, r.returned[k]? = some (c, x) →
    ∃ d, r.delivered[k]? = some d ∧ x = expected c d
  rest : r.queue = r.delivered.drop r.returned.length

/-- No call comes to a datagram without text. -/
def Filled (s : State Reader) (e : Event Call {d // Whole d}) : Prop :=
  e = .check → ∀ d rest, s.data.queue = d :: rest → d.val.payload ≠ []

/-! ### One turn -/

theorem rlen_copy {d : Datagram} (h : Whole d) (c : Call) :
    (udpRlen d c.userlen).toNat = min d.payload.length c.userlen.toNat := by
  have hlt : d.dlen > c.userlen ↔ c.userlen.toNat < d.payload.length := by
    rw [gt_iff_lt, UInt32.lt_iff_toNat_lt, h.length]
  rw [udpRlen]
  split_ifs with hgt
  · have := hlt.mp hgt
    omega
  · have hle := mt hlt.mpr hgt
    rw [← h.length]
    omega

/-- What is copied is what should be, unless there is nothing to copy. -/
theorem copy_eq {d : Datagram} (h : Whole d) (c : Call) (hne : d.payload ≠ []) :
    copy d c = expected c d ∧ (copy d c).rlen ≠ -1 := by
  have hlen := rlen_copy h c
  have hfits := h.fits
  have hpos := c.pos
  have hdpos := List.length_pos_iff.mpr hne
  have hzero : udpRlen d c.userlen ≠ 0 := fun h0 => by
    rw [h0] at hlen
    have : (0 : UInt32).toNat = 0 := rfl
    omega
  have hint : (udpRlen d c.userlen).toInt32.toInt = (d.payload.length : ℤ) ⊓ c.userlen.toNat := by
    rw [Word32.toInt_toInt32 (by omega), hlen, Nat.cast_min]
  have heq : copy d c = expected c d := by
    rw [copy, expected, if_neg hzero, hint, hlen]
  refine ⟨heq, ?_⟩
  rw [heq, expected]
  simp only
  omega

theorem copy_empty {d : Datagram} (h : Whole d) (c : Call) (hnil : d.payload = []) :
    (copy d c).rlen = -1 := by
  have hlen := rlen_copy h c
  rw [hnil, List.length_nil, Nat.zero_min] at hlen
  exact if_pos (UInt32.toNat_inj.mp hlen)

/-- What one turn of the loop does. -/
theorem turn_cases {r : Reader} {c : Call} (hc : r.call = some c) :
    r.queue = [] ∧ turn r = (r, true) ∨ ∃ d rest, r.queue = d :: rest ∧
      (d.val.payload = [] ∧ turn r = ({ r with queue := rest }, true) ∨
        d.val.payload ≠ [] ∧ turn r = ({ r with
          queue := rest, call := none, returned := r.returned ++ [(c, expected c d)] }, false)) := by
  cases hq : r.queue with
  | nil => exact .inl ⟨rfl, by simp [turn, hc, hq]⟩
  | cons d rest =>
    refine .inr ⟨d, rest, rfl, ?_⟩
    by_cases hnil : d.val.payload = []
    · exact .inl ⟨hnil, by simp [turn, hc, hq, copy_empty d.property c hnil]⟩
    · obtain ⟨heq, hne⟩ := copy_eq d.property c hnil
      rw [heq] at hne
      exact .inr ⟨hnil, by simp [turn, hc, hq, heq, hne]⟩

/-! ### Every run -/

variable {s s' : State Reader} {e : Event Call {d // Whole d}}

/-- A thread inside of the loop has a call. -/
def Calling (s : State Reader) : Prop := s.place ≠ .out → ∃ c, s.data.call = some c

theorem calling_step (h : Calling s) (hs : step udpCalls s e = some s') : Calling s' := by
  cases e with
  | call c =>
    simp only [step, Option.ite_none_right_eq_some, Option.map_eq_some_iff] at hs
    obtain ⟨-, r, hr, rfl⟩ := hs
    exact fun _ => ⟨c, by rw [← Option.some.inj hr]⟩
  | check =>
    simp only [step, Option.ite_none_right_eq_some, Option.some.injEq] at hs
    obtain ⟨hplace, rfl⟩ := hs
    obtain ⟨c, hc⟩ := h (by simp [hplace])
    obtain ⟨-, ht⟩ | ⟨d, rest, -, ⟨-, ht⟩ | ⟨-, ht⟩⟩ := turn_cases hc
    · exact fun _ => ⟨c, by simp [udpCalls, ht, hc]⟩
    · exact fun _ => ⟨c, by simp [udpCalls, ht, hc]⟩
    · exact fun hne => absurd (by simp [udpCalls, ht]) hne
  | enter =>
    simp only [step, Option.ite_none_right_eq_some, Option.some.injEq] at hs
    obtain ⟨hplace, rfl⟩ := hs
    exact fun _ => h (by simp [hplace])
  | leave =>
    simp only [step, Option.ite_none_right_eq_some, Option.some.injEq] at hs
    obtain ⟨hplace, rfl⟩ := hs
    exact fun _ => h (by simp [hplace.1])
  | change d =>
    simp only [step, Option.ite_none_left_eq_some, Option.some.injEq] at hs
    obtain ⟨-, rfl⟩ := hs
    exact h
  | wakeup =>
    obtain rfl := Option.some.inj hs
    exact h

/-- A datagram that is delivered waits behind the others. -/
theorem OneEach.deliver {r : Reader} (h : OneEach r) (d : {d // Whole d}) :
    OneEach { r with queue := r.queue ++ [d], delivered := r.delivered ++ [d] } := by
  have hle : r.returned.length ≤ r.delivered.length := by
    by_contra hlt
    obtain ⟨⟨c, x⟩, hx⟩ : ∃ x, r.returned[r.delivered.length]? = some x :=
      ⟨_, List.getElem?_eq_getElem (by omega)⟩
    obtain ⟨d, hd, -⟩ := h.each _ c x hx
    simp at hd
  refine ⟨fun k c x hx => ?_, ?_⟩
  · obtain ⟨d', hd', heq⟩ := h.each k c x hx
    exact ⟨d', List.getElem?_append_left (List.getElem?_eq_some_iff.mp hd').1 ▸ hd', heq⟩
  · rw [List.drop_append_of_le_length hle, h.rest]

/-- The first datagram of the queue is returned. -/
theorem OneEach.return {r : Reader} {c : Call} {d : {d // Whole d}} {rest : List {d // Whole d}}
    (h : OneEach r) (hq : r.queue = d :: rest) :
    OneEach { r with queue := rest, call := none, returned := r.returned ++ [(c, expected c d)] } := by
  have hdrop := h.rest
  rw [hq] at hdrop
  have hhead : r.delivered[r.returned.length]? = some d := by
    rw [← List.head?_drop, ← hdrop, List.head?_cons]
  refine ⟨fun k c' x hx => ?_, ?_⟩
  · rcases Nat.lt_trichotomy k r.returned.length with hlt | heq | hgt
    · exact h.each k c' x (List.getElem?_append_left hlt ▸ hx)
    · subst heq
      rw [List.getElem?_concat_length, Option.some.injEq, Prod.mk.injEq] at hx
      obtain ⟨rfl, rfl⟩ := hx
      exact ⟨d, hhead, rfl⟩
    · rw [List.getElem?_eq_none (by simpa using hgt)] at hx
      simp at hx
  · rw [List.length_append, List.length_singleton, ← List.drop_drop, ← hdrop, List.drop_one,
      List.tail_cons]

/-- A datagram that is taken and not returned is lost. -/
theorem OneEach.not_skip {r : Reader} {d : {d // Whole d}} {rest : List {d // Whole d}}
    (h : OneEach r) (hq : r.queue = d :: rest) : ¬ OneEach { r with queue := rest } := by
  intro h'
  have hlen : rest.length = r.queue.length := congrArg List.length (h'.rest.trans h.rest.symm)
  rw [hq, List.length_cons] at hlen
  omega

theorem oneEach_step (hc : Calling s) (h : OneEach s.data) (hs : step udpCalls s e = some s') :
    OneEach s'.data ↔ Filled s e := by
  cases e with
  | call c =>
    simp only [step, Option.ite_none_right_eq_some, Option.map_eq_some_iff] at hs
    obtain ⟨-, r, hr, rfl⟩ := hs
    obtain rfl := Option.some.inj hr
    exact iff_of_true ⟨h.each, h.rest⟩ (by simp [Filled])
  | check =>
    simp only [step, Option.ite_none_right_eq_some, Option.some.injEq] at hs
    obtain ⟨hplace, rfl⟩ := hs
    obtain ⟨c, hcall⟩ := hc (by simp [hplace])
    obtain ⟨hnil, ht⟩ | ⟨d, rest, hq, ⟨hempty, ht⟩ | ⟨hne, ht⟩⟩ := turn_cases hcall
    · refine iff_of_true (show OneEach (turn s.data).1 from ht ▸ h) fun _ d rest hq => ?_
      simp [hnil] at hq
    · refine iff_of_false (fun ho : OneEach (turn s.data).1 => ?_) fun hf => hf rfl d rest hq hempty
      rw [ht] at ho
      exact h.not_skip hq ho
    · refine iff_of_true (show OneEach (turn s.data).1 from ht ▸ h.return hq) fun _ d' rest' hq' => ?_
      obtain ⟨rfl, -⟩ := List.cons.inj (hq.symm.trans hq')
      exact hne
  | enter =>
    simp only [step, Option.ite_none_right_eq_some, Option.some.injEq] at hs
    obtain ⟨-, rfl⟩ := hs
    exact iff_of_true h (by simp [Filled])
  | leave =>
    simp only [step, Option.ite_none_right_eq_some, Option.some.injEq] at hs
    obtain ⟨-, rfl⟩ := hs
    exact iff_of_true h (by simp [Filled])
  | change d =>
    simp only [step, Option.ite_none_left_eq_some, Option.some.injEq] at hs
    obtain ⟨-, rfl⟩ := hs
    exact iff_of_true (h.deliver d) (by simp [Filled])
  | wakeup =>
    obtain rfl := Option.some.inj hs
    exact iff_of_true h (by simp [Filled])

/-- **One datagram for each call**, in all runs of deliveries and calls in which no call comes to an
empty datagram, and in no others. -/
theorem oneEach_iff (es : List (Event Call {d // Whole d})) (t : State Reader)
    (h : run (step udpCalls) { data := {} } es = some t) :
    Always (step udpCalls) (fun s => OneEach s.data) { data := {} } es ↔
      Along (step udpCalls) Filled { data := {} } es := by
  refine always_iff_along (fun s e s' hc _ hs _ => calling_step hc hs)
    (fun s e s' hc h hs => oneEach_step hc h hs) (I := Calling) ?_ ?_ h
  · intro hne
    exact absurd rfl hne
  · exact ⟨fun k c x hx => by simp at hx, rfl⟩

/-- A datagram with two bytes. -/
def pair : {d // Whole d} := ⟨⟨0x0A000105, 0x0A000104, 53, 40001, 2, [1, 2]⟩, rfl, by decide⟩

/-- An empty one. -/
def empty : {d // Whole d} := ⟨⟨0x0A000106, 0x0A000104, 53, 40001, 0, []⟩, rfl, by decide⟩

def recvfrom : Call := ⟨8, true, by decide⟩

theorem oneEach_iff_pair :
    Always (step udpCalls) (fun s => OneEach s.data) { data := {} }
        [.change pair, .wakeup, .call recvfrom, .check] ↔
      Along (step udpCalls) Filled { data := {} } [.change pair, .wakeup, .call recvfrom, .check] :=
  oneEach_iff _ _ rfl

/-- The first of two calls returns the second datagram. -/
theorem not_oneEach : ∃ t, run (step udpCalls) { data := {} } [.change empty, .wakeup, .change pair,
      .call recvfrom, .check, .enter, .wakeup, .leave, .check] = some t ∧
    t.data.returned = [(recvfrom, ⟨2, [1, 2], some (0x0A000105, 53)⟩)] ∧
    t.data.delivered = [empty, pair] ∧ ¬ OneEach t.data := by
  refine ⟨_, rfl, rfl, rfl, fun h => ?_⟩
  obtain ⟨d, hd, hx⟩ := h.each 0 recvfrom ⟨2, [1, 2], some (0x0A000105, 53)⟩ rfl
  obtain rfl : empty = d := Option.some.inj hd
  exact absurd hx (by decide)

end ToyIP.Net.UdpReceive
