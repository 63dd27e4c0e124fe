import Mathlib.Data.Set.Insert
import Mathlib.Tactic

/-! # A numbered flow with cumulative acknowledgements

A sender numbers what it sends and keeps an item for each piece until it believes it acknowledged; a
receiver counts what it has taken in order and acknowledges by that number. The network keeps every
packet and every acknowledgement that was ever sent. Two liberties make this less than a textbook
protocol: a piece that is sent again is labelled with the oldest unacknowledged number `una`, not
with its own, and an item is dropped by an end `endp` that was recorded from `una` too. So items can
be dropped too early and packets can carry the wrong number; `Flow.Inv` says that all the same no
side counts what the other has not: `una ≤ rcv ≤ nxt`. -/

namespace ToyIP.Lib.AckFlow

/-- A piece that is kept for sending again: its own numbers are `start` to `start + len`. -/
structure Item where
  start : ℕ
  len : ℕ
  endp : ℕ

/-- The two ends of a flow and what is under way between them. A packet is its label with its
length. -/
structure Flow where
  una : ℕ
  nxt : ℕ
  rcv : ℕ
  items : List Item
  packets : Set (ℕ × ℕ)
  acks : Set ℕ

/-- What holds in every state. `clear` is about an item and two counts `c < a` of the receiver, or
the own count `una`: the step from `c` to `a` ends before the item, or is as long as the item, or
starts behind its length. `packet` says of every packet where the piece it carries has its place
`r`. -/
structure Flow.Inv (f : Flow) : Prop where
  una_le : f.una ≤ f.rcv
  rcv_le : f.rcv ≤ f.nxt
  acks_le : ∀ a ∈ f.acks, a ≤ f.rcv
  sorted : f.items.Pairwise fun x y => x.start + x.len ≤ y.start
  item : ∀ x ∈ f.items,
    f.una ≤ x.start ∧ x.start + x.len ≤ f.nxt ∧ 0 < x.len ∧ x.endp ≤ f.una + x.len
  clear : ∀ x ∈ f.items, ∀ c a, c = f.una ∨ c ∈ f.acks → a = f.rcv ∨ a ∈ f.acks → f.una ≤ c →
    c < a → a ≤ x.start ∨ c + x.len ≤ a ∨ x.start < c ∧ f.una + x.len ≤ c
  packet : ∀ p ∈ f.packets, ∃ r, p.1 ≤ r ∧ r + p.2 ≤ f.nxt ∧ ∀ x ∈ f.items,
    r + p.2 ≤ x.start ∨ x.start = r ∧ x.len = p.2 ∨ p.1 = r ∧ x.start + x.len ≤ r

namespace Flow.Inv

variable {f : Flow}

/-- The receiver acknowledges, and the network may forget. -/
theorem mono (h : f.Inv) {packets : Set (ℕ × ℕ)} {acks : Set ℕ} (hp : ∀ p ∈ packets, p ∈ f.packets)
    (ha : ∀ a ∈ acks, a = f.rcv ∨ a ∈ f.acks) :
    Flow.Inv { f with packets := packets, acks := acks } where
  una_le := h.una_le
  rcv_le := h.rcv_le
  acks_le := fun a hmem => by
    rcases ha a hmem with rfl | hmem
    · exact Nat.le_refl _
    · exact h.acks_le a hmem
  sorted := h.sorted
  item := h.item
  clear := fun x hx c a hc haa hle hlt => by
    have haa' : a = f.rcv ∨ a ∈ f.acks := by
      rcases haa with rfl | hmem
      · exact Or.inl rfl
      · exact ha a hmem
    have hbound : a ≤ f.rcv := by
      rcases haa' with rfl | hmem
      · exact Nat.le_refl _
      · exact h.acks_le a hmem
    refine h.clear x hx c a ?_ haa' hle hlt
    rcases hc with rfl | hmem
    · exact Or.inl rfl
    · rcases ha c hmem with rfl | hmem
      · exact absurd hlt (Nat.not_lt.mpr hbound)
      · exact Or.inr hmem
  packet := fun p hmem => h.packet p (hp p hmem)

/-- A new piece leaves with its own number. -/
theorem send (h : f.Inv) {len endp : ℕ} (hpos : 0 < len) (hend : endp ≤ f.una + len) :
    Flow.Inv { f with
      nxt := f.nxt + len
      items := f.items ++ [⟨f.nxt, len, endp⟩]
      packets := insert (f.nxt, len) f.packets } where
  una_le := h.una_le
  rcv_le := Nat.le_add_right_of_le h.rcv_le
  acks_le := h.acks_le
  sorted := by
    rw [List.pairwise_append]
    refine ⟨h.sorted, List.pairwise_singleton _ _, fun x hx y hy => ?_⟩
    rw [List.mem_singleton] at hy
    subst hy
    exact (h.item x hx).2.1
  item := fun x hx => by
    have h1 := h.una_le
    have h2 := h.rcv_le
    rcases List.mem_append.mp hx with hx | hx
    · obtain ⟨hle, hend', hrest⟩ := h.item x hx
      exact ⟨hle, Nat.le_add_right_of_le hend', hrest⟩
    · rw [List.mem_singleton] at hx
      subst hx
      exact ⟨h1.trans h2, Nat.le_refl _, hpos, hend⟩
  clear := fun x hx c a hc ha hle hlt => by
    rcases List.mem_append.mp hx with hx | hx
    · exact h.clear x hx c a hc ha hle hlt
    · rw [List.mem_singleton] at hx
      subst hx
      have h2 := h.rcv_le
      rcases ha with rfl | ha
      · exact Or.inl h2
      · exact Or.inl ((h.acks_le a ha).trans h2)
  packet := fun p hp => by
    rcases Set.mem_insert_iff.mp hp with rfl | hp
    · refine ⟨f.nxt, Nat.le_refl _, Nat.le_refl _, fun x hx => ?_⟩
      rcases List.mem_append.mp hx with hx | hx
      · exact Or.inr (Or.inr ⟨rfl, (h.item x hx).2.1⟩)
      · rw [List.mem_singleton] at hx
        subst hx
        exact Or.inr (Or.inl ⟨rfl, rfl⟩)
    · obtain ⟨r, hr, hle, hall⟩ := h.packet p hp
      refine ⟨r, hr, Nat.le_add_right_of_le hle, fun x hx => ?_⟩
      rcases List.mem_append.mp hx with hx | hx
      · exact hall x hx
      · rw [List.mem_singleton] at hx
        subst hx
        exact Or.inl hle

/-- The first item leaves again, labelled with `una`. -/
theorem resend (h : f.Inv) {x : Item} {items : List Item} (hq : f.items = x :: items) {endp : ℕ}
    (hend : endp ≤ f.una + x.len) :
    Flow.Inv { f with
      items := { x with endp := endp } :: items
      packets := insert (f.una, x.len) f.packets } := by
  have hx : x ∈ f.items := by rw [hq]; exact List.mem_cons_self ..
  have hrest : ∀ y ∈ items, y ∈ f.items := fun y hy => by
    rw [hq]; exact List.mem_cons_of_mem x hy
  have hsorted := h.sorted
  rw [hq, List.pairwise_cons] at hsorted
  obtain ⟨hune, hnxt, hpos, -⟩ := h.item x hx
  -- the item keeps its place, so what was said about it still holds
  have hlift : ∀ P : ℕ → ℕ → Prop, (∀ y ∈ f.items, P y.start y.len) →
      ∀ y ∈ { x with endp := endp } :: items, P y.start y.len := fun P hP y hy => by
    rcases List.mem_cons.mp hy with rfl | hy
    · exact hP x hx
    · exact hP y (hrest y hy)
  refine ⟨h.una_le, h.rcv_le, h.acks_le, ?_, fun y hy => ?_, ?_, fun p hp => ?_⟩
  · exact List.pairwise_cons.mpr ⟨hsorted.1, hsorted.2⟩
  · rcases List.mem_cons.mp hy with rfl | hy
    · exact ⟨hune, hnxt, hpos, hend⟩
    · exact h.item y (hrest y hy)
  · exact hlift (fun start len => ∀ c a, c = f.una ∨ c ∈ f.acks → a = f.rcv ∨ a ∈ f.acks →
      f.una ≤ c → c < a → a ≤ start ∨ c + len ≤ a ∨ start < c ∧ f.una + len ≤ c) h.clear
  · rcases Set.mem_insert_iff.mp hp with rfl | hp
    · refine ⟨x.start, hune, hnxt, fun y hy => ?_⟩
      rcases List.mem_cons.mp hy with rfl | hy
      · exact Or.inr (Or.inl ⟨rfl, rfl⟩)
      · exact Or.inl (hsorted.1 y hy)
    · obtain ⟨r, hr, hle, hall⟩ := h.packet p hp
      exact ⟨r, hr, hle, hlift (fun start len => r + p.2 ≤ start ∨ start = r ∧ len = p.2 ∨
        p.1 = r ∧ start + len ≤ r) hall⟩

/-- The receiver takes the packet it waits for. -/
theorem receive (h : f.Inv) {len : ℕ} (hp : (f.rcv, len) ∈ f.packets) :
    Flow.Inv { f with rcv := f.rcv + len } := by
  obtain ⟨r, hr, hle, hall⟩ := h.packet _ hp
  simp only at hr hle hall
  refine ⟨Nat.le_add_right_of_le h.una_le, by simp only; omega,
    fun a ha => Nat.le_add_right_of_le (h.acks_le a ha), h.sorted, h.item, ?_, h.packet⟩
  intro x hx c a hc ha hlo hlt
  simp only at hc ha hlo ⊢
  rcases ha with rfl | ha
  swap
  · exact h.clear x hx c a hc (Or.inr ha) hlo hlt
  have hbound : c ≤ f.rcv := by
    rcases hc with rfl | hc
    · exact h.una_le
    · exact h.acks_le c hc
  obtain ⟨huna, -, hpos, -⟩ := h.item x hx
  -- where the piece has its place: before the item, at the item, or behind it
  rcases hall x hx with hbefore | ⟨-, hsame⟩ | ⟨hhere, hbehind⟩
  · exact Or.inl (by omega)
  · exact Or.inr (Or.inl (by omega))
  · rcases Nat.lt_or_eq_of_le hbound with hlt' | heq
    · have := h.clear x hx c f.rcv hc (Or.inl rfl) hlo hlt'
      omega
    · exact Or.inr (Or.inr ⟨by omega, by omega⟩)

/-- The sender takes a newer acknowledgement and drops the items that seem to end before it. -/
theorem take (h : f.Inv) {a : ℕ} (ha : a ∈ f.acks) (hlt : f.una < a) :
    Flow.Inv { f with una := a, items := f.items.dropWhile fun x => x.endp ≤ a } := by
  set items := f.items.dropWhile fun x => x.endp ≤ a with hitems
  have hsuf : items <:+ f.items := List.dropWhile_suffix _
  have hsorted := List.Pairwise.sublist hsuf.sublist h.sorted
  -- the first item that stays starts behind `a`, by `clear` for the step from `una` to `a`
  have hstart : ∀ x ∈ items, a ≤ x.start := by
    cases hcase : items with
    | nil => simp
    | cons y rest =>
      have hy : y ∈ f.items := hsuf.subset (by rw [hcase]; exact List.mem_cons_self ..)
      have hkeep : ¬ y.endp ≤ a := by
        have := List.head_dropWhile_not (fun x : Item => decide (x.endp ≤ a)) (l := f.items)
          (by rw [← hitems, hcase]; simp)
        simp only [← hitems, hcase, List.head_cons, decide_eq_false_iff_not] at this
        exact this
      obtain ⟨huna, -, -, hend⟩ := h.item y hy
      have hfirst : a ≤ y.start := by
        have := h.clear y hy f.una a (Or.inl rfl) (Or.inr ha) (Nat.le_refl _) hlt
        omega
      rw [hcase, List.pairwise_cons] at hsorted
      intro x hx
      rcases List.mem_cons.mp hx with rfl | hx
      · exact hfirst
      · have := hsorted.1 x hx
        omega
  refine ⟨h.acks_le a ha, h.rcv_le, h.acks_le, hsorted, fun x hx => ?_, ?_, fun p hp => ?_⟩
  · obtain ⟨-, hnxt, hpos, hend⟩ := h.item x (hsuf.subset hx)
    exact ⟨hstart x hx, hnxt, hpos, by simp only; omega⟩
  · intro x hx c a' hc ha' hle hlt'
    have hxm := hsuf.subset hx
    have hxs := hstart x hx
    simp only at hc ha' hle ⊢
    have hcm : c ∈ f.acks := by
      rcases hc with rfl | hc
      · exact ha
      · exact hc
    rcases h.clear x hxm c a' (Or.inr hcm) ha' (by omega) hlt' with h1 | h1 | ⟨h1, -⟩
    · exact Or.inl h1
    · exact Or.inr (Or.inl h1)
    · have := h.clear x hxm a c (Or.inr ha) (Or.inr hcm) (by omega) (by omega)
      omega
  · obtain ⟨r, hr, hle, hall⟩ := h.packet p hp
    exact ⟨r, hr, hle, fun x hx => hall x (hsuf.subset hx)⟩

/-- Without items every acknowledgement from `una` on can be taken. -/
theorem take_nil (h : f.Inv) (hnil : f.items = []) {a : ℕ} (ha : a ∈ f.acks) :
    Flow.Inv { f with una := a } := by
  refine ⟨h.acks_le a ha, h.rcv_le, h.acks_le, h.sorted, ?_, ?_, h.packet⟩
  all_goals
    intro x hx
    have hx : x ∈ f.items := hx
    rw [hnil] at hx
    exact absurd hx List.not_mem_nil

end Flow.Inv

end ToyIP.Lib.AckFlow
