import Mathlib.Data.List.Nodup
import Mathlib.Data.List.Perm.Basic

/-! # A resequencing queue that inserts behind the first greater entry

Items `0, …, m-1` arrive in some order. The machine holds the number `e` of the next item it can
deliver and a queue of items that came too early. An arriving item `e` is delivered, and the queue
is drained from its head as long as the head is the next item; any other item is put into the queue
*behind* the first entry greater than it, at the end if there is none.

As long as every early item is greater than all queued ones the queue is sorted and nothing is left
behind (`sorted_of_no321`). An item put behind a greater one is never delivered again
(`stuck_arrive`). So the machine delivers everything if and only if no three items arrive in
decreasing order: `delivers_iff`. -/

namespace ToyIP.Lib.Resequence

/-- Put `i` behind the first entry greater than it, at the end if there is none. -/
def insertBehind (i : ℕ) : List ℕ → List ℕ
  | [] => [i]
  | j :: q => if i < j then j :: i :: q else j :: insertBehind i q

/-- Deliver from the head of the queue as long as it is the next item. -/
def drain : ℕ → List ℕ → ℕ × List ℕ
  | e, [] => (e, [])
  | e, j :: q => if j = e then drain (e + 1) q else (e, j :: q)

/-- The arrival of an item. -/
def arrive (s : ℕ × List ℕ) (i : ℕ) : ℕ × List ℕ :=
  if i = s.1 then drain (s.1 + 1) s.2 else (s.1, insertBehind i s.2)

/-- The machine after a list of arrivals. -/
def deliver (l : List ℕ) : ℕ × List ℕ := l.foldl arrive (0, [])

/-- No three items arrive in decreasing order. -/
def No321 (l : List ℕ) : Prop := ∀ a b c, [a, b, c].Sublist l → ¬ (b < a ∧ c < b)

/-! ### Insertion and draining -/

theorem mem_insertBehind {i x : ℕ} : ∀ {q : List ℕ}, x ∈ insertBehind i q ↔ x = i ∨ x ∈ q
  | [] => by simp [insertBehind]
  | j :: q => by
    unfold insertBehind
    split_ifs
    · simp only [List.mem_cons]; tauto
    · simp only [List.mem_cons, mem_insertBehind]; tauto

theorem nodup_insertBehind {i : ℕ} : ∀ {q : List ℕ}, i ∉ q → q.Nodup → (insertBehind i q).Nodup
  | [], _, _ => by simp [insertBehind]
  | j :: q, hi, hq => by
    simp only [List.mem_cons, not_or] at hi
    obtain ⟨hj, hq⟩ := List.nodup_cons.mp hq
    unfold insertBehind
    split_ifs
    · simp [hq, hj, hi.2, Ne.symm hi.1]
    · refine List.nodup_cons.mpr ⟨?_, nodup_insertBehind hi.2 hq⟩
      rw [mem_insertBehind]
      rintro (h | h)
      · exact hi.1 h.symm
      · exact hj h

theorem sublist_insertBehind (i : ℕ) : ∀ q : List ℕ, q.Sublist (insertBehind i q)
  | [] => by simp
  | j :: q => by
    unfold insertBehind
    split_ifs
    · exact (List.sublist_cons_self i q).cons_cons j
    · exact (sublist_insertBehind i q).cons_cons j

/-- An item greater than all queued ones goes to the end. -/
theorem insertBehind_of_forall_le {i : ℕ} : ∀ {q : List ℕ}, (∀ j ∈ q, j ≤ i) →
    insertBehind i q = q ++ [i]
  | [], _ => rfl
  | j :: q, h => by
    have hj := h j (by simp)
    unfold insertBehind
    rw [if_neg (by omega), insertBehind_of_forall_le fun x hx => h x (by simp [hx])]
    rfl

/-- An item below a queued one ends up behind a greater entry. -/
theorem exists_behind {i : ℕ} : ∀ {q : List ℕ}, (∃ z ∈ q, i < z) →
    ∃ z, i < z ∧ [z, i].Sublist (insertBehind i q)
  | [], h => by simp at h
  | j :: q, h => by
    unfold insertBehind
    split_ifs with hij
    · exact ⟨j, hij, by simp⟩
    · obtain ⟨z, hz, hiz⟩ := h
      have hz : z ∈ q := by
        rcases List.mem_cons.mp hz with rfl | hz
        · exact absurd hiz hij
        · exact hz
      obtain ⟨y, hy, hs⟩ := exists_behind ⟨z, hz, hiz⟩
      exact ⟨y, hy, hs.cons j⟩

/-- Draining delivers a run of items from `e` on and keeps the rest of the queue. -/
theorem drain_spec : ∀ (q : List ℕ) (e : ℕ), q.Nodup → (∀ x ∈ q, e ≤ x) →
    e ≤ (drain e q).1 ∧ (drain e q).2.Nodup ∧ (∀ x ∈ (drain e q).2, (drain e q).1 ≤ x) ∧
      ∀ x, (x < e ∨ x ∈ q) ↔ (x < (drain e q).1 ∨ x ∈ (drain e q).2)
  | [], e, _, _ => by simp [drain]
  | j :: q, e, hq, he => by
    obtain ⟨hj, hq'⟩ := List.nodup_cons.mp hq
    unfold drain
    split_ifs with h
    · subst h
      have hlt : ∀ x ∈ q, j + 1 ≤ x := fun x hx => by
        have := he x (by simp [hx])
        have : x ≠ j := fun h => hj (h ▸ hx)
        omega
      obtain ⟨h1, h2, h3, h4⟩ := drain_spec q (j + 1) hq' hlt
      refine ⟨by omega, h2, h3, fun x => ?_⟩
      rw [← h4 x, List.mem_cons]
      constructor
      · rintro (h | h | h)
        · left; omega
        · left; omega
        · exact Or.inr h
      · rintro (h | h)
        · rcases Nat.lt_succ_iff_lt_or_eq.mp h with h | h
          · exact Or.inl h
          · exact Or.inr (Or.inl h)
        · exact Or.inr (Or.inr h)
    · exact ⟨Nat.le_refl _, hq, he, fun x => Iff.rfl⟩

/-- A sorted queue is drained until the next item is not in it. -/
theorem drain_sorted : ∀ (q : List ℕ) (e : ℕ), q.Pairwise (· < ·) → (∀ x ∈ q, e ≤ x) →
    (drain e q).2.Pairwise (· < ·) ∧ (drain e q).1 ∉ (drain e q).2
  | [], e, _, _ => by simp [drain]
  | j :: q, e, hq, he => by
    obtain ⟨hj, hq'⟩ := List.pairwise_cons.mp hq
    unfold drain
    split_ifs with h
    · subst h
      exact drain_sorted q (j + 1) hq' fun x hx => hj x hx
    · refine ⟨hq, ?_⟩
      have hje := he j (by simp)
      rw [List.mem_cons, not_or]
      refine ⟨fun h' => h h'.symm, fun h' => ?_⟩
      have := hj e h'; omega

/-- An entry behind a greater one is not drained. -/
theorem drain_stuck {a b : ℕ} (hab : b < a) : ∀ (q : List ℕ) (e : ℕ), q.Nodup →
    (∀ x ∈ q, e ≤ x) → [a, b].Sublist q → [a, b].Sublist (drain e q).2
  | [], _, _, _, h => by simp at h
  | j :: q, e, hq, he, h => by
    obtain ⟨hj, hq'⟩ := List.nodup_cons.mp hq
    unfold drain
    split_ifs with hje
    · subst hje
      have hlt : ∀ x ∈ q, j + 1 ≤ x := fun x hx => by
        have := he x (by simp [hx])
        have : x ≠ j := fun h => hj (h ▸ hx)
        omega
      refine drain_stuck hab q (j + 1) hq' hlt ?_
      rcases List.cons_sublist_cons'.mp h with h | ⟨rfl, hb⟩
      · exact h
      · have := he b (by simp [List.singleton_sublist.mp hb]); omega
    · exact h

/-! ### The invariant of every run -/

/-- After the arrivals `p` every arrived item is delivered or queued. -/
structure Holds (p : List ℕ) (s : ℕ × List ℕ) : Prop where
  nodup : s.2.Nodup
  le : ∀ x ∈ s.2, s.1 ≤ x
  mem : ∀ x, x ∈ p ↔ x < s.1 ∨ x ∈ s.2

theorem holds_nil : Holds [] (0, []) := ⟨by simp, by simp, by simp⟩

theorem Holds.arrive {p : List ℕ} {s : ℕ × List ℕ} (h : Holds p s) {i : ℕ} (hi : i ∉ p) :
    Holds (p ++ [i]) (arrive s i) := by
  rw [h.mem, not_or] at hi
  unfold Resequence.arrive
  split_ifs with hie
  · have hlt : ∀ x ∈ s.2, s.1 + 1 ≤ x := fun x hx => by
      have := h.le x hx
      have : x ≠ s.1 := fun hxe => hi.2 (by rw [hie, ← hxe]; exact hx)
      omega
    obtain ⟨-, h2, h3, h4⟩ := drain_spec s.2 (s.1 + 1) h.nodup hlt
    refine ⟨h2, h3, fun x => ?_⟩
    rw [← h4 x, List.mem_append, h.mem, List.mem_singleton, hie]
    constructor
    · rintro ((h | h) | h)
      · left; omega
      · exact Or.inr h
      · left; omega
    · rintro (h | h)
      · rcases Nat.lt_succ_iff_lt_or_eq.mp h with h | h
        · exact Or.inl (Or.inl h)
        · exact Or.inr h
      · exact Or.inl (Or.inr h)
  · refine ⟨nodup_insertBehind hi.2 h.nodup, fun x hx => ?_, fun x => ?_⟩
    · rcases mem_insertBehind.mp hx with rfl | hx
      · exact Nat.not_lt.mp hi.1
      · exact h.le x hx
    · rw [List.mem_append, h.mem, List.mem_singleton, mem_insertBehind]
      tauto

theorem holds_foldl : ∀ (l p : List ℕ) (s : ℕ × List ℕ), Holds p s → (p ++ l).Nodup →
    Holds (p ++ l) (l.foldl arrive s)
  | [], p, s, h, _ => by simpa using h
  | i :: l, p, s, h, hn => by
    have hi : i ∉ p := by
      rw [List.nodup_append] at hn
      exact fun hip => hn.2.2 i hip i (by simp) rfl
    have hn' : ((p ++ [i]) ++ l).Nodup := by simpa using hn
    simpa using holds_foldl l (p ++ [i]) (Resequence.arrive s i) (h.arrive hi) hn'

theorem holds_deliver {l : List ℕ} (hl : l.Nodup) : Holds l (deliver l) := by
  simpa [deliver] using holds_foldl l [] (0, []) holds_nil (by simpa using hl)

/-! ### Without a decreasing triple nothing is left behind -/

/-- The queue is sorted and the next item is not in it. -/
def Sorted (s : ℕ × List ℕ) : Prop := s.2.Pairwise (· < ·) ∧ s.1 ∉ s.2

theorem sorted_arrive {p : List ℕ} {s : ℕ × List ℕ} (h : Holds p s) (hs : Sorted s) {i : ℕ}
    (hi : i ∉ p) (hgt : i ≠ s.1 → ∀ j ∈ s.2, j ≤ i) : Sorted (arrive s i) := by
  rw [h.mem, not_or] at hi
  unfold arrive
  split_ifs with hie
  · refine drain_sorted s.2 (s.1 + 1) hs.1 fun x hx => ?_
    have := h.le x hx
    have : x ≠ s.1 := fun hxe => hs.2 (hxe ▸ hx)
    omega
  · have hall := hgt hie
    rw [insertBehind_of_forall_le hall]
    refine ⟨List.pairwise_append.mpr ⟨hs.1, by simp, fun x hx y hy => ?_⟩, ?_⟩
    · rw [List.mem_singleton] at hy
      subst hy
      have := hall x hx
      have : x ≠ y := fun hxy => hi.2 (hxy ▸ hx)
      omega
    · rw [List.mem_append, List.mem_singleton, not_or]
      exact ⟨hs.2, fun h' => hie h'.symm⟩

theorem sorted_foldl {m : ℕ} : ∀ (l p : List ℕ) (s : ℕ × List ℕ), Holds p s → Sorted s →
    (p ++ l).Perm (List.range m) → No321 (p ++ l) → Sorted (l.foldl arrive s)
  | [], _, _, _, hs, _, _ => hs
  | i :: l, p, s, h, hs, hperm, hno => by
    have hn : (p ++ i :: l).Nodup := hperm.nodup_iff.mpr List.nodup_range
    have hi : i ∉ p := by
      rw [List.nodup_append] at hn
      exact fun hip => hn.2.2 i hip i (by simp) rfl
    have hgt : i ≠ s.1 → ∀ j ∈ s.2, j ≤ i := by
      intro hie j hj
      by_contra hlt
      -- the next item is below `i`, so it is still to come, and `j`, `i`, `s.1` is a triple
      have hei : s.1 < i := by
        have := (h.mem i).not.mp hi
        omega
      have hem : s.1 ∈ p ++ i :: l := by
        rw [hperm.mem_iff, List.mem_range]
        have : i ∈ p ++ i :: l := by simp
        rw [hperm.mem_iff, List.mem_range] at this
        omega
      have hep : s.1 ∉ p := by
        rw [h.mem]
        rintro (h' | h')
        · omega
        · exact hs.2 h'
      have hel : s.1 ∈ l := by
        rcases List.mem_append.mp hem with h' | h'
        · exact absurd h' hep
        · exact (List.mem_cons.mp h').resolve_left (fun h' => hie h'.symm)
      have hjp : j ∈ p := (h.mem j).mpr (Or.inr hj)
      have hsub : [j, i, s.1].Sublist (p ++ i :: l) :=
        (List.singleton_sublist.mpr hjp).append
          ((List.singleton_sublist.mpr hel).cons_cons i)
      exact hno j i s.1 hsub ⟨by omega, hei⟩
    have hassoc : (p ++ [i]) ++ l = p ++ i :: l := by simp
    refine sorted_foldl (m := m) l (p ++ [i]) _ (h.arrive hi) (sorted_arrive h hs hi hgt) ?_ ?_
    · rw [hassoc]; exact hperm
    · rw [hassoc]; exact hno

theorem sorted_of_no321 {l : List ℕ} {m : ℕ} (hl : l.Perm (List.range m)) (hno : No321 l) :
    Sorted (deliver l) :=
  sorted_foldl l [] (0, []) holds_nil ⟨by simp, by simp⟩ (by simpa using hl) (by simpa using hno)

/-! ### After a decreasing triple something is left behind -/

theorem stuck_arrive {a b i : ℕ} {p : List ℕ} {s : ℕ × List ℕ} (h : Holds p s) (hab : b < a)
    (hi : i ∉ p) (hs : [a, b].Sublist s.2) : [a, b].Sublist (arrive s i).2 := by
  rw [h.mem, not_or] at hi
  unfold arrive
  split_ifs with hie
  · refine drain_stuck hab s.2 (s.1 + 1) h.nodup (fun x hx => ?_) hs
    have := h.le x hx
    have : x ≠ s.1 := fun hxe => hi.2 (by rw [hie, ← hxe]; exact hx)
    omega
  · exact hs.trans (sublist_insertBehind i s.2)

theorem stuck_foldl {a b : ℕ} (hab : b < a) : ∀ (l p : List ℕ) (s : ℕ × List ℕ), Holds p s →
    (p ++ l).Nodup → [a, b].Sublist s.2 → [a, b].Sublist (l.foldl arrive s).2
  | [], _, _, _, _, hs => hs
  | i :: l, p, s, h, hn, hs => by
    have hi : i ∉ p := by
      rw [List.nodup_append] at hn
      exact fun hip => hn.2.2 i hip i (by simp) rfl
    exact stuck_foldl hab l (p ++ [i]) _ (h.arrive hi) (by simpa using hn)
      (stuck_arrive h hab hi hs)

/-- The middle one of three items in decreasing order is put behind a greater entry. -/
theorem stuck_of_triple {l : List ℕ} (hl : l.Nodup) {a b c : ℕ} (hsub : [a, b, c].Sublist l)
    (hba : b < a) (hcb : c < b) : (deliver l).2 ≠ [] := by
  obtain ⟨p, r, rfl, ha, hbc⟩ := List.cons_sublist_iff.mp hsub
  obtain ⟨q, r, rfl, hb, hc⟩ := List.cons_sublist_iff.mp hbc
  rw [List.singleton_sublist] at hc
  obtain ⟨q, q', rfl⟩ := List.append_of_mem hb
  have hn1 : ((p ++ q) ++ b :: (q' ++ r)).Nodup := by simpa using hl
  have hpq : (p ++ q).Nodup := (List.nodup_append.mp hn1).1
  have hdisj := (List.nodup_append.mp hn1).2.2
  have h := holds_deliver hpq
  set s := deliver (p ++ q) with hs
  have hbp : b ∉ p ++ q := fun h' => hdisj b h' b (by simp) rfl
  have hcp : c ∉ p ++ q := fun h' => hdisj c h' c (by simp [hc]) rfl
  rw [h.mem, not_or] at hcp
  have has : a ∈ s.2 := by
    have : a ∈ p ++ q := by simp [ha]
    rcases (h.mem a).mp this with h' | h'
    · omega
    · exact h'
  have hbe : b ≠ s.1 := by omega
  obtain ⟨z, hz, hzs⟩ := exists_behind (q := s.2) ⟨a, has, hba⟩
  have hstep : [z, b].Sublist (arrive s b).2 := by
    unfold arrive; rw [if_neg hbe]; exact hzs
  have hend := stuck_foldl hz (q' ++ r) ((p ++ q) ++ [b]) _ (h.arrive hbp) (by simpa using hn1)
    hstep
  have hfold : deliver (p ++ ((q ++ b :: q') ++ r)) = (q' ++ r).foldl arrive (arrive s b) := by
    rw [hs, deliver, deliver]
    simp [List.foldl_append]
  rw [hfold]
  intro h'
  rw [h'] at hend
  simp at hend

/-! ### The exact condition -/

theorem fst_deliver_of_empty {l : List ℕ} {m : ℕ} (hl : l.Perm (List.range m))
    (h : (deliver l).2 = []) : (deliver l).1 = m := by
  have hd := holds_deliver (hl.nodup_iff.mpr List.nodup_range)
  refine Nat.le_antisymm ?_ ?_
  · by_contra hlt
    have : m ∈ l := (hd.mem m).mpr (Or.inl (by omega))
    rw [hl.mem_iff, List.mem_range] at this
    omega
  · by_contra hlt
    have : (deliver l).1 ∈ l := by
      rw [hl.mem_iff, List.mem_range]; omega
    rcases (hd.mem _).mp this with h' | h'
    · omega
    · rw [h] at h'; simp at h'

/-- **Everything is delivered if and only if no three items arrive in decreasing order.** -/
theorem delivers_iff {l : List ℕ} {m : ℕ} (hl : l.Perm (List.range m)) :
    (deliver l).2 = [] ↔ No321 l := by
  have hn : l.Nodup := hl.nodup_iff.mpr List.nodup_range
  constructor
  · intro h a b c hsub habc
    exact stuck_of_triple hn hsub habc.1 habc.2 h
  · intro hno
    have hs := sorted_of_no321 hl hno
    have hd := holds_deliver hn
    by_contra hne
    obtain ⟨x, hx⟩ := List.exists_mem_of_ne_nil _ hne
    -- an item is queued, so the next one is below `m`; it arrived, and it is nowhere
    have hle := hd.le x hx
    have hxl : x ∈ l := (hd.mem x).mpr (Or.inr hx)
    have hem : (deliver l).1 ∈ l := by
      rw [hl.mem_iff, List.mem_range] at hxl ⊢; omega
    rcases (hd.mem _).mp hem with h' | h'
    · omega
    · exact hs.2 h'

end ToyIP.Lib.Resequence
