import Mathlib.Data.List.Nodup
import Mathlib.Tactic

/-! # Objects with a reference count

Objects lie in a `Store` under numbers, each with its count. `hold` raises the count, `unhold`
lowers it and `release` gives the memory back if the count is below 1; on an object whose memory has
been given back none of them has a result. The store remembers the order in which objects went.

A store is `Tidy` if no object has gone twice, none that has gone is there, and the numbers from
`fresh` on are unused. Of a tidy store `dropAll` takes a list of different objects with count at
most 1, and nothing else. -/

namespace ToyIP.Lib.RefCount

variable {α : Type*}

/-- Each object with its count. -/
structure Store (α : Type*) where
  cells : ℕ → Option (α × ℤ)
  released : List ℕ
  fresh : ℕ

namespace Store

def empty : Store α := ⟨fun _ => none, [], 0⟩

/-- The store with another object or count under a number. -/
def set (s : Store α) (b : ℕ) (c : α × ℤ) : Store α :=
  { s with cells := fun a => if a = b then some c else s.cells a }

/-- The store without an object. -/
def kill (s : Store α) (b : ℕ) : Store α :=
  { s with cells := fun a => if a = b then none else s.cells a, released := s.released ++ [b] }

/-- A new object, which nobody holds; its number is `fresh`. -/
def alloc (s : Store α) (a : α) : Store α := { s.set s.fresh (a, 0) with fresh := s.fresh + 1 }

def hold (s : Store α) (b : ℕ) : Option (Store α) := (s.cells b).map fun c => s.set b (c.1, c.2 + 1)

def unhold (s : Store α) (b : ℕ) : Option (Store α) := (s.cells b).map fun c => s.set b (c.1, c.2 - 1)

def release (s : Store α) (b : ℕ) : Option (Store α) :=
  (s.cells b).map fun c => if c.2 < 1 then s.kill b else s

def drop (s : Store α) (b : ℕ) : Option (Store α) := (s.unhold b).bind fun s => s.release b

def dropAll : List ℕ → Store α → Option (Store α)
  | [], s => some s
  | b :: q, s => (s.drop b).bind (dropAll q)

/-- No object has gone twice, and none that has gone is there. -/
structure Tidy (s : Store α) : Prop where
  nodup : s.released.Nodup
  gone : ∀ b ∈ s.released, s.cells b = none ∧ b < s.fresh
  fresh : ∀ b, s.fresh ≤ b → s.cells b = none

end Store

open Store

section Store

variable {s : Store α} {a b : ℕ} {x : α} {n : ℤ}

@[simp] theorem cells_set_self (c : α × ℤ) : (s.set b c).cells b = some c := if_pos rfl

theorem cells_set_of_ne (c : α × ℤ) (h : a ≠ b) : (s.set b c).cells a = s.cells a := if_neg h

@[simp] theorem cells_kill_self : (s.kill b).cells b = none := if_pos rfl

theorem cells_kill_of_ne (h : a ≠ b) : (s.kill b).cells a = s.cells a := if_neg h

@[simp] theorem released_set (c : α × ℤ) : (s.set b c).released = s.released := rfl

@[simp] theorem fresh_set (c : α × ℤ) : (s.set b c).fresh = s.fresh := rfl

@[simp] theorem cells_alloc_self (a : α) : (s.alloc a).cells s.fresh = some (a, 0) := if_pos rfl

theorem cells_alloc_of_ne (a : α) (h : b ≠ s.fresh) : (s.alloc a).cells b = s.cells b := if_neg h

theorem Store.Tidy.lt (h : s.Tidy) (hb : s.cells b ≠ none) : b < s.fresh := by
  by_contra hle
  exact hb (h.fresh b (Nat.le_of_not_lt hle))

theorem tidy_empty : (empty : Store α).Tidy := ⟨List.nodup_nil, fun _ h => (by cases h), fun _ _ => rfl⟩

theorem Store.Tidy.alloc (h : s.Tidy) (a : α) : (s.alloc a).Tidy := by
  refine ⟨h.nodup, fun b hb => ?_, fun b hb => ?_⟩
  · obtain ⟨hnone, hlt⟩ := h.gone b hb
    exact ⟨(cells_alloc_of_ne a hlt.ne).trans hnone, Nat.lt_succ_of_lt hlt⟩
  · have hlt : s.fresh < b := hb
    exact (cells_alloc_of_ne a hlt.ne').trans (h.fresh b hlt.le)

theorem Store.Tidy.set (h : s.Tidy) (hb : s.cells b ≠ none) (c : α × ℤ) : (s.set b c).Tidy := by
  refine ⟨h.nodup, fun a ha => ⟨?_, (h.gone a ha).2⟩, fun a ha => ?_⟩
  · have hne : a ≠ b := fun heq => hb (heq ▸ (h.gone a ha).1)
    exact (cells_set_of_ne c hne).trans (h.gone a ha).1
  · have hne : a ≠ b := fun heq => absurd (h.lt hb) (Nat.not_lt.mpr (heq ▸ ha))
    exact (cells_set_of_ne c hne).trans (h.fresh a ha)

theorem Store.Tidy.kill (h : s.Tidy) (hb : s.cells b ≠ none) : (s.kill b).Tidy := by
  have hnot : b ∉ s.released := fun hin => hb (h.gone b hin).1
  refine ⟨?_, fun a ha => ?_, fun a ha => ?_⟩
  · exact List.nodup_append.mpr ⟨h.nodup, List.nodup_singleton b, fun x hx y hy heq =>
      hnot (List.mem_singleton.mp hy ▸ heq ▸ hx)⟩
  · rcases List.mem_append.mp ha with ha | ha
    · have hne : a ≠ b := fun heq => hnot (heq ▸ ha)
      exact ⟨(cells_kill_of_ne hne).trans (h.gone a ha).1, (h.gone a ha).2⟩
    · rw [List.mem_singleton.mp ha]
      exact ⟨cells_kill_self, h.lt hb⟩
  · by_cases heq : a = b
    · rw [heq]
      exact cells_kill_self
    · exact (cells_kill_of_ne heq).trans (h.fresh a ha)

/-! ### The operations -/

theorem hold_eq (h : s.cells b = some (x, n)) : s.hold b = some (s.set b (x, n + 1)) := by
  rw [hold, h]
  rfl

theorem release_eq (h : s.cells b = some (x, n)) (hn : n < 1) : s.release b = some (s.kill b) := by
  rw [release, h, Option.map_some, if_pos hn]

/-- Somebody holds the object, so it stays. -/
theorem release_held (h : s.cells b = some (x, n)) (hn : 1 ≤ n) : s.release b = some s := by
  rw [release, h, Option.map_some, if_neg (Int.not_lt.mpr hn)]

theorem kill_set (c : α × ℤ) : (s.set b c).kill b = s.kill b := by
  unfold kill Store.set
  congr 1
  funext a
  by_cases h : a = b <;> simp [h]

theorem drop_eq (h : s.cells b = some (x, n)) (hn : n ≤ 1) : s.drop b = some (s.kill b) := by
  have hset : s.unhold b = some (s.set b (x, n - 1)) := by
    rw [unhold, h]
    rfl
  rw [drop, hset, Option.bind_some, release_eq (cells_set_self _) (by omega), kill_set]

/-- The store without the objects of a list. -/
def killAll (s : Store α) (q : List ℕ) : Store α :=
  { s with cells := fun a => if a ∈ q then none else s.cells a, released := s.released ++ q }

theorem cells_killAll_of_not_mem {q : List ℕ} (h : a ∉ q) : (killAll s q).cells a = s.cells a :=
  if_neg h

theorem killAll_nil : killAll s [] = s := by simp [killAll]

theorem killAll_cons (b : ℕ) (q : List ℕ) : killAll (s.kill b) q = killAll s (b :: q) := by
  simp only [killAll, kill, List.mem_cons, List.append_assoc, List.cons_append, List.nil_append]
  congr 1
  funext a
  by_cases hq : a ∈ q <;> by_cases hb : a = b <;> simp [hq, hb]

theorem dropAll_append : ∀ (q r : List ℕ) (s : Store α),
    dropAll (q ++ r) s = (dropAll q s).bind (dropAll r)
  | [], _, _ => rfl
  | b :: q, r, s => by
    rw [List.cons_append, dropAll, dropAll, Option.bind_assoc]
    congr 1
    funext s'
    exact dropAll_append q r s'

theorem dropAll_eq : ∀ {q : List ℕ} {s : Store α}, q.Nodup →
    (∀ b ∈ q, ∃ x n, s.cells b = some (x, n) ∧ n ≤ 1) → dropAll q s = some (killAll s q)
  | [], s, _, _ => by rw [dropAll, killAll_nil]
  | b :: q, s, hnodup, hheld => by
    obtain ⟨hb, hq⟩ := List.nodup_cons.mp hnodup
    obtain ⟨x, n, hcell, hn⟩ := hheld b (List.mem_cons_self ..)
    have hrest : ∀ c ∈ q, ∃ x n, (s.kill b).cells c = some (x, n) ∧ n ≤ 1 := by
      intro c hc
      have hne : c ≠ b := fun heq => hb (heq ▸ hc)
      rw [cells_kill_of_ne hne]
      exact hheld c (List.mem_cons_of_mem _ hc)
    rw [dropAll, drop_eq hcell hn, Option.bind_some, dropAll_eq hq hrest, killAll_cons]

theorem tidy_killAll : ∀ {q : List ℕ} {s : Store α}, s.Tidy → q.Nodup → (∀ b ∈ q, s.cells b ≠ none) →
    (killAll s q).Tidy
  | [], _, h, _, _ => by rwa [killAll_nil]
  | b :: q, s, h, hnodup, hq => by
    obtain ⟨hb, hnodup'⟩ := List.nodup_cons.mp hnodup
    rw [← killAll_cons]
    refine tidy_killAll (h.kill (hq b (List.mem_cons_self ..))) hnodup' fun c hc => ?_
    have hne : c ≠ b := fun heq => hb (heq ▸ hc)
    rw [cells_kill_of_ne hne]
    exact hq c (List.mem_cons_of_mem _ hc)

/-! ### Other objects -/

/-- Nothing happens to the object `b`. -/
structure Spares (b : ℕ) (s s' : Store α) : Prop where
  cells : s'.cells b = s.cells b
  released : s'.released.count b = s.released.count b

variable {s' s'' : Store α} {c : ℕ} {q : List ℕ}

theorem Spares.refl (b : ℕ) (s : Store α) : Spares b s s := ⟨rfl, rfl⟩

theorem Spares.trans (h : Spares b s s') (h' : Spares b s' s'') : Spares b s s'' :=
  ⟨h'.cells.trans h.cells, h'.released.trans h.released⟩

theorem spares_set (hne : b ≠ c) (x : α × ℤ) : Spares b s (s.set c x) := ⟨cells_set_of_ne x hne, rfl⟩

theorem spares_kill (hne : b ≠ c) : Spares b s (s.kill c) := by
  refine ⟨cells_kill_of_ne hne, ?_⟩
  show (s.released ++ [c]).count b = _
  rw [List.count_append, List.count_singleton, if_neg (by simpa using hne.symm), Nat.add_zero]

theorem spares_drop (hne : b ≠ c) (h : s.drop c = some s') : Spares b s s' := by
  obtain ⟨s₁, h₁, h₂⟩ := Option.bind_eq_some_iff.mp h
  obtain ⟨x, -, rfl⟩ := Option.map_eq_some_iff.mp h₁
  obtain ⟨y, -, rfl⟩ := Option.map_eq_some_iff.mp h₂
  split_ifs
  · exact (spares_set hne _).trans (spares_kill hne)
  · exact spares_set hne _

theorem spares_dropAll : ∀ {q : List ℕ} {s : Store α}, b ∉ q → dropAll q s = some s' → Spares b s s'
  | [], s, _, h => Option.some.inj h ▸ .refl b s
  | c :: q, s, hb, h => by
    obtain ⟨hne, hb⟩ := not_or.mp (List.mem_cons.not.mp hb)
    obtain ⟨s₁, h₁, h₂⟩ := Option.bind_eq_some_iff.mp h
    exact (spares_drop hne h₁).trans (spares_dropAll hb h₂)

/-! ### What an object holds -/

/-- The object is there and holds `x`, or it has gone. -/
def Lasts (b : ℕ) (x : α) (s : Store α) : Prop := b ∈ s.released ∨ ∃ n, s.cells b = some (x, n)

theorem Lasts.set {y : α} {m : ℤ} (h : Lasts b x s) (hc : s.cells c = some (y, m)) (n : ℤ) :
    Lasts b x (s.set c (y, n)) := by
  rcases h with hgone | ⟨k, hk⟩
  · exact .inl hgone
  · by_cases hbc : b = c
    · subst hbc
      obtain ⟨rfl, -⟩ := Prod.mk.inj (Option.some.inj (hk.symm.trans hc))
      exact .inr ⟨n, cells_set_self _⟩
    · exact .inr ⟨k, (cells_set_of_ne _ hbc).trans hk⟩

theorem Lasts.kill (h : Lasts b x s) (c : ℕ) : Lasts b x (s.kill c) := by
  rcases h with hgone | ⟨k, hk⟩
  · exact .inl (List.mem_append_left _ hgone)
  · by_cases hbc : b = c
    · subst hbc
      exact .inl (List.mem_append_right _ (List.mem_singleton_self b))
    · exact .inr ⟨k, (cells_kill_of_ne hbc).trans hk⟩

theorem Lasts.hold (h : Lasts b x s) (hrun : s.hold c = some s') : Lasts b x s' := by
  obtain ⟨⟨y, m⟩, hc, rfl⟩ := Option.map_eq_some_iff.mp hrun
  exact h.set hc (m + 1)

theorem Lasts.release (h : Lasts b x s) (hrun : s.release c = some s') : Lasts b x s' := by
  obtain ⟨y, -, rfl⟩ := Option.map_eq_some_iff.mp hrun
  split_ifs
  · exact h.kill c
  · exact h

theorem Lasts.drop (h : Lasts b x s) (hrun : s.drop c = some s') : Lasts b x s' := by
  obtain ⟨s₁, h₁, h₂⟩ := Option.bind_eq_some_iff.mp hrun
  obtain ⟨⟨y, m⟩, hc, rfl⟩ := Option.map_eq_some_iff.mp h₁
  exact (h.set hc (m - 1)).release h₂

theorem Lasts.dropAll : ∀ {q : List ℕ} {s : Store α}, Lasts b x s → dropAll q s = some s' → Lasts b x s'
  | [], _, h, hrun => Option.some.inj hrun ▸ h
  | _ :: _, _, h, hrun => by
    obtain ⟨s₁, h₁, h₂⟩ := Option.bind_eq_some_iff.mp hrun
    exact (h.drop h₁).dropAll h₂

end Store

end ToyIP.Lib.RefCount
