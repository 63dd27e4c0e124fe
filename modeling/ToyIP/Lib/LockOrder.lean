import Mathlib.Algebra.BigOperators.Group.Finset.Basic
import Mathlib.Algebra.GroupWithZero.Nat
import Mathlib.Algebra.Order.BigOperators.Group.Finset
import Mathlib.Data.Fintype.EquivFin
import Mathlib.Logic.Relation
import ToyIP.Lib.Run

/-! # Threads that take locks

A program is reduced to what it does with its locks. `Code` is the syntax: a locked section, a
branch, a loop, a sleep in which the thread waits for something outside. A thread has the locks it
holds and what is left to do; `step` runs one thread by one step. A lock is taken in one of two
modes, and only `Mode.shared` goes with itself.

The locks have ranks. `Code.Within rank b c` says that `c` only takes locks of rank `b` or more, each
one below those that it takes while holding it, and that it never sleeps in a locked section. In a
system of such threads nobody waits in a circle (`not_waits_self`), a sleeping thread holds nothing
(`held_of_asleep`), and those who hold locks can release them all by themselves (`exists_release`).
A thread that comes to a mutex it holds never gets out, and nobody gets the mutex any more
(`doomed_run`). -/

namespace ToyIP.Lib.LockOrder

open ToyIP.Lib.Run

/-- Readers share a lock, writers do not. A mutex is always taken `exclusive`. -/
inductive Mode
  | shared | exclusive
  deriving DecidableEq, Repr

def Mode.excludes : Mode → Mode → Bool
  | .shared, .shared => false
  | _, _ => true

inductive Code (κ : Type*)
  | skip
  | sleep
  | locked (m : Mode) (l : κ) (c : Code κ)
  | seq (c d : Code κ)
  | either (c d : Code κ)
  | loop (c : Code κ)
  deriving DecidableEq, Repr

namespace Code

variable {κ : Type*}

/-- One after the other. -/
def all : List (Code κ) → Code κ
  | [] => skip
  | c :: cs => seq c (all cs)

/-- A branch that may be left out. -/
def opt (c : Code κ) : Code κ := either c skip

end Code

/-- What is left to do: code, and the ends of the sections the thread is in. -/
inductive Item (κ : Type*)
  | code (c : Code κ)
  | unlock (l : κ)
  deriving DecidableEq, Repr

structure Thread (κ : Type*) where
  held : List (Mode × κ) := []
  todo : List (Item κ) := []
  deriving DecidableEq, Repr

inductive Event (τ κ : Type*)
  | call (t : τ) (c : Code κ)
  | go (t : τ) (b : Bool)
  | wake (t : τ)

variable {κ τ : Type*}

/-- The lock the thread comes to next. -/
def Thread.wants (th : Thread κ) : Option (Mode × κ) :=
  match th.todo with
  | .code (.locked m l _) :: _ => some (m, l)
  | _ => none

/-- The thread sleeps. -/
def Thread.Asleep (th : Thread κ) : Prop := ∃ rest, th.todo = .code .sleep :: rest

/-- Nobody holds the lock in a mode that excludes this one. -/
def Free (s : τ → Thread κ) (p : Mode × κ) : Prop :=
  ∀ t, ∀ h ∈ (s t).held, h.2 = p.2 → p.1.excludes h.1 = false

/-- `t` cannot go on before `u` has released a lock. -/
def WaitsFor (s : τ → Thread κ) (t u : τ) : Prop :=
  ∃ p, (s t).wants = some p ∧ ∃ h ∈ (s u).held, h.2 = p.2 ∧ p.1.excludes h.1 = true

theorem exists_waitsFor {s : τ → Thread κ} {t : τ} {p : Mode × κ} (hp : (s t).wants = some p)
    (h : ¬ Free s p) : ∃ u, WaitsFor s t u := by
  simp only [Free, not_forall, Bool.not_eq_false] at h
  obtain ⟨u, k, hk, heq, hex⟩ := h
  exact ⟨u, p, hp, k, hk, heq, hex⟩

section

variable [DecidableEq κ]

/-- One step of a thread by itself; `b` decides the branch it takes. -/
def Thread.next (th : Thread κ) (b : Bool) : Option (Thread κ) :=
  match th.todo with
  | [] => none
  | .code .skip :: rest => some { th with todo := rest }
  | .code .sleep :: _ => none
  | .code (.locked m l c) :: rest =>
    some { held := (m, l) :: th.held, todo := .code c :: .unlock l :: rest }
  | .code (.seq c d) :: rest => some { th with todo := .code c :: .code d :: rest }
  | .code (.either c d) :: rest => some { th with todo := .code (if b then c else d) :: rest }
  | .code (.loop c) :: rest =>
    some { th with todo := if b then .code c :: .code (.loop c) :: rest else rest }
  | .unlock l :: rest => some { held := th.held.eraseP fun h => h.2 = l, todo := rest }

instance [Fintype τ] (s : τ → Thread κ) (p : Mode × κ) : Decidable (Free s p) := by
  unfold Free; infer_instance

variable [Fintype τ] [DecidableEq τ]

/-- A step of the system. A thread without work can call a function, and a thread that comes to a
lock goes on only if the lock is free. -/
def step (s : τ → Thread κ) : Event τ κ → Option (τ → Thread κ)
  | .call t c =>
    match (s t).todo with
    | [] => some (Function.update s t { s t with todo := [.code c] })
    | _ :: _ => none
  | .go t b =>
    if ∀ p ∈ (s t).wants, Free s p then ((s t).next b).map (Function.update s t) else none
  | .wake t =>
    match (s t).todo with
    | .code .sleep :: rest => some (Function.update s t { s t with todo := rest })
    | _ => none

/-- All threads before their first call. -/
def idle : τ → Thread κ := fun _ => {}

/-- **What a step does**: it changes one thread. -/
theorem step_cases {s s' : τ → Thread κ} {e : Event τ κ} (h : step s e = some s') :
    (∃ t c, e = .call t c ∧ (s t).todo = [] ∧
      s' = Function.update s t { s t with todo := [.code c] }) ∨
    (∃ t b th, e = .go t b ∧ (∀ p ∈ (s t).wants, Free s p) ∧ (s t).next b = some th ∧
      s' = Function.update s t th) ∨
    (∃ t rest, e = .wake t ∧ (s t).todo = .code .sleep :: rest ∧
      s' = Function.update s t { s t with todo := rest }) := by
  cases e with
  | call t c =>
    simp only [step] at h
    split at h
    · next hnil => exact .inl ⟨t, c, rfl, hnil, (Option.some.inj h).symm⟩
    · cases h
  | go t b =>
    simp only [step, Option.ite_none_right_eq_some, Option.map_eq_some_iff] at h
    obtain ⟨hfree, th, hth, rfl⟩ := h
    exact .inr (.inl ⟨t, b, th, rfl, hfree, hth, rfl⟩)
  | wake t =>
    simp only [step] at h
    split at h
    · next rest heq => exact .inr (.inr ⟨t, rest, rfl, heq, (Option.some.inj h).symm⟩)
    · cases h

end

/-! ### Ranks -/

/-- The locks that `c` takes have rank `b` or more, and each section only takes locks above its own.
It sleeps only where no lock is held. -/
def Code.Within (rank : κ → ℕ) : ℕ → Code κ → Prop
  | _, .skip => True
  | b, .sleep => b = 0
  | b, .locked _ l c => b ≤ rank l ∧ c.Within rank (rank l + 1)
  | b, .seq c d => c.Within rank b ∧ d.Within rank b
  | b, .either c d => c.Within rank b ∧ d.Within rank b
  | b, .loop c => c.Within rank b

namespace Code

variable {rank : κ → ℕ} {a b : ℕ}

@[simp] theorem within_skip : (skip : Code κ).Within rank b := trivial

@[simp] theorem within_sleep : (sleep : Code κ).Within rank b ↔ b = 0 := Iff.rfl

@[simp] theorem within_locked {m : Mode} {l : κ} {c : Code κ} :
    (locked m l c).Within rank b ↔ b ≤ rank l ∧ c.Within rank (rank l + 1) := Iff.rfl

@[simp] theorem within_seq {c d : Code κ} :
    (seq c d).Within rank b ↔ c.Within rank b ∧ d.Within rank b := Iff.rfl

@[simp] theorem within_either {c d : Code κ} :
    (either c d).Within rank b ↔ c.Within rank b ∧ d.Within rank b := Iff.rfl

@[simp] theorem within_loop {c : Code κ} : (loop c).Within rank b ↔ c.Within rank b := Iff.rfl

@[simp] theorem within_opt {c : Code κ} : (opt c).Within rank b ↔ c.Within rank b := by
  simp [opt]

@[simp] theorem within_all : ∀ {cs : List (Code κ)},
    (all cs).Within rank b ↔ ∀ c ∈ cs, c.Within rank b
  | [] => by simp [all]
  | c :: cs => by simp [all, within_all]

theorem Within.mono (hb : a ≤ b) : ∀ {c : Code κ}, c.Within rank b → c.Within rank a
  | .skip, _ => trivial
  | .sleep, h => by rw [within_sleep] at h ⊢; omega
  | .locked _ _ _, h => ⟨hb.trans h.1, h.2⟩
  | .seq _ _, h => ⟨h.1.mono hb, h.2.mono hb⟩
  | .either _ _, h => ⟨h.1.mono hb, h.2.mono hb⟩
  | .loop c, h => Within.mono (c := c) hb h

end Code

/-- The least rank of a lock that can be taken next. -/
def floor (rank : κ → ℕ) : List (Mode × κ) → ℕ
  | [] => 0
  | h :: _ => rank h.2 + 1

/-- What is left to do fits the locks that are held: they are released in the reverse order, and all
locks that are taken rank above them. -/
def Fits (rank : κ → ℕ) : List (Mode × κ) → List (Item κ) → Prop
  | held, [] => held = []
  | held, .code c :: rest => c.Within rank (floor rank held) ∧ Fits rank held rest
  | [], .unlock _ :: _ => False
  | h :: held, .unlock l :: rest => h.2 = l ∧ floor rank held ≤ rank l ∧ Fits rank held rest

section

variable {rank : κ → ℕ}

theorem Fits.code {held : List (Mode × κ)} {c : Code κ} {rest : List (Item κ)} :
    Fits rank held (.code c :: rest) ↔ c.Within rank (floor rank held) ∧ Fits rank held rest := by
  cases held <;> exact Iff.rfl

theorem Fits.nil {held : List (Mode × κ)} (h : Fits rank held []) : held = [] := by
  cases held with
  | nil => rfl
  | cons p held => cases h

/-- The locks that are held rank below every lock that can be taken next. -/
theorem Fits.rank_lt : ∀ {todo : List (Item κ)} {held : List (Mode × κ)}, Fits rank held todo →
    ∀ h ∈ held, rank h.2 < floor rank held
  | [], held, hf, h, hh => by
    rw [hf.nil] at hh
    cases hh
  | .code _ :: _, _, hf, h, hh => (Fits.code.mp hf).2.rank_lt h hh
  | .unlock _ :: _, [], hf, _, _ => hf.elim
  | .unlock _ :: _, k :: held, ⟨rfl, hle, hf⟩, h, hh => by
    rcases List.mem_cons.mp hh with rfl | hh
    · exact Nat.lt_succ_self _
    · exact (hf.rank_lt h hh).trans (Nat.lt_succ_of_le hle)

theorem Fits.rank_wants {th : Thread κ} {p : Mode × κ} (hf : Fits rank th.held th.todo)
    (hp : th.wants = some p) : ∀ h ∈ th.held, rank h.2 < rank p.2 := by
  unfold Thread.wants at hp
  split at hp
  · next m l c rest heq =>
    cases hp
    rw [heq] at hf
    exact fun h hh => (hf.rank_lt h hh).trans_le (Fits.code.mp hf).1.1
  · cases hp

/-- Nobody sleeps holding a lock. -/
theorem Fits.held_of_asleep {th : Thread κ} (hf : Fits rank th.held th.todo) (h : th.Asleep) :
    th.held = [] := by
  obtain ⟨rest, heq⟩ := h
  rw [heq] at hf
  have hfloor : floor rank th.held = 0 := (Fits.code.mp hf).1
  cases hheld : th.held with
  | nil => rfl
  | cons p held => rw [hheld] at hfloor; cases hfloor

variable [DecidableEq κ]

/-- What one step of a thread preserves. -/
theorem Fits.next {th th' : Thread κ} {b : Bool} (hf : Fits rank th.held th.todo)
    (h : th.next b = some th') : Fits rank th'.held th'.todo := by
  obtain ⟨held, todo⟩ := th
  cases todo with
  | nil => cases h
  | cons i rest =>
    cases i with
    | code c =>
      have hrest := (Fits.code.mp hf).2
      have hc := (Fits.code.mp hf).1
      cases c with
      | skip => cases h; exact hrest
      | sleep => cases h
      | locked m l c => cases h; exact Fits.code.mpr ⟨hc.2, rfl, hc.1, hrest⟩
      | seq c d => cases h; exact Fits.code.mpr ⟨hc.1, Fits.code.mpr ⟨hc.2, hrest⟩⟩
      | either c d =>
        cases h
        refine Fits.code.mpr ⟨?_, hrest⟩
        cases b with
        | true => exact hc.1
        | false => exact hc.2
      | loop c =>
        cases h
        cases b with
        | true => exact Fits.code.mpr ⟨hc, Fits.code.mpr ⟨hc, hrest⟩⟩
        | false => exact hrest
    | unlock l =>
      cases h
      cases held with
      | nil => exact hf.elim
      | cons p held =>
        obtain ⟨rfl, -, hrest⟩ := hf
        rw [List.eraseP_cons_of_pos (by simp)]
        exact hrest

/-- A thread that holds a lock has something left to do, and it is not asleep. -/
theorem Fits.next_isSome {th : Thread κ} (hf : Fits rank th.held th.todo) (hheld : th.held ≠ [])
    (b : Bool) : ∃ th', th.next b = some th' := by
  have hsleep : ¬ th.Asleep := fun h => hheld (hf.held_of_asleep h)
  obtain ⟨held, todo⟩ := th
  cases todo with
  | nil => exact absurd hf.nil hheld
  | cons i rest =>
    cases i with
    | code c =>
      cases c with
      | sleep => exact absurd ⟨rest, rfl⟩ hsleep
      | _ => exact ⟨_, rfl⟩
    | unlock l => exact ⟨_, rfl⟩

end

/-! ### Sizes -/

def Code.size : Code κ → ℕ
  | .skip => 1
  | .sleep => 1
  | .locked _ _ c => c.size + 2
  | .seq c d => c.size + d.size + 1
  | .either c d => c.size + d.size + 1
  | .loop c => c.size + 1

def Item.size : Item κ → ℕ
  | .code c => c.size
  | .unlock _ => 1

/-- What a thread still has to do, if it holds a lock. -/
def Thread.load (th : Thread κ) : ℕ := if th.held = [] then 0 else (th.todo.map Item.size).sum

theorem Code.size_pos (c : Code κ) : 0 < c.size := by
  cases c <;> simp [Code.size]

/-! ### Systems -/

/-- Every thread keeps the order of the locks. -/
def Ordered (rank : κ → ℕ) (s : τ → Thread κ) : Prop := ∀ t, Fits rank (s t).held (s t).todo

/-- The functions that are called keep it. -/
def CallsWithin (rank : κ → ℕ) : Event τ κ → Prop
  | .call _ c => c.Within rank 0
  | _ => True

section

variable {rank : κ → ℕ} {s s' : τ → Thread κ}

theorem ordered_idle : Ordered rank (idle : τ → Thread κ) := fun _ => rfl

/-- A thread that waits for one that waits itself comes before it in rank. -/
theorem WaitsFor.rank_lt {t u : τ} {p q : Mode × κ} (hs : Ordered rank s) (h : WaitsFor s t u)
    (hp : (s t).wants = some p) (hq : (s u).wants = some q) : rank p.2 < rank q.2 := by
  obtain ⟨p', hp', k, hk, heq, -⟩ := h
  obtain rfl := Option.some.inj (hp'.symm.trans hp)
  rw [← heq]
  exact (hs u).rank_wants hq k hk

theorem rank_lt_of_transGen {t u : τ} {p q : Mode × κ} (hs : Ordered rank s)
    (h : Relation.TransGen (WaitsFor s) t u) (hp : (s t).wants = some p)
    (hq : (s u).wants = some q) : rank p.2 < rank q.2 := by
  induction h generalizing q with
  | single h => exact h.rank_lt hs hp hq
  | tail _ h ih =>
    obtain ⟨r, hr, -⟩ := id h
    exact (ih hr).trans (h.rank_lt hs hr hq)

/-- **Nobody waits in a circle.** -/
theorem not_waits_self (hs : Ordered rank s) (t : τ) : ¬ Relation.TransGen (WaitsFor s) t t := by
  intro h
  obtain ⟨p, hp⟩ : ∃ p, (s t).wants = some p := by
    obtain ⟨u, ⟨p, hp, -⟩, -⟩ := Relation.TransGen.head'_iff.mp h
    exact ⟨p, hp⟩
  exact lt_irrefl _ (rank_lt_of_transGen hs h hp hp)

/-- Among the threads that hold a lock there is one that waits for nobody. -/
theorem exists_not_waiting [Finite τ] (hs : Ordered rank s) {t : τ} (ht : (s t).held ≠ []) :
    ∃ u, (s u).held ≠ [] ∧ ∀ p ∈ (s u).wants, Free s p := by
  have hwf : WellFounded (Relation.TransGen (fun u v => WaitsFor s v u)) := by
    have : IsTrans τ (Relation.TransGen (fun u v => WaitsFor s v u)) := ⟨fun _ _ _ => .trans⟩
    have : Std.Irrefl (Relation.TransGen (fun u v => WaitsFor s v u)) :=
      ⟨fun u h => not_waits_self hs u (Relation.transGen_swap.mp h)⟩
    exact Finite.wellFounded_of_trans_of_irrefl _
  obtain ⟨u, hu, hmin⟩ := hwf.has_min {u | (s u).held ≠ []} ⟨t, ht⟩
  refine ⟨u, hu, fun p hp => ?_⟩
  by_contra hfree
  obtain ⟨v, hv⟩ := exists_waitsFor hp hfree
  obtain ⟨-, -, k, hk, -⟩ := id hv
  exact hmin v (List.ne_nil_of_mem hk) (.single hv)

theorem Ordered.update [DecidableEq τ] {t : τ} {th : Thread κ} (hs : Ordered rank s)
    (h : Fits rank th.held th.todo) : Ordered rank (Function.update s t th) := by
  intro u
  by_cases hu : u = t
  · subst hu; rw [Function.update_self]; exact h
  · rw [Function.update_of_ne hu]; exact hs u

variable [DecidableEq κ] [Fintype τ] [DecidableEq τ]

/-- What one step of the system preserves. -/
theorem Ordered.step {e : Event τ κ} (hs : Ordered rank s) (hc : CallsWithin rank e)
    (h : step s e = some s') : Ordered rank s' := by
  obtain ⟨t, c, rfl, hnil, rfl⟩ | ⟨t, b, th, rfl, -, hth, rfl⟩ | ⟨t, rest, rfl, heq, rfl⟩ :=
    step_cases h
  · refine hs.update (Fits.code.mpr ?_)
    have hheld : (s t).held = [] := by
      have hf := hs t
      rw [hnil] at hf
      exact hf.nil
    rw [hheld]
    exact ⟨hc, rfl⟩
  · exact hs.update ((hs t).next hth)
  · refine hs.update ?_
    have hf := hs t
    rw [heq] at hf
    exact (Fits.code.mp hf).2

theorem ordered_run {es : List (Event τ κ)} (hc : ∀ e ∈ es, CallsWithin rank e)
    (h : run step idle es = some s) : Ordered rank s :=
  run_inv (fun _ _ _ hs hc h => hs.step hc h) ordered_idle
    (Along.of_forall fun e he _ => hc e he) h

/-! ### Release -/

/-- A thread that leaves its loops has less to do after each step. -/
theorem Thread.next_size {th th' : Thread κ} (h : th.next false = some th') :
    (th'.todo.map Item.size).sum < (th.todo.map Item.size).sum := by
  obtain ⟨held, todo⟩ := th
  cases todo with
  | nil => cases h
  | cons i rest =>
    cases i with
    | code c =>
      cases c with
      | sleep => cases h
      | either c d =>
        cases h
        have := c.size_pos
        simp only [List.map_cons, List.sum_cons, Item.size, Code.size, Bool.false_eq_true, if_false]
        omega
      | _ =>
        cases h
        simp only [List.map_cons, List.sum_cons, Item.size, Code.size, Bool.false_eq_true, if_false]
        omega
    | unlock l => cases h; simp [Item.size]

theorem Thread.next_load {th th' : Thread κ} (hheld : th.held ≠ [])
    (h : th.next false = some th') : th'.load < th.load := by
  have hlt := Thread.next_size h
  unfold Thread.load
  rw [if_neg hheld]
  split_ifs with hnil
  · omega
  · exact hlt

/-- A step by a thread that holds a lock, after which there is less to do. -/
theorem exists_unlocking (hs : Ordered rank s) {t : τ} (ht : (s t).held ≠ []) :
    ∃ u s', (s u).held ≠ [] ∧ step s (.go u false) = some s' ∧ (∀ v ≠ u, s' v = s v) ∧
      ∑ v, (s' v).load < ∑ v, (s v).load := by
  obtain ⟨u, hu, hfree⟩ := exists_not_waiting hs ht
  obtain ⟨th, hth⟩ := (hs u).next_isSome hu false
  refine ⟨u, Function.update s u th, hu, by rw [LockOrder.step, if_pos hfree, hth]; rfl,
    fun v hv => Function.update_of_ne hv .., ?_⟩
  refine Finset.sum_lt_sum (fun v _ => ?_) ⟨u, Finset.mem_univ u, ?_⟩
  · by_cases hv : v = u
    · subst hv; rw [Function.update_self]; exact (Thread.next_load hu hth).le
    · rw [Function.update_of_ne hv]
  · rw [Function.update_self]; exact Thread.next_load hu hth

/-- **Those who hold locks can release them all by themselves**, whatever the others do or wait
for. -/
theorem exists_release {s : τ → Thread κ} (hs : Ordered rank s) : ∃ es s', run step s es = some s' ∧
    (∀ e ∈ es, ∃ t b, e = .go t b ∧ (s t).held ≠ []) ∧ (∀ t, (s' t).held = []) ∧
      ∀ t, (s t).held = [] → s' t = s t := by
  by_cases hall : ∀ t, (s t).held = []
  · exact ⟨[], s, rfl, by simp, hall, fun _ _ => rfl⟩
  · obtain ⟨t, ht⟩ := not_forall.mp hall
    obtain ⟨u, s₁, hu, hstep, hframe, hless⟩ := exists_unlocking hs ht
    obtain ⟨es, s', hrun, hgo, hnone, hkeep⟩ := exists_release (hs.step (e := .go u false) trivial hstep)
    have hholds : ∀ v, (s₁ v).held ≠ [] → (s v).held ≠ [] := by
      intro v hv
      by_cases hvu : v = u
      · exact hvu ▸ hu
      · rwa [hframe v hvu] at hv
    refine ⟨.go u false :: es, s', run_cons.mpr ⟨s₁, hstep, hrun⟩, ?_, hnone, fun v hv => ?_⟩
    · intro e he
      rcases List.mem_cons.mp he with rfl | he
      · exact ⟨u, false, rfl, hu⟩
      · obtain ⟨v, b, rfl, hv⟩ := hgo e he
        exact ⟨v, b, rfl, hholds v hv⟩
    · have hvu : v ≠ u := fun h => hu (h ▸ hv)
      rw [hkeep v (by rwa [hframe v hvu]), hframe v hvu]
termination_by ∑ v, (s v).load
decreasing_by exact hless

end

/-! ### A lock that is taken twice -/

/-- Every way through the code comes to the lock. -/
def Code.Takes [DecidableEq κ] (l : κ) : Code κ → Bool
  | .skip => false
  | .sleep => false
  | .locked _ l' c => l' = l || c.Takes l
  | .seq c d => c.Takes l || d.Takes l
  | .either c d => c.Takes l && d.Takes l
  | .loop _ => false

/-- What is left to do comes to the lock before it releases it. -/
def Retakes [DecidableEq κ] (l : κ) : List (Item κ) → Bool
  | [] => false
  | .code c :: rest => c.Takes l || Retakes l rest
  | .unlock l' :: rest => l' ≠ l && Retakes l rest

/-- The thread has the lock to itself and comes to it again. -/
def Doomed [DecidableEq κ] (l : κ) (th : Thread κ) : Prop :=
  (.exclusive, l) ∈ th.held ∧ Retakes l th.todo = true

section

variable [DecidableEq κ] {l : κ}

theorem Doomed.todo_ne_nil {th : Thread κ} (h : Doomed l th) : th.todo ≠ [] := by
  intro hnil
  have hretakes := h.2
  rw [hnil] at hretakes
  cases hretakes

/-- A doomed thread that goes on stays doomed. -/
theorem Doomed.next {th th' : Thread κ} {b : Bool} (hd : Doomed l th)
    (hfree : ∀ p ∈ th.wants, ∀ h ∈ th.held, h.2 = p.2 → p.1.excludes h.1 = false)
    (h : th.next b = some th') : Doomed l th' := by
  obtain ⟨held, todo⟩ := th
  obtain ⟨hheld, hd⟩ := hd
  cases todo with
  | nil => cases h
  | cons i rest =>
    cases i with
    | code c =>
      simp only [Retakes, Bool.or_eq_true] at hd
      cases c with
      | skip => cases h; exact ⟨hheld, by simpa [Code.Takes] using hd⟩
      | sleep => cases h
      | locked m l' c =>
        cases h
        have hne : l' ≠ l := by
          intro heq
          have hfalse := hfree (m, l') rfl _ hheld heq.symm
          cases m <;> cases hfalse
        refine ⟨List.mem_cons_of_mem _ hheld, ?_⟩
        simpa [Retakes, Code.Takes, hne] using hd
      | seq c d => cases h; exact ⟨hheld, by simpa [Retakes, Code.Takes, or_assoc] using hd⟩
      | either c d =>
        cases h
        refine ⟨hheld, ?_⟩
        cases b <;> simp only [Retakes, Code.Takes, Bool.and_eq_true, Bool.or_eq_true] at hd ⊢
        · exact hd.imp_left And.right
        · exact hd.imp_left And.left
      | loop c =>
        cases h
        have hrest : Retakes l rest = true := by simpa [Code.Takes] using hd
        exact ⟨hheld, by cases b <;> simp [Retakes, hrest]⟩
    | unlock l' =>
      cases h
      simp only [Retakes, Bool.and_eq_true, ne_eq, decide_eq_true_eq] at hd
      exact ⟨(List.mem_eraseP_of_neg (by simpa using Ne.symm hd.1)).mpr hheld, hd.2⟩

/-- Whoever comes to the lock of a doomed thread waits for it. -/
theorem Doomed.waitsFor {s : τ → Thread κ} {t u : τ} {p : Mode × κ} (hd : Doomed l (s t)) (hp : (s u).wants = some p)
    (hl : p.2 = l) : WaitsFor s u t :=
  ⟨p, hp, (.exclusive, l), hd.1, hl.symm, by cases hm : p.1 <;> rfl⟩

variable [Fintype τ] [DecidableEq τ] {s s' : τ → Thread κ} {t : τ}

theorem Doomed.step {e : Event τ κ} (hd : Doomed l (s t)) (h : LockOrder.step s e = some s') :
    Doomed l (s' t) := by
  obtain ⟨u, c, rfl, hnil, rfl⟩ | ⟨u, b, th, rfl, hfree, hth, rfl⟩ | ⟨u, rest, rfl, heq, rfl⟩ :=
    step_cases h
  all_goals
    by_cases hu : t = u
    · subst hu
      rw [Function.update_self]
      first
        | exact absurd hnil hd.todo_ne_nil
        | exact hd.next (fun p hp => hfree p hp t) hth
        | exact ⟨hd.1, by have := hd.2; rw [heq] at this; simpa [Retakes, Code.Takes] using this⟩
    · rw [Function.update_of_ne hu]; exact hd

/-- A thread before the section stays there or is doomed. -/
theorem doomed_enter {c : Code κ} {rest : List (Item κ)} {e : Event τ κ} (hc : c.Takes l = true)
    (ht : (s t).todo = .code (.locked .exclusive l c) :: rest)
    (h : LockOrder.step s e = some s') : s' t = s t ∨ Doomed l (s' t) := by
  obtain ⟨u, d, rfl, hnil, rfl⟩ | ⟨u, b, th, rfl, -, hth, rfl⟩ | ⟨u, rest', rfl, hsleep, rfl⟩ :=
    step_cases h
  all_goals by_cases hu : t = u
  · subst hu; rw [ht] at hnil; cases hnil
  · exact .inl (Function.update_of_ne hu ..)
  · subst hu
    rw [Thread.next, ht] at hth
    cases hth
    rw [Function.update_self]
    exact .inr ⟨List.mem_cons_self .., by simp [Retakes, hc]⟩
  · exact .inl (Function.update_of_ne hu ..)
  · subst hu; rw [ht] at hsleep; cases hsleep
  · exact .inl (Function.update_of_ne hu ..)

/-- The thread has not yet come to the section, or it is in it and does not get out. -/
theorem doomed_run {c : Code κ} {rest : List (Item κ)} (hc : c.Takes l = true)
    (ht : (s t).todo = .code (.locked .exclusive l c) :: rest) {es : List (Event τ κ)}
    (h : run step s es = some s') : s' t = s t ∨ Doomed l (s' t) := by
  refine run_inv (P := fun u => u t = s t ∨ Doomed l (u t)) (C := fun _ _ => True) ?_ (.inl rfl)
    (Along.of_forall fun _ _ _ => trivial) h
  rintro u e u' (heq | hd) - hstep
  · rw [← heq]
    exact doomed_enter hc (by rw [heq, ht]) hstep
  · exact .inr (hd.step hstep)

/-! ### A thread by itself -/

/-- Steps of a thread while nobody else holds a lock. -/
def Thread.alone (th : Thread κ) : List Bool → Option (Thread κ)
  | [] => some th
  | b :: bs =>
    if ∀ p ∈ th.wants, ∀ h ∈ th.held, h.2 = p.2 → p.1.excludes h.1 = false then
      (th.next b).bind fun th' => th'.alone bs
    else none

theorem run_alone {t : τ} : ∀ {bs : List Bool} {s : τ → Thread κ} {th : Thread κ},
    (∀ u ≠ t, (s u).held = []) → (s t).alone bs = some th →
      run step s (bs.map (Event.go t)) = some (Function.update s t th)
  | [], s, th, _, h => by
    obtain rfl := Option.some.inj h
    simp
  | b :: bs, s, th, hothers, h => by
    simp only [Thread.alone, Option.ite_none_right_eq_some, Option.bind_eq_some_iff] at h
    obtain ⟨hown, th', hnext, h⟩ := h
    have hfree : ∀ p ∈ (s t).wants, Free s p := by
      intro p hp u k hk
      by_cases hu : u = t
      · subst hu; exact hown p hp k hk
      · rw [hothers u hu] at hk; cases hk
    have hstep : step s (.go t b) = some (Function.update s t th') := by
      rw [step, if_pos hfree, hnext]; rfl
    refine run_cons.mpr ⟨_, hstep, ?_⟩
    have hothers' : ∀ u ≠ t, (Function.update s t th' u).held = [] := fun u hu => by
      rw [Function.update_of_ne hu]; exact hothers u hu
    have hrest := run_alone hothers' (by rw [Function.update_self]; exact h)
    rwa [Function.update_idem] at hrest

end

end ToyIP.Lib.LockOrder
