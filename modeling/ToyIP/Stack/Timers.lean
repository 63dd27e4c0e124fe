import ToyIP.Lib.CircularList
import ToyIP.Lib.Run

/-! # The timers of the stack

`timer.c` keeps all timers in one list. A timer is freed once it is cancelled, or has fired, and the
reference of its owner is dropped; both happen in any order, and only the walk of `timers_tick`
frees. The walk saves the successor of the timer it is at (`list_for_each_safe`), calls the handler
if the timer has expired, and frees it if it can.

The walk is taken apart at the points where other code runs: a handler adds, cancels and releases
timers, and so do the other threads. `timer_discipline` says that no access goes to a freed timer,
that every handler is called at most once and never after a cancel, and that a walk visits every
timer that was in the list at its start exactly once. -/

namespace ToyIP.Stack.Timers

open ToyIP.Lib.CircularList ToyIP.Lib.Run

/-- The nodes of the list: its head `timers` and the member `list` of each timer. -/
inductive Node
  | timers
  | timer (t : ℕ)
  deriving DecidableEq, Repr

/-- `struct timer` less its node, its handler and the handler's argument. -/
structure Timer where
  refcnt : ℤ
  expires : UInt32
  cancelled : Bool
  deriving DecidableEq, Repr

/-- What has happened. -/
inductive Note
  | added (t : ℕ)
  | cancelled (t : ℕ)
  | released (t : ℕ)
  | began
  | visited (t : ℕ)
  | fired (t : ℕ)
  | freed (t : ℕ)
  | busy (t : ℕ)
  | ended
  deriving DecidableEq, Repr

/-- Where `list_for_each_safe` is: its `pos` and `p`, and whether the timer at `pos` has had its
test and its handler. -/
structure Walk where
  pos : Node
  p : Option Node
  handled : Bool
  deriving DecidableEq, Repr

/-- The module. Timers are numbered as they are allocated, `fresh` is the next one, and the notes
stand with the latest first. -/
structure State where
  links : Links Node
  timers : ℕ → Option Timer
  fresh : ℕ
  tick : UInt32
  walk : Option Walk
  notes : List Note

def init : State where
  links := fun a => if a = .timers then some ⟨some .timers, some .timers⟩ else none
  timers := fun _ => none
  fresh := 0
  tick := 0
  walk := none
  notes := []

def State.note (s : State) (n : Note) : State := { s with notes := n :: s.notes }

def State.setTimer (s : State) (t : ℕ) (x : Option Timer) : State :=
  { s with timers := fun u => if u = t then x else s.timers u }

/-- `calloc` of a timer. -/
def timerAlloc (s : State) : State :=
  { s.setTimer s.fresh (some ⟨0, 0, false⟩) with
    links := put s.links (.timer s.fresh) (some ⟨none, none⟩), fresh := s.fresh + 1 }

def timerAdd (expire : UInt32) (s : State) : Option State := do
  let t := s.fresh
  let s := (timerAlloc s).setTimer t (some ⟨1, s.tick + expire, false⟩)
  let links ← listAddTail s.links (.timer t) .timers
  some ({ s with links := links }.note (.added t))

def timerRelease (t : Option ℕ) (s : State) : Option State :=
  match t with
  | none => some s
  | some t => do
    let x ← s.timers t
    some ((s.setTimer t (some { x with refcnt := x.refcnt - 1 })).note (.released t))

def timerCancel (t : Option ℕ) (s : State) : Option State :=
  match t with
  | none => some s
  | some t => do
    let x ← s.timers t
    some ((s.setTimer t (some { x with refcnt := x.refcnt - 1, cancelled := true })).note (.cancelled t))

/-- `timer_free`; `busy` is the answer of `pthread_mutex_trylock` when another thread has the lock.
-/
def timerFree (busy : Bool) (t : ℕ) (s : State) : Option State :=
  if busy then some (s.note (.busy t))
  else do
    let links ← listDel s.links (.timer t)
    some (({ s with links := put links (.timer t) none }.setTimer t none).note (.freed t))

/-- `pos = q, p = pos->next` of `list_for_each_safe`. -/
def walkTo (links : Links Node) (q : Option Node) : Option Walk := do
  let pos ← q
  let p ← getNext links pos
  some ⟨pos, p, false⟩

/-- `tick++`, and `timers_tick` up to its first test of `pos`. -/
def tickBegin (s : State) : Option State := do
  let q ← getNext s.links .timers
  let w ← walkTo s.links q
  some ({ s with tick := s.tick + 1, walk := some w }.note .began)

/-- The first test of the body, with the call of the handler. -/
def tickVisit (t : ℕ) (p : Option Node) (s : State) : Option State := do
  let x ← s.timers t
  let s := { s with walk := some ⟨.timer t, p, true⟩ }.note (.visited t)
  if x.cancelled = false ∧ x.expires < s.tick then
    some ((s.setTimer t (some { x with cancelled := true })).note (.fired t))
  else some s

/-- The second test of the body, and the step of the loop. -/
def tickNext (busy : Bool) (t : ℕ) (p : Option Node) (s : State) : Option State := do
  let x ← s.timers t
  let s ← (if x.cancelled = true ∧ x.refcnt = 0 then timerFree busy t s else some s)
  let w ← walkTo s.links p
  some { s with walk := some w }

inductive Event
  | add (expire : UInt32)
  | cancel (t : Option ℕ)
  | release (t : Option ℕ)
  | tick
  | visit
  | next (busy : Bool)
  | stop
  deriving DecidableEq, Repr

/-- What an event does; no result means that it follows a null pointer or reads freed memory, or
that `timers_tick` is elsewhere. -/
def step (s : State) : Event → Option State
  | .add expire => timerAdd expire s
  | .cancel t => timerCancel t s
  | .release t => timerRelease t s
  | .tick => if s.walk = none then tickBegin s else none
  | .visit =>
    match s.walk with
    | some ⟨.timer t, p, false⟩ => tickVisit t p s
    | _ => none
  | .next busy =>
    match s.walk with
    | some ⟨.timer t, p, true⟩ => tickNext busy t p s
    | _ => none
  | .stop =>
    match s.walk with
    | some ⟨.timers, _, _⟩ => some ({ s with walk := none }.note .ended)
    | _ => none

/-! ### Notes -/

/-- The timer that a note is about. -/
def Note.timer : Note → Option ℕ
  | .added t | .cancelled t | .released t | .visited t | .fired t | .freed t | .busy t => some t
  | .began | .ended => none

/-- The timer is in the list. -/
def Live (t : ℕ) (notes : List Note) : Prop := .added t ∈ notes ∧ .freed t ∉ notes

/-- The timer is cancelled, or has fired. -/
def Over (t : ℕ) (notes : List Note) : Prop := .cancelled t ∈ notes ∨ .fired t ∈ notes

/-- The reference of the owner is dropped. -/
def Dropped (t : ℕ) (notes : List Note) : Prop := .cancelled t ∈ notes ∨ .released t ∈ notes

/-- The program's order of the events of `timers_tick`, and the owners drop their reference at most
once. -/
def Allowed (s : State) : Event → Prop
  | .add _ => True
  | .cancel t | .release t => ∀ u, t = some u → .added u ∈ s.notes ∧ ¬ Dropped u s.notes
  | .tick => s.walk = none
  | .visit => ∃ t p, s.walk = some ⟨.timer t, p, false⟩
  | .next _ => ∃ t p, s.walk = some ⟨.timer t, p, true⟩
  | .stop => ∃ p h, s.walk = some ⟨.timers, p, h⟩

instance decidableAllowed (s : State) : ∀ e, Decidable (Allowed s e)
  | .add _ => isTrue trivial
  | .cancel t | .release t =>
    match t with
    | none => isTrue (by simp [Allowed])
    | some u => decidable_of_iff (.added u ∈ s.notes ∧ .cancelled u ∉ s.notes ∧ .released u ∉ s.notes)
        (by simp [Allowed, Dropped])
  | .tick => decidable_of_iff (s.walk.isNone = true) (by simp [Allowed])
  | .visit =>
    match h : s.walk with
    | some ⟨.timer t, p, false⟩ => isTrue ⟨t, p, h⟩
    | some ⟨.timer _, _, true⟩ | some ⟨.timers, _, _⟩ | none => isFalse (by simp [Allowed, h])
  | .next _ =>
    match h : s.walk with
    | some ⟨.timer t, p, true⟩ => isTrue ⟨t, p, h⟩
    | some ⟨.timer _, _, false⟩ | some ⟨.timers, _, _⟩ | none => isFalse (by simp [Allowed, h])
  | .stop =>
    match h : s.walk with
    | some ⟨.timers, p, b⟩ => isTrue ⟨p, b, h⟩
    | some ⟨.timer _, _, _⟩ | none => isFalse (by simp [Allowed, h])

/-- What a walk has done for a timer that was in the list at its start: `during` are the notes of
the walk and `before` the ones up to it. It has visited the timer exactly once, and freed it if that
was possible from the start on. -/
def Visited (during before : List Note) (t : ℕ) : Prop :=
  during.count (.visited t) = 1 ∧
    (Over t before → Dropped t before → .freed t ∈ during ∨ .busy t ∈ during)

/-- What has to hold of the notes before a note for it to be in order. A timer is never accessed
after it has been freed; its handler is called at most once and not after a cancel. -/
def Due (before : List Note) : Note → Prop
  | .added t => ∀ n ∈ before, n.timer ≠ some t
  | .cancelled t | .released t | .visited t | .busy t => Live t before
  | .fired t => Live t before ∧ .fired t ∉ before ∧ .cancelled t ∉ before
  | .freed t => Live t before ∧ Over t before ∧ Dropped t before
  | .began => True
  | .ended => ∀ during rest, before = during ++ .began :: rest → .began ∉ during →
      ∀ t, Live t rest → Visited during rest t

/-- Every note was in order. -/
def InOrder (notes : List Note) : Prop :=
  ∀ after n before, notes = after ++ n :: before → Due before n

/-- The list is well formed, its timers are those that have been added and not freed, and all that
has happened was in order. -/
def Disciplined (s : State) : Prop :=
  (∃ l : List ℕ, Ring s.links .timers (l.map .timer) ∧ ∀ t, t ∈ l ↔ Live t s.notes) ∧ InOrder s.notes

theorem InOrder.nil : InOrder [] := by
  intro after n before heq
  simp at heq

theorem InOrder.cons {notes : List Note} {n : Note} (h : InOrder notes) (hn : Due notes n) :
    InOrder (n :: notes) := by
  intro after m before heq
  cases after with
  | nil =>
    obtain ⟨rfl, rfl⟩ := List.cons.inj heq
    exact hn
  | cons m' after =>
    obtain ⟨-, rfl⟩ := List.cons.inj heq
    exact h after m before rfl

/-- Nothing is freed while its owner has the reference. -/
theorem InOrder.dropped_of_freed {notes : List Note} {t : ℕ} (h : InOrder notes)
    (hfreed : .freed t ∈ notes) : Dropped t notes := by
  obtain ⟨after, before, rfl⟩ := List.append_of_mem hfreed
  rcases (h after (.freed t) before rfl).2.2 with hd | hd
  · exact .inl (by simp [hd])
  · exact .inr (by simp [hd])

/-- The latest `began` splits the notes in one way only. -/
theorem split_began {d d' b b' : List Note} (heq : d ++ .began :: b = d' ++ .began :: b')
    (hd : .began ∉ d) (hd' : .began ∉ d') : d = d' ∧ b = b' := by
  induction d generalizing d' with
  | nil =>
    cases d' with
    | nil => exact ⟨rfl, (List.cons.inj heq).2⟩
    | cons n d' =>
      obtain ⟨rfl, -⟩ := List.cons.inj heq
      exact absurd (List.mem_cons_self ..) hd'
  | cons n d ih =>
    cases d' with
    | nil =>
      obtain ⟨rfl, -⟩ := List.cons.inj heq
      exact absurd (List.mem_cons_self ..) hd
    | cons n' d' =>
      obtain ⟨rfl, heq'⟩ := List.cons.inj heq
      obtain ⟨rfl, rfl⟩ := ih heq' (fun h => hd (List.mem_cons_of_mem _ h))
        (fun h => hd' (List.mem_cons_of_mem _ h))
      exact ⟨rfl, rfl⟩

/-! ### The invariant -/

/-- The walk is at the first timer of `todo`, or at the head if there is none, and has saved the
next one. The timers of `later` have been added behind a saved end of the list, so the walk stops
before them. -/
structure Walking (notes : List Note) (l : List ℕ) (w : Walk) (during before : List Note)
    (passed todo later : List ℕ) : Prop where
  split : notes = during ++ .began :: before
  latest : .began ∉ during
  list : l = passed ++ todo ++ later
  pos : w.pos = (todo.map .timer).headD .timers
  p : todo ≠ [] → w.p = some ((todo.tail.map .timer).headD .timers)
  handled : w.handled = true → todo ≠ []
  behind : todo.tail ≠ [] → later = []
  added : ∀ t ∈ later, ¬ Live t before
  visits : ∀ t, Live t before →
    during.count (.visited t) = if t ∈ (if w.handled then todo.tail else todo) then 0 else 1
  frees : ∀ t, Live t before → Over t before → Dropped t before →
    t ∈ todo ∨ .freed t ∈ during ∨ .busy t ∈ during

/-- The flags of a timer tell what has happened to it. -/
def Flags (notes : List Note) (t : ℕ) (x : Timer) : Prop :=
  (x.cancelled = true ↔ Over t notes) ∧ (Dropped t notes → x.refcnt = 0) ∧
    (¬ Dropped t notes → x.refcnt = 1)

/-- The invariant, with the timers in the list. -/
structure Inv (s : State) (l : List ℕ) : Prop where
  ring : Ring s.links .timers (l.map .timer)
  live : ∀ t, t ∈ l ↔ Live t s.notes
  flags : ∀ t ∈ l, ∃ x, s.timers t = some x ∧ Flags s.notes t x
  fresh : ∀ n ∈ s.notes, ∀ t, n.timer = some t → t < s.fresh
  order : InOrder s.notes
  walk : ∀ w, s.walk = some w → ∃ during before passed todo later,
    Walking s.notes l w during before passed todo later

theorem Inv.nodup {s : State} {l : List ℕ} (h : Inv s l) : l.Nodup :=
  List.Nodup.of_map _ (List.nodup_cons.mp h.ring.1).2

theorem Inv.lt_fresh {s : State} {l : List ℕ} {t : ℕ} (h : Inv s l) (ht : t ∈ l) : t < s.fresh :=
  h.fresh _ ((h.live t).mp ht).1 t rfl

theorem inv_init : Inv init [] := by
  refine ⟨?_, ?_, ?_, ?_, InOrder.nil, ?_⟩
  · rw [List.map_nil, ring_nil]
    exact ⟨rfl, rfl⟩
  · intro t
    simp [Live, init]
  · intro t ht
    simp at ht
  · intro n hn
    simp [init] at hn
  · intro w hw
    simp [init] at hw

/-- A note that is about no visit goes to the notes of the walk. -/
theorem Walking.note {notes l during before passed todo later} {w : Walk} {n : Note}
    (h : Walking notes l w during before passed todo later) (hb : n ≠ .began)
    (hv : ∀ t, n ≠ .visited t) :
    Walking (n :: notes) l w (n :: during) before passed todo later := by
  refine { h with split := ?_, latest := ?_, visits := fun t ht => ?_, frees := fun t ht ho hd => ?_ }
  · rw [h.split, List.cons_append]
  · rw [List.mem_cons, not_or]
    exact ⟨hb.symm, h.latest⟩
  · rw [List.count_cons_of_ne (hv t), h.visits t ht]
  · rcases h.frees t ht ho hd with hin | hin | hin
    · exact .inl hin
    · exact .inr (.inl (List.mem_cons_of_mem _ hin))
    · exact .inr (.inr (List.mem_cons_of_mem _ hin))

/-- A timer that is added during a walk is visited by it, unless the walk has saved the end of the
list. -/
theorem Walking.add {notes l during before passed todo later} {w : Walk} {t : ℕ}
    (h : Walking notes l w during before passed todo later) (hnew : ¬ Live t before) :
    ∃ todo' later', Walking (.added t :: notes) (l ++ [t]) w (.added t :: during) before passed todo'
      later' := by
  have hn := h.note (n := .added t) (by simp) (by simp)
  by_cases htail : todo.tail = []
  · refine ⟨todo, later ++ [t], { hn with list := ?_, behind := ?_, added := ?_ }⟩
    · rw [h.list, List.append_assoc]
    · intro hne
      exact absurd htail hne
    · intro u hu
      rcases List.mem_append.mp hu with hu | hu
      · exact h.added u hu
      · rw [List.mem_singleton] at hu
        exact hu ▸ hnew
  · obtain ⟨a, b, rest, rfl⟩ : ∃ a b rest, todo = a :: b :: rest := by
      match todo, htail with
      | a :: b :: rest, _ => exact ⟨a, b, rest, rfl⟩
    have hnot : ∀ u, Live u before → u ≠ t := fun u hu hut => hnew (hut ▸ hu)
    have hlater : later = [] := h.behind htail
    refine ⟨a :: b :: rest ++ [t], [], { hn with
      list := ?_, pos := h.pos, p := fun _ => h.p (by simp), handled := fun _ => by simp, behind := ?_,
      added := by simp, visits := fun u hu => ?_, frees := fun u hu ho hd => ?_ }⟩
    · rw [h.list, hlater]
      simp
    · intro _
      rfl
    · rw [hn.visits u hu]
      have := hnot u hu
      cases w.handled <;> simp [this]
    · rcases hn.frees u hu ho hd with hin | hin
      · exact .inl (List.mem_append_left _ hin)
      · exact .inr hin

theorem inv_add {s : State} {l : List ℕ} (h : Inv s l) (expire : UInt32) :
    ∃ s', timerAdd expire s = some s' ∧ Inv s' (l ++ [s.fresh]) := by
  have hnew : ∀ n ∈ s.notes, n.timer ≠ some s.fresh := fun n hn ht =>
    Nat.lt_irrefl _ (h.fresh n hn _ ht)
  have hnl : s.fresh ∉ l := fun hl => Nat.lt_irrefl _ (h.lt_fresh hl)
  have hring : Ring (timerAlloc s).links .timers (l.map .timer) := by
    refine h.ring.congr fun a ha => if_neg ?_
    rintro rfl
    simp [hnl] at ha
  obtain ⟨m, hm, hring', -, -⟩ := hring.listAddTail (e := .timer s.fresh)
    (by simp [timerAlloc, put]) (by simp [hnl])
  refine ⟨({ (timerAlloc s).setTimer s.fresh (some ⟨1, s.tick + expire, false⟩) with
    links := m }.note (.added s.fresh)), ?_, ?_⟩
  · exact Option.bind_eq_some_iff.mpr ⟨m, hm, rfl⟩
  refine ⟨?_, ?_, ?_, ?_, ?_, ?_⟩
  · rw [List.map_append]
    exact hring'
  · intro t
    have hfr : .freed s.fresh ∉ s.notes := fun hin => hnew _ hin rfl
    have hlive := h.live t
    simp only [State.note, State.setTimer, timerAlloc, Live, List.mem_append, List.mem_cons,
      List.not_mem_nil, or_false, Note.added.injEq, reduceCtorEq, false_or] at hlive ⊢
    constructor
    · rintro (ht | rfl)
      · exact ⟨.inr (hlive.mp ht).1, (hlive.mp ht).2⟩
      · exact ⟨.inl rfl, hfr⟩
    · rintro ⟨rfl | ha, hf⟩
      · exact .inr rfl
      · exact .inl (hlive.mpr ⟨ha, hf⟩)
  · intro t ht
    rcases List.mem_append.mp ht with ht | ht
    · have hne : t ≠ s.fresh := by rintro rfl; exact hnl ht
      obtain ⟨x, hx, hflags⟩ := h.flags t ht
      refine ⟨x, by simp [State.note, State.setTimer, timerAlloc, hne, hx], ?_⟩
      simpa [Flags, Over, Dropped, State.note, State.setTimer, timerAlloc] using hflags
    · rw [List.mem_singleton] at ht
      subst ht
      refine ⟨⟨1, s.tick + expire, false⟩, by simp [State.note, State.setTimer], ?_⟩
      have hc : .cancelled s.fresh ∉ s.notes := fun hin => hnew _ hin rfl
      have hr : .released s.fresh ∉ s.notes := fun hin => hnew _ hin rfl
      have hf : .fired s.fresh ∉ s.notes := fun hin => hnew _ hin rfl
      simp [Flags, Over, Dropped, State.note, State.setTimer, timerAlloc, hc, hr, hf]
  · intro n hn t ht
    rcases List.mem_cons.mp hn with rfl | hn
    · obtain rfl := Option.some.inj ht
      exact Nat.lt_succ_self _
    · exact Nat.lt_succ_of_lt (h.fresh n hn t ht)
  · exact h.order.cons hnew
  · intro w hw
    obtain ⟨during, before, passed, todo, later, hwalk⟩ := h.walk w hw
    have hnot : ¬ Live s.fresh before := fun hl =>
      hnew (.added s.fresh) (by rw [hwalk.split]; simp [hl.1]) rfl
    obtain ⟨todo', later', hwalk'⟩ := hwalk.add hnot
    exact ⟨_, _, _, todo', later', hwalk'⟩

/-- A note leaves the flags of the other timers as they are. -/
theorem Flags.note {notes : List Note} {n : Note} {t : ℕ} {x : Timer} (h : Flags notes t x)
    (hn : n.timer ≠ some t) : Flags (n :: notes) t x := by
  have hc : n ≠ .cancelled t := by rintro rfl; exact hn rfl
  have hf : n ≠ .fired t := by rintro rfl; exact hn rfl
  have hr : n ≠ .released t := by rintro rfl; exact hn rfl
  simpa [Flags, Over, Dropped, hc.symm, hf.symm, hr.symm] using h

/-- One timer changes, with a note about it that is of no addition, no visit and no free. -/
theorem inv_set {s : State} {l : List ℕ} {t : ℕ} {x : Timer} {n : Note} (h : Inv s l) (ht : t ∈ l)
    (hn : n.timer = some t) (hadd : n ≠ .added t) (hvisit : n ≠ .visited t) (hfree : n ≠ .freed t)
    (hdue : Due s.notes n) (hx : Flags (n :: s.notes) t x) :
    Inv ((s.setTimer t (some x)).note n) l := by
  have hnot : ∀ {m : Note} {u : ℕ}, m.timer = some u → m ≠ n → m ∈ n :: s.notes → m ∈ s.notes :=
    fun _ hne hin => (List.mem_cons.mp hin).resolve_left hne
  refine ⟨h.ring, fun u => ?_, fun u hu => ?_, fun m hm u hu => ?_, h.order.cons hdue, fun w hw => ?_⟩
  · have hau : n ≠ .added u := by
      rintro rfl
      exact hadd (by rw [Option.some.inj hn])
    have hfu : n ≠ .freed u := by
      rintro rfl
      exact hfree (by rw [Option.some.inj hn])
    simpa [Live, State.note, State.setTimer, hau.symm, hfu.symm] using h.live u
  · by_cases hut : u = t
    · subst hut
      exact ⟨x, by simp [State.note, State.setTimer], hx⟩
    · obtain ⟨y, hy, hflags⟩ := h.flags u hu
      refine ⟨y, by simp [State.note, State.setTimer, hut, hy], hflags.note fun hnu => hut ?_⟩
      exact Option.some.inj (hnu.symm.trans hn)
  · rcases List.mem_cons.mp hm with rfl | hm
    · obtain rfl := Option.some.inj (hn.symm.trans hu)
      exact h.lt_fresh ht
    · exact h.fresh m hm u hu
  · obtain ⟨during, before, passed, todo, later, hwalk⟩ := h.walk w hw
    refine ⟨_, _, _, _, _, hwalk.note ?_ fun u hu => hvisit ?_⟩
    · rintro rfl
      simp [Note.timer] at hn
    · rw [hu] at hn
      rw [hu, Option.some.inj hn]

/-- The owner has its reference, so the timer is in the list. -/
theorem Inv.mem_of_owned {s : State} {l : List ℕ} {t : ℕ} (h : Inv s l) (hadd : .added t ∈ s.notes)
    (hown : ¬ Dropped t s.notes) : t ∈ l :=
  (h.live t).mpr ⟨hadd, fun hf => hown (h.order.dropped_of_freed hf)⟩

theorem inv_cancel {s : State} {l : List ℕ} {t : ℕ} (h : Inv s l) (hadd : .added t ∈ s.notes)
    (hown : ¬ Dropped t s.notes) : ∃ s', timerCancel (some t) s = some s' ∧ Inv s' l := by
  have ht := h.mem_of_owned hadd hown
  obtain ⟨x, hx, hover, -, href⟩ := h.flags t ht
  refine ⟨_, by rw [timerCancel, hx]; rfl,
    inv_set (n := .cancelled t) h ht rfl (by simp) (by simp) (by simp) ((h.live t).mp ht) ⟨?_, ?_, ?_⟩⟩
  · simp [Over]
  · intro _
    simp [href hown]
  · intro hnd
    exact absurd (.inl (by simp)) hnd

theorem inv_release {s : State} {l : List ℕ} {t : ℕ} (h : Inv s l) (hadd : .added t ∈ s.notes)
    (hown : ¬ Dropped t s.notes) : ∃ s', timerRelease (some t) s = some s' ∧ Inv s' l := by
  have ht := h.mem_of_owned hadd hown
  obtain ⟨x, hx, hover, -, href⟩ := h.flags t ht
  refine ⟨_, by rw [timerRelease, hx]; rfl,
    inv_set (n := .released t) h ht rfl (by simp) (by simp) (by simp) ((h.live t).mp ht) ⟨?_, ?_, ?_⟩⟩
  · simpa [Over] using hover
  · intro _
    simp [href hown]
  · intro hnd
    exact absurd (.inr (by simp)) hnd

/-- The walk starts at the first timer of the list. -/
theorem inv_tick {s : State} {l : List ℕ} (h : Inv s l) :
    ∃ s', tickBegin s = some s' ∧ Inv s' l := by
  have hhead := h.ring.next_head
  obtain ⟨p, hp, hnext⟩ : ∃ p, getNext s.links ((l.map Node.timer).headD .timers) = some p ∧
      (l ≠ [] → p = some ((l.tail.map .timer).headD .timers)) := by
    cases l with
    | nil => exact ⟨_, hhead, fun hne => absurd rfl hne⟩
    | cons t l => exact ⟨_, @Ring.next _ _ _ _ [] _ h.ring, fun _ => rfl⟩
  refine ⟨({ s with
    tick := s.tick + 1, walk := some ⟨(l.map Node.timer).headD .timers, p, false⟩ }).note .began, ?_, ?_⟩
  · simp only [tickBegin, hhead, walkTo, Option.bind_eq_bind, Option.bind_some, hp]
  refine ⟨h.ring, fun t => ?_, fun t ht => ?_, fun n hn t ht => ?_, h.order.cons trivial,
    fun w hw => ?_⟩
  · simpa [Live, State.note] using h.live t
  · obtain ⟨x, hx, hflags⟩ := h.flags t ht
    exact ⟨x, hx, hflags.note (by simp [Note.timer])⟩
  · rcases List.mem_cons.mp hn with rfl | hn
    · simp [Note.timer] at ht
    · exact h.fresh n hn t ht
  · obtain rfl := Option.some.inj hw
    refine ⟨[], s.notes, [], l, [], rfl, by simp, by simp, rfl, hnext, by simp, fun _ => rfl, by simp,
      fun t ht => ?_, fun t ht _ _ => .inl ((h.live t).mpr ht)⟩
    simp [(h.live t).mpr ht]

/-- The walk at a timer: it is in the list, and it is the first one of `todo`. -/
theorem Walking.at_timer {notes l during before passed todo later} {t : ℕ} {p : Option Node} {b : Bool}
    (h : Walking notes l ⟨.timer t, p, b⟩ during before passed todo later) :
    ∃ rest, todo = t :: rest ∧ t ∈ l := by
  have hpos := h.pos
  cases todo with
  | nil => simp at hpos
  | cons u rest =>
    obtain rfl : t = u := by simpa using hpos
    exact ⟨rest, rfl, by rw [h.list]; simp⟩

/-- The visit goes to the notes of the walk, and the timer is done. -/
theorem Walking.visit {notes l during before passed rest later} {t : ℕ} {p : Option Node}
    (h : Walking notes l ⟨.timer t, p, false⟩ during before passed (t :: rest) later)
    (hnodup : l.Nodup) :
    Walking (.visited t :: notes) l ⟨.timer t, p, true⟩ (.visited t :: during) before passed (t :: rest)
      later := by
  have hnot : t ∉ rest := by
    rw [h.list, List.append_assoc, List.cons_append] at hnodup
    have := (List.nodup_cons.mp (List.nodup_append.mp hnodup).2.1).1
    exact fun hin => this (List.mem_append_left _ hin)
  refine { h with
    split := ?_, latest := ?_, handled := fun _ => by simp, visits := fun u hu => ?_,
    frees := fun u hu ho hd => ?_ }
  · rw [h.split, List.cons_append]
  · simpa using h.latest
  · have hcount := h.visits u hu
    by_cases hut : u = t
    · subst hut
      simp_all
    · rw [List.count_cons_of_ne (by simp [Ne.symm hut]), hcount]
      simp [hut]
  · rcases h.frees u hu ho hd with hin | hin | hin
    · exact .inl hin
    · exact .inr (.inl (List.mem_cons_of_mem _ hin))
    · exact .inr (.inr (List.mem_cons_of_mem _ hin))

theorem inv_visit {s : State} {l : List ℕ} {t : ℕ} {p : Option Node} (h : Inv s l)
    (hw : s.walk = some ⟨.timer t, p, false⟩) : ∃ s', tickVisit t p s = some s' ∧ Inv s' l := by
  obtain ⟨during, before, passed, todo, later, hwalk⟩ := h.walk _ hw
  obtain ⟨rest, rfl, ht⟩ := hwalk.at_timer
  obtain ⟨x, hx, hflags⟩ := h.flags t ht
  have hvisited : Inv (({ s with walk := some ⟨.timer t, p, true⟩ }).note (.visited t)) l := by
    refine ⟨h.ring, fun u => ?_, fun u hu => ?_, fun n hn u hu => ?_, h.order.cons ((h.live t).mp ht),
      fun w hw' => ?_⟩
    · simpa [Live, State.note] using h.live u
    · obtain ⟨y, hy, hyf⟩ := h.flags u hu
      exact ⟨y, hy, by simpa [Flags, Over, Dropped, State.note] using hyf⟩
    · rcases List.mem_cons.mp hn with rfl | hn
      · obtain rfl := Option.some.inj hu
        exact h.lt_fresh ht
      · exact h.fresh n hn u hu
    · obtain rfl := Option.some.inj hw'
      exact ⟨_, _, _, _, _, hwalk.visit h.nodup⟩
  by_cases hfire : x.cancelled = false ∧ x.expires < s.tick
  · refine ⟨_, by rw [tickVisit, hx]; exact if_pos hfire, inv_set (n := .fired t) hvisited ht rfl
      (by simp) (by simp) (by simp) ⟨(hvisited.live t).mp ht, ?_, ?_⟩ ⟨?_, ?_, ?_⟩⟩
    · intro hin
      have hover := hflags.1.mpr (.inr (by simpa [State.note] using hin))
      exact Bool.false_ne_true (hfire.1.symm.trans hover)
    · intro hin
      have hover := hflags.1.mpr (.inl (by simpa [State.note] using hin))
      exact Bool.false_ne_true (hfire.1.symm.trans hover)
    · simp [Over]
    · simpa [Dropped, State.note] using hflags.2.1
    · simpa [Dropped, State.note] using hflags.2.2
  · exact ⟨_, by rw [tickVisit, hx]; exact if_neg hfire, hvisited⟩

/-- The walk goes to the timer it has saved. -/
theorem Walking.next {notes l l' during before passed passed' rest later} {t : ℕ} {p p' : Option Node}
    (h : Walking notes l ⟨.timer t, p, true⟩ during before passed (t :: rest) later)
    (hlist : l' = passed' ++ rest ++ later)
    (hp' : rest ≠ [] → p' = some ((rest.tail.map .timer).headD .timers))
    (hfree : Over t before → Dropped t before → .freed t ∈ during ∨ .busy t ∈ during) :
    Walking notes l' ⟨(rest.map .timer).headD .timers, p', false⟩ during before passed' rest later := by
  refine ⟨h.split, h.latest, hlist, rfl, hp', by simp, fun hne => h.behind fun hnil => ?_, h.added,
    fun u hu => by simpa using h.visits u hu, fun u hu ho hd => ?_⟩
  · rw [List.tail_cons] at hnil
    simp [hnil] at hne
  · rcases h.frees u hu ho hd with hin | hin
    · rcases List.mem_cons.mp hin with rfl | hin
      · exact .inr (hfree ho hd)
      · exact .inl hin
    · exact .inr hin

/-- `timer_free` with the lock at hand. -/
theorem inv_free {s : State} {xs ys : List ℕ} {t : ℕ} (h : Inv s (xs ++ t :: ys))
    (hover : Over t s.notes) (hdropped : Dropped t s.notes) :
    ∃ s', timerFree false t s = some s' ∧ s'.notes = .freed t :: s.notes ∧
      Inv { s' with walk := none } (xs ++ ys) := by
  have hring := h.ring
  rw [List.map_append, List.map_cons] at hring
  obtain ⟨m, hm, hring', -, -, -⟩ := hring.listDel
  have hlive := (h.live t).mp (by simp)
  have hnot : t ∉ xs ++ ys := (List.nodup_cons.mp (List.nodup_middle.mp h.nodup)).1
  have hmem : ∀ u, u ∈ xs ++ t :: ys ↔ u = t ∨ u ∈ xs ++ ys := fun u => by simp; tauto
  refine ⟨_, by rw [timerFree, if_neg Bool.false_ne_true, hm]; rfl, rfl,
    ?_, fun u => ?_, fun u hu => ?_, fun n hn u hu => ?_,
    h.order.cons (n := .freed t) ⟨hlive, hover, hdropped⟩, ?_⟩
  · rw [List.map_append]
    refine hring'.congr fun a ha => if_neg ?_
    rintro rfl
    simp at ha hnot
    tauto
  · have hu := h.live u
    rw [hmem] at hu
    simp only [State.note, State.setTimer, Live, List.mem_cons, reduceCtorEq, Note.freed.injEq,
      false_or, not_or] at hu ⊢
    by_cases hut : u = t
    · simp [hut, hnot]
    · simpa [hut] using hu
  · have hut : u ≠ t := by rintro rfl; exact hnot hu
    obtain ⟨x, hx, hflags⟩ := h.flags u ((hmem u).mpr (.inr hu))
    exact ⟨x, by simp [State.note, State.setTimer, hut, hx],
      hflags.note (by simp [Note.timer, Ne.symm hut])⟩
  · rcases List.mem_cons.mp hn with rfl | hn
    · obtain rfl := Option.some.inj hu
      exact h.lt_fresh (by simp)
    · exact h.fresh n hn u hu
  · intro w hw
    simp at hw

/-- `pos = p, p = pos->next`. -/
theorem walkTo_eq {links : Links Node} {xs rest later : List ℕ}
    (h : Ring links .timers ((xs ++ rest ++ later).map .timer)) :
    ∃ p', walkTo links (some ((rest.map .timer).headD .timers)) =
        some ⟨(rest.map .timer).headD .timers, p', false⟩ ∧
      (rest ≠ [] → later = [] → p' = some ((rest.tail.map .timer).headD .timers)) := by
  cases rest with
  | nil =>
    refine ⟨some (((xs ++ [] ++ later).map Node.timer).headD .timers), ?_, fun hne => absurd rfl hne⟩
    simp only [walkTo, List.map_nil, List.headD_nil, Option.bind_eq_bind, Option.bind_some, h.next_head]
  | cons t rest =>
    have hring := h
    rw [List.append_assoc, List.map_append, List.cons_append, List.map_cons] at hring
    refine ⟨some (((rest ++ later).map .timer).headD .timers), ?_, fun _ hl => ?_⟩
    · simp only [walkTo, List.map_cons, List.headD_cons, Option.bind_eq_bind, Option.bind_some,
        hring.next]
    · rw [hl, List.append_nil, List.tail_cons]

/-- After the body the walk goes on, with the timer freed or not. -/
theorem inv_loop {s : State} {l l' during before passed passed' rest later : List _} {t : ℕ}
    {p : Option Node} (h : Inv { s with walk := none } l')
    (hwalk : Walking s.notes l ⟨.timer t, p, true⟩ during before passed (t :: rest) later)
    (hlist : l' = passed' ++ rest ++ later)
    (hfree : Over t before → Dropped t before → .freed t ∈ during ∨ .busy t ∈ during) :
    ∃ w, walkTo s.links p = some w ∧ Inv { s with walk := some w } l' ∧ w.handled = false ∧
      Walking s.notes l' w during before passed' rest later := by
  obtain ⟨p', hp', hnext⟩ := walkTo_eq (hlist ▸ h.ring)
  have hp : p = some ((rest.map .timer).headD .timers) := hwalk.p (by simp)
  have hsaved : rest ≠ [] → later = [] := fun hne => hwalk.behind (by simpa using hne)
  have hwalk' := hwalk.next hlist (fun hne => hnext hne (hsaved hne)) hfree
  refine ⟨_, hp ▸ hp', { h with walk := fun w hw => ?_ }, rfl, hwalk'⟩
  obtain rfl := Option.some.inj hw
  exact ⟨_, _, _, _, _, hwalk'⟩

/-- The walk goes on to the rest of the timers. -/
theorem walking_next {s : State} {l during before passed rest later : List _} {t : ℕ}
    {p : Option Node} (h : Inv s l) (busy : Bool)
    (hwalk : Walking s.notes l ⟨.timer t, p, true⟩ during before passed (t :: rest) later) :
    ∃ s' l' w' during' passed', tickNext busy t p s = some s' ∧ Inv s' l' ∧ s'.walk = some w' ∧
      w'.handled = false ∧ Walking s'.notes l' w' during' before passed' rest later := by
  obtain ⟨-, -, ht⟩ := hwalk.at_timer
  obtain ⟨x, hx, hflags⟩ := h.flags t ht
  have hlist : l = passed ++ [t] ++ rest ++ later := by rw [hwalk.list]; simp
  -- the body alone: the timer stays, or its lock is busy, or it is freed
  have hbody : ∃ s₁ l' during' passed',
      (if x.cancelled = true ∧ x.refcnt = 0 then timerFree busy t s else some s) = some s₁ ∧
      Inv { s₁ with walk := none } l' ∧
      Walking s₁.notes l ⟨.timer t, p, true⟩ during' before passed (t :: rest) later ∧
      l' = passed' ++ rest ++ later ∧
      (Over t before → Dropped t before → .freed t ∈ during' ∨ .busy t ∈ during') := by
    by_cases hfree : x.cancelled = true ∧ x.refcnt = 0
    · rw [if_pos hfree]
      have hover : Over t s.notes := hflags.1.mp hfree.1
      have hdropped : Dropped t s.notes := by
        by_contra hnot
        have := hflags.2.2 hnot
        omega
      cases busy with
      | true =>
        have hnote := hwalk.note (n := .busy t) (by simp) (by simp)
        have hx' : Flags (.busy t :: s.notes) t x := by simpa [Flags, Over, Dropped] using hflags
        have hinv := inv_set (n := .busy t) h ht rfl (by simp) (by simp) (by simp) ((h.live t).mp ht) hx'
        refine ⟨s.note (.busy t), l, _, _, rfl, ?_, hnote, hlist, fun _ _ => .inr (by simp)⟩
        exact { hinv with
          flags := fun u hu => by
            by_cases hut : u = t
            · exact ⟨x, hut ▸ hx, hut ▸ hx'⟩
            · obtain ⟨y, hy, hyf⟩ := h.flags u hu
              exact ⟨y, hy, hyf.note (by simp [Note.timer, Ne.symm hut])⟩
          walk := fun w hw => by simp at hw }
      | false =>
        have hsplit : l = passed ++ t :: (rest ++ later) := by rw [hlist]; simp
        obtain ⟨s₁, hs₁, hnotes, hinv⟩ := inv_free (hsplit ▸ h) hover hdropped
        have hnote := hwalk.note (n := .freed t) (by simp) (by simp)
        refine ⟨s₁, _, _, passed, hs₁, hinv, hnotes ▸ hnote, by simp, fun _ _ => .inl (by simp)⟩
    · rw [if_neg hfree]
      refine ⟨s, l, during, _, rfl, { h with walk := fun w hw => by simp at hw }, hwalk, hlist, ?_⟩
      intro hover hdropped
      have hin : ∀ {n}, n ∈ before → n ∈ s.notes := fun hn => by rw [hwalk.split]; simp [hn]
      refine absurd ⟨hflags.1.mpr ?_, hflags.2.1 ?_⟩ hfree
      · exact hover.imp hin hin
      · exact hdropped.imp hin hin
  obtain ⟨s₁, l', during', passed', hs₁, hinv, hwalk', hlist', hfree⟩ := hbody
  obtain ⟨w, hw', hinv', hhandled, hwalk''⟩ := inv_loop hinv hwalk' hlist' hfree
  refine ⟨_, l', w, during', passed', ?_, hinv', rfl, hhandled, hwalk''⟩
  simp only [tickNext, hx, Option.bind_eq_bind, Option.bind_some, hs₁, hw']

theorem inv_next {s : State} {l : List ℕ} {t : ℕ} {p : Option Node} (h : Inv s l) (busy : Bool)
    (hw : s.walk = some ⟨.timer t, p, true⟩) : ∃ s' l', tickNext busy t p s = some s' ∧ Inv s' l' := by
  obtain ⟨during, before, passed, todo, later, hwalk⟩ := h.walk _ hw
  obtain ⟨rest, rfl, -⟩ := hwalk.at_timer
  obtain ⟨s', l', -, -, -, hs', hinv', -⟩ := walking_next h busy hwalk
  exact ⟨s', l', hs', hinv'⟩

/-- The walk ends. -/
theorem inv_stop {s : State} {l : List ℕ} {p : Option Node} {b : Bool} (h : Inv s l)
    (hw : s.walk = some ⟨.timers, p, b⟩) : Inv ({ s with walk := none }.note .ended) l := by
  obtain ⟨during, before, passed, todo, later, hwalk⟩ := h.walk _ hw
  have hpos := hwalk.pos
  obtain rfl : todo = [] := by
    cases todo with
    | nil => rfl
    | cons t rest => simp at hpos
  refine ⟨h.ring, fun t => ?_, fun t ht => ?_, fun n hn t ht => ?_,
    h.order.cons (n := .ended) ?_, fun w hw => by simp [State.note] at hw⟩
  · simpa [Live, State.note] using h.live t
  · obtain ⟨x, hx, hflags⟩ := h.flags t ht
    exact ⟨x, hx, hflags.note (by simp [Note.timer])⟩
  · rcases List.mem_cons.mp hn with rfl | hn
    · simp [Note.timer] at ht
    · exact h.fresh n hn t ht
  · intro during' rest hsplit hlatest t ht
    obtain ⟨rfl, rfl⟩ := split_began (hsplit.symm.trans hwalk.split) hlatest hwalk.latest
    refine ⟨by simpa using hwalk.visits t ht, fun hover hdropped => ?_⟩
    exact (hwalk.frees t ht hover hdropped).resolve_left (by simp)

/-! ### Every run -/

/-- What one event preserves. -/
theorem inv_step {s : State} {l : List ℕ} {e : Event} (h : Inv s l) (ha : Allowed s e) :
    ∃ s' l', step s e = some s' ∧ Inv s' l' := by
  cases e with
  | add expire =>
    obtain ⟨s', hs', hinv⟩ := inv_add h expire
    exact ⟨s', _, hs', hinv⟩
  | cancel t =>
    cases t with
    | none => exact ⟨s, l, rfl, h⟩
    | some t =>
      obtain ⟨hadd, hown⟩ := ha t rfl
      obtain ⟨s', hs', hinv⟩ := inv_cancel h hadd hown
      exact ⟨s', l, hs', hinv⟩
  | release t =>
    cases t with
    | none => exact ⟨s, l, rfl, h⟩
    | some t =>
      obtain ⟨hadd, hown⟩ := ha t rfl
      obtain ⟨s', hs', hinv⟩ := inv_release h hadd hown
      exact ⟨s', l, hs', hinv⟩
  | tick =>
    obtain ⟨s', hs', hinv⟩ := inv_tick h
    exact ⟨s', l, (if_pos ha).trans hs', hinv⟩
  | visit =>
    obtain ⟨t, p, hw⟩ := ha
    obtain ⟨s', hs', hinv⟩ := inv_visit h hw
    exact ⟨s', l, by rw [step, hw]; exact hs', hinv⟩
  | next busy =>
    obtain ⟨t, p, hw⟩ := ha
    obtain ⟨s', l', hs', hinv⟩ := inv_next h busy hw
    exact ⟨s', l', by rw [step, hw]; exact hs', hinv⟩
  | stop =>
    obtain ⟨p, b, hw⟩ := ha
    exact ⟨_, l, by rw [step, hw], inv_stop h hw⟩

/-- What a whole run preserves; none of its events fails. -/
theorem inv_run : ∀ {es : List Event} {s : State} {l : List ℕ}, Inv s l → Along step Allowed s es →
    ∃ s' l', run step s es = some s' ∧ Inv s' l'
  | [], s, l, h, _ => ⟨s, l, rfl, h⟩
  | e :: es, s, l, h, ha => by
    obtain ⟨s', l', hs', h'⟩ := inv_step h ha.1
    obtain ⟨s'', l'', hs'', h''⟩ := inv_run h' (ha.2 s' hs')
    exact ⟨s'', l'', run_cons.mpr ⟨s', hs', hs''⟩, h''⟩

/-- **The discipline of the timers**, over all runs in which the owners drop their reference at most
once: no event touches a freed timer, and all that happens is in order. -/
theorem timer_discipline (es : List Event) (h : Along step Allowed init es) :
    ∃ s, run step init es = some s ∧ Disciplined s := by
  obtain ⟨s, l, hs, hinv⟩ := inv_run inv_init h
  exact ⟨s, hs, ⟨l, hinv.ring, hinv.live⟩, hinv.order⟩

/-- Two timers; the handler of the first one releases it and adds a third, the second one is
cancelled during its visit. Both are freed by the walk, which goes on to the third. -/
def twoFreed : List Event :=
  [.add 0, .add 9, .tick, .visit, .release (some 0), .add 3, .next false, .visit, .cancel (some 1),
    .next false, .visit, .next false, .stop]

theorem timer_discipline_twoFreed :
    (run step init twoFreed).map State.notes = some [.ended, .visited 2, .freed 1, .cancelled 1,
        .visited 1, .freed 0, .added 2, .released 0, .fired 0, .visited 0, .began, .added 1, .added 0] ∧
      ∃ s, run step init twoFreed = some s ∧ Disciplined s :=
  ⟨by decide, timer_discipline twoFreed (by decide)⟩

end ToyIP.Stack.Timers
