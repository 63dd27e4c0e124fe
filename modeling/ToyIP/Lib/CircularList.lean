import Mathlib.Data.List.Chain
import Mathlib.Data.List.Nodup
import Mathlib.Tactic

/-! # Circular doubly linked lists

A list node has two pointers, `next` and `prev`, and it lies in memory (`Links`) or has been freed.
The operations write one pointer at a time; following a null pointer or a pointer to a freed node
has no result. A list is a head with the nodes `l` if the pointers of `head :: l` lead round once
(`Ring m head l`).

Where the node is new, `listAddTail` puts it at the end and `listAdd` at the front
(`Ring.listAddTail`, `Ring.listAdd`); where it is in the list, `listDel` takes it out and changes no
node outside (`Ring.listDel`, `Ring.listDelInit`). What an operation does where some nodes have been
freed it also does where they are still in memory (`Tracks`). -/

namespace ToyIP.Lib.CircularList

variable {ν : Type*}

/-- `struct list_head`; `none` is the null pointer. -/
structure Cell (ν : Type*) where
  next : Option ν
  prev : Option ν
  deriving DecidableEq, Repr

/-- The nodes in memory; `none` is a node that is not allocated, or freed. -/
abbrev Links (ν : Type*) := ν → Option (Cell ν)

section Operations

variable [DecidableEq ν]

def getNext (m : Links ν) (a : ν) : Option (Option ν) := (m a).map Cell.next

def getPrev (m : Links ν) (a : ν) : Option (Option ν) := (m a).map Cell.prev

/-- The memory with another cell at a node. -/
def put (m : Links ν) (a : ν) (c : Option (Cell ν)) : Links ν := fun b => if b = a then c else m b

/-- `p->next = v`. -/
def setNext (m : Links ν) (p v : Option ν) : Option (Links ν) := do
  let a ← p
  let c ← m a
  some (put m a (some { c with next := v }))

/-- `p->prev = v`. -/
def setPrev (m : Links ν) (p v : Option ν) : Option (Links ν) := do
  let a ← p
  let c ← m a
  some (put m a (some { c with prev := v }))

def listInit (m : Links ν) (head : ν) : Option (Links ν) := do
  let m ← setNext m (some head) (some head)
  setPrev m (some head) (some head)

def listAdd (m : Links ν) (newNode head : ν) : Option (Links ν) := do
  let m ← setPrev m (← getNext m head) (some newNode)
  let m ← setNext m (some newNode) (← getNext m head)
  let m ← setPrev m (some newNode) (some head)
  setNext m (some head) (some newNode)

def listAddTail (m : Links ν) (newNode head : ν) : Option (Links ν) := do
  let m ← setNext m (← getPrev m head) (some newNode)
  let m ← setPrev m (some newNode) (← getPrev m head)
  let m ← setNext m (some newNode) (some head)
  setPrev m (some head) (some newNode)

def listDel (m : Links ν) (elem : ν) : Option (Links ν) := do
  let prev ← getPrev m elem
  let next ← getNext m elem
  let m ← setNext m prev next
  setPrev m next prev

def listDelInit (m : Links ν) (elem : ν) : Option (Links ν) := do
  let m ← listDel m elem
  let m ← setNext m (some elem) (some elem)
  setPrev m (some elem) (some elem)

/-- `list_for_each` from `pos` up to the first node that `f` accepts, in at most `n` steps. No
result: a node was not in memory, or the loop goes on for longer. -/
def listFind (m : Links ν) (head : ν) (f : ν → Option Bool) : ℕ → Option ν → Option (Option ν)
  | 0, _ => none
  | _ + 1, none => none
  | n + 1, some a =>
    if a = head then some none
    else (f a).bind fun found =>
      if found then some (some a) else (getNext m a).bind (listFind m head f n)

/-- The loop of `list_for_each_safe` from `pos`, where `p` has been saved as the next node: the nodes
visited, in at most `n` turns, and the memory they leave. `body` is what is done at a node. -/
def walkSafe (body : ν → Links ν → Option (Links ν)) (head : ν) :
    ℕ → Option ν → Option ν → Links ν → Option (List ν × Links ν)
  | 0, _, _, _ => none
  | _ + 1, none, _, _ => none
  | n + 1, some a, p, m =>
    if a = head then some ([], m)
    else do
      let m ← body a m
      let next ← p
      let (visited, m) ← walkSafe body head n p (← getNext m next) m
      some (a :: visited, m)

def listForEachSafe (body : ν → Links ν → Option (Links ν)) (head : ν) (n : ℕ) (m : Links ν) :
    Option (List ν × Links ν) := do
  let pos ← getNext m head
  let first ← pos
  walkSafe body head n pos (← getNext m first) m

def listEmpty (m : Links ν) (head : ν) : Option Bool :=
  (getNext m head).map fun next => next = some head

/-- The nodes from `pos` up to the head, at most `n`. -/
def nodes (m : Links ν) (head : ν) : ℕ → Option ν → List ν
  | n + 1, some a => if a = head then [] else a :: nodes m head n (getNext m a).join
  | _, _ => []

end Operations

/-- `a` is followed by `b`, both ways. -/
def Linked (m : Links ν) (a b : ν) : Prop := getNext m a = some (some b) ∧ getPrev m b = some (some a)

/-- The list from `head` with the nodes `l`. -/
def Ring (m : Links ν) (head : ν) (l : List ν) : Prop :=
  (head :: l).Nodup ∧ (head :: l ++ [head]).IsChain (Linked m)

/-! ### Chains of nodes -/

/-- A chain reads `next` of all its nodes but the last and `prev` of all but the first. -/
theorem chain_congr {m m' : Links ν} : ∀ {l : List ν}, l.IsChain (Linked m) →
    (∀ a ∈ l.dropLast, getNext m' a = getNext m a) → (∀ a ∈ l.tail, getPrev m' a = getPrev m a) →
      l.IsChain (Linked m')
  | [], _, _, _ => List.isChain_nil
  | [a], _, _, _ => List.isChain_singleton a
  | a :: b :: l, h, hn, hp => by
    obtain ⟨hab, hl⟩ := List.isChain_cons_cons.mp h
    have hlink : Linked m' a b := by
      constructor
      · rw [hn a (by simp), hab.1]
      · rw [hp b (by simp), hab.2]
    refine List.isChain_cons_cons.mpr ⟨hlink, chain_congr hl ?_ ?_⟩
    · intro c hc
      exact hn c (by rw [List.dropLast_cons_cons]; exact List.mem_cons_of_mem _ hc)
    · intro c hc
      exact hp c (List.mem_cons_of_mem _ hc)

theorem subset_middle (a e : ν) (xs ys : List ν) : a :: (xs ++ ys) ⊆ a :: (xs ++ e :: ys) :=
  (((List.sublist_cons_self e ys).append_left xs).cons_cons a).subset

/-- A nonempty list has a last element. -/
theorem exists_last (a : ν) (l : List ν) : ∃ init p, a :: l = init ++ [p] :=
  ⟨(a :: l).dropLast, (a :: l).getLast (by simp), (List.dropLast_append_getLast _).symm⟩

theorem exists_first (l : List ν) (a : ν) : ∃ n post, l ++ [a] = n :: post ∧ n = l.headD a := by
  cases l with
  | nil => exact ⟨a, [], rfl, rfl⟩
  | cons n l => exact ⟨n, l ++ [a], rfl, rfl⟩

/-- A node between two parts of a list is linked to the last node before and the first one behind,
and the list without it needs these two links only. -/
theorem Ring.split {m : Links ν} {head e : ν} {xs ys : List ν} (h : Ring m head (xs ++ e :: ys)) :
    ∃ p ∈ head :: xs, ∃ n ∈ head :: ys, n = ys.headD head ∧ Linked m p e ∧ Linked m e n ∧
      ∀ m', Linked m' p n → (∀ a, a ≠ p → a ≠ e → getNext m' a = getNext m a) →
        (∀ a, a ≠ n → a ≠ e → getPrev m' a = getPrev m a) → Ring m' head (xs ++ ys) := by
  obtain ⟨hnodup, hchain⟩ := h
  obtain ⟨init, p, hinit⟩ := exists_last head xs
  obtain ⟨n, post, hpost, hn⟩ := exists_first ys head
  have hlist : head :: (xs ++ e :: ys) ++ [head] = init ++ p :: e :: n :: post := by
    calc head :: (xs ++ e :: ys) ++ [head] = (head :: xs) ++ e :: (ys ++ [head]) := by simp
      _ = init ++ p :: e :: n :: post := by rw [hinit, hpost]; simp
  rw [hlist, List.isChain_append_cons_cons, List.isChain_cons_cons] at hchain
  obtain ⟨hbefore, hpe, hen, hbehind⟩ := hchain
  have hperm : (e :: (head :: xs ++ ys)).Nodup := by
    rw [← List.cons_append] at hnodup
    exact List.nodup_middle.mp hnodup
  obtain ⟨hnot, hrest⟩ := List.nodup_cons.mp hperm
  have hsides := List.nodup_append.mp hrest
  have hpmem : p ∈ head :: xs := by rw [hinit]; simp
  have hnmem : n ∈ head :: ys := by
    have : n ∈ ys ++ [head] := by rw [hpost]; simp
    simpa [or_comm] using this
  refine ⟨p, hpmem, n, hnmem, hn, hpe, hen, fun m' hlink hnext hprev => ⟨hrest, ?_⟩⟩
  have hlist' : head :: (xs ++ ys) ++ [head] = init ++ p :: n :: post := by
    calc head :: (xs ++ ys) ++ [head] = (head :: xs) ++ (ys ++ [head]) := by simp
      _ = init ++ p :: n :: post := by rw [hinit, hpost]; simp
  rw [hlist', List.isChain_append_cons_cons]
  -- the two parts keep their pointers, as no node occurs twice
  refine ⟨chain_congr hbefore ?_ ?_, hlink, chain_congr hbehind ?_ ?_⟩
  · intro a ha
    rw [List.dropLast_concat] at ha
    have hamem : a ∈ head :: xs := by rw [hinit]; simp [ha]
    refine hnext a (fun hap => ?_) (fun hae => hnot (by simp [← hae] at hamem ⊢; tauto))
    have : (init ++ [p]).Nodup := hinit ▸ hsides.1
    exact (List.nodup_append.mp this).2.2 a ha p (by simp) hap
  · intro a ha
    rw [← hinit, List.tail_cons] at ha
    refine hprev a (fun han => ?_) (fun hae => hnot (by simp [← hae, ha]))
    rcases List.mem_cons.mp (han ▸ hnmem) with rfl | hy
    · exact (List.nodup_cons.mp hsides.1).1 ha
    · exact hsides.2.2 a (List.mem_cons_of_mem _ ha) a hy rfl
  · intro a ha
    rw [← hpost, List.dropLast_concat] at ha
    refine hnext a (fun hap => ?_) (fun hae => hnot (by simp [← hae, ha]))
    exact hsides.2.2 p hpmem a ha hap.symm
  · intro a ha
    have hamem : a ∈ ys ++ [head] := by rw [hpost]; exact List.mem_cons_of_mem _ ha
    refine hprev a (fun han => ?_) (fun hae => hnot (by simp [← hae] at hamem ⊢; tauto))
    have : (ys ++ [head]).Nodup := by
      refine List.nodup_append.mpr ⟨hsides.2.1, by simp, fun y hy b hb => ?_⟩
      rw [List.mem_singleton] at hb
      rw [hb]
      exact (hsides.2.2 head (by simp) y hy).symm
    rw [hpost] at this
    exact (List.nodup_cons.mp this).1 (han ▸ ha)

/-- No node is in the list twice. -/
theorem Ring.not_mem_rest {m : Links ν} {head e : ν} {xs ys : List ν}
    (h : Ring m head (xs ++ e :: ys)) : e ∉ head :: (xs ++ ys) :=
  (List.nodup_cons.mp (List.nodup_middle.mp (List.cons_append ▸ h.1))).1

theorem ring_nil {m : Links ν} {head : ν} : Ring m head [] ↔ Linked m head head := by
  simp [Ring]

theorem Ring.next_head {m : Links ν} {head : ν} {l : List ν} (h : Ring m head l) :
    getNext m head = some (some (l.headD head)) := by
  obtain ⟨n, post, hpost, hn⟩ := exists_first l head
  have hchain := h.2
  rw [List.cons_append, hpost, List.isChain_cons_cons] at hchain
  rw [← hn]
  exact hchain.1.1

theorem Ring.next {m : Links ν} {head e : ν} {xs ys : List ν} (h : Ring m head (xs ++ e :: ys)) :
    getNext m e = some (some (ys.headD head)) := by
  obtain ⟨p, -, n, -, hn, -, hen, -⟩ := h.split
  rw [← hn]
  exact hen.1

/-- A node of the list is not followed by itself. -/
theorem Ring.next_ne {m : Links ν} {head e : ν} {l : List ν} (h : Ring m head l) (he : e ∈ l) :
    getNext m e ≠ some (some e) := by
  obtain ⟨xs, ys, rfl⟩ := List.append_of_mem he
  have hnot := h.not_mem_rest
  rw [h.next]
  intro heq
  have hfirst : ys.headD head = e := Option.some.inj (Option.some.inj heq)
  cases ys with
  | nil => exact hnot (by simp [← hfirst])
  | cons y ys => exact hnot (by simp [← hfirst])

theorem cell_of_linked {m : Links ν} {a b c : ν} (h : Linked m a b) (h' : Linked m c a) :
    m a = some ⟨some b, some c⟩ := by
  obtain ⟨⟨next, prev⟩, hcell, hnext⟩ := Option.map_eq_some_iff.mp h.1
  have hprev := h'.2
  rw [getPrev, hcell, Option.map_some, Option.some_inj] at hprev
  rw [hcell, ← hnext, ← hprev]

theorem Linked.isSome_left {m : Links ν} {a b : ν} (h : Linked m a b) : (m a).isSome := by
  obtain ⟨c, hc, -⟩ := Option.map_eq_some_iff.mp h.1
  rw [hc]
  rfl

theorem Ring.isSome {m : Links ν} {head a : ν} {l : List ν} (h : Ring m head l)
    (ha : a ∈ head :: l) : (m a).isSome := by
  rcases List.mem_cons.mp ha with rfl | ha
  · obtain ⟨c, hc, -⟩ := Option.map_eq_some_iff.mp h.next_head
    rw [hc]
    rfl
  · obtain ⟨xs, ys, rfl⟩ := List.append_of_mem ha
    obtain ⟨c, hc, -⟩ := Option.map_eq_some_iff.mp h.next
    rw [hc]
    rfl

/-- The list depends on the cells of its nodes only. -/
theorem Ring.congr {m m' : Links ν} {head : ν} {l : List ν} (h : Ring m head l)
    (heq : ∀ a ∈ head :: l, m' a = m a) : Ring m' head l := by
  refine ⟨h.1, chain_congr h.2 ?_ ?_⟩
  · intro a ha
    rw [List.dropLast_concat] at ha
    rw [getNext, heq a ha, getNext]
  · intro a ha
    rw [List.cons_append, List.tail_cons] at ha
    rw [getPrev, heq a (by simp at ha ⊢; tauto), getPrev]

/-- The last node of a list is the one before the head. -/
theorem Ring.last {m : Links ν} {head : ν} {l : List ν} (h : Ring m head l) :
    ∃ init z, head :: l = init ++ [z] ∧ (init ++ [z]).IsChain (Linked m) ∧
      getPrev m head = some (some z) ∧ (m z).isSome := by
  obtain ⟨-, hchain⟩ := h
  obtain ⟨init, z, hinit⟩ := exists_last head l
  rw [hinit, List.append_assoc, List.singleton_append, List.isChain_append_cons_cons] at hchain
  exact ⟨init, z, hinit, hchain.1, hchain.2.1.2, hchain.2.1.isSome_left⟩

/-- The node behind a node of the list is in the list, and points back. -/
theorem Ring.succ {m : Links ν} {head a b : ν} {l : List ν} (h : Ring m head l) (ha : a ∈ head :: l)
    (hab : getNext m a = some (some b)) : b ∈ head :: l ∧ getPrev m b = some (some a) := by
  rcases List.mem_cons.mp ha with rfl | ha
  · obtain ⟨n, post, hpost, hn⟩ := exists_first l a
    have hchain := h.2
    rw [List.cons_append, hpost, List.isChain_cons_cons] at hchain
    obtain rfl : n = b := by
      have := hchain.1.1.symm.trans hab
      simpa using this
    have hmem : n ∈ l ++ [a] := by rw [hpost]; simp
    exact ⟨by simpa [or_comm] using hmem, hchain.1.2⟩
  · obtain ⟨xs, ys, rfl⟩ := List.append_of_mem ha
    obtain ⟨-, -, n, hn, -, -, han, -⟩ := h.split
    obtain rfl : n = b := by
      have := han.1.symm.trans hab
      simpa using this
    exact ⟨by simp at hn ⊢; tauto, han.2⟩

/-- The list seen from another of its nodes. -/
theorem Ring.rotate {m : Links ν} {head p : ν} {xs ys : List ν} (h : Ring m head (xs ++ p :: ys)) :
    Ring m p (ys ++ head :: xs) := by
  obtain ⟨hnodup, hchain⟩ := h
  have hperm : ((p :: ys) ++ (head :: xs)).Perm ((head :: xs) ++ (p :: ys)) :=
    List.perm_append_comm
  refine ⟨hperm.nodup_iff.mpr hnodup, ?_⟩
  have hlist : head :: (xs ++ p :: ys) ++ [head] = (head :: xs) ++ p :: (ys ++ [head]) := by simp
  have hlist' : p :: (ys ++ head :: xs) ++ [p] = (p :: ys) ++ head :: (xs ++ [p]) := by simp
  rw [hlist, List.isChain_split] at hchain
  rw [hlist', List.isChain_split]
  exact hchain.symm

/-- A chain from a node of the list stays in the list. -/
theorem Ring.mem_of_chain {m m' : Links ν} {head : ν} {l : List ν} (h : Ring m' head l) :
    ∀ {a : ν} {xs : List ν}, a ∈ head :: l → (a :: xs).IsChain (Linked m) →
      (∀ b ∈ a :: xs, getNext m' b = getNext m b) → ∀ b ∈ a :: xs, b ∈ head :: l
  | a, [], ha, _, _, b, hb => by
    rw [List.mem_singleton] at hb
    exact hb ▸ ha
  | a, c :: xs, ha, hchain, hkeep, b, hb => by
    obtain ⟨hac, hrest⟩ := List.isChain_cons_cons.mp hchain
    rcases List.mem_cons.mp hb with rfl | hb
    · exact ha
    · have hc := (h.succ ha ((hkeep a (by simp)).trans hac.1)).1
      exact Ring.mem_of_chain h hc hrest (fun d hd => hkeep d (List.mem_cons_of_mem _ hd)) b hb

/-! ### The operations -/

variable [DecidableEq ν]

theorem put_of_ne {a b : ν} (h : b ≠ a) (m : Links ν) (c : Option (Cell ν)) : put m a c b = m b :=
  if_neg h

theorem put_put (m : Links ν) (a : ν) (c c' : Option (Cell ν)) : put (put m a c) a c' = put m a c' := by
  funext b
  by_cases hb : b = a <;> simp [put, hb]

theorem put_self {m : Links ν} {a : ν} {c : Option (Cell ν)} (h : m a = c) : put m a c = m := by
  funext b
  by_cases hb : b = a <;> simp [put, hb, h]

/-- A field that the write leaves as it was. -/
theorem map_put {β : Type*} (f : Cell ν → β) {m : Links ν} {a : ν} {c c' : Cell ν}
    (hc : m a = some c) (hf : f c' = f c) (b : ν) :
    (put m a (some c') b).map f = (m b).map f := by
  by_cases hb : b = a
  · rw [put, if_pos hb, hb, hc, Option.map_some, Option.map_some, hf]
  · rw [put_of_ne hb]

/-- The field that the write sets. -/
theorem map_put_self {β : Type*} (f : Cell ν → β) (m : Links ν) (a : ν) (c : Cell ν) (b : ν) :
    (put m a (some c) b).map f = if b = a then some (f c) else (m b).map f := by
  by_cases hb : b = a
  · rw [put, if_pos hb, if_pos hb, Option.map_some]
  · rw [put_of_ne hb, if_neg hb]

theorem isSome_put {m : Links ν} {a : ν} {c : Cell ν} (hc : m a = some c) (c' : Cell ν) (b : ν) :
    (put m a (some c') b).isSome = (m b).isSome := by
  by_cases hb : b = a
  · rw [put, if_pos hb, hb, hc, Option.isSome_some, Option.isSome_some]
  · rw [put_of_ne hb]

theorem listDelInit_eq (m : Links ν) (a : ν) :
    listDelInit m a = (listDel m a).bind fun m => listInit m a := rfl

theorem listInit_put (m : Links ν) (a : ν) (c : Cell ν) :
    listInit (put m a (some c)) a = some (put m a (some ⟨some a, some a⟩)) := by
  simp [listInit, setNext, setPrev, put_put, show ∀ c, put m a c a = c from fun c => if_pos rfl]

/-- Taking a node out of a list of its own. -/
theorem listDel_self {m : Links ν} {a : ν} (h : m a = some ⟨some a, some a⟩) :
    listDel m a = some m := by
  have hput := put_self h
  simp [listDel, getPrev, getNext, setNext, setPrev, h, hput]

/-- A write to a node in memory sets its `next` and nothing else. -/
theorem setNext_eq {m : Links ν} {a : ν} (v : Option ν) (h : (m a).isSome) :
    ∃ m', setNext m (some a) v = some m' ∧
      (∀ b, getNext m' b = if b = a then some v else getNext m b) ∧
      (∀ b, getPrev m' b = getPrev m b) ∧ (∀ b, b ≠ a → m' b = m b) ∧
      ∀ b, (m' b).isSome = (m b).isSome := by
  obtain ⟨c, hc⟩ := Option.isSome_iff_exists.mp h
  refine ⟨put m a (some { c with next := v }), ?_, map_put_self Cell.next m a _,
    map_put Cell.prev hc rfl, fun b hb => put_of_ne hb m _, isSome_put hc _⟩
  simp [setNext, hc]

/-- A write to a node in memory sets its `prev` and nothing else. -/
theorem setPrev_eq {m : Links ν} {a : ν} (v : Option ν) (h : (m a).isSome) :
    ∃ m', setPrev m (some a) v = some m' ∧
      (∀ b, getPrev m' b = if b = a then some v else getPrev m b) ∧
      (∀ b, getNext m' b = getNext m b) ∧ (∀ b, b ≠ a → m' b = m b) ∧
      ∀ b, (m' b).isSome = (m b).isSome := by
  obtain ⟨c, hc⟩ := Option.isSome_iff_exists.mp h
  refine ⟨put m a (some { c with prev := v }), ?_, map_put_self Cell.prev m a _,
    map_put Cell.next hc rfl, fun b hb => put_of_ne hb m _, isSome_put hc _⟩
  simp [setPrev, hc]

/-- **Taking a node out.** -/
theorem Ring.listDel {m : Links ν} {head e : ν} {xs ys : List ν} (h : Ring m head (xs ++ e :: ys)) :
    ∃ m', listDel m e = some m' ∧ Ring m' head (xs ++ ys) ∧ m' e = m e ∧
      (∀ a, a ∉ head :: (xs ++ ys) → m' a = m a) ∧ ∀ a, (m' a).isSome = (m a).isSome := by
  obtain ⟨p, hp, n, hn, -, hpe, hen, hout⟩ := h.split
  have hne := h.not_mem_rest
  have hpe' : p ≠ e := by rintro rfl; exact hne (by simp at hp ⊢; tauto)
  have hne' : n ≠ e := by rintro rfl; exact hne (by simp at hn ⊢; tauto)
  obtain ⟨m₁, hm₁, hn₁, hp₁, heq₁, hlive₁⟩ := setNext_eq (some n) hpe.isSome_left
  have hlive : (m₁ n).isSome := by
    rw [hlive₁]
    exact h.isSome (by simp at hn ⊢; tauto)
  obtain ⟨m₂, hm₂, hp₂, hn₂, heq₂, hlive₂⟩ := setPrev_eq (some p) hlive
  refine ⟨m₂, ?_, hout m₂ ⟨?_, ?_⟩ ?_ ?_, ?_, ?_, ?_⟩
  · simp only [CircularList.listDel, hpe.2, hen.1, Option.bind_eq_bind, Option.bind_some, hm₁, hm₂]
  · rw [hn₂, hn₁, if_pos rfl]
  · rw [hp₂, if_pos rfl]
  · intro a ha _
    rw [hn₂, hn₁, if_neg ha]
  · intro a ha _
    rw [hp₂, if_neg ha, hp₁]
  · rw [heq₂ e hne'.symm, heq₁ e hpe'.symm]
  · intro a ha
    rw [heq₂ a (by rintro rfl; exact ha (by simp at hn ⊢; tauto)),
      heq₁ a (by rintro rfl; exact ha (by simp at hp ⊢; tauto))]
  · intro a
    rw [hlive₂, hlive₁]

/-- **Taking a node out**, which is then a list of its own. -/
theorem Ring.listDelInit {m : Links ν} {head e : ν} {xs ys : List ν}
    (h : Ring m head (xs ++ e :: ys)) :
    ∃ m', listDelInit m e = some m' ∧ Ring m' head (xs ++ ys) ∧ m' e = some ⟨some e, some e⟩ ∧
      (∀ a, a ∉ head :: (xs ++ e :: ys) → m' a = m a) ∧ ∀ a, (m' a).isSome = (m a).isSome := by
  obtain ⟨m₁, hm₁, hring₁, he₁, heq₁, hlive₁⟩ := h.listDel
  have hne := h.not_mem_rest
  have hlive : (m₁ e).isSome := by
    rw [hlive₁]
    exact h.isSome (by simp)
  obtain ⟨m₂, hm₂, hn₂, hp₂, heq₂, hlive₂⟩ := setNext_eq (some e) hlive
  obtain ⟨m₃, hm₃, hp₃, hn₃, heq₃, hlive₃⟩ := setPrev_eq (some e) (hlive₂ e ▸ hlive)
  refine ⟨m₃, ?_, hring₁.congr fun a ha => ?_, ?_, ?_, ?_⟩
  · simp only [CircularList.listDelInit, hm₁, Option.bind_eq_bind, Option.bind_some, hm₂, hm₃]
  · have hae : a ≠ e := by rintro rfl; exact hne ha
    rw [heq₃ a hae, heq₂ a hae]
  · have hnext : getNext m₃ e = some (some e) := by rw [hn₃, hn₂, if_pos rfl]
    have hprev : getPrev m₃ e = some (some e) := by rw [hp₃, if_pos rfl]
    obtain ⟨c, hc, hcn⟩ := Option.map_eq_some_iff.mp hnext
    rw [getPrev, hc, Option.map_some, Option.some.injEq] at hprev
    cases c
    rw [hc, Option.some.injEq, Cell.mk.injEq]
    exact ⟨hcn, hprev⟩
  · intro a ha
    have hae : a ≠ e := by rintro rfl; exact ha (by simp)
    rw [heq₃ a hae, heq₂ a hae, heq₁ a (by simp at ha ⊢; tauto)]
  · intro a
    rw [hlive₃, hlive₂, hlive₁]

/-- The pointers after `listAddTail`, wherever the node was before. -/
theorem listAddTail_eq {m : Links ν} {z e head : ν} (hz : getPrev m head = some (some z))
    (hzlive : (m z).isSome) (he : (m e).isSome) :
    ∃ m', listAddTail m e head = some m' ∧
      (∀ b, getNext m' b =
        if b = e then some (some head) else if b = z then some (some e) else getNext m b) ∧
      (∀ b, getPrev m' b =
        if b = head then some (some e) else if b = e then some (some z) else getPrev m b) ∧
      (∀ b, b ≠ z → b ≠ e → b ≠ head → m' b = m b) ∧ ∀ b, (m' b).isSome = (m b).isSome := by
  have hhead : (m head).isSome := by
    obtain ⟨c, hc, -⟩ := Option.map_eq_some_iff.mp hz
    rw [hc]
    rfl
  obtain ⟨m₁, hm₁, hn₁, hp₁, heq₁, hlive₁⟩ := setNext_eq (some e) hzlive
  obtain ⟨m₂, hm₂, hp₂, hn₂, heq₂, hlive₂⟩ := setPrev_eq (some z) ((hlive₁ e).trans he)
  obtain ⟨m₃, hm₃, hn₃, hp₃, heq₃, hlive₃⟩ :=
    setNext_eq (some head) ((hlive₂ e).trans ((hlive₁ e).trans he))
  obtain ⟨m₄, hm₄, hp₄, hn₄, heq₄, hlive₄⟩ :=
    setPrev_eq (some e) ((hlive₃ head).trans ((hlive₂ head).trans ((hlive₁ head).trans hhead)))
  refine ⟨m₄, ?_, fun b => ?_, fun b => ?_, fun b hbz hbe hbh => ?_, fun b => ?_⟩
  · simp only [listAddTail, hz, Option.bind_eq_bind, Option.bind_some, hm₁, hp₁ head, hm₂, hm₃, hm₄]
  · rw [hn₄, hn₃, hn₂, hn₁]
  · rw [hp₄, hp₃, hp₂, hp₁]
  · rw [heq₄ b hbh, heq₃ b hbe, heq₂ b hbe, heq₁ b hbz]
  · rw [hlive₄, hlive₃, hlive₂, hlive₁]

/-- **Adding a node at the end.** -/
theorem Ring.listAddTail {m : Links ν} {head e : ν} {l : List ν} (h : Ring m head l)
    (he : (m e).isSome) (hnot : e ∉ head :: l) :
    ∃ m', listAddTail m e head = some m' ∧ Ring m' head (l ++ [e]) ∧
      (∀ a, a ∉ head :: (l ++ [e]) → m' a = m a) ∧ ∀ a, (m' a).isSome = (m a).isSome := by
  obtain ⟨init, z, hinit, hbefore, hprev, hz⟩ := h.last
  have hnodup := h.1
  have hze : z ≠ e := by rintro rfl; exact hnot (by rw [hinit]; simp)
  have hhe : head ≠ e := by rintro rfl; exact hnot (by simp)
  obtain ⟨m', hm', hn', hp', heq', hlive'⟩ := listAddTail_eq hprev hz he
  refine ⟨m', hm', ⟨?_, ?_⟩, ?_, hlive'⟩
  · rw [← List.cons_append]
    refine List.nodup_append.mpr ⟨hnodup, by simp, fun a ha b hb => ?_⟩
    rw [List.mem_singleton] at hb
    rintro rfl
    exact hnot (hb ▸ ha)
  · have hlist : head :: (l ++ [e]) ++ [head] = init ++ z :: e :: [head] := by
      rw [← List.cons_append, hinit]
      simp
    rw [hlist, List.isChain_append_cons_cons, List.isChain_cons_cons]
    refine ⟨chain_congr hbefore ?_ ?_, ⟨?_, ?_⟩, ⟨?_, ?_⟩, List.isChain_singleton head⟩
    · intro a ha
      rw [List.dropLast_concat] at ha
      have haz : a ≠ z := (List.nodup_append.mp (hinit ▸ hnodup)).2.2 a ha z (by simp)
      have hae : a ≠ e := by rintro rfl; exact hnot (by rw [hinit]; simp [ha])
      rw [hn', if_neg hae, if_neg haz]
    · intro a ha
      rw [← hinit, List.tail_cons] at ha
      have hah : a ≠ head := by rintro rfl; exact (List.nodup_cons.mp hnodup).1 ha
      have hae : a ≠ e := by rintro rfl; exact hnot (List.mem_cons_of_mem _ ha)
      rw [hp', if_neg hah, if_neg hae]
    · rw [hn', if_neg hze, if_pos rfl]
    · rw [hp', if_neg hhe.symm, if_pos rfl]
    · rw [hn', if_pos rfl]
    · rw [hp', if_pos rfl]
  · intro a ha
    have haz : a ≠ z := by
      rintro rfl
      refine ha ?_
      rw [← List.cons_append, hinit]
      simp
    exact heq' a haz (by rintro rfl; exact ha (by simp)) (by rintro rfl; exact ha (by simp))

omit [DecidableEq ν] in
/-- A node that no longer points back to the one before it leaves no list, as long as that one can
still be reached. -/
theorem Ring.not_ring_of_prev {m m' : Links ν} {head e : ν} {xs ys l : List ν}
    (h : Ring m head (xs ++ e :: ys)) (hkeep : ∀ b ∈ head :: xs, getNext m' b = getNext m b)
    (hprev : ∀ p ∈ head :: xs, getPrev m' e ≠ some (some p)) : ¬ Ring m' head l := by
  intro hring
  obtain ⟨p, hpmem, -, -, -, hpe, -⟩ := h.split
  have hchain : (head :: xs).IsChain (Linked m) := by
    have hall := h.2
    rw [← List.cons_append, List.append_assoc] at hall
    exact hall.left_of_append
  have hin := hring.mem_of_chain (List.mem_cons_self ..) hchain hkeep p hpmem
  exact hprev p hpmem (hring.succ hin ((hkeep p hpmem).trans hpe.1)).2

/-- **Adding a node twice** leaves no list: the node before it still leads to it, and it points back
to the former end. -/
theorem Ring.not_ring_of_listAddTail {m m' : Links ν} {head e : ν} {xs ys l : List ν}
    (h : Ring m head (xs ++ e :: ys)) (hm' : CircularList.listAddTail m e head = some m') :
    ¬ Ring m' head l := by
  obtain ⟨init, z, hinit, -, hprev, hz⟩ := h.last
  obtain ⟨m'', hm'', hn, hp, -, -⟩ := listAddTail_eq (e := e) hprev hz (h.isSome (by simp))
  obtain rfl := Option.some.inj (hm'.symm.trans hm'')
  have hnodup := h.1
  rw [← List.cons_append] at hnodup
  have hsides := List.nodup_append.mp hnodup
  -- the last node is the added one or behind it
  have hzmem : z ∈ e :: ys := by
    obtain ⟨init', z', hinit'⟩ := exists_last e ys
    have hconcat : (head :: xs ++ init') ++ [z'] = init ++ [z] := by
      rw [← hinit, List.append_assoc, ← hinit', List.cons_append]
    obtain ⟨-, hzz⟩ := List.append_inj' hconcat rfl
    rw [hinit', ← List.singleton_inj.mp hzz]
    simp
  have hhe : e ≠ head := (hsides.2.2 head (by simp) e (by simp)).symm
  refine h.not_ring_of_prev (fun b hb => ?_) fun p hpmem hback => ?_
  · rw [hn, if_neg (hsides.2.2 b hb e (by simp)), if_neg (hsides.2.2 b hb z hzmem)]
  · rw [hp, if_neg hhe, if_pos rfl] at hback
    have hzp : z = p := by simpa using hback
    exact hsides.2.2 p hpmem z hzmem hzp.symm

/-- **Adding a node of one list to another** leaves no list of the first. -/
theorem Ring.not_ring_of_listAddTail_other {m m' : Links ν} {head head' e : ν} {xs ys l l' : List ν}
    (h : Ring m head (xs ++ e :: ys)) (h' : Ring m head' l')
    (hdisj : (head :: (xs ++ e :: ys)).Disjoint (head' :: l'))
    (hm' : CircularList.listAddTail m e head' = some m') : ¬ Ring m' head l := by
  obtain ⟨init, z, hinit, -, hprev, hz⟩ := h'.last
  obtain ⟨m'', hm'', hn, hp, -, -⟩ := listAddTail_eq (e := e) hprev hz (h.isSome (by simp))
  obtain rfl := Option.some.inj (hm'.symm.trans hm'')
  have hnodup := h.1
  rw [← List.cons_append] at hnodup
  have hsides := List.nodup_append.mp hnodup
  have hzmem : z ∈ head' :: l' := by rw [hinit]; simp
  have hfront : ∀ b ∈ head :: xs, b ∉ head' :: l' := by
    intro b hb
    refine hdisj ?_
    rw [← List.cons_append]
    exact List.mem_append_left _ hb
  refine h.not_ring_of_prev (fun b hb => ?_) fun p hpmem hback => ?_
  · have hbz : b ≠ z := by
      rintro rfl
      exact hfront b hb hzmem
    rw [hn, if_neg (hsides.2.2 b hb e (by simp)), if_neg hbz]
  · have hhe : e ≠ head' := by
      rintro rfl
      exact hdisj (by simp) (List.mem_cons_self ..)
    rw [hp, if_neg hhe, if_pos rfl] at hback
    have hzp : z = p := by simpa using hback
    exact hfront p hpmem (hzp ▸ hzmem)

/-- **Freeing a node that is in the list** leaves no list. -/
theorem Ring.not_ring_of_freed {m : Links ν} {head e : ν} {xs ys l : List ν}
    (h : Ring m head (xs ++ e :: ys)) : ¬ Ring (put m e none) head l := by
  have hnodup := h.1
  rw [← List.cons_append] at hnodup
  have hsides := List.nodup_append.mp hnodup
  refine h.not_ring_of_prev (fun b hb => ?_) fun p _ hback => ?_
  · rw [getNext, put, if_neg (hsides.2.2 b hb e (by simp)), getNext]
  · rw [getPrev, put, if_pos rfl] at hback
    cases hback

/-! ### The list the other way round -/

/-- The memory with the two pointers of each node exchanged. -/
def mirror (m : Links ν) : Links ν := fun a => (m a).map fun c => ⟨c.prev, c.next⟩

omit [DecidableEq ν] in
theorem mirror_apply (m : Links ν) (a : ν) : mirror m a = (m a).map fun c => ⟨c.prev, c.next⟩ := rfl

omit [DecidableEq ν] in
@[simp] theorem mirror_mirror (m : Links ν) : mirror (mirror m) = m := by
  funext a
  cases h : m a <;> simp [mirror, h]

omit [DecidableEq ν] in
theorem eq_of_mirror {m m' : Links ν} {a : ν} (h : mirror m' a = mirror m a) : m' a = m a := by
  have hback : mirror (mirror m') a = mirror (mirror m) a := by
    rw [mirror_apply (mirror m'), h, mirror_apply (mirror m)]
  rwa [mirror_mirror, mirror_mirror] at hback

omit [DecidableEq ν] in
@[simp] theorem getNext_mirror (m : Links ν) (a : ν) : getNext (mirror m) a = getPrev m a := by
  cases h : m a <;> simp [mirror, getNext, getPrev, h]

omit [DecidableEq ν] in
@[simp] theorem getPrev_mirror (m : Links ν) (a : ν) : getPrev (mirror m) a = getNext m a := by
  cases h : m a <;> simp [mirror, getNext, getPrev, h]

omit [DecidableEq ν] in
@[simp] theorem isSome_mirror (m : Links ν) (a : ν) : (mirror m a).isSome = (m a).isSome :=
  Option.isSome_map

theorem mirror_put (m : Links ν) (a : ν) (c : Cell ν) :
    mirror (put m a (some c)) = put (mirror m) a (some ⟨c.prev, c.next⟩) := by
  funext b
  by_cases hb : b = a <;> simp [mirror, put, hb]

theorem setNext_mirror (m : Links ν) (p v : Option ν) :
    setNext (mirror m) p v = (setPrev m p v).map mirror := by
  cases p with
  | none => rfl
  | some a =>
    simp only [setNext, setPrev, Option.bind_eq_bind, Option.bind_some, mirror_apply]
    cases m a <;> simp [mirror_put]

theorem setPrev_mirror (m : Links ν) (p v : Option ν) :
    setPrev (mirror m) p v = (setNext m p v).map mirror := by
  cases p with
  | none => rfl
  | some a =>
    simp only [setNext, setPrev, Option.bind_eq_bind, Option.bind_some, mirror_apply]
    cases m a <;> simp [mirror_put]

/-- Adding at the front is adding at the end, the other way round. -/
theorem listAddTail_mirror (m : Links ν) (e head : ν) :
    listAddTail (mirror m) e head = (listAdd m e head).map mirror := by
  simp [listAddTail, listAdd, setNext_mirror, setPrev_mirror, Option.bind_map, Option.map_bind]

omit [DecidableEq ν] in
theorem Ring.mirror {m : Links ν} {head : ν} {l : List ν} (h : Ring m head l) :
    Ring (mirror m) head l.reverse := by
  refine ⟨?_, ?_⟩
  · exact List.nodup_cons.mpr ⟨fun hmem => (List.nodup_cons.mp h.1).1 (List.mem_reverse.mp hmem),
      List.nodup_reverse.mpr (List.nodup_cons.mp h.1).2⟩
  · have hlist : head :: l.reverse ++ [head] = (head :: l ++ [head]).reverse := by simp
    rw [hlist, List.isChain_reverse]
    exact h.2.imp fun a b hab => ⟨(getNext_mirror m b).trans hab.2, (getPrev_mirror m a).trans hab.1⟩

/-- **Adding a node at the front.** -/
theorem Ring.listAdd {m : Links ν} {head e : ν} {l : List ν} (h : Ring m head l)
    (he : (m e).isSome) (hnot : e ∉ head :: l) :
    ∃ m', listAdd m e head = some m' ∧ Ring m' head (e :: l) ∧
      (∀ a, a ∉ head :: e :: l → m' a = m a) ∧ ∀ a, (m' a).isSome = (m a).isSome := by
  have hnot' : e ∉ head :: l.reverse := by simpa using hnot
  obtain ⟨m', hm', hring, hframe, hlive⟩ :=
    h.mirror.listAddTail ((isSome_mirror m e).trans he) hnot'
  rw [listAddTail_mirror] at hm'
  obtain ⟨m'', hm'', rfl⟩ := Option.map_eq_some_iff.mp hm'
  refine ⟨m'', hm'', ?_, fun a ha => ?_, fun a => ?_⟩
  · have := hring.mirror
    rwa [mirror_mirror, List.reverse_append, List.reverse_reverse] at this
  · exact eq_of_mirror (hframe a (by simpa [or_comm] using ha))
  · rw [← isSome_mirror m'', hlive, isSome_mirror]

/-! ### Any position

A place in the list is a split of its nodes in those before and those behind. -/

/-- **Adding a node behind another.** -/
theorem Ring.listAdd_behind {m : Links ν} {head e : ν} {xs ys : List ν} (h : Ring m head (xs ++ ys))
    (he : (m e).isSome) (hnot : e ∉ head :: (xs ++ ys)) :
    ∃ m', CircularList.listAdd m e (xs.getLastD head) = some m' ∧ Ring m' head (xs ++ e :: ys) ∧
      (∀ a, a ∉ head :: (xs ++ e :: ys) → m' a = m a) ∧ ∀ a, (m' a).isSome = (m a).isSome := by
  rcases List.eq_nil_or_concat' xs with rfl | ⟨xs, p, rfl⟩
  · exact h.listAdd he hnot
  · rw [List.append_assoc, List.singleton_append] at h hnot
    obtain ⟨m', hm', hring, hframe, hlive⟩ := h.rotate.listAdd he (by simp at hnot ⊢; tauto)
    have hback : Ring m' p ((e :: ys) ++ head :: xs) := hring
    refine ⟨m', ?_, ?_, fun a ha => hframe a (by simp at ha ⊢; tauto), hlive⟩
    · rwa [List.getLastD_concat]
    · rw [List.append_assoc, List.singleton_append]
      exact hback.rotate

/-- **Adding a node before another.** -/
theorem Ring.listAddTail_before {m : Links ν} {head e : ν} {xs ys : List ν}
    (h : Ring m head (xs ++ ys)) (he : (m e).isSome) (hnot : e ∉ head :: (xs ++ ys)) :
    ∃ m', CircularList.listAddTail m e (ys.headD head) = some m' ∧ Ring m' head (xs ++ e :: ys) ∧
      (∀ a, a ∉ head :: (xs ++ e :: ys) → m' a = m a) ∧ ∀ a, (m' a).isSome = (m a).isSome := by
  cases ys with
  | nil =>
    rw [List.append_nil] at h hnot
    exact h.listAddTail he hnot
  | cons p ys =>
    obtain ⟨m', hm', hring, hframe, hlive⟩ := h.rotate.listAddTail he (by simp at hnot ⊢; tauto)
    refine ⟨m', hm', ?_, fun a ha => hframe a (by simp at ha ⊢; tauto), hlive⟩
    rw [List.append_assoc, List.cons_append] at hring
    rw [List.append_cons]
    exact hring.rotate

/-! ### Two lists through the same pointers -/

/-- Two lists without a common node. -/
structure Rings (m : Links ν) (a b : ν) (l k : List ν) : Prop where
  left : Ring m a l
  right : Ring m b k
  disjoint : (a :: l).Disjoint (b :: k)

section Rings

omit [DecidableEq ν] in
theorem Rings.symm {m : Links ν} {a b : ν} {l k : List ν} (h : Rings m a b l k) : Rings m b a k l :=
  ⟨h.right, h.left, h.disjoint.symm⟩

omit [DecidableEq ν] in
theorem Rings.congr {m m' : Links ν} {a b : ν} {l k : List ν} (h : Rings m a b l k)
    (heq : ∀ e, e ∈ a :: l ∨ e ∈ b :: k → m' e = m e) : Rings m' a b l k :=
  ⟨h.left.congr fun e he => heq e (.inl he), h.right.congr fun e he => heq e (.inr he), h.disjoint⟩

/-- A new node goes to the end of one of the lists. -/
theorem Rings.add {m : Links ν} {a b e : ν} {l k : List ν} (h : Rings m a b l k) (he : (m e).isSome)
    (ha : e ∉ a :: l) (hb : e ∉ b :: k) :
    ∃ m', CircularList.listAddTail m e a = some m' ∧ Rings m' a b (l ++ [e]) k ∧
      (∀ c, c ∉ a :: (l ++ [e]) → m' c = m c) ∧ ∀ c, (m' c).isSome = (m c).isSome := by
  obtain ⟨m', hm', hring, hframe, hlive⟩ := h.left.listAddTail he ha
  have hdisj : (a :: (l ++ [e])).Disjoint (b :: k) := by
    rw [← List.cons_append, List.disjoint_append_left]
    exact ⟨h.disjoint, by rwa [List.singleton_disjoint]⟩
  exact ⟨m', hm', ⟨hring, h.right.congr fun c hc => hframe c fun hin => hdisj hin hc, hdisj⟩,
    hframe, hlive⟩

/-- A node is taken out of the list that it is in. -/
theorem Rings.remove {m : Links ν} {a b e : ν} {l k : List ν} (h : Rings m a b l k) (he : e ∈ l) :
    ∃ m', CircularList.listDelInit m e = some m' ∧ Rings m' a b (l.erase e) k ∧
      (∀ c, c ∉ a :: l → m' c = m c) ∧ ∀ c, (m' c).isSome = (m c).isSome := by
  obtain ⟨xs, ys, rfl⟩ := List.append_of_mem he
  have hnot := h.left.not_mem_rest
  obtain ⟨m', hm', hring, -, hframe, hlive⟩ := h.left.listDelInit
  rw [List.erase_append_right _ fun hx => hnot (by simp [hx]), List.erase_cons_head]
  have hsub := subset_middle a e xs ys
  exact ⟨m', hm', ⟨hring, h.right.congr fun c hc => hframe c fun hin => h.disjoint hin hc,
    fun _ hc => h.disjoint (hsub hc)⟩, hframe, hlive⟩

/-- A new node goes to the front of one of the lists. -/
theorem Rings.push {m : Links ν} {a b e : ν} {l k : List ν} (h : Rings m a b l k) (he : (m e).isSome)
    (ha : e ∉ a :: l) (hb : e ∉ b :: k) :
    ∃ m', CircularList.listAdd m e a = some m' ∧ Rings m' a b (e :: l) k := by
  obtain ⟨m', hm', hring, hframe, -⟩ := h.left.listAdd he ha
  have hdisj : (a :: e :: l).Disjoint (b :: k) := by
    intro c hc hc'
    rcases List.mem_cons.mp hc with rfl | hc
    · exact h.disjoint (List.mem_cons_self ..) hc'
    rcases List.mem_cons.mp hc with rfl | hc
    · exact hb hc'
    · exact h.disjoint (List.mem_cons_of_mem _ hc) hc'
  exact ⟨m', hm', hring, h.right.congr fun c hc => hframe c fun hin => hdisj hin hc, hdisj⟩

/-- A node of the first list goes to the front of the second. -/
theorem Rings.move {m : Links ν} {a b e : ν} {l k : List ν} (h : Rings m a b l k) (he : e ∈ l) :
    ∃ m₁ m', CircularList.listDel m e = some m₁ ∧ CircularList.listAdd m₁ e b = some m' ∧
      Rings m' a b (l.erase e) (e :: k) := by
  obtain ⟨xs, ys, rfl⟩ := List.append_of_mem he
  obtain ⟨m₁, hm₁, hring, -, hframe, hlive⟩ := h.left.listDel
  have hnot := h.left.not_mem_rest
  have hsub := subset_middle a e xs ys
  have hout : e ∉ b :: k := h.disjoint (List.mem_cons_of_mem _ he)
  have hrings : Rings m₁ a b (xs ++ ys) k :=
    ⟨hring, h.right.congr fun c hc => hframe c fun hin => h.disjoint (hsub hin) hc,
      fun _ hc => h.disjoint (hsub hc)⟩
  obtain ⟨m', hm', hrings'⟩ :=
    hrings.symm.push ((hlive e).trans (h.left.isSome (List.mem_cons_of_mem _ he))) hout hnot
  rw [List.erase_append_right _ fun hx => hnot (by simp [hx]), List.erase_cons_head]
  exact ⟨m₁, m', hm₁, hm', hrings'.symm⟩

/-- A node that is in one of the lists is added to the first. -/
theorem Rings.not_rings_of_add {m m' : Links ν} {a b e : ν} {l k l' k' : List ν} (h : Rings m a b l k)
    (he : e ∈ l ∨ e ∈ k) (hm' : CircularList.listAddTail m e a = some m') : ¬ Rings m' a b l' k' := by
  intro h'
  rcases he with he | he
  · obtain ⟨xs, ys, rfl⟩ := List.append_of_mem he
    exact h.left.not_ring_of_listAddTail hm' h'.left
  · obtain ⟨xs, ys, rfl⟩ := List.append_of_mem he
    exact h.right.not_ring_of_listAddTail_other h.left h.disjoint.symm hm' h'.right

/-- A node that is in one of the lists is freed. -/
theorem Rings.not_rings_of_freed {m : Links ν} {a b e : ν} {l k l' k' : List ν} (h : Rings m a b l k)
    (he : e ∈ l ∨ e ∈ k) : ¬ Rings (put m e none) a b l' k' := by
  intro h'
  rcases he with he | he
  · obtain ⟨xs, ys, rfl⟩ := List.append_of_mem he
    exact h.left.not_ring_of_freed h'.left
  · obtain ⟨xs, ys, rfl⟩ := List.append_of_mem he
    exact h.right.not_ring_of_freed h'.right

end Rings

/-! ### A part of the memory -/

/-- What is in the memory `m` is in `M` too. -/
def Sub (m M : Links ν) : Prop := ∀ a c, m a = some c → M a = some c

/-- An operation frees no node, and has in a larger memory the result that it has in a part of it. -/
def Tracks (f : Links ν → Option (Links ν)) : Prop :=
  ∀ ⦃m M m' M'⦄, Sub m M → f m = some m' → f M = some M' →
    Sub m' M' ∧ ∀ b, (m' b).isSome = (m b).isSome

section Part

omit [DecidableEq ν] in
theorem Sub.eq {m M : Links ν} {a : ν} (h : Sub m M) (ha : (m a).isSome) : M a = m a := by
  obtain ⟨c, hc⟩ := Option.isSome_iff_exists.mp ha
  rw [hc, h a c hc]

theorem Sub.put {m M : Links ν} (h : Sub m M) (a : ν) (c : Option (Cell ν)) :
    Sub (put m a c) (put M a c) := by
  intro b d hb
  unfold CircularList.put at hb ⊢
  split_ifs with hba
  · rwa [if_pos hba] at hb
  · rw [if_neg hba] at hb
    exact h b d hb

theorem Sub.free {m M : Links ν} (h : Sub m M) (a : ν) : Sub (CircularList.put m a none) M := by
  intro b d hb
  unfold CircularList.put at hb
  split_ifs at hb
  exact h b d hb

omit [DecidableEq ν] in
theorem Tracks.bind {f g : Links ν → Option (Links ν)} (hf : Tracks f) (hg : Tracks g) :
    Tracks fun m => (f m).bind g := by
  intro m M m' M' h hm hM
  obtain ⟨m₁, hm₁, hm⟩ := Option.bind_eq_some_iff.mp hm
  obtain ⟨M₁, hM₁, hM⟩ := Option.bind_eq_some_iff.mp hM
  obtain ⟨h₁, hlive₁⟩ := hf h hm₁ hM₁
  obtain ⟨h', hlive⟩ := hg h₁ hm hM
  exact ⟨h', fun b => (hlive b).trans (hlive₁ b)⟩

omit [DecidableEq ν] in
/-- A pointer is read. -/
theorem Tracks.get {f : Option ν → Links ν → Option (Links ν)} (hf : ∀ v, Tracks (f v)) (a : ν)
    (p : Cell ν → Option ν) : Tracks fun m => ((m a).map p).bind fun v => f v m := by
  intro m M m' M' h hm hM
  beta_reduce at hm hM
  obtain ⟨v, hv, hm⟩ := Option.bind_eq_some_iff.mp hm
  obtain ⟨c, hc, rfl⟩ := Option.map_eq_some_iff.mp hv
  rw [h a c hc] at hM
  exact hf (p c) h hm hM

/-- A pointer is written. -/
theorem Tracks.set (p : Option ν) (w : Cell ν → Cell ν) :
    Tracks fun m : Links ν =>
      p.bind fun a => (m a).bind fun c => some (CircularList.put m a (some (w c))) := by
  intro m M m' M' h hm hM
  beta_reduce at hm hM
  obtain ⟨a, ha, hm⟩ := Option.bind_eq_some_iff.mp hm
  obtain ⟨c, hc, hm⟩ := Option.bind_eq_some_iff.mp hm
  rw [ha, Option.bind_some, h a c hc] at hM
  obtain rfl := Option.some.inj hm
  obtain rfl := Option.some.inj hM
  refine ⟨h.put a _, fun b => ?_⟩
  unfold CircularList.put
  split_ifs with hba
  · rw [hba, hc]
    rfl
  · rfl

theorem tracks_setNext (p v : Option ν) : Tracks fun m => setNext m p v :=
  .set p fun c => { c with next := v }

theorem tracks_setPrev (p v : Option ν) : Tracks fun m => setPrev m p v :=
  .set p fun c => { c with prev := v }

theorem tracks_listInit (head : ν) : Tracks fun m => listInit m head :=
  (tracks_setNext (some head) (some head)).bind (tracks_setPrev (some head) (some head))

theorem tracks_listDel (e : ν) : Tracks fun m => listDel m e :=
  .get (fun prev => .get (fun next => (tracks_setNext prev next).bind (tracks_setPrev next prev))
    e Cell.next) e Cell.prev

theorem tracks_listDelInit (e : ν) : Tracks fun m => listDelInit m e :=
  (tracks_listDel e).bind (tracks_listInit e)

theorem tracks_listAdd (e head : ν) : Tracks fun m => listAdd m e head :=
  .get (fun next => (tracks_setPrev next (some e)).bind (.get (fun next =>
    (tracks_setNext (some e) next).bind ((tracks_setPrev (some e) (some head)).bind
      (tracks_setNext (some head) (some e)))) head Cell.next)) head Cell.next

end Part

/-! ### Loops -/

theorem Ring.listFind {m : Links ν} {head : ν} {l : List ν} {f : ν → Option Bool} {g : ν → Bool}
    (h : Ring m head l) (hf : ∀ a ∈ l, f a = some (g a)) : ∀ (xs ys : List ν) (n : ℕ),
      l = xs ++ ys → ys.length < n →
        listFind m head f n (some (ys.headD head)) = some (ys.find? g)
  | xs, [], n + 1, _, _ => by simp [CircularList.listFind]
  | xs, a :: ys, n + 1, hl, hn => by
    have hne : a ≠ head := by
      rintro rfl
      exact (List.nodup_cons.mp h.1).1 (by rw [hl]; simp)
    have hrest := h.listFind hf (xs ++ [a]) ys n (by rw [hl]; simp)
      (by simpa using hn)
    rw [hl] at h hf
    have hfa : f a = some (g a) := hf a (by simp)
    rw [List.headD_cons, CircularList.listFind, if_neg hne, hfa, Option.bind_some, h.next,
      Option.bind_some, hrest, List.find?_cons]
    cases g a <;> rfl

/-- A node that the loop finds is one that it looks for. -/
theorem listFind_holds {m : Links ν} {head a : ν} {f : ν → Option Bool} : ∀ {n : ℕ}
    {pos : Option ν}, CircularList.listFind m head f n pos = some (some a) → f a = some true
  | n + 1, some b, h => by
    rw [CircularList.listFind] at h
    by_cases hb : b = head
    · simp [if_pos hb] at h
    · rw [if_neg hb] at h
      obtain ⟨found, hfound, h⟩ := Option.bind_eq_some_iff.mp h
      cases found with
      | true =>
        obtain rfl := Option.some.inj (Option.some.inj h)
        exact hfound
      | false =>
        obtain ⟨next, -, h⟩ := Option.bind_eq_some_iff.mp h
        exact listFind_holds h

theorem Ring.listEmpty {m : Links ν} {head : ν} {l : List ν} (h : Ring m head l) :
    listEmpty m head = some l.isEmpty := by
  rw [CircularList.listEmpty, h.next_head, Option.map_some, Option.some_inj]
  cases l with
  | nil => simp
  | cons a l =>
    have hne : a ≠ head := by
      rintro rfl
      exact (List.nodup_cons.mp h.1).1 (List.mem_cons_self ..)
    simpa using hne

/-- **A walk that may take out the visited node** comes to each node once. `xs` are the nodes before
that have stayed; the walk goes on from the node that was saved, which no turn before has touched. -/
theorem Ring.walkSafe {head : ν} {body : ν → Links ν → Option (Links ν)} {stays : ν → Bool}
    (hbody : ∀ {m a} {xs ys : List ν}, Ring m head (xs ++ a :: ys) → ∃ m', body a m = some m' ∧
      Ring m' head (xs ++ [a].filter stays ++ ys) ∧ ∀ b, b ∉ head :: (xs ++ a :: ys) → m' b = m b) :
    ∀ {ys xs : List ν} {n : ℕ} {m : Links ν} {p : Option ν}, Ring m head (xs ++ ys) →
      (ys ≠ [] → p = some (ys.tail.headD head)) → ys.length < n →
      ∃ m', CircularList.walkSafe body head n (some (ys.headD head)) p m = some (ys, m') ∧
        Ring m' head (xs ++ ys.filter stays) ∧ ∀ b, b ∉ head :: (xs ++ ys) → m' b = m b
  | [], xs, n + 1, m, p, h, _, _ => ⟨m, if_pos rfl, by simpa using h, fun _ _ => rfl⟩
  | a :: ys, xs, n + 1, m, p, h, hp, hn => by
    have hne : a ≠ head := by
      rintro rfl
      exact (List.nodup_cons.mp h.1).1 (by simp)
    obtain rfl : p = some (ys.headD head) := hp (List.cons_ne_nil a ys)
    obtain ⟨m₁, hm₁, hring₁, hframe₁⟩ := hbody h
    obtain ⟨next, hnext, hsaved⟩ : ∃ next, getNext m₁ (ys.headD head) = some next ∧
        (ys ≠ [] → next = some (ys.tail.headD head)) := by
      cases ys with
      | nil => exact ⟨_, hring₁.next_head, fun hnil => absurd rfl hnil⟩
      | cons b ys => exact ⟨_, hring₁.next, fun _ => rfl⟩
    obtain ⟨m', hm', hring', hframe'⟩ :=
      Ring.walkSafe hbody hring₁ hsaved (Nat.lt_of_succ_lt_succ hn)
    refine ⟨m', ?_, ?_, fun b hb => ?_⟩
    · rw [List.headD_cons, CircularList.walkSafe, if_neg hne, hm₁]
      simp only [Option.bind_eq_bind, Option.bind_some, hnext, hm']
    · rwa [List.append_assoc, ← List.filter_append, List.singleton_append] at hring'
    · refine (hframe' b fun hin => hb ?_).trans (hframe₁ b hb)
      simp only [List.mem_cons, List.mem_append, List.mem_filter] at hin ⊢
      tauto

theorem Ring.nodes {m : Links ν} {head : ν} {l : List ν} (h : Ring m head l) :
    ∀ (xs ys : List ν) (n : ℕ), l = xs ++ ys → ys.length ≤ n →
      nodes m head n (some (ys.headD head)) = ys
  | xs, [], n, _, _ => by cases n <;> simp [CircularList.nodes]
  | xs, a :: ys, n + 1, hl, hn => by
    have hne : a ≠ head := by
      rintro rfl
      exact (List.nodup_cons.mp h.1).1 (by rw [hl]; simp)
    have hrest := h.nodes (xs ++ [a]) ys n (by rw [hl]; simp)
      (by simpa using hn)
    rw [hl] at h
    rw [List.headD_cons, CircularList.nodes, if_neg hne, h.next]
    exact congrArg (a :: ·) hrest

theorem Ring.unique {m : Links ν} {head : ν} {l l' : List ν} (h : Ring m head l)
    (h' : Ring m head l') : l = l' := by
  have hl := h.nodes [] l _ rfl (Nat.le_max_left l.length l'.length)
  have hl' := h'.nodes [] l' _ rfl (Nat.le_max_right l.length l'.length)
  have hfirst := Option.some.inj (h.next_head.symm.trans h'.next_head)
  rw [← hl, hfirst, hl']

end ToyIP.Lib.CircularList
