import ToyIP.Lib.CircularList
import ToyIP.Lib.Run
import ToyIP.Lib.Word32

/-! # Lists, and the queues of buffers

The lists of `list.h` are rings of nodes, and a queue of buffers is such a list with the counter
`qlen`. The operations on lists are those on sequences (`IsSequence`). Those on queues are too, as
long as the counter has room for one more and no buffer is taken off an empty queue:
`sequences_iff`, for all calls on any number of queues. -/

namespace ToyIP.Stack.SkbQueues

open ToyIP.Lib ToyIP.Lib.CircularList ToyIP.Lib.Run

variable {ν : Type}

/-! ### Lists -/

/-- An operation has made `l` to `l'` in the list of `head`, and nothing else. -/
structure Becomes (m m' : Links ν) (head : ν) (l l' : List ν) : Prop where
  ring : Ring m' head l'
  frame : ∀ a, a ∉ head :: l → a ∉ head :: l' → m' a = m a
  others : ∀ b k, Ring m b k → (b :: k).Disjoint (head :: l) → (b :: k).Disjoint (head :: l') →
    Ring m' b k ∧ ∀ a ∈ b :: k, m' a = m a

theorem Becomes.of_frame {m m' : Links ν} {head : ν} {l l' : List ν} (h : Ring m' head l')
    (hframe : ∀ a, a ∉ head :: l → a ∉ head :: l' → m' a = m a) : Becomes m m' head l l' := by
  refine ⟨h, hframe, fun b k hb hl hl' => ?_⟩
  have heq : ∀ a ∈ b :: k, m' a = m a := fun a ha => hframe a (hl ha) (hl' ha)
  exact ⟨hb.congr heq, heq⟩

/-- What is done at a node in a walk: it stays, or it is taken out, after which its memory may be
given back. -/
inductive Visit
  | stay | listDel | listDelInit | free
  deriving DecidableEq, Repr

section Lists

variable [DecidableEq ν]

def visit (act : ν → Visit) (a : ν) (m : Links ν) : Option (Links ν) :=
  match act a with
  | .stay => some m
  | .listDel => listDel m a
  | .listDelInit => listDelInit m a
  | .free => (listDel m a).map fun m => put m a none

/-- **A list is a sequence** for the operations. A new node is in memory and not in the list; its
place is a split of the nodes, between `xs.getLastD head` and `ys.headD head`. -/
structure IsSequence (m : Links ν) (head : ν) (l : List ν) : Prop where
  rotate : ∀ p xs ys, l = xs ++ p :: ys → Ring m p (ys ++ head :: xs)
  empty : listEmpty m head = some l.isEmpty
  add : ∀ e xs ys, l = xs ++ ys → (m e).isSome → e ∉ head :: l →
    ∃ m', listAdd m e (xs.getLastD head) = some m' ∧ Becomes m m' head l (xs ++ e :: ys)
  addTail : ∀ e xs ys, l = xs ++ ys → (m e).isSome → e ∉ head :: l →
    ∃ m', listAddTail m e (ys.headD head) = some m' ∧ Becomes m m' head l (xs ++ e :: ys)
  del : ∀ e xs ys, l = xs ++ e :: ys →
    ∃ m', listDel m e = some m' ∧ Becomes m m' head l (xs ++ ys) ∧ m' e = m e
  delInit : ∀ e xs ys, l = xs ++ e :: ys →
    ∃ m', listDelInit m e = some m' ∧ Becomes m m' head l (xs ++ ys) ∧ Ring m' e []
  walk : ∀ act n, l.length < n → ∃ m', listForEachSafe (visit act) head n m = some (l, m') ∧
    Becomes m m' head l (l.filter fun a => act a = .stay)

/-- `list_init` makes an empty list. -/
theorem ring_listInit {m : Links ν} {head : ν} (h : (m head).isSome) :
    ∃ m', listInit m head = some m' ∧ Ring m' head [] ∧ ∀ a, a ≠ head → m' a = m a := by
  obtain ⟨c, hc⟩ := Option.isSome_iff_exists.mp h
  refine ⟨put m head (some ⟨some head, some head⟩), ?_, ?_, fun a ha => put_of_ne ha m _⟩
  · rw [← listInit_put m head c, put_self hc]
  · refine ring_nil.mpr ⟨?_, ?_⟩
    · simp [getNext, put]
    · simp [getPrev, put]

theorem ring_visit {m : Links ν} {head a : ν} {xs ys : List ν} (act : ν → Visit)
    (h : Ring m head (xs ++ a :: ys)) : ∃ m', visit act a m = some m' ∧
      Ring m' head (xs ++ [a].filter (fun a => act a = .stay) ++ ys) ∧
      ∀ b, b ∉ head :: (xs ++ a :: ys) → m' b = m b := by
  have hout : ∀ b, b ∉ head :: (xs ++ a :: ys) → b ∉ head :: (xs ++ ys) := fun b hb hin =>
    hb (subset_middle head a xs ys hin)
  unfold visit
  cases hact : act a with
  | stay => exact ⟨m, rfl, by simpa [hact] using h, fun _ _ => rfl⟩
  | listDel =>
    obtain ⟨m', hm', hring, -, hframe, -⟩ := h.listDel
    exact ⟨m', hm', by simpa [hact] using hring, fun b hb => hframe b (hout b hb)⟩
  | listDelInit =>
    obtain ⟨m', hm', hring, -, hframe, -⟩ := h.listDelInit
    exact ⟨m', hm', by simpa [hact] using hring, hframe⟩
  | free =>
    obtain ⟨m', hm', hring, -, hframe, -⟩ := h.listDel
    have hne : ∀ b ∈ head :: (xs ++ ys), b ≠ a := by
      rintro b hb rfl
      exact h.not_mem_rest hb
    refine ⟨put m' a none, ?_, ?_, fun b hb => ?_⟩
    · simp only [hm', Option.map_some]
    · have hring' := hring.congr fun b hb => put_of_ne (hne b hb) m' none
      simpa [hact] using hring'
    · have hba : b ≠ a := by
        rintro rfl
        exact hb (by simp)
      rw [put_of_ne hba, hframe b (hout b hb)]

theorem walk_listForEachSafe {m : Links ν} {head : ν} {l : List ν} (h : Ring m head l)
    (act : ν → Visit) {n : ℕ} (hn : l.length < n) :
    ∃ m', listForEachSafe (visit act) head n m = some (l, m') ∧
      Ring m' head (l.filter fun a => act a = .stay) ∧ ∀ b, b ∉ head :: l → m' b = m b := by
  have hstart : Ring m head ([] ++ l) := h
  obtain ⟨next, hnext, hsaved⟩ : ∃ next, getNext m (l.headD head) = some next ∧
      (l ≠ [] → next = some (l.tail.headD head)) := by
    cases l with
    | nil => exact ⟨_, h.next_head, fun hnil => absurd rfl hnil⟩
    | cons a l => exact ⟨_, hstart.next, fun _ => rfl⟩
  obtain ⟨m', hm', hring, hframe⟩ := Ring.walkSafe (ring_visit act) hstart hsaved hn
  refine ⟨m', ?_, hring, hframe⟩
  rw [listForEachSafe]
  simp only [h.next_head, Option.bind_eq_bind, Option.bind_some, hnext, hm']

theorem isSequence {m : Links ν} {head : ν} {l : List ν} (h : Ring m head l) :
    IsSequence m head l where
  rotate := by
    rintro p xs ys rfl
    exact h.rotate
  empty := h.listEmpty
  add := by
    rintro e xs ys rfl he hnot
    obtain ⟨m', hm', hring, hframe, -⟩ := h.listAdd_behind he hnot
    exact ⟨m', hm', .of_frame hring fun a _ ha => hframe a ha⟩
  addTail := by
    rintro e xs ys rfl he hnot
    obtain ⟨m', hm', hring, hframe, -⟩ := h.listAddTail_before he hnot
    exact ⟨m', hm', .of_frame hring fun a _ ha => hframe a ha⟩
  del := by
    rintro e xs ys rfl
    obtain ⟨m', hm', hring, he, hframe, -⟩ := h.listDel
    exact ⟨m', hm', .of_frame hring fun a _ ha => hframe a ha, he⟩
  delInit := by
    rintro e xs ys rfl
    obtain ⟨m', hm', hring, he, hframe, -⟩ := h.listDelInit
    refine ⟨m', hm', .of_frame hring fun a ha _ => hframe a ha, ring_nil.mpr ⟨?_, ?_⟩⟩
    · rw [getNext, he, Option.map_some]
    · rw [getPrev, he, Option.map_some]
  walk act n hn := by
    obtain ⟨m', hm', hring, hframe⟩ := walk_listForEachSafe h act hn
    exact ⟨m', hm', .of_frame hring fun a ha _ => hframe a ha⟩

end Lists

/-! ### Queues -/

/-- The memory: the list nodes, `qlen` of each `struct sk_buff_head` under the node `head`, and
`refcnt` of each `struct sk_buff` under the node `list`. These are the first members, so a node has
the address of its structure. -/
structure Heap (ν : Type) where
  links : Links ν
  qlen : ν → Option UInt32
  refcnt : ν → Option ℤ

section Code

variable [DecidableEq ν]

def Heap.setQlen (h : Heap ν) (list : ν) (n : UInt32) : Heap ν :=
  { h with qlen := Function.update h.qlen list (some n) }

def Heap.setRefcnt (h : Heap ν) (skb : ν) (n : Option ℤ) : Heap ν :=
  { h with refcnt := Function.update h.refcnt skb n }

def skbQueueLen (h : Heap ν) (list : ν) : Option UInt32 := h.qlen list

def skbQueueInit (h : Heap ν) (list : ν) : Option (Heap ν) := do
  let links ← listInit h.links list
  let _ ← h.qlen list
  some ({ h with links := links }.setQlen list 0)

def skbQueueAdd (h : Heap ν) (list newItem next : ν) : Option (Heap ν) := do
  let links ← listAdd h.links newItem next
  let qlen ← h.qlen list
  some ({ h with links := links }.setQlen list (qlen + 1))

def skbQueueTail (h : Heap ν) (list newItem : ν) : Option (Heap ν) := do
  let links ← listAddTail h.links newItem list
  let qlen ← h.qlen list
  some ({ h with links := links }.setQlen list (qlen + 1))

/-- The first entry of the list is taken out, without a test whether there is one. -/
def skbDequeue (h : Heap ν) (list : ν) : Option (ν × Heap ν) := do
  let next ← getNext h.links list
  let skb ← next
  let links ← listDel h.links skb
  let qlen ← h.qlen list
  some (skb, { h with links := links }.setQlen list (qlen - 1))

def skbQueueEmpty (h : Heap ν) (list : ν) : Option Bool :=
  (skbQueueLen h list).map fun qlen => qlen < 1

def skbPeek (h : Heap ν) (list : ν) : Option (Option ν) := do
  if ← skbQueueEmpty h list then some none else getNext h.links list

/-- `free_skb`; the data lies in memory of its own. -/
def freeSkb (h : Heap ν) (skb : ν) : Option (Heap ν) := do
  let refcnt ← h.refcnt skb
  if refcnt < 1 then some ({ h with links := put h.links skb none }.setRefcnt skb none) else some h

/-- The loop of `skb_queue_free`, in at most `n` turns. -/
def skbQueueFree (list : ν) : ℕ → Heap ν → Option (Heap ν)
  | 0, _ => none
  | n + 1, h => do
    match ← skbPeek h list with
    | none => some h
    | some skb => do
      let (_, h) ← skbDequeue h list
      let refcnt ← h.refcnt skb
      let h ← freeSkb (h.setRefcnt skb (some (refcnt - 1))) skb
      skbQueueFree list n h

end Code

/-- A function of the queues, with its arguments but the queue. -/
inductive Op (ν : Type)
  | init
  | tail (newItem : ν)
  | add (newItem next : ν)
  | peek
  | dequeue
  | free
  deriving DecidableEq, Repr

/-- The function on the queue `q`, with the buffer that it returns. `skb_queue_free` takes one turn
for each buffer counted, and one more. -/
def call [DecidableEq ν] (h : Heap ν) (q : ν) : Op ν → Option (Heap ν × Option ν)
  | .init => (skbQueueInit h q).map fun h => (h, none)
  | .tail newItem => (skbQueueTail h q newItem).map fun h => (h, none)
  | .add newItem next => (skbQueueAdd h q newItem next).map fun h => (h, none)
  | .peek => (skbPeek h q).map fun skb => (h, skb)
  | .dequeue => (skbDequeue h q).map fun r => (r.2, some r.1)
  | .free => do
    let qlen ← skbQueueLen h q
    let h ← skbQueueFree q (qlen.toNat + 1) h
    some (h, none)

/-! ### Sequences -/

/-- The sequence with `e` behind `a`. -/
def insertBehind [DecidableEq ν] (a e : ν) : List ν → List ν
  | [] => []
  | b :: l => if b = a then b :: e :: l else b :: insertBehind a e l

/-- What a function of the queues should do with the buffers `l` and what it should return: append,
insert, look at the first, take it off, clear. -/
def Op.onSeq [DecidableEq ν] (l : List ν) : Op ν → List ν × Option ν
  | .init => ([], none)
  | .tail newItem => (l ++ [newItem], none)
  | .add newItem next => (insertBehind next newItem l, none)
  | .peek => (l, l.head?)
  | .dequeue => (l.tail, l.head?)
  | .free => ([], none)

/-- The buffer that is put into the queue. -/
def Op.newItem : Op ν → Option ν
  | .tail newItem | .add newItem _ => some newItem
  | _ => none

/-- The buffers whose count is lowered. -/
def Op.released (l : List ν) : Op ν → List ν
  | .free => l
  | _ => []

/-- The count without one user; `free_skb` gives the buffer back if there is no other. -/
def unref (refcnt : Option ℤ) : Option ℤ :=
  refcnt.bind fun n => if n - 1 < 1 then none else some (n - 1)

/-- A queue with the buffers `l`: a list of them, all in memory, and `qlen` is their number. -/
structure Queue (h : Heap ν) (q : ν) (l : List ν) : Prop where
  ring : Ring h.links q l
  qlen : (h.qlen q).map UInt32.toNat = some l.length
  skbs : ∀ b ∈ l, (h.refcnt b).isSome

/-- The function has changed the nodes of its own queue only, and released the buffers it should. -/
structure Spares [DecidableEq ν] (h h' : Heap ν) (q : ν) (l : List ν) (op : Op ν) : Prop where
  links : ∀ a, a ∉ q :: l → a ∉ q :: (op.onSeq l).1 → h'.links a = h.links a
  qlen : ∀ a, a ≠ q → h'.qlen a = h.qlen a
  refcnt : ∀ b, h'.refcnt b = if b ∈ op.released l then unref (h.refcnt b) else h.refcnt b

/-- The memory, and what is on each queue in use. -/
structure World (ν : Type) where
  heap : Heap ν
  seqs : ν → Option (List ν)

/-- The queues in use have no node in common. -/
structure Represents (h : Heap ν) (seqs : ν → Option (List ν)) : Prop where
  queue : ∀ q l, seqs q = some l → Queue h q l
  disjoint : ∀ q l r k, seqs q = some l → seqs r = some k → q ≠ r → (q :: l).Disjoint (r :: k)

/-- A call, or a change of the memory by other parts of the stack. -/
inductive Event (ν : Type)
  | call (q : ν) (op : Op ν)
  | other (h' : Heap ν)

/-- What is on the queue. -/
def World.seq (w : World ν) (q : ν) : List ν := (w.seqs q).getD []

def World.after [DecidableEq ν] (w : World ν) (q : ν) (op : Op ν) : ν → Option (List ν) :=
  Function.update w.seqs q (some (op.onSeq (w.seq q)).1)

def step [DecidableEq ν] (w : World ν) : Event ν → Option (World ν)
  | .call q op => (SkbQueues.call w.heap q op).map fun r => ⟨r.1, w.after q op⟩
  | .other h' => some ⟨h', w.seqs⟩

/-- The function is called on a queue in use (`skb_queue_init` on one in memory), a new buffer is in
memory and on no queue, and `next` is on this one. Other parts of the stack write no node of a
queue. -/
def InPlace (w : World ν) : Event ν → Prop
  | .call q op =>
    (match op with
      | .init => (w.heap.links q).isSome ∧ (w.heap.qlen q).isSome ∧
          ∀ r k, w.seqs r = some k → r ≠ q → q ∉ r :: k
      | .add _ next => (w.seqs q).isSome ∧ next ∈ w.seq q
      | _ => (w.seqs q).isSome) ∧
    ∀ e, op.newItem = some e → (w.heap.links e).isSome ∧ (w.heap.refcnt e).isSome ∧
      ∀ r k, w.seqs r = some k → e ∉ r :: k
  | .other h' => ∀ q l, w.seqs q = some l → h'.qlen q = w.heap.qlen q ∧
      (∀ a ∈ q :: l, h'.links a = w.heap.links a) ∧ ∀ b ∈ l, (h'.refcnt b).isSome

/-- **The call does what it should** with the sequence of its queue, and all queues stay what they
are otherwise, with `qlen` the number of buffers. -/
def Meets [DecidableEq ν] (w : World ν) : Event ν → Prop
  | .call q op => ∃ h', SkbQueues.call w.heap q op = some (h', (op.onSeq (w.seq q)).2) ∧
      Represents h' (w.after q op) ∧ Spares w.heap h' q (w.seq q) op
  | .other h' => Represents h' w.seqs

/-- The counter has room for a new buffer, and none is taken off an empty queue. -/
def Fits (w : World ν) : Event ν → Prop
  | .call q (.tail _) | .call q (.add _ _) => (w.seq q).length + 1 < 4294967296
  | .call q .dequeue => w.seq q ≠ []
  | _ => True

/-! ### The functions -/

section Functions

variable {h : Heap ν} {q e : ν} {l : List ν}

theorem Queue.qlen_eq (hq : Queue h q l) : ∃ n, h.qlen q = some n ∧ n.toNat = l.length :=
  Option.map_eq_some_iff.mp hq.qlen

theorem Queue.not_mem {b : ν} (hq : Queue h q (b :: l)) : b ∉ q :: l := by
  have hfirst : Ring h.links q ([] ++ b :: l) := hq.ring
  exact hfirst.not_mem_rest

/-- `skb_queue_empty` counts, and on a queue the count is right. -/
theorem Queue.skbQueueEmpty (hq : Queue h q l) : skbQueueEmpty h q = some l.isEmpty := by
  obtain ⟨n, hn, hlen⟩ := hq.qlen_eq
  have hlt : n < 1 ↔ l.length < 1 := by
    rw [Word32.lt_iff, hlen]
    rfl
  rw [SkbQueues.skbQueueEmpty, skbQueueLen, hn, Option.map_some, Option.some_inj, Bool.eq_iff_iff,
    decide_eq_true_iff, hlt, Nat.lt_one_iff, List.length_eq_zero_iff, List.isEmpty_iff]

theorem Queue.skbPeek (hq : Queue h q l) : skbPeek h q = some l.head? := by
  rw [SkbQueues.skbPeek, hq.skbQueueEmpty]
  cases l with
  | nil => rfl
  | cons b l => exact hq.ring.next_head

variable [DecidableEq ν]

/-- The first buffer is taken off a queue; of an empty one the head is returned. -/
theorem Queue.skbDequeue (hq : Queue h q l) {n : UInt32} (hn : h.qlen q = some n) :
    ∃ links, skbDequeue h q =
        some (l.headD q, { h with links := links }.setQlen q (n - 1)) ∧ Ring links q l.tail ∧
      ∀ a, a ∉ q :: l → links a = h.links a := by
  have hnext := hq.ring.next_head
  cases l with
  | nil =>
    refine ⟨h.links, ?_, hq.ring, fun _ _ => rfl⟩
    have hself := listDel_self (cell_of_linked (ring_nil.mp hq.ring) (ring_nil.mp hq.ring))
    simp only [SkbQueues.skbDequeue, hnext, Option.bind_eq_bind, Option.bind_some, List.headD_nil,
      hself, hn]
  | cons b l =>
    have hfirst : Ring h.links q ([] ++ b :: l) := hq.ring
    obtain ⟨links, hlinks, hring, -, hframe, -⟩ := hfirst.listDel
    refine ⟨links, ?_, hring, fun a ha => hframe a fun hin => ha ?_⟩
    · simp only [SkbQueues.skbDequeue, hnext, Option.bind_eq_bind, Option.bind_some, List.headD_cons,
        hlinks, hn]
    · exact subset_middle q b [] l hin

theorem freeSkb_eq {c : ℤ} (hc : h.refcnt e = some c) :
    ∃ h', freeSkb (h.setRefcnt e (some (c - 1))) e = some h' ∧
      (∀ a, a ≠ e → h'.links a = h.links a) ∧ h'.qlen = h.qlen ∧
      h'.refcnt = Function.update h.refcnt e (unref (h.refcnt e)) := by
  have hself : (h.setRefcnt e (some (c - 1))).refcnt e = some (c - 1) := Function.update_self ..
  have hunref : unref (h.refcnt e) = if c - 1 < 1 then none else some (c - 1) := by
    rw [hc]
    rfl
  rw [freeSkb, hself, Option.bind_eq_bind, Option.bind_some, hunref]
  split_ifs with hlast
  · refine ⟨_, rfl, fun a ha => put_of_ne ha h.links none, rfl, ?_⟩
    exact Function.update_idem ..
  · exact ⟨_, rfl, fun _ _ => rfl, rfl, rfl⟩

/-- One turn of `skb_queue_free`. -/
theorem Queue.free_turn {b : ν} (hq : Queue h q (b :: l)) :
    ∃ h', (∀ k, skbQueueFree q (k + 1) h = skbQueueFree q k h') ∧ Queue h' q l ∧
      (∀ a, a ∉ q :: b :: l → h'.links a = h.links a) ∧ (∀ a, a ≠ q → h'.qlen a = h.qlen a) ∧
      h'.refcnt = Function.update h.refcnt b (unref (h.refcnt b)) := by
  obtain ⟨n, hn, hlen⟩ := hq.qlen_eq
  obtain ⟨c, hc⟩ := Option.isSome_iff_exists.mp (hq.skbs b (List.mem_cons_self ..))
  obtain ⟨links, hdeq, hring, hframe⟩ := hq.skbDequeue hn
  obtain ⟨h', hfree, hlinks, hqlen, hrefcnt⟩ :=
    freeSkb_eq (h := { h with links := links }.setQlen q (n - 1)) (e := b) hc
  have hnot := hq.not_mem
  refine ⟨h', fun k => ?_, ⟨?_, ?_, fun d hd => ?_⟩, fun a ha => ?_, fun a ha => ?_, hrefcnt⟩
  · rw [SkbQueues.skbQueueFree, hq.skbPeek]
    simp only [Option.bind_eq_bind, Option.bind_some, List.head?_cons, hdeq, List.headD_cons]
    show (h.refcnt b).bind _ = _
    rw [hc, Option.bind_some, hfree, Option.bind_some]
  · exact hring.congr fun a ha => hlinks a fun hab => hnot (hab ▸ ha)
  · have hself : h'.qlen q = some (n - 1) := by
      rw [hqlen]
      exact Function.update_self ..
    have hpred : (n - 1).toNat = n.toNat - 1 := Word32.toNat_sub_of_le (by rw [hlen]; simp)
    rw [hself, Option.map_some, hpred, hlen]
    rfl
  · have hne : d ≠ b := fun hdb => hnot (hdb ▸ List.mem_cons_of_mem _ hd)
    rw [hrefcnt, Function.update_of_ne hne]
    exact hq.skbs d (List.mem_cons_of_mem _ hd)
  · have hne : a ≠ b := fun hab => ha (by simp [hab])
    rw [hlinks a hne]
    exact hframe a ha
  · rw [hqlen]
    exact Function.update_of_ne ha ..

/-- `skb_queue_free` comes to an end, and the queue is empty. -/
theorem Queue.skbQueueFree : ∀ {l : List ν} {n : ℕ} {h : Heap ν}, Queue h q l → l.length < n →
    ∃ h', skbQueueFree q n h = some h' ∧ Ring h'.links q [] ∧ h'.qlen q = some 0 ∧
      Spares h h' q l .free
  | [], n + 1, h, hq, _ => by
    obtain ⟨k, hk, hlen⟩ := hq.qlen_eq
    have hzero : k = 0 := Word32.eq_iff_toNat.mpr hlen
    refine ⟨h, ?_, hq.ring, hzero ▸ hk, ⟨fun _ _ _ => rfl, fun _ _ => rfl, fun _ => rfl⟩⟩
    rw [SkbQueues.skbQueueFree, hq.skbPeek]
    rfl
  | b :: l, n + 1, h, hq, hn => by
    obtain ⟨h₁, hturn, hq₁, hlinks₁, hqlen₁, hrefcnt₁⟩ := hq.free_turn
    obtain ⟨h', hrun, hring, hqlen, hspares⟩ := hq₁.skbQueueFree (Nat.lt_of_succ_lt_succ hn)
    have hb : b ∉ l := fun hb => hq.not_mem (List.mem_cons_of_mem _ hb)
    refine ⟨h', (hturn n).trans hrun, hring, hqlen, fun a ha ha' => ?_, fun a ha => ?_, fun d => ?_⟩
    · have hout : a ∉ q :: l := fun hin => ha (subset_middle q b [] l hin)
      rw [hspares.links a hout ha', hlinks₁ a ha]
    · rw [hspares.qlen a ha, hqlen₁ a ha]
    · rw [hspares.refcnt, hrefcnt₁]
      show (if d ∈ l then _ else _) = if d ∈ b :: l then _ else _
      by_cases hd : d = b
      · rw [hd, if_neg hb, if_pos (List.mem_cons_self ..), Function.update_self]
      · rw [Function.update_of_ne hd]
        simp only [List.mem_cons, hd, false_or]

/-! ### Calls -/

/-- What is needed for the call. -/
structure Ready (h : Heap ν) (q : ν) (l : List ν) (op : Op ν) : Prop where
  init : op = .init → (h.links q).isSome
  queue : op ≠ .init → Queue h q l
  newItem : ∀ e, op.newItem = some e → (h.links e).isSome ∧ e ∉ q :: l
  next : ∀ e next, op = .add e next → next ∈ l

/-- What is returned: by `skb_dequeue` the head, if there is no buffer. -/
def Op.returned (q : ν) (l : List ν) : Op ν → Option ν
  | .peek => l.head?
  | .dequeue => some (l.headD q)
  | _ => none

/-- The counter afterwards. -/
def Op.count (n : UInt32) : Op ν → UInt32
  | .init | .free => 0
  | .tail _ | .add _ _ => n + 1
  | .peek => n
  | .dequeue => n - 1

theorem insertBehind_append {a : ν} : ∀ {xs : List ν} (ys : List ν), a ∉ xs →
    insertBehind a e (xs ++ a :: ys) = xs ++ a :: e :: ys
  | [], ys, _ => if_pos rfl
  | b :: xs, ys, h => by
    obtain ⟨hab, hxs⟩ := not_or.mp (List.mem_cons.not.mp h)
    rw [List.cons_append, insertBehind, if_neg (Ne.symm hab), insertBehind_append ys hxs]
    rfl

theorem spares_setQlen {links : Links ν} {op : Op ν} (n : UInt32) (hrel : op.released l = [])
    (hframe : ∀ a, a ∉ q :: l → a ∉ q :: (op.onSeq l).1 → links a = h.links a) :
    Spares h ({ h with links := links }.setQlen q n) q l op :=
  ⟨hframe, fun _ ha => Function.update_of_ne ha .., fun b => by
    rw [hrel, if_neg List.not_mem_nil]
    rfl⟩

/-- **What a call does**, with the counter as it is computed. -/
theorem call_eq {op : Op ν} {n : UInt32} (hr : Ready h q l op) (hn : h.qlen q = some n) :
    ∃ h', call h q op = some (h', op.returned q l) ∧ Ring h'.links q (op.onSeq l).1 ∧
      h'.qlen q = some (op.count n) ∧ Spares h h' q l op := by
  have hself : ∀ (links : Links ν) m, ({ h with links := links }.setQlen q m).qlen q = some m :=
    fun _ _ => Function.update_self ..
  cases op with
  | init =>
    obtain ⟨links, hlinks, hring, hframe⟩ := ring_listInit (hr.init rfl)
    refine ⟨{ h with links := links }.setQlen q 0, ?_, hring, hself links 0, ?_⟩
    · simp only [call, skbQueueInit, hlinks, hn, Option.bind_eq_bind, Option.bind_some, Option.map_some]
      rfl
    · exact spares_setQlen 0 rfl fun a ha _ => hframe a fun haq => ha (by simp [haq])
  | tail e =>
    obtain ⟨he, hnot⟩ := hr.newItem e rfl
    obtain ⟨links, hlinks, hring, hframe, -⟩ :=
      (hr.queue nofun).ring.listAddTail he hnot
    refine ⟨{ h with links := links }.setQlen q (n + 1), ?_, hring, hself links _, ?_⟩
    · simp only [call, skbQueueTail, hlinks, hn, Option.bind_eq_bind, Option.bind_some, Option.map_some]
      rfl
    · exact spares_setQlen _ rfl fun a _ ha => hframe a ha
  | add e next =>
    obtain ⟨he, hnot⟩ := hr.newItem e rfl
    have hring := (hr.queue nofun).ring
    obtain ⟨xs, ys, rfl⟩ := List.append_of_mem (hr.next e next rfl)
    have hxs : next ∉ xs := fun hin => hring.not_mem_rest (by simp [hin])
    rw [List.append_cons] at hring hnot
    obtain ⟨links, hlinks, hring', hframe, -⟩ := hring.listAdd_behind he hnot
    have hseq : (Op.onSeq (xs ++ next :: ys) (.add e next)).1 = xs ++ [next] ++ e :: ys :=
      (insertBehind_append ys hxs).trans (List.append_cons ..)
    rw [List.getLastD_concat] at hlinks
    refine ⟨{ h with links := links }.setQlen q (n + 1), ?_, hseq ▸ hring', hself links _, ?_⟩
    · simp only [call, skbQueueAdd, hlinks, hn, Option.bind_eq_bind, Option.bind_some, Option.map_some]
      rfl
    · exact spares_setQlen _ rfl fun a _ ha => hframe a (hseq ▸ ha)
  | peek =>
    have hq := hr.queue nofun
    refine ⟨h, ?_, hq.ring, hn, ⟨fun _ _ _ => rfl, fun _ _ => rfl, fun _ => rfl⟩⟩
    rw [call, hq.skbPeek]
    rfl
  | dequeue =>
    obtain ⟨links, hdeq, hring, hframe⟩ := (hr.queue nofun).skbDequeue hn
    refine ⟨{ h with links := links }.setQlen q (n - 1), ?_, hring, hself links _, ?_⟩
    · rw [call, hdeq]
      rfl
    · exact spares_setQlen _ rfl fun a ha _ => hframe a ha
  | free =>
    have hq := hr.queue nofun
    have hlen : n.toNat = l.length := by
      have := hq.qlen
      rwa [hn, Option.map_some, Option.some_inj] at this
    obtain ⟨h', hrun, hring, hqlen, hspares⟩ :=
      hq.skbQueueFree (n := n.toNat + 1) (by rw [hlen]; exact Nat.lt_succ_self _)
    refine ⟨h', ?_, hring, hqlen, hspares⟩
    simp only [call, skbQueueLen, hn, hrun, Option.bind_eq_bind, Option.bind_some]
    rfl

end Functions

/-! ### All queues -/

section Worlds

variable [DecidableEq ν] {w : World ν} {q r e : ν} {l k : List ν} {op : Op ν}

theorem mem_insertBehind {a b : ν} : ∀ {l : List ν}, b ∈ insertBehind a e l → b ∈ l ∨ e = b
  | [], h => .inl h
  | c :: l, h => by
    rw [insertBehind] at h
    split_ifs at h
    · simp only [List.mem_cons] at h ⊢
      tauto
    · rcases List.mem_cons.mp h with rfl | h
      · exact .inl (List.mem_cons_self ..)
      · exact (mem_insertBehind h).imp_left (List.mem_cons_of_mem _)

theorem length_insertBehind {a : ν} : ∀ {l : List ν}, a ∈ l →
    (insertBehind a e l).length = l.length + 1
  | b :: l, h => by
    rw [insertBehind]
    split_ifs with hab
    · rfl
    · have hin : a ∈ l := (List.mem_cons.mp h).resolve_left (Ne.symm hab)
      rw [List.length_cons, length_insertBehind hin, List.length_cons]

/-- What is on the queue afterwards was there before, or is new; and it has not been released. -/
theorem mem_onSeq {b : ν} (h : b ∈ (op.onSeq l).1) :
    (b ∈ l ∨ op.newItem = some b) ∧ op.released l = [] := by
  cases op with
  | init => cases h
  | tail e =>
    refine ⟨(List.mem_append.mp h).imp_right fun he => ?_, rfl⟩
    rw [List.mem_singleton.mp he]
    rfl
  | add e next => exact ⟨(mem_insertBehind h).imp_right (congrArg some), rfl⟩
  | peek => exact ⟨.inl h, rfl⟩
  | dequeue => exact ⟨.inl (List.mem_of_mem_tail h), rfl⟩
  | free => cases h

omit [DecidableEq ν] in
theorem seq_eq (h : w.seqs q = some l) : w.seq q = l := by
  rw [World.seq, h]
  rfl

omit [DecidableEq ν] in
/-- A queue in use; `skb_queue_init` makes one. -/
theorem inUse (hin : InPlace w (.call q op)) (hop : op ≠ .init) : w.seqs q = some (w.seq q) := by
  have hsome : (w.seqs q).isSome := by
    cases op with
    | init => exact absurd rfl hop
    | add e next => exact hin.1.1
    | _ => exact hin.1
  obtain ⟨l, hl⟩ := Option.isSome_iff_exists.mp hsome
  rw [hl, seq_eq hl]

omit [DecidableEq ν] in
theorem ready_of_inPlace (h : Represents w.heap w.seqs) (hin : InPlace w (.call q op)) :
    Ready w.heap q (w.seq q) op ∧
      ∃ n, w.heap.qlen q = some n ∧ (op ≠ .init → n.toNat = (w.seq q).length) := by
  have hqueue : op ≠ .init → Queue w.heap q (w.seq q) := fun hop => h.queue _ _ (inUse hin hop)
  refine ⟨⟨?_, hqueue, fun e he => ?_, ?_⟩, ?_⟩
  · rintro rfl
    exact hin.1.1
  · have hop : op ≠ .init := by rintro rfl; cases he
    exact ⟨(hin.2 e he).1, (hin.2 e he).2.2 _ _ (inUse hin hop)⟩
  · rintro e next rfl
    exact hin.1.2
  · by_cases hop : op = .init
    · subst hop
      obtain ⟨n, hn⟩ := Option.isSome_iff_exists.mp hin.1.2.1
      exact ⟨n, hn, fun hne => absurd rfl hne⟩
    · obtain ⟨n, hn, hlen⟩ := (hqueue hop).qlen_eq
      exact ⟨n, hn, fun _ => hlen⟩

/-- The call touches no node of another queue. -/
theorem apart (h : Represents w.heap w.seqs) (hin : InPlace w (.call q op)) (hk : w.seqs r = some k)
    (hr : r ≠ q) : (q :: w.seq q).Disjoint (r :: k) ∧
      (q :: (op.onSeq (w.seq q)).1).Disjoint (r :: k) := by
  have hbefore : (q :: w.seq q).Disjoint (r :: k) := by
    cases hl : w.seqs q with
    | some l =>
      rw [seq_eq hl]
      exact h.disjoint q l r k hl hk hr.symm
    | none =>
      have hinit : op = .init := by
        by_contra hop
        rw [inUse hin hop] at hl
        cases hl
      subst hinit
      rw [World.seq, hl]
      exact List.singleton_disjoint.mpr (hin.1.2.2 r k hk hr)
  refine ⟨hbefore, fun a ha ha' => ?_⟩
  rcases List.mem_cons.mp ha with rfl | ha
  · exact hbefore (List.mem_cons_self ..) ha'
  · rcases (mem_onSeq ha).1 with hold | hnew
    · exact hbefore (List.mem_cons_of_mem _ hold) ha'
    · exact (hin.2 a hnew).2.2 r k hk ha'

omit [DecidableEq ν] in
/-- A queue stays one if its nodes stay as they are. -/
theorem Queue.congr {h h' : Heap ν} (hq : Queue h r k) (hlinks : ∀ a ∈ r :: k, h'.links a = h.links a)
    (hqlen : h'.qlen r = h.qlen r) (hrefcnt : ∀ b ∈ k, (h'.refcnt b).isSome) : Queue h' r k :=
  ⟨hq.ring.congr hlinks, hqlen ▸ hq.qlen, hrefcnt⟩

/-- The other queues stay as they are. -/
theorem represents_call (h : Represents w.heap w.seqs) (hin : InPlace w (.call q op)) {h' : Heap ν}
    (hring : Ring h'.links q (op.onSeq (w.seq q)).1)
    (hqlen : (h'.qlen q).map UInt32.toNat = some (op.onSeq (w.seq q)).1.length)
    (hspares : Spares w.heap h' q (w.seq q) op) : Represents h' (w.after q op) := by
  have hafter : ∀ {r k}, w.after q op r = some k →
      r = q ∧ k = (op.onSeq (w.seq q)).1 ∨ r ≠ q ∧ w.seqs r = some k := by
    intro r k hk
    by_cases hr : r = q
    · rw [hr, World.after, Function.update_self] at hk
      exact .inl ⟨hr, (Option.some.inj hk).symm⟩
    · rw [World.after, Function.update_of_ne hr] at hk
      exact .inr ⟨hr, hk⟩
  refine ⟨fun r k hk => ?_, fun r k r' k' hk hk' hne => ?_⟩
  · rcases hafter hk with ⟨rfl, rfl⟩ | ⟨hr, hk⟩
    · refine ⟨hring, hqlen, fun b hb => ?_⟩
      obtain ⟨hfrom, hrel⟩ := mem_onSeq hb
      rw [hspares.refcnt, hrel, if_neg List.not_mem_nil]
      rcases hfrom with hold | hnew
      · have hop : op ≠ .init := by rintro rfl; cases hb
        exact (h.queue _ _ (inUse hin hop)).skbs b hold
      · exact (hin.2 b hnew).2.1
    · obtain ⟨hold, hnew⟩ := apart h hin hk hr
      have hq := h.queue r k hk
      refine hq.congr (fun a ha => ?_) (hspares.qlen r hr) fun b hb => ?_
      · exact hspares.links a (fun hin => hold hin ha) fun hin => hnew hin ha
      · have hrel : b ∉ op.released (w.seq q) := by
          intro hin
          refine hold (List.mem_cons_of_mem _ ?_) (List.mem_cons_of_mem _ hb)
          cases op with
          | free => exact hin
          | _ => cases hin
        rw [hspares.refcnt, if_neg hrel]
        exact hq.skbs b hb
  · rcases hafter hk with ⟨rfl, rfl⟩ | ⟨hr, hold⟩
    · have hr' : r' ≠ r := hne.symm
      exact (apart h hin ((hafter hk').resolve_left fun h => hr' h.1).2 hr').2
    · rcases hafter hk' with ⟨rfl, rfl⟩ | ⟨-, hold'⟩
      · exact (apart h hin hold hr).2.symm
      · exact h.disjoint r k r' k' hold hold' hne

omit [DecidableEq ν] in
theorem succ_fits {n : UInt32} {i : ℕ} (h : n.toNat = i) :
    (n + 1).toNat = i + 1 ↔ i + 1 < 4294967296 := by
  have hone : (1 : UInt32).toNat = 1 := rfl
  have hlt := n.toNat_lt
  rw [Word32.toNat_add, hone]
  omega

/-- The counter and the result are right if and only if the call fits. -/
theorem count_iff_fits {n : UInt32} (hr : Ready w.heap q (w.seq q) op)
    (hlen : op ≠ .init → n.toNat = (w.seq q).length) :
    (op.count n).toNat = (op.onSeq (w.seq q)).1.length ∧
      op.returned q (w.seq q) = (op.onSeq (w.seq q)).2 ↔ Fits w (.call q op) := by
  cases op with
  | init => exact iff_of_true ⟨rfl, rfl⟩ trivial
  | free => exact iff_of_true ⟨rfl, rfl⟩ trivial
  | peek => exact iff_of_true ⟨hlen nofun, rfl⟩ trivial
  | tail e =>
    refine (and_iff_left rfl).trans ?_
    rw [Op.onSeq, List.length_append, List.length_singleton]
    exact succ_fits (hlen nofun)
  | add e next =>
    refine (and_iff_left rfl).trans ?_
    rw [Op.onSeq, length_insertBehind (hr.next e next rfl)]
    exact succ_fits (hlen nofun)
  | dequeue =>
    have hn := hlen nofun
    show _ ↔ w.seq q ≠ []
    cases hl : w.seq q with
    | nil =>
      -- the head is returned where there is no buffer
      exact iff_of_false (fun h => by cases h.2) fun h => h rfl
    | cons b l =>
      rw [hl] at hn
      have hone : (1 : UInt32).toNat = 1 := rfl
      have hpred : (n - 1).toNat = n.toNat - 1 := Word32.toNat_sub_of_le (by rw [hn, hone]; simp)
      refine iff_of_true ⟨?_, rfl⟩ (List.cons_ne_nil b l)
      rw [Op.count, hpred, hn]
      rfl

/-- **One call.** -/
theorem meets_iff_fits (h : Represents w.heap w.seqs) {e : Event ν} (hin : InPlace w e) :
    Meets w e ↔ Fits w e := by
  cases e with
  | other h' =>
    refine iff_of_true ⟨fun q l hl => ?_, h.disjoint⟩ trivial
    obtain ⟨hqlen, hlinks, hrefcnt⟩ := hin q l hl
    exact (h.queue q l hl).congr hlinks hqlen hrefcnt
  | call q op =>
    obtain ⟨hr, n, hn, hlen⟩ := ready_of_inPlace h hin
    obtain ⟨h', hcall, hring, hqlen, hspares⟩ := call_eq hr hn
    rw [← count_iff_fits hr hlen]
    constructor
    · rintro ⟨h'', hcall', hrep, -⟩
      obtain ⟨rfl, hret⟩ := Prod.mk.inj (Option.some.inj (hcall.symm.trans hcall'))
      have hlen' := (hrep.queue q _ (Function.update_self ..)).qlen
      rw [hqlen, Option.map_some, Option.some_inj] at hlen'
      exact ⟨hlen', hret⟩
    · rintro ⟨hcount, hret⟩
      refine ⟨h', hret ▸ hcall, represents_call h hin hring ?_ hspares, hspares⟩
      rw [hqlen, Option.map_some, hcount]

end Worlds

/-! ### One queue -/

/-- One queue is in use. -/
def only [DecidableEq ν] (q : ν) (l : List ν) : ν → Option (List ν) :=
  Function.update (fun _ => none) q (some l)

section Only

variable [DecidableEq ν] {q e : ν} {l : List ν}

theorem only_eq_some {r : ν} {k : List ν} : only q l r = some k ↔ r = q ∧ k = l := by
  by_cases hr : r = q
  · rw [hr, only, Function.update_self, Option.some_inj, eq_comm]
    exact (and_iff_right rfl).symm
  · rw [only, Function.update_of_ne hr]
    exact iff_of_false nofun fun h => hr h.1

@[simp] theorem seq_only (h : Heap ν) : World.seq ⟨h, only q l⟩ q = l :=
  seq_eq (only_eq_some.mpr ⟨rfl, rfl⟩)

theorem represents_only {h : Heap ν} (hq : Queue h q l) : Represents h (only q l) := by
  refine ⟨fun r k hk => ?_, fun r k r' k' hk hk' hne => ?_⟩
  · obtain ⟨rfl, rfl⟩ := only_eq_some.mp hk
    exact hq
  · exact absurd ((only_eq_some.mp hk).1.trans (only_eq_some.mp hk').1.symm) hne

theorem inPlace_tail {h : Heap ν} (hlive : (h.links e).isSome) (hskb : (h.refcnt e).isSome)
    (hnot : e ∉ q :: l) : InPlace ⟨h, only q l⟩ (.call q (.tail e)) := by
  refine ⟨?_, fun e' he => ?_⟩
  · show (only q l q).isSome
    rw [only_eq_some.mpr ⟨rfl, rfl⟩]
    rfl
  · obtain rfl := Option.some.inj he
    refine ⟨hlive, hskb, fun r k hk => ?_⟩
    obtain ⟨rfl, rfl⟩ := only_eq_some.mp hk
    exact hnot

end Only

/-- An empty queue at the node 0, and other nodes as `alloc_skb` makes them. -/
def emptyQueue : Heap ℕ where
  links a := some ⟨some a, some a⟩
  qlen a := if a = 0 then some 0 else none
  refcnt a := if a = 0 then none else some 0

theorem queue_emptyQueue : Queue emptyQueue 0 [] :=
  ⟨ring_nil.mpr ⟨rfl, rfl⟩, rfl, fun _ hb => (by cases hb)⟩

/-- There is memory with any number of buffers in one list. -/
theorem exists_ring : ∀ n : ℕ, ∃ m : Links ℕ, Ring m 0 (List.range' 1 n) ∧ ∀ a, (m a).isSome
  | 0 => ⟨emptyQueue.links, queue_emptyQueue.ring, fun _ => rfl⟩
  | n + 1 => by
    obtain ⟨m, hring, hlive⟩ := exists_ring n
    have hnot : 1 + n ∉ 0 :: List.range' 1 n := by
      simp [List.mem_range'_1]
    obtain ⟨m', -, hring', -, hlive'⟩ := hring.listAddTail (hlive (1 + n)) hnot
    refine ⟨m', ?_, fun a => (hlive' a).trans (hlive a)⟩
    rwa [List.range'_1_concat]

/-- **Lists and queues are sequences**: every list, at every place, and the queues in every run of
calls, if and only if all calls fit. -/
theorem sequences_iff [DecidableEq ν] :
    (∀ (m : Links ν) (head : ν) (l : List ν), Ring m head l → IsSequence m head l) ∧
    (∀ (m : Links ν) (head : ν), (m head).isSome →
      ∃ m', listInit m head = some m' ∧ Becomes m m' head [] []) ∧
    ∀ (w : World ν) (es : List (Event ν)), Represents w.heap w.seqs → Along step InPlace w es →
      (Along step Meets w es ↔ Along step Fits w es) := by
  refine ⟨fun m head l => isSequence, fun m head hlive => ?_, fun w es h hin => ?_⟩
  · obtain ⟨m', hm', hring, hframe⟩ := ring_listInit hlive
    exact ⟨m', hm', .of_frame hring fun a ha _ => hframe a fun heq => ha (by simp [heq])⟩
  · refine along_iff_along (I := fun w => Represents w.heap w.seqs) ?_
      (fun w e h hin => meets_iff_fits h hin) h hin
    intro w e w' h hin hmeets hs
    cases e with
    | other h' => exact Option.some.inj hs ▸ hmeets
    | call q op =>
      obtain ⟨h', hcall, hrep, -⟩ := hmeets
      obtain ⟨r, hr, rfl⟩ := Option.map_eq_some_iff.mp hs
      rw [hcall] at hr
      exact Option.some.inj hr ▸ hrep

/-- A list with the node 1. -/
def oneNode : Links ℕ := fun a => some ⟨some (1 - a), some (1 - a)⟩

theorem sequences_iff_one : IsSequence oneNode 0 [1] ∧ Along step Meets ⟨emptyQueue, only 0 []⟩
    [.call 0 (.tail 1), .call 0 .peek, .call 0 .dequeue] := by
  have hring : Ring oneNode 0 [1] :=
    ⟨by decide, .cons_cons ⟨rfl, rfl⟩ (.cons_cons ⟨rfl, rfl⟩ (.singleton 0))⟩
  have hin : Along step InPlace ⟨emptyQueue, only 0 []⟩
      [.call 0 (.tail 1), .call 0 .peek, .call 0 .dequeue] := by
    refine ⟨inPlace_tail (h := emptyQueue) rfl rfl (by decide), fun w hw => ?_⟩
    obtain rfl := Option.some.inj hw
    refine ⟨⟨rfl, nofun⟩, fun w hw => ?_⟩
    obtain rfl := Option.some.inj hw
    exact ⟨⟨rfl, nofun⟩, fun _ _ => trivial⟩
  refine ⟨sequences_iff.1 oneNode 0 [1] hring,
    (sequences_iff.2.2 _ _ (represents_only queue_emptyQueue) hin).mpr ?_⟩
  refine ⟨show 0 + 1 < 4294967296 by decide, fun w hw => ?_⟩
  obtain rfl := Option.some.inj hw
  refine ⟨trivial, fun w hw => ?_⟩
  obtain rfl := Option.some.inj hw
  exact ⟨List.cons_ne_nil 1 [], fun _ _ => trivial⟩

/-- `skb_dequeue` on an empty queue returns the head and leaves the counter at its greatest value;
with the buffer number `2 ^ 32` the counter is 0. -/
theorem not_sequences :
    (call emptyQueue 0 .dequeue).map (fun r => (r.1.qlen 0, r.2)) =
      some (some 4294967295, some 0) ∧
    (Represents emptyQueue (only 0 []) ∧ InPlace ⟨emptyQueue, only 0 []⟩ (.call 0 .dequeue) ∧
      ¬ Meets ⟨emptyQueue, only 0 []⟩ (.call 0 .dequeue)) ∧
    ∃ (w : World ℕ) (e : ℕ), Represents w.heap w.seqs ∧ (w.seq 0).length = 4294967295 ∧
      InPlace w (.call 0 (.tail e)) ∧
      (call w.heap 0 (.tail e)).map (fun r => r.1.qlen 0) = some (some 0) ∧
      ¬ Meets w (.call 0 (.tail e)) := by
  have hrep := represents_only queue_emptyQueue
  have hplace : InPlace ⟨emptyQueue, only 0 []⟩ (.call 0 .dequeue) := ⟨rfl, nofun⟩
  refine ⟨by decide, ⟨hrep, hplace, fun h => ?_⟩, ?_⟩
  · exact (meets_iff_fits hrep hplace).mp h rfl
  · obtain ⟨m, hring, hlive⟩ := exists_ring 4294967295
    let full : Heap ℕ := ⟨m, fun _ => some 4294967295, fun _ => some 1⟩
    have hlen : (List.range' 1 4294967295).length = 4294967295 := List.length_range'
    have hrep' : Represents full (only 0 (List.range' 1 4294967295)) :=
      represents_only ⟨hring, congrArg some hlen.symm, fun _ _ => rfl⟩
    have hplace' : InPlace ⟨full, only 0 (List.range' 1 4294967295)⟩ (.call 0 (.tail 4294967296)) :=
      inPlace_tail (hlive 4294967296) rfl (by simp [List.mem_range'_1])
    obtain ⟨h', hcall, -, hqlen, -⟩ := call_eq (ready_of_inPlace hrep' hplace').1 rfl
    refine ⟨_, 4294967296, hrep', by rw [seq_only, hlen], hplace', ?_, fun h => ?_⟩
    · rw [hcall, Option.map_some, hqlen]
      rfl
    · have hfits : (World.seq ⟨full, only 0 (List.range' 1 4294967295)⟩ 0).length + 1 < 4294967296 :=
        (meets_iff_fits hrep' hplace').mp h
      rw [seq_only, hlen] at hfits
      exact absurd hfits (by decide)

end ToyIP.Stack.SkbQueues
