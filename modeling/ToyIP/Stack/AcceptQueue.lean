import ToyIP.Stack.Resets
import ToyIP.Tcp.Phases

/-! # The accept queue

A SYN makes a child of a listening sock, which waits in the `listen_queue`; when its handshake is
complete `tcp_synrecv_ack` moves the child, through the same member `list`, to the `accept_queue`, and
`tcp_accept` takes the first one from there.

`list_add` puts a node in front of the others, so the first child is the one that was completed last.
Each child is returned once and none is lost, but they are returned in order if and only if no two of
them wait at a call (`in_order_iff`).

The queues of one listening sock are modelled, from the moment at which it has no children. -/

namespace ToyIP.Stack.AcceptQueue

open ToyIP.Lib ToyIP.Lib.CircularList ToyIP.Lib.Run ToyIP.Tcp.Types ToyIP.Tcp.Input ToyIP.Tcp.Sides
  ToyIP.Tcp.Life ToyIP.Tcp.Places ToyIP.Stack.TcpSocks
open ToyIP.Tcp.Phases (phase Moves)
open ToyIP.Stack.Resets (Alive Numbered)

/-- The heads of the two queues of the listening sock, and the member `list` of each of its
children. -/
inductive Node
  | listenQueue
  | acceptQueue
  | sock (k : ℕ)
  deriving DecidableEq, Repr

/-- The socks with the queues; the last fields record the children whose handshake was completed and
those that `tcp_accept` has returned, in this order. -/
structure State where
  base : TcpSocks.State
  links : Links Node
  completed : List ℕ
  returned : List ℕ

/-- The queues are empty. -/
def start (base : TcpSocks.State) : State where
  base := base
  links
    | .listenQueue => some ⟨some .listenQueue, some .listenQueue⟩
    | .acceptQueue => some ⟨some .acceptQueue, some .acceptQueue⟩
    | .sock _ => none
  completed := []
  returned := []

/-- `list_empty`. -/
def listEmpty (m : Links Node) (head : Node) : Option Bool :=
  (getNext m head).map (· == some head)

/-- The end of `tcp_listen_child_sock`; the sock was cleared before. -/
def tcpListenChildSock (k : ℕ) (w : State) : Option State := do
  let links ← CircularList.listAdd (put w.links (.sock k) (some ⟨none, none⟩)) (.sock k) .listenQueue
  some { w with links := links }

def tcpAcceptEnqueue (k : ℕ) (w : State) : Option State := do
  let empty ← listEmpty w.links (.sock k)
  let links ← if empty then some w.links else listDel w.links (.sock k)
  let links ← CircularList.listAdd links (.sock k) .acceptQueue
  some { w with links := links, completed := w.completed ++ [k] }

/-- `tcp_synrecv_ack` for a child of the sock `l`. -/
def tcpSynrecvAck (l k : ℕ) (w : State) : Option State :=
  if (w.base.socks l).map TcpSock.state = some .listen then tcpAcceptEnqueue k w else some w

/-- `list_first_entry` of the accept queue, taken out. -/
def tcpAcceptDequeue (w : State) : Option (ℕ × State) := do
  match ← getNext w.links .acceptQueue with
  | some (.sock k) =>
    let links ← listDel w.links (.sock k)
    let links ← listInit links (.sock k)
    some (k, { w with links := links })
  | _ => none

/-- `tcp_accept`, which goes to sleep if the queue is empty. -/
def tcpAccept (w : State) : Option State := do
  let empty ← listEmpty w.links .acceptQueue
  if empty then some w
  else do
    let (k, w) ← tcpAcceptDequeue w
    let base ← TcpSocks.step w.base (.accept k)
    some { w with base := base, returned := w.returned ++ [k] }

/-- `tcp_process` of the sock `k`, with what it does to the queues of the sock `l`. -/
def process (l k : ℕ) (seg : Seg) (isn : UInt32) (w : State) : Option State := do
  let sk ← w.base.socks k
  let base ← TcpSocks.process k seg isn w.base
  let w' := { w with base := base }
  if sk.state = .listen then
    if k = l ∧ (tcpHandleListen sk seg isn).2.isSome then tcpListenChildSock w.base.fresh w'
    else some w'
  else if w.base.parents k = some l ∧ readsParent sk seg then tcpSynrecvAck l k w'
  else if (base.socks k).isSome then some w'
  else some { w' with links := put w.links (.sock k) none }

inductive Event
  | segment (seg : Seg) (isn : UInt32)
  | accept
  deriving DecidableEq, Repr

/-- No result: memory that has been freed is read. -/
def step (l : ℕ) (w : State) : Event → Option State
  | .segment seg isn => do
    match ← tcpLookupSock seg.saddr seg.th.sport seg.daddr seg.th.dport w.base with
    | some (.sock k) => process l k seg isn w
    | _ => some w
  | .accept => tcpAccept w

/-! ### The property and its condition -/

/-- **Each child is returned once, none is lost, and they come in order.** -/
structure InOrder (w : State) : Prop where
  once : w.returned.Nodup
  completed : ∀ k ∈ w.returned, k ∈ w.completed
  kept : ∃ l : List ℕ, Ring w.links .acceptQueue (l.map .sock) ∧
    ∀ k ∈ w.completed, k ∈ w.returned ∨ k ∈ l ∧ Open w.base k
  order : w.returned <+: w.completed

/-- No two children are in the accept queue at a call of `tcp_accept`: its first node is its last
one. -/
def Sound (w : State) : Event → Prop
  | .accept => getNext w.links .acceptQueue = getPrev w.links .acceptQueue
  | .segment _ _ => True

instance Sound.decidable (w : State) : ∀ e, Decidable (Sound w e)
  | .accept => inferInstanceAs (Decidable (_ = _))
  | .segment _ _ => isTrue trivial

/-! ### A segment -/

section Segment

variable {sk sk' : TcpSock} {seg : Seg}

theorem phase_mono (h : Moves sk sk') : phase sk.state ≤ phase sk'.state := by
  rcases h.later.eq_or_lt with heq | hlt
  · rw [heq]
  · exact Nat.le_of_lt hlt

theorem phase_eq_two {s : TcpState} : phase s = 2 ↔ s = .synReceived := by
  cases s <;> simp [phase]

/-- Behind `SYN_RECEIVED` no segment frees a sock. -/
theorem kept_segmentRule (seg : Seg) :
    SegmentRule seg fun s => s.freed = false ∧ s.state ≠ .synReceived where
  ack s h := by rwa [tcpSendAck_eq]
  reset _ h := h
  free _ h hst := absurd hst h.2
  accept _ h hst _ _ _ := absurd hst h.2
  take s h _ _ _ := by
    obtain ⟨timers, retransmit, heq⟩ :=
      tcpCleanRetransmissionQueue_eq { s with sndUna := seg.th.ackSeq } seg.th.ackSeq
    rw [heq]
    exact h
  text s h _ := by
    have hcore := core_tcpDataQueue s seg.th (tcpInitSegment seg)
    exact ⟨(congrArg Core.freed hcore).trans h.1,
      fun hst => h.2 ((congrArg Core.state hcore).symm.trans hst)⟩
  fin s h _ _ _ hsr := by
    have hcore := core_afterFin s
    refine ⟨(congrArg Core.freed hcore).trans h.1, fun hst => ?_⟩
    have hfin : finState s.state = .synReceived := (congrArg Core.state hcore).symm.trans hst
    cases hs : s.state <;> simp [finState, hs] at hfin hsr

theorem freed_tcpProcess (hst : 3 ≤ phase sk.state) (hf : sk.freed = false)
    (hrun : tcpProcess sk seg = .ok sk') : sk'.freed = false := by
  have hsr : sk.state ≠ .synReceived := fun h => by simp [h, phase] at hst
  have hss : sk.state ≠ .synSent := fun h => by simp [h, phase] at hst
  exact ((kept_segmentRule seg).tcpProcess ⟨hf, hsr⟩ hss hrun).1

/-- The segment for which `tcp_synrecv_ack` reads the parent completes the handshake. -/
theorem completes_tcpProcess (hst : sk.state = .synReceived) (hp : sk.parent = some .listen)
    (hf : sk.freed = false) (hreads : readsParent sk seg = true)
    (hrun : tcpProcess sk seg = .ok sk') : sk'.freed = false ∧ 3 ≤ phase sk'.state := by
  simp only [readsParent, Bool.and_eq_true, decide_eq_true_eq, Bool.not_eq_true'] at hreads
  obtain ⟨⟨⟨-, hfilter⟩, hsyn, hack⟩, hno⟩ := hreads
  rw [tcpProcess_synReceived hst hp hf, if_pos hfilter, hsyn, if_neg Bool.false_ne_true, hack,
    if_pos rfl, if_pos hno] at hrun
  obtain rfl := Except.ok.inj hrun
  obtain ⟨hcore, hstate⟩ := state_textFin (accept sk seg.th.ackSeq) seg.th (tcpInitSegment seg)
  refine ⟨(congrArg Core.freed hcore).trans hf, ?_⟩
  rcases hstate with heq | heq <;> rw [heq]
  · exact Nat.le_refl 3
  · exact Nat.le_succ 3

end Segment

/-! ### The invariant -/

/-- The children that are complete and wait, the first one to be completed first. -/
def pending (w : State) : List ℕ := w.completed.filter (· ∉ w.returned)

/-- In `M` the nodes of the children that were freed are still in memory; there the two queues are
lists, of the nodes of `ls` and of the children that wait. A child that is not complete is in `ls`. -/
structure Inv (l : ℕ) (w : State) (M : Links Node) (ls : List ℕ) : Prop where
  alive : Alive w.base
  numbered : Numbered w.base
  listens : Listening w.base l
  part : Sub w.links M
  rings : Rings M .listenQueue .acceptQueue (ls.map .sock) ((pending w).reverse.map .sock)
  head : (w.links .acceptQueue).isSome = true
  fresh : ∀ k, k ∈ ls ∨ k ∈ w.completed → k < w.base.fresh
  child : ∀ k sk, w.base.socks k = some sk → w.base.parents k = some l →
    2 ≤ phase sk.state ∧ (sk.state = .synReceived → k ∈ ls)
  completed : ∀ k ∈ w.completed, (w.links (.sock k)).isSome = true ∧
    ∃ sk, w.base.socks k = some sk ∧ 3 ≤ phase sk.state
  nodup : w.completed.Nodup
  once : w.returned.Nodup
  sub : w.returned ⊆ w.completed

section Inv

variable {l k : ℕ} {w w' : State} {M : Links Node} {ls : List ℕ} {sk : TcpSock}

theorem completed_of_pending (hk : k ∈ pending w) : k ∈ w.completed := List.mem_of_mem_filter hk

/-- The children that wait are all in memory. -/
theorem Inv.links_eq (h : Inv l w M ls) : ∀ a ∈ Node.acceptQueue :: (pending w).reverse.map .sock,
    w.links a = M a := by
  intro a ha
  refine (h.part.eq ?_).symm
  rcases List.mem_cons.mp ha with rfl | ha
  · exact h.head
  · obtain ⟨k, hk, rfl⟩ := List.mem_map.mp ha
    exact (h.completed k (completed_of_pending (List.mem_reverse.mp hk))).1

theorem Inv.queue (h : Inv l w M ls) :
    Ring w.links .acceptQueue ((pending w).reverse.map .sock) :=
  h.rings.right.congr h.links_eq

/-- The sock `k` goes on. -/
theorem Inv.write (h : Inv l w M ls) (hsk : w.base.socks k = some sk) (sk' : TcpSock)
    (hf : sk'.freed = false) (hphase : phase sk.state ≤ phase sk'.state)
    (hlisten : sk.state = .listen → sk'.state = .listen) :
    Inv l { w with base := w.base.setSock k (some sk') } M ls := by
  have hother : ∀ {j t}, (w.base.setSock k (some sk')).socks j = some t →
      j = k ∧ t = sk' ∨ w.base.socks j = some t := by
    intro j t ht
    rcases TcpLookup.socks_setSock ht with ⟨hj, ht⟩ | ⟨-, ht⟩
    · exact .inl ⟨hj, (Option.some.inj ht).symm⟩
    · exact .inr ht
  refine { h with alive := ?_, numbered := ?_, listens := ?_, child := ?_, completed := ?_ }
  · intro j t ht
    rcases hother ht with ⟨-, rfl⟩ | ht
    · exact hf
    · exact h.alive j t ht
  · intro j t ht
    rcases hother ht with ⟨rfl, -⟩ | ht
    · exact h.numbered j sk hsk
    · exact h.numbered j t ht
  · by_cases hl : l = k
    · subst hl
      rw [listening_iff (if_pos rfl)]
      exact hlisten ((listening_iff hsk).mp h.listens)
    · rw [Listening, show (w.base.setSock k (some sk')).socks l = w.base.socks l from if_neg hl]
      exact h.listens
  · intro j t ht hp
    rcases hother ht with ⟨rfl, rfl⟩ | ht
    · obtain ⟨htwo, hls⟩ := h.child j sk hsk hp
      refine ⟨htwo.trans hphase, fun hst => hls (phase_eq_two.mp ?_)⟩
      rw [phase_eq_two.mpr hst] at hphase
      exact Nat.le_antisymm hphase htwo
    · exact h.child j t ht hp
  · intro j hj
    obtain ⟨hlive, t, ht, hthree⟩ := h.completed j hj
    refine ⟨hlive, ?_⟩
    by_cases hjk : j = k
    · subst hjk
      obtain rfl := Option.some.inj (hsk.symm.trans ht)
      exact ⟨sk', if_pos rfl, hthree.trans hphase⟩
    · exact ⟨t, (if_neg hjk).trans ht, hthree⟩

/-- The sock `k` is freed, with its node. -/
theorem Inv.free (h : Inv l w M ls) (hk : k ∉ w.completed) (hl : l ≠ k)
    (m : Links TcpSocks.Node) :
    Inv l { w with base := { w.base.setSock k none with links := m }
                   links := put w.links (.sock k) none } M ls := by
  have hold : ∀ {j t}, (w.base.setSock k none).socks j = some t → w.base.socks j = some t := by
    intro j t ht
    rcases TcpLookup.socks_setSock ht with ⟨-, ht⟩ | ⟨-, ht⟩
    · cases ht
    · exact ht
  have hlinks : ∀ {a : Node}, a ≠ .sock k → (w.links a).isSome = true →
      (put w.links (.sock k) none a).isSome = true := by
    intro a ha hlive
    rwa [put_of_ne ha]
  refine { h with alive := ?_, numbered := ?_, listens := ?_, part := h.part.free _, head := ?_,
                  child := ?_, completed := ?_ }
  · exact fun j t ht => h.alive j t (hold ht)
  · exact fun j t ht => h.numbered j t (hold ht)
  · exact (congrArg (Option.map TcpSock.state) (if_neg hl)).trans h.listens
  · exact hlinks (by simp) h.head
  · exact fun j t ht hp => h.child j t (hold ht) hp
  · intro j hj
    obtain ⟨hlive, t, ht, hthree⟩ := h.completed j hj
    have hjk : j ≠ k := by
      rintro rfl
      exact hk hj
    refine ⟨?_, t, (if_neg hjk).trans ht, hthree⟩
    exact hlinks (fun heq => hjk (Node.sock.inj heq)) hlive

/-- A child of the sock `p` comes into being; the queues change as they do if `p` is `l`. -/
theorem Inv.alloc (h : Inv l w M ls) {child : TcpSock} (hf : child.freed = false)
    (hst : child.state = .synReceived) {p : ℕ} (m : Links TcpSocks.Node) {links M' : Links Node}
    {ls' : List ℕ} (hpart : Sub links M')
    (hrings : Rings M' .listenQueue .acceptQueue (ls'.map .sock) ((pending w).reverse.map .sock))
    (hlive : ∀ a, (w.links a).isSome = true → (links a).isSome = true)
    (hls : ∀ k, k ∈ ls' → k ∈ ls ∨ k = w.base.fresh) (hsub : ls ⊆ ls')
    (hnew : p = l → w.base.fresh ∈ ls') :
    Inv l { w with base := { w.base.alloc child (some p) with links := m }, links := links } M'
      ls' := by
  have hl : l < w.base.fresh := by
    obtain ⟨sk, hsk, -⟩ := Option.map_eq_some_iff.mp h.listens
    exact h.numbered l sk hsk
  have hother : ∀ {j t}, (w.base.alloc child (some p)).socks j = some t →
      j = w.base.fresh ∧ t = child ∨ j ≠ w.base.fresh ∧ w.base.socks j = some t := by
    intro j t ht
    rcases TcpLookup.socks_setSock ht with ⟨hj, ht⟩ | ht
    · exact .inl ⟨hj, (Option.some.inj ht).symm⟩
    · exact .inr ht
  refine { h with alive := ?_, numbered := ?_, listens := ?_, part := hpart, rings := hrings,
                  head := hlive _ h.head, fresh := ?_, child := ?_, completed := ?_ }
  · intro j t ht
    rcases hother ht with ⟨-, rfl⟩ | ⟨-, ht⟩
    · exact hf
    · exact h.alive j t ht
  · intro j t ht
    rcases hother ht with ⟨rfl, -⟩ | ⟨-, ht⟩
    · exact Nat.lt_succ_self _
    · exact Nat.lt_succ_of_lt (h.numbered j t ht)
  · exact (congrArg (Option.map TcpSock.state) (if_neg (Nat.ne_of_lt hl))).trans h.listens
  · intro j hj
    rcases hj with hj | hj
    · rcases hls j hj with hj | rfl
      · exact Nat.lt_succ_of_lt (h.fresh j (.inl hj))
      · exact Nat.lt_succ_self _
    · exact Nat.lt_succ_of_lt (h.fresh j (.inr hj))
  · intro j t ht hp
    rcases hother ht with ⟨rfl, rfl⟩ | ⟨hj, ht⟩
    · have hpl : p = l := Option.some.inj ((if_pos rfl : _ = some p).symm.trans hp)
      exact ⟨Nat.le_of_eq (phase_eq_two.mpr hst).symm, fun _ => hnew hpl⟩
    · obtain ⟨htwo, hin⟩ := h.child j t ht ((if_neg hj).symm.trans hp)
      exact ⟨htwo, fun hst => hsub (hin hst)⟩
  · intro j hj
    obtain ⟨hlivej, t, ht, hthree⟩ := h.completed j hj
    exact ⟨hlive _ hlivej, t, (if_neg (Nat.ne_of_lt (h.fresh j (.inr hj)))).trans ht, hthree⟩

/-- The child of another sock. -/
theorem Inv.childOfOther (h : Inv l w M ls) {child : TcpSock} (hf : child.freed = false)
    (hst : child.state = .synReceived) {p : ℕ} (hp : p ≠ l) (m : Links TcpSocks.Node) :
    Inv l { w with base := { w.base.alloc child (some p) with links := m } } M ls :=
  h.alloc hf hst m h.part h.rings (fun _ h => h) (fun _ h => .inl h) (List.Subset.refl _)
    fun heq => absurd heq hp

/-- The new child goes to the listen queue. -/
theorem Inv.listenChild (h : Inv l w M ls) {child : TcpSock} (hf : child.freed = false)
    (hst : child.state = .synReceived) (m : Links TcpSocks.Node)
    (hs : tcpListenChildSock w.base.fresh
      { w with base := { w.base.alloc child (some l) with links := m } } = some w') :
    w'.completed = w.completed ∧ w'.returned = w.returned ∧
      ∃ M', Inv l w' M' (w.base.fresh :: ls) := by
  obtain ⟨links, hlinks, hs⟩ := Option.bind_eq_some_iff.mp hs
  obtain rfl := Option.some.inj hs
  have hls : Node.sock w.base.fresh ∉ Node.listenQueue :: ls.map .sock := by
    intro hmem
    exact Nat.lt_irrefl _ (h.fresh _ (.inl (by simpa using hmem)))
  have hps : Node.sock w.base.fresh ∉ Node.acceptQueue :: (pending w).reverse.map .sock := by
    intro hmem
    have hp : w.base.fresh ∈ pending w := by simpa using hmem
    exact Nat.lt_irrefl _ (h.fresh _ (.inr (completed_of_pending hp)))
  have hrings : Rings (put M (.sock w.base.fresh) (some ⟨none, none⟩)) .listenQueue .acceptQueue
      (ls.map .sock) ((pending w).reverse.map .sock) := by
    refine h.rings.congr fun e he => put_of_ne ?_ M _
    rintro rfl
    exact he.elim hls hps
  have hnode : (put M (.sock w.base.fresh) (some ⟨none, none⟩) (.sock w.base.fresh)).isSome = true :=
    congrArg Option.isSome (if_pos rfl)
  obtain ⟨M', hM', hrings'⟩ := hrings.push hnode hls hps
  obtain ⟨hpart, hlive⟩ := tracks_listAdd _ _ (h.part.put _ _) hlinks hM'
  rw [← List.map_cons] at hrings'
  refine ⟨rfl, rfl, M', h.alloc hf hst m hpart hrings' (fun a ha => ?_) ?_
    (List.subset_cons_self ..) fun _ => List.mem_cons_self ..⟩
  · rw [hlive, put]
    split_ifs
    · rfl
    · exact ha
  · intro j hj
    exact (List.mem_cons.mp hj).symm

theorem pending_complete (hret : k ∉ w.returned) (links : Links Node) (base : TcpSocks.State) :
    pending ⟨base, links, w.completed ++ [k], w.returned⟩ = pending w ++ [k] := by
  simp [pending, hret]

theorem tcpSynrecvAck_listening (hl : Listening w.base l) :
    tcpSynrecvAck l k w = tcpAcceptEnqueue k w := if_pos hl

/-- A child that is complete goes to the front of the accept queue. -/
theorem Inv.enqueue (h : Inv l w M ls) (hk : k ∈ ls) (hnot : k ∉ w.completed)
    (hsk : w.base.socks k = some sk) (hphase : 3 ≤ phase sk.state)
    (hs : tcpAcceptEnqueue k w = some w') :
    w'.completed = w.completed ++ [k] ∧ w'.returned = w.returned ∧
      ∃ M', Inv l w' M' (ls.erase k) := by
  obtain ⟨empty, hempty, hs⟩ := Option.bind_eq_some_iff.mp hs
  obtain ⟨next, hnext, rfl⟩ := Option.map_eq_some_iff.mp hempty
  have hlive : (w.links (.sock k)).isSome = true := by
    obtain ⟨c, hc, -⟩ := Option.map_eq_some_iff.mp hnext
    rw [hc]
    rfl
  have hmem : Node.sock k ∈ ls.map Node.sock := List.mem_map_of_mem hk
  -- the node is in the listen queue
  have hne : (next == some (Node.sock k)) = false := by
    refine beq_eq_false_iff_ne.mpr fun heq => h.rings.left.next_ne hmem ?_
    rw [getNext, h.part.eq hlive, ← getNext, hnext, heq]
  simp only [hne, Bool.false_eq_true, if_false] at hs
  obtain ⟨m₁, hm₁, hs⟩ := Option.bind_eq_some_iff.mp hs
  obtain ⟨links, hlinks, hs⟩ := Option.bind_eq_some_iff.mp hs
  obtain rfl := Option.some.inj hs
  obtain ⟨M₁, M', hM₁, hM', hrings⟩ := h.rings.move hmem
  obtain ⟨hpart₁, hlive₁⟩ := tracks_listDel _ h.part hm₁ hM₁
  obtain ⟨hpart, hlive₂⟩ := tracks_listAdd _ _ hpart₁ hlinks hM'
  have hlinks' : ∀ a, (links a).isSome = (w.links a).isSome := fun a =>
    (hlive₂ a).trans (hlive₁ a)
  have hret : k ∉ w.returned := fun hr => hnot (h.sub hr)
  refine ⟨rfl, rfl, M', ?_⟩
  refine { h with part := hpart, rings := ?_, head := (hlinks' _).trans h.head, fresh := ?_,
                  child := ?_, completed := ?_, nodup := ?_, sub := ?_ }
  · rw [pending_complete hret, List.reverse_append, List.reverse_singleton]
    rw [← List.map_erase fun _ _ => Node.sock.inj] at hrings
    exact hrings
  · rintro j (hj | hj)
    · exact h.fresh j (.inl (List.mem_of_mem_erase hj))
    · rcases List.mem_append.mp hj with hj | hj
      · exact h.fresh j (.inr hj)
      · rw [List.mem_singleton.mp hj]
        exact h.fresh k (.inl hk)
  · intro j t ht hp
    obtain ⟨htwo, hin⟩ := h.child j t ht hp
    refine ⟨htwo, fun hst => (List.mem_erase_of_ne ?_).mpr (hin hst)⟩
    rintro rfl
    obtain rfl := Option.some.inj (hsk.symm.trans ht)
    rw [phase_eq_two.mpr hst] at hphase
    omega
  · intro j hj
    rcases List.mem_append.mp hj with hj | hj
    · obtain ⟨hlivej, hrest⟩ := h.completed j hj
      exact ⟨(hlinks' _).trans hlivej, hrest⟩
    · rw [List.mem_singleton.mp hj]
      exact ⟨(hlinks' _).trans hlive, sk, hsk, hphase⟩
  · exact List.concat_eq_append ▸ List.Nodup.concat hnot h.nodup
  · exact fun j hj => List.mem_append.mpr (.inl (h.sub hj))

theorem pending_return {rest : List ℕ} (hnodup : w.completed.Nodup)
    (hfirst : (pending w).reverse = k :: rest) (links : Links Node) (base : TcpSocks.State) :
    (pending ⟨base, links, w.completed, w.returned ++ [k]⟩).reverse = rest := by
  have hk : k ∉ rest := by
    have hrev := List.nodup_reverse.mpr (hnodup.filter (· ∉ w.returned))
    rw [← pending, hfirst] at hrev
    exact (List.nodup_cons.mp hrev).1
  have hfilter : pending ⟨base, links, w.completed, w.returned ++ [k]⟩ =
      (pending w).filter (· ≠ k) := by
    simp [pending, List.filter_filter, and_comm]
  rw [hfilter, ← List.filter_reverse, hfirst, List.filter_cons_of_neg (by simp), List.filter_eq_self]
  intro j hj
  simpa using ne_of_mem_of_not_mem hj hk

theorem tcpAcceptDequeue_some {k' : ℕ} (hnext : getNext w.links .acceptQueue = some (some (.sock k)))
    (hs : tcpAcceptDequeue w = some (k', w')) :
    k = k' ∧ ∃ links, listDelInit w.links (.sock k) = some links ∧ w' = { w with links := links } := by
  rw [tcpAcceptDequeue, hnext, Option.bind_eq_bind, Option.bind_some] at hs
  obtain ⟨m, hm, hrest⟩ := Option.bind_eq_some_iff.mp hs
  obtain ⟨links, hlinks, heq⟩ := Option.bind_eq_some_iff.mp hrest
  obtain ⟨rfl, rfl⟩ := Prod.mk.inj (Option.some.inj heq)
  refine ⟨rfl, links, ?_, rfl⟩
  rw [listDelInit_eq, hm, Option.bind_some, hlinks]

/-- The first child in the queue is taken out. -/
theorem Inv.dequeue (h : Inv l w M ls) {rest : List ℕ} (hq : (pending w).reverse = k :: rest)
    {links : Links Node} (hdel : listDelInit w.links (.sock k) = some links) :
    ∃ M', Inv l { w with links := links, returned := w.returned ++ [k] } M' ls := by
  have hk : k ∈ pending w := List.mem_reverse.mp (hq ▸ List.mem_cons_self ..)
  obtain ⟨hcompleted, hret⟩ := List.mem_filter.mp hk
  obtain ⟨M', hM', hrings, -, -⟩ :=
    h.rings.symm.remove (List.mem_map_of_mem (f := Node.sock) (List.mem_reverse.mpr hk))
  obtain ⟨hpart, hlive⟩ := tracks_listDelInit _ h.part hdel hM'
  rw [hq, List.map_cons, List.erase_cons_head] at hrings
  refine ⟨M', { h with part := hpart, rings := ?_, head := (hlive _).trans h.head, completed := ?_,
                       once := ?_, sub := ?_ }⟩
  · rw [pending_return h.nodup hq]
    exact hrings.symm
  · intro j hj
    obtain ⟨hlivej, hrest⟩ := h.completed j hj
    exact ⟨(hlive _).trans hlivej, hrest⟩
  · exact List.concat_eq_append ▸ List.Nodup.concat (of_decide_eq_true hret) h.once
  · intro j hj
    rcases List.mem_append.mp hj with hj | hj
    · exact h.sub hj
    · rw [List.mem_singleton.mp hj]
      exact hcompleted

/-- `tcp_accept` returns the first child in the queue, the last one that was completed. -/
theorem Inv.accept (h : Inv l w M ls) (hs : tcpAccept w = some w') :
    pending w = [] ∧ w' = w ∨ ∃ k rest, (pending w).reverse = k :: rest ∧
      w'.completed = w.completed ∧ w'.returned = w.returned ++ [k] ∧ ∃ M', Inv l w' M' ls := by
  have hnext := h.queue.next_head
  obtain ⟨empty, hempty, hs⟩ := Option.bind_eq_some_iff.mp hs
  rw [listEmpty, hnext, Option.map_some, Option.some.injEq] at hempty
  cases hq : (pending w).reverse with
  | nil =>
    rw [hq] at hempty
    obtain rfl : true = empty := by simpa using hempty
    exact .inl ⟨List.reverse_eq_nil_iff.mp hq, (Option.some.inj hs).symm⟩
  | cons k rest =>
    rw [hq] at hempty hnext
    obtain rfl : empty = false := by
      rw [← hempty]
      rfl
    simp only [Bool.false_eq_true, if_false] at hs
    obtain ⟨⟨k', w₁⟩, hw₁, hs⟩ := Option.bind_eq_some_iff.mp hs
    obtain ⟨base, hbase, hs⟩ := Option.bind_eq_some_iff.mp hs
    obtain rfl := Option.some.inj hs
    obtain ⟨rfl, links, hdel, rfl⟩ := tcpAcceptDequeue_some hnext hw₁
    obtain ⟨sk, hsk, rfl⟩ := Option.map_eq_some_iff.mp hbase
    have hw := h.write hsk { sk with accepted := false } (h.alive k sk hsk) (Nat.le_refl _) id
    exact .inr ⟨k, rest, rfl, rfl, rfl, hw.dequeue hq hdel⟩

/-- A child that has come so far is complete after a segment for which the parent is read. -/
theorem Inv.completes (h : Inv l w M ls) (hsk : w.base.socks k = some sk) {sk' : TcpSock} {seg : Seg}
    (hp : w.base.parents k = some l) (hreads : readsParent sk seg = true)
    (hrun : tcpProcess (withParent w.base k sk) seg = .ok sk') :
    k ∈ ls ∧ k ∉ w.completed ∧ sk'.freed = false ∧ 3 ≤ phase sk'.state := by
  have hst : sk.state = .synReceived := by
    simp only [readsParent, Bool.and_eq_true, decide_eq_true_eq] at hreads
    exact hreads.1.1.1
  have hparent : (withParent w.base k sk).parent = some .listen := by
    obtain ⟨parent, hparent, hlisten⟩ := Option.map_eq_some_iff.mp h.listens
    simp [withParent, hp, hparent, hlisten]
  refine ⟨(h.child k sk hsk hp).2 hst, fun hin => ?_,
    @completes_tcpProcess (withParent w.base k sk) sk' seg hst hparent (h.alive k sk hsk) hreads hrun⟩
  obtain ⟨-, t, ht, hthree⟩ := h.completed k hin
  obtain rfl := Option.some.inj (hsk.symm.trans ht)
  rw [phase_eq_two.mpr hst] at hthree
  omega

/-- **A segment** returns no child, and completes one at most. -/
theorem Inv.process {seg : Seg} {isn : UInt32} (h : Inv l w M ls)
    (hs : process l k seg isn w = some w') :
    w'.returned = w.returned ∧ w.completed <+: w'.completed ∧ ∃ M' ls', Inv l w' M' ls' := by
  obtain ⟨sk, hsk, hrest⟩ := Option.bind_eq_some_iff.mp hs
  obtain ⟨base, hbase, hqueue⟩ := Option.bind_eq_some_iff.mp hrest
  obtain ⟨sk₀, hsk₀, hproc⟩ := process_some hbase
  obtain rfl := Option.some.inj (hsk.symm.trans hsk₀)
  obtain ⟨hstay, hmade⟩ := stays_tcpHandleListen sk seg isn
  have hf := h.alive k sk hsk
  cases hproc with
  | listened hst hchild =>
    simp only [hst, if_true, hchild, Option.isSome_none, Bool.false_eq_true, and_false,
      if_false] at hqueue
    obtain rfl := Option.some.inj hqueue
    exact ⟨rfl, List.prefix_refl _, M, ls, h.write hsk _ (hstay.freed.trans hf)
      (by rw [hst]; exact Nat.zero_le _) hstay.listen.mpr⟩
  | child hst child m hchild =>
    obtain ⟨hcst, -, hcf⟩ := hmade child hchild
    have h₁ := h.write hsk _ (hstay.freed.trans hf) (by rw [hst]; exact Nat.zero_le _) hstay.listen.mpr
    simp only [hst, if_true, hchild, Option.isSome_some, and_true] at hqueue
    split_ifs at hqueue with hkl
    · subst hkl
      obtain ⟨hcompleted, hreturned, M', h'⟩ := h₁.listenChild hcf hcst m hqueue
      exact ⟨hreturned, hcompleted ▸ List.prefix_refl _, M', _, h'⟩
    · obtain rfl := Option.some.inj hqueue
      exact ⟨rfl, List.prefix_refl _, M, ls, h₁.childOfOther hcf hcst hkl m⟩
  | kept hst sk' hrun hf' =>
    have hphase : phase sk.state ≤ phase sk'.state :=
      @phase_mono (withParent w.base k sk) sk' (Moves.tcpProcess hrun)
    have h₁ := h.write hsk sk' hf' hphase fun heq => absurd heq hst
    have hin : ((w.base.setSock k (some sk')).socks k) = some sk' := if_pos rfl
    rw [if_neg hst] at hqueue
    split_ifs at hqueue with hack hopen
    · obtain ⟨hls, hnot, -, hthree⟩ := h.completes hsk hack.1 hack.2 hrun
      rw [tcpSynrecvAck_listening h₁.listens] at hqueue
      obtain ⟨hcompleted, hreturned, M', h'⟩ := h₁.enqueue hls hnot hin hthree hqueue
      exact ⟨hreturned, hcompleted ▸ List.prefix_append .., M', _, h'⟩
    · obtain rfl := Option.some.inj hqueue
      exact ⟨rfl, List.prefix_refl _, M, ls, h₁⟩
    · exact absurd (by rw [hin]; rfl) hopen
  | freed hst sk' m hrun hf' =>
    have hl : l ≠ k := by
      rintro rfl
      exact hst ((listening_iff hsk).mp h.listens)
    have hnot : k ∉ w.completed := by
      intro hin
      obtain ⟨-, t, ht, hthree⟩ := h.completed k hin
      obtain rfl := Option.some.inj (hsk.symm.trans ht)
      have hkeep := @freed_tcpProcess (withParent w.base k sk) sk' seg hthree hf hrun
      rw [hf'] at hkeep
      cases hkeep
    rw [if_neg hst] at hqueue
    split_ifs at hqueue with hack hopen
    · obtain ⟨-, -, hkeep, -⟩ := h.completes hsk hack.1 hack.2 hrun
      rw [hf'] at hkeep
      cases hkeep
    · have hgone : ((w.base.setSock k none).socks k) = none := if_pos rfl
      rw [hgone] at hopen
      cases hopen
    · obtain rfl := Option.some.inj hqueue
      exact ⟨rfl, List.prefix_refl _, M, ls, h.free hnot hl m⟩

/-! ### Runs -/

/-- The invariant holds after every step, in order or not. -/
theorem Inv.step {e : Event} (h : Inv l w M ls) (hs : step l w e = some w') :
    ∃ M' ls', Inv l w' M' ls' := by
  cases e with
  | segment seg isn =>
    obtain ⟨found, -, hs⟩ := Option.bind_eq_some_iff.mp hs
    split at hs
    · obtain ⟨-, -, h'⟩ := h.process hs
      exact h'
    · exact Option.some.inj hs ▸ ⟨M, ls, h⟩
  | accept =>
    rcases h.accept hs with ⟨-, rfl⟩ | ⟨k, rest, -, -, -, M', h'⟩
    · exact ⟨M, ls, h⟩
    · exact ⟨M', ls, h'⟩

end Inv

end ToyIP.Stack.AcceptQueue
