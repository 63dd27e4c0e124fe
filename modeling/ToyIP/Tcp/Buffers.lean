import ToyIP.Lib.RefCount
import ToyIP.Lib.Run
import ToyIP.Tcp.Life

/-! # TCP: the buffers of the queues

The queues of a sock hold buffers in memory, each with its `refcnt`. What `tcp_process` does with
the buffer of a segment and with those on the queues is a list of acts, `processActs`, which follows
its exits; `tcp_data_dequeue` and `tcp_free_sock` release buffers too. `refcounts_exact` says that
no buffer is lost and none is released twice.

The queues of `TcpSock` hold the same buffers by their contents; `Shows` says that they agree. -/

namespace ToyIP.Tcp.Buffers

open ToyIP.Lib.Run ToyIP.Lib.RefCount ToyIP.Lib.RefCount.Store ToyIP.Tcp.Types ToyIP.Tcp.Timer
  ToyIP.Tcp.Output ToyIP.Tcp.Data ToyIP.Tcp.Input ToyIP.Tcp.Sides ToyIP.Tcp.Network ToyIP.Tcp.Life

/-- The queues of a sock. -/
structure Queues (α : Type) where
  ofo : List α
  receive : List α
  write : List α
  deriving DecidableEq, Repr

/-- The queues with text. -/
def Queues.text {α : Type} (q : Queues α) : List α := q.ofo ++ q.receive

def Queues.all {α : Type} (q : Queues α) : List α := q.text ++ q.write

/-- The buffers in memory, and the queues, on which they are by their addresses. -/
structure Heap where
  store : Store Skb
  queues : Queues ℕ

/-- A buffer with its count. -/
def skbAt (s : Store Skb) (b : ℕ) : Option Skb := (s.cells b).map fun c => { c.1 with refcnt := c.2 }

/-! ### The functions of the queues -/

/-- `tcp_data_insert_ordered`. -/
def insertOrdered (s : Store Skb) (b : ℕ) : List ℕ → Option (Store Skb × List ℕ)
  | [] => do
    let s ← s.hold b
    some (s, [b])
  | c :: rest => do
    let skb ← skbAt s b
    let item ← skbAt s c
    match visit skb item with
    | .insert => do
      let s ← s.hold b
      some (s, c :: b :: rest)
    | .duplicate => some (s, c :: rest)
    | .next => do
      let (s, rest) ← insertOrdered s b rest
      some (s, c :: rest)

/-- `tcp_consume_ofo_queue`: the out-of-order queue and the receive queue. -/
def consumeOfo (s : Store Skb) : UInt32 → List ℕ → List ℕ → Option (List ℕ × List ℕ)
  | _, [], receive => some ([], receive)
  | rcvNxt, c :: ofo, receive => do
    let skb ← skbAt s c
    if rcvNxt = skb.seq then consumeOfo s (rcvNxt + skb.dlen) ofo (receive ++ [c])
    else some (c :: ofo, receive)

/-- The loop of `tcp_data_dequeue`. -/
def dequeueSkbs (userlen : UInt32) : UInt32 → List ℕ → Store Skb → Option (List ℕ × Store Skb)
  | _, [], s => some ([], s)
  | rlen, b :: rest, s =>
    if rlen < userlen then do
      let c ← s.cells b
      let dlen := if rlen + c.1.dlen > userlen then userlen - rlen else c.1.dlen
      let left := { c.1 with dlen := c.1.dlen - dlen, payload := c.1.payload.drop dlen.toNat }
      let s := s.set b (left, c.2)
      if left.dlen = 0 then do
        let s ← s.drop b
        dequeueSkbs userlen (rlen + dlen) rest s
      else some (b :: rest, s)
    else some (b :: rest, s)

/-- The loop of `tcp_clean_retransmission_queue`. -/
def cleanWrite (una : UInt32) : List ℕ → Store Skb → Option (List ℕ × Store Skb)
  | [], s => some ([], s)
  | b :: rest, s => do
    let skb ← skbAt s b
    if skb.endSeq ≤ una then do
      let s ← s.drop b
      cleanWrite una rest s
    else some (b :: rest, s)

/-- `tcp_clear_queues` and `sk_free`. -/
def freeQueues (h : Heap) : Option Heap := do
  let s ← dropAll h.queues.ofo h.store
  let s ← dropAll h.queues.receive s
  let s ← dropAll h.queues.write s
  some ⟨s, ⟨[], [], []⟩⟩

/-! ### What `tcp_process` does with buffers -/

/-- One act: `free_skb` of the buffer of the segment, the same in the branch of `tcp_data_queue` for
a closed window, text in order (with `rcv_nxt` behind it), text out of order, acknowledged buffers,
and `tcp_free_sock`. -/
inductive Act
  | free
  | zeroWindow
  | receive (rcvNxt : UInt32)
  | ofo
  | clean (una : UInt32)
  | freeSock
  deriving DecidableEq, Repr

/-- `b` is the buffer of the segment. -/
def act (b : ℕ) (h : Heap) : Act → Option Heap
  | .free | .zeroWindow => do
    let s ← h.store.release b
    some { h with store := s }
  | .receive rcvNxt => do
    let s ← h.store.hold b
    let (ofo, receive) ← consumeOfo s rcvNxt h.queues.ofo (h.queues.receive ++ [b])
    some ⟨s, { h.queues with ofo := ofo, receive := receive }⟩
  | .ofo => do
    let (s, ofo) ← insertOrdered h.store b h.queues.ofo
    some ⟨s, { h.queues with ofo := ofo }⟩
  | .clean una => do
    let (write, s) ← cleanWrite una h.queues.write h.store
    some ⟨s, { h.queues with write := write }⟩
  | .freeSock => freeQueues h

def dataQueueActs (sk : TcpSock) (skb : Skb) : List Act :=
  if sk.rcvWnd = 0 then [.zeroWindow]
  else if skb.seq = sk.rcvNxt then [.receive (sk.rcvNxt + skb.dlen)]
  else [.ofo]

def segmentTextActs (sk : TcpSock) (skb : Skb) : List Act :=
  match sk.state with
  | .established | .finWait1 | .finWait2 => if skb.dlen > 0 then dataQueueActs sk skb else []
  | _ => []

def ackActs (sk : TcpSock) (th : TcpHdr) : List Act :=
  match sk.state with
  | .established | .finWait1 | .finWait2 | .closeWait | .closing | .lastAck =>
    if sk.sndUna < th.ackSeq ∧ th.ackSeq ≤ sk.sndNxt then [.clean th.ackSeq] else []
  | _ => []

def synActs (sk : TcpSock) : List Act :=
  if sk.state = .synReceived ∧ sk.parent ≠ none then [.freeSock] else []

/-- Behind the window filter. -/
def inWindowActs (sk : TcpSock) (th : TcpHdr) (skb : Skb) : List Act :=
  let syn := if th.syn then synActs sk else []
  let sk := if th.syn then synCheck sk else sk
  if !th.ack then syn ++ [.free]
  else match ackCheck sk th with
    | .error _ => syn
    | .ok (_, false) => syn ++ (ackActs sk th ++ [.free])
    | .ok (sk', true) => syn ++ (ackActs sk th ++ (segmentTextActs sk' skb ++ [.free]))

def synsentActs (sk : TcpSock) (th : TcpHdr) : List Act :=
  if th.ack && !synsentAckOk sk th then [.free]
  else if th.rst then [.free]
  else if !th.syn then [.free]
  else if th.ack then [.clean th.ackSeq, .free]
  else [.free]

/-- `tcp_process`, with `tcp_closed`, `tcp_handle_listen` and `tcp_synsent`. -/
def processActs (sk : TcpSock) (seg : Seg) : List Act :=
  match sk.state with
  | .close | .listen => [.free]
  | .synSent => synsentActs sk seg.th
  | _ =>
    if tcpPacketFilter sk seg.th (tcpInitSegment seg) then
      inWindowActs sk seg.th (tcpInitSegment seg)
    else [.free]

/-! ### Runs -/

/-- What can happen to one sock: the calls that look after its buffers, a new buffer on the write
queue (`tcp_queue_transmit_skb`), one that is sent again, and any other change. -/
inductive Event
  | segment (seg : Seg)
  | dequeue (userlen : UInt32)
  | free
  | transmit (skb : Skb)
  | resend (skb : Skb)
  | fields (sk : TcpSock)
  deriving DecidableEq, Repr

structure State where
  sk : TcpSock
  heap : Heap

/-- A sock without buffers. -/
def start (sk : TcpSock) : State :=
  ⟨{ sk with ofoQueue := [], receiveQueue := [], writeQueue := [] }, ⟨.empty, ⟨[], [], []⟩⟩⟩

/-- The sock after the event. -/
def nextSock (sk : TcpSock) : Event → Option TcpSock
  | .segment seg => match tcpProcess sk seg with
    | .error _ => none
    | .ok sk => some sk
  | .dequeue userlen => some (tcpDataDequeue sk userlen).1
  | .free => some (tcpFreeSock sk)
  | .transmit skb => some { sk with writeQueue := sk.writeQueue ++ [{ skb with refcnt := 0 }] }
  | .resend skb => some { sk with writeQueue := match sk.writeQueue with
    | [] => []
    | old :: rest => { skb with refcnt := old.refcnt } :: rest }
  | .fields sk' => some { sk' with
    ofoQueue := sk.ofoQueue, receiveQueue := sk.receiveQueue, writeQueue := sk.writeQueue
    freed := sk.freed }

/-- The buffers after the event. The buffer of a segment is a new one. -/
def nextHeap (sk : TcpSock) (h : Heap) : Event → Option Heap
  | .segment seg => (processActs sk seg).foldlM (act h.store.fresh)
      { h with store := h.store.alloc (tcpInitSegment seg) }
  | .dequeue userlen => do
    let (receive, s) ← dequeueSkbs userlen 0 h.queues.receive h.store
    some ⟨s, { h.queues with receive := receive }⟩
  | .free => freeQueues h
  | .transmit skb => some ⟨h.store.alloc skb, { h.queues with
      write := h.queues.write ++ [h.store.fresh] }⟩
  | .resend skb => match h.queues.write with
    | [] => some h
    | b :: _ => do
      let c ← h.store.cells b
      some { h with store := h.store.set b (skb, c.2) }
  | .fields _ => some h

/-- One event. A sock that is freed has none. -/
def step (s : State) (e : Event) : Option State :=
  if s.sk.freed then none
  else do
    let sk ← nextSock s.sk e
    let heap ← nextHeap s.sk s.heap e
    some ⟨sk, heap⟩

/-! ### The property -/

/-- **The counts are exact.** All queued buffers are different and in memory; those with text have
count 1, those that wait for an acknowledgement 0. No buffer has been released twice. -/
structure Counted (h : Heap) : Prop where
  tidy : h.store.Tidy
  nodup : h.queues.all.Nodup
  text : ∀ b ∈ h.queues.text, ∃ skb, h.store.cells b = some (skb, 1)
  write : ∀ b ∈ h.queues.write, ∃ skb, h.store.cells b = some (skb, 0)

/-- Between two moments the queued buffers that have left the queues have been released, and no
others; those that stay keep their counts. -/
structure Accounts (h h' : Heap) : Prop where
  before : h.store.released <+: h'.store.released
  released : ∀ b ∈ h.queues.all, b ∈ h'.store.released ↔ b ∉ h'.queues.all
  count : ∀ b ∈ h.queues.all, b ∈ h'.queues.all →
    (h'.store.cells b).map Prod.snd = (h.store.cells b).map Prod.snd

/-- What an event does: the queues account for it, and the buffer of a segment is queued or
released. -/
structure Exact (s : State) (e : Event) (s' : State) : Prop where
  accounts : Accounts s.heap s'.heap
  own : ∀ seg, e = .segment seg →
    (s.heap.store.fresh ∈ s'.heap.store.released ↔ s.heap.store.fresh ∉ s'.heap.queues.all)

/-! ### The queues by their contents -/

def queuesOf (sk : TcpSock) : Queues Skb := ⟨sk.ofoQueue, sk.receiveQueue, sk.writeQueue⟩

/-- The buffers of `q` hold `v`. -/
def Reads (s : Store Skb) (q : List ℕ) (v : List Skb) : Prop :=
  List.Forall₂ (fun b skb => skbAt s b = some skb) q v

/-- The queues of the sock are those in memory. -/
structure Shows (h : Heap) (v : Queues Skb) : Prop where
  ofo : Reads h.store h.queues.ofo v.ofo
  receive : Reads h.store h.queues.receive v.receive
  write : Reads h.store h.queues.write v.write

/-- One act on the contents. -/
def onQueues (skb : Skb) (q : Queues Skb) : Act → Queues Skb
  | .free | .zeroWindow => q
  | .receive rcvNxt =>
    let c := consume rcvNxt q.ofo (q.receive ++ [{ skb with refcnt := skb.refcnt + 1 }])
    { q with ofo := c.2.1, receive := c.2.2 }
  | .ofo => { q with ofo := tcpDataInsertOrdered q.ofo skb }
  | .clean una => { q with write := q.write.dropWhile fun skb => skb.endSeq ≤ una }
  | .freeSock => ⟨[], [], []⟩

variable {h h' h₁ : Heap} {s s' : Store Skb} {a b : ℕ} {skb : Skb} {q : List ℕ} {v : List Skb}
  {w : Queues Skb}

/-! ### Reading -/

theorem skbAt_congr (h : s'.cells b = s.cells b) : skbAt s' b = skbAt s b := by
  rw [skbAt, skbAt, h]

theorem Reads.congr (h : Reads s q v) (hs : ∀ b ∈ q, s'.cells b = s.cells b) : Reads s' q v := by
  induction h with
  | nil => exact .nil
  | cons hb _ ih =>
    exact .cons ((skbAt_congr (hs _ (List.mem_cons_self ..))).trans hb)
      (ih fun c hc => hs c (List.mem_cons_of_mem _ hc))

theorem Reads.append {q' : List ℕ} {v' : List Skb} (h : Reads s q v) (h' : Reads s q' v') :
    Reads s (q ++ q') (v ++ v') := List.rel_append h h'

theorem Shows.congr (hv : Shows h w) (hq : h'.queues = h.queues)
    (hs : ∀ b ∈ h.queues.all, h'.store.cells b = h.store.cells b) : Shows h' w := by
  refine ⟨hq ▸ hv.ofo.congr fun b hb => hs b ?_, hq ▸ hv.receive.congr fun b hb => hs b ?_,
    hq ▸ hv.write.congr fun b hb => hs b ?_⟩ <;> simp [Queues.all, Queues.text, hb]

/-! ### Counts and releases -/

theorem Counted.held (hc : Counted h) (hb : b ∈ h.queues.all) :
    ∃ skb n, h.store.cells b = some (skb, n) ∧ n ≤ 1 := by
  rcases List.mem_append.mp hb with hb | hb
  · obtain ⟨skb, hskb⟩ := hc.text b hb
    exact ⟨skb, 1, hskb, le_rfl⟩
  · obtain ⟨skb, hskb⟩ := hc.write b hb
    exact ⟨skb, 0, hskb, by omega⟩

theorem Counted.cell (hc : Counted h) (hb : b ∈ h.queues.all) : h.store.cells b ≠ none := by
  obtain ⟨skb, n, hskb, -⟩ := hc.held hb
  rw [hskb]
  exact Option.some_ne_none _

theorem Counted.not_released (hc : Counted h) (hb : b ∈ h.queues.all) : b ∉ h.store.released :=
  fun hin => hc.cell hb (hc.tidy.gone b hin).1

theorem Accounts.refl (hc : Counted h) : Accounts h h :=
  ⟨List.prefix_rfl, fun _ hb => ⟨fun hin => absurd hin (hc.not_released hb), fun hn => absurd hb hn⟩,
    fun _ _ _ => rfl⟩

theorem Accounts.trans (hc' : Counted h') (h₁₂ : Accounts h h₁) (h₂₃ : Accounts h₁ h') :
    Accounts h h' := by
  -- what has left the queues has been released, so it does not come back
  have hgone : ∀ b ∈ h.queues.all, b ∉ h₁.queues.all → b ∈ h'.store.released := fun b hb hb₁ =>
    h₂₃.before.subset ((h₁₂.released b hb).mpr hb₁)
  refine ⟨h₁₂.before.trans h₂₃.before, fun b hb => ?_, fun b hb hb' => ?_⟩
  · by_cases hb₁ : b ∈ h₁.queues.all
    · exact h₂₃.released b hb₁
    · have hin := hgone b hb hb₁
      exact ⟨fun _ hb' => hc'.not_released hb' hin, fun _ => hin⟩
  · have hb₁ : b ∈ h₁.queues.all := by
      by_contra hb₁
      exact hc'.not_released hb' (hgone b hb hb₁)
    exact (h₂₃.count b hb₁ hb').trans (h₁₂.count b hb hb₁)

/-- Buffers leave the queues and are released. -/
theorem Counted.leave (hc : Counted h) {gone : List ℕ} {q : Queues ℕ}
    (hp : h.queues.all.Perm (gone ++ q.all)) (ht : q.text ⊆ h.queues.text)
    (hw : q.write ⊆ h.queues.write) :
    Counted ⟨killAll h.store gone, q⟩ ∧ Accounts h ⟨killAll h.store gone, q⟩ := by
  obtain ⟨hgone, hq, hdisj⟩ := List.nodup_append.mp (hp.nodup_iff.mp hc.nodup)
  have hcells : ∀ b ∈ q.all, (killAll h.store gone).cells b = h.store.cells b := fun b hb =>
    cells_killAll_of_not_mem fun hin => hdisj b hin b hb rfl
  have hall : ∀ b ∈ gone, b ∈ h.queues.all := fun b hb =>
    hp.mem_iff.mpr (List.mem_append_left _ hb)
  refine ⟨⟨tidy_killAll hc.tidy hgone fun b hb => hc.cell (hall b hb), hq, fun b hb => ?_,
    fun b hb => ?_⟩, ⟨List.prefix_append _ _, fun b hb => ?_, fun b _ hb' => ?_⟩⟩
  · rw [hcells b (List.mem_append_left _ hb)]
    exact hc.text b (ht hb)
  · rw [hcells b (List.mem_append_right _ hb)]
    exact hc.write b (hw hb)
  · constructor
    · intro hin hb'
      rcases List.mem_append.mp hin with hin | hin
      · exact hc.not_released hb hin
      · exact hdisj b hin b hb' rfl
    · intro hb'
      have hin := (List.mem_append.mp (hp.mem_iff.mp hb)).resolve_right hb'
      exact List.mem_append_right _ hin
  · exact congrArg _ (hcells b hb')

/-- A buffer nobody has is put on a queue for text. -/
theorem Counted.link (hc : Counted h) (skb : Skb) (hb : h.store.cells b ≠ none)
    (hout : b ∉ h.queues.all) {q : Queues ℕ} (ht : q.text.Perm (b :: h.queues.text))
    (hw : q.write = h.queues.write) :
    Counted ⟨h.store.set b (skb, 1), q⟩ ∧ Accounts h ⟨h.store.set b (skb, 1), q⟩ := by
  have hp : q.all.Perm (b :: h.queues.all) := by
    rw [Queues.all, hw]
    exact ht.append_right _
  have hne : ∀ c ∈ h.queues.all, c ≠ b := fun c hin heq => hout (heq ▸ hin)
  have hcells : ∀ c ∈ h.queues.all, (h.store.set b (skb, 1)).cells c = h.store.cells c :=
    fun c hin => cells_set_of_ne _ (hne c hin)
  refine ⟨⟨hc.tidy.set hb _, hp.nodup_iff.mpr (List.nodup_cons.mpr ⟨hout, hc.nodup⟩), fun c hin => ?_,
    fun c hin => ?_⟩, ⟨List.prefix_rfl, fun c hin => ?_, fun c hin _ => congrArg _ (hcells c hin)⟩⟩
  · rcases List.mem_cons.mp (ht.mem_iff.mp hin) with rfl | hin
    · exact ⟨skb, cells_set_self _⟩
    · obtain ⟨x, hx⟩ := hc.text c hin
      exact ⟨x, (hcells c (List.mem_append_left _ hin)).trans hx⟩
  · rw [hw] at hin
    obtain ⟨x, hx⟩ := hc.write c hin
    exact ⟨x, (hcells c (List.mem_append_right _ hin)).trans hx⟩
  · have hin' : c ∈ q.all := hp.mem_iff.mpr (List.mem_cons_of_mem _ hin)
    exact ⟨fun hrel => absurd hrel (hc.not_released hin), fun hn => absurd hin' hn⟩

/-- A buffer has other contents. -/
theorem Counted.set (hc : Counted h) {x y : Skb} {n : ℤ} (hb : h.store.cells b = some (x, n)) :
    Counted { h with store := h.store.set b (y, n) } ∧
      Accounts h { h with store := h.store.set b (y, n) } := by
  have hcount : ∀ c, ((h.store.set b (y, n)).cells c).map Prod.snd =
      (h.store.cells c).map Prod.snd := by
    intro c
    by_cases heq : c = b
    · rw [heq, cells_set_self, hb]
      rfl
    · rw [cells_set_of_ne _ heq]
  have hkeep : ∀ (c : ℕ) (m : ℤ), (∃ z, h.store.cells c = some (z, m)) →
      ∃ z, (h.store.set b (y, n)).cells c = some (z, m) := by
    rintro c m ⟨z, hz⟩
    have hmap := hcount c
    rw [hz, Option.map_some, Option.map_eq_some_iff] at hmap
    obtain ⟨⟨z', m'⟩, hz', rfl⟩ := hmap
    exact ⟨z', hz'⟩
  have hne : h.store.cells b ≠ none := hb ▸ Option.some_ne_none _
  exact ⟨⟨hc.tidy.set hne _, hc.nodup, fun c hin => hkeep c 1 (hc.text c hin),
    fun c hin => hkeep c 0 (hc.write c hin)⟩, ⟨List.prefix_rfl,
    fun c hin => ⟨fun hrel => absurd hrel (hc.not_released hin), fun hn => absurd hin hn⟩,
    fun c _ _ => hcount c⟩⟩

/-- A new buffer. -/
theorem Counted.alloc (hc : Counted h) (skb : Skb) :
    Counted { h with store := h.store.alloc skb } ∧
      Accounts h { h with store := h.store.alloc skb } := by
  have hcells : ∀ b ∈ h.queues.all, (h.store.alloc skb).cells b = h.store.cells b := fun b hb =>
    cells_alloc_of_ne skb (hc.tidy.lt (hc.cell hb)).ne
  refine ⟨⟨hc.tidy.alloc skb, hc.nodup, fun b hb => ?_, fun b hb => ?_⟩, ⟨List.prefix_rfl,
    fun b hb => ⟨fun hrel => absurd hrel (hc.not_released hb), fun hn => absurd hb hn⟩,
    fun b hb _ => congrArg _ (hcells b hb)⟩⟩
  · exact (hcells b (List.mem_append_left _ hb)).symm ▸ hc.text b hb
  · exact (hcells b (List.mem_append_right _ hb)).symm ▸ hc.write b hb

/-! ### The functions of the queues, in memory and by contents -/

theorem skbAt_eq {n : ℤ} (h : s.cells b = some (skb, n)) :
    skbAt s b = some { skb with refcnt := n } := by
  rw [skbAt, h]
  rfl

theorem skbAt_set (s : Store Skb) (b : ℕ) (skb : Skb) (n : ℤ) :
    skbAt (s.set b (skb, n)) b = some { skb with refcnt := n } := skbAt_eq (cells_set_self _)

/-- The buffer is a duplicate, or it is linked somewhere. -/
theorem insertOrdered_eq (hb : s.cells b = some (skb, 0)) {q : List ℕ} {v : List Skb} (hn : b ∉ q)
    (hr : Reads s q v) :
    insertOrdered s b q = some (s, q) ∧ tcpDataInsertOrdered v { skb with refcnt := 0 } = v ∨
    ∃ q₁ q₂, q = q₁ ++ q₂ ∧ insertOrdered s b q = some (s.set b (skb, 1), q₁ ++ b :: q₂) ∧
      Reads (s.set b (skb, 1)) (q₁ ++ b :: q₂)
        (tcpDataInsertOrdered v { skb with refcnt := 0 }) := by
  induction hr with
  | nil =>
    refine .inr ⟨[], [], rfl, ?_, .cons (skbAt_set s b skb 1) .nil⟩
    rw [insertOrdered, hold_eq hb]
    rfl
  | @cons c item q v hc hq ih =>
    obtain ⟨hne, hn⟩ := not_or.mp (fun h => hn (List.mem_cons.mpr h))
    have hc' : skbAt (s.set b (skb, 1)) c = some item :=
      (skbAt_congr (cells_set_of_ne _ (Ne.symm hne))).trans hc
    have hq' : Reads (s.set b (skb, 1)) q v :=
      Reads.congr hq fun a ha => cells_set_of_ne _ fun heq => hn (heq ▸ ha)
    rw [insertOrdered, skbAt_eq hb, hc]
    simp only [Option.bind_eq_bind, Option.bind_some, tcpDataInsertOrdered]
    cases hv : visit { skb with refcnt := 0 } item with
    | insert =>
      refine .inr ⟨[c], q, rfl, ?_, .cons hc' (.cons (skbAt_set s b skb 1) hq')⟩
      simp only [hold_eq hb, Option.bind_some, zero_add, List.singleton_append]
    | duplicate => exact .inl ⟨rfl, rfl⟩
    | next =>
      simp only
      rcases ih hn with ⟨heq, hdup⟩ | ⟨q₁, q₂, rfl, heq, hread⟩
      · rw [heq, hdup]
        exact .inl ⟨rfl, rfl⟩
      · rw [heq]
        exact .inr ⟨c :: q₁, q₂, rfl, rfl, .cons hc' hread⟩

/-- The buffers that are moved stay as they are. -/
theorem consumeOfo_eq : ∀ (rcvNxt : UInt32) {q r : List ℕ} {v w : List Skb}, Reads s q v →
    Reads s r w →
    ∃ moved left, q = moved ++ left ∧ consumeOfo s rcvNxt q r = some (left, r ++ moved) ∧
      Reads s left (consume rcvNxt v w).2.1 ∧ Reads s (r ++ moved) (consume rcvNxt v w).2.2
  | rcvNxt, [], r, _, w, .nil, hr => by
    refine ⟨[], [], rfl, ?_, .nil, ?_⟩
    · rw [consumeOfo, List.append_nil]
    · rwa [List.append_nil, consume]
  | rcvNxt, c :: q, r, skb :: v, w, .cons hc hq, hr => by
    rw [consumeOfo, hc, consume]
    simp only [Option.bind_eq_bind, Option.bind_some]
    by_cases hseq : rcvNxt = skb.seq
    · rw [if_pos hseq, if_pos hseq]
      obtain ⟨moved, left, rfl, heq, hleft, hmoved⟩ :=
        consumeOfo_eq (rcvNxt + skb.dlen) hq (hr.append (.cons hc .nil))
      rw [List.append_assoc, List.singleton_append] at heq hmoved
      exact ⟨c :: moved, left, rfl, heq, hleft, hmoved⟩
    · rw [if_neg hseq, if_neg hseq]
      refine ⟨[], c :: q, rfl, ?_, .cons hc hq, ?_⟩
      · rw [List.append_nil]
      · rwa [List.append_nil]

theorem cleanWrite_eq (una : UInt32) : ∀ {q : List ℕ} {v : List Skb} {s : Store Skb}, q.Nodup →
    (∀ b ∈ q, ∃ skb, s.cells b = some (skb, 0)) → Reads s q v →
    ∃ gone left, q = gone ++ left ∧ cleanWrite una q s = some (left, killAll s gone) ∧
      Reads (killAll s gone) left (v.dropWhile fun skb => skb.endSeq ≤ una)
  | [], _, s, _, _, .nil => ⟨[], [], rfl, by rw [cleanWrite, killAll_nil], .nil⟩
  | c :: q, skb :: v, s, hnodup, hzero, .cons hc hq => by
    obtain ⟨hout, hnodup⟩ := List.nodup_cons.mp hnodup
    obtain ⟨x, hx⟩ := hzero c (List.mem_cons_self ..)
    rw [cleanWrite, hc, List.dropWhile_cons]
    simp only [Option.bind_eq_bind, Option.bind_some, decide_eq_true_eq]
    by_cases hend : skb.endSeq ≤ una
    · have hkeep : ∀ a ∈ q, (s.kill c).cells a = s.cells a := fun a ha =>
        cells_kill_of_ne fun heq => hout (heq ▸ ha)
      rw [if_pos hend, if_pos hend, drop_eq hx (by omega), Option.bind_some]
      obtain ⟨gone, left, rfl, heq, hread⟩ := cleanWrite_eq una hnodup
        (fun a ha => hkeep a ha ▸ hzero a (List.mem_cons_of_mem _ ha)) (Reads.congr hq hkeep)
      rw [killAll_cons] at heq hread
      exact ⟨c :: gone, left, rfl, heq, hread⟩
    · rw [if_neg hend, if_neg hend]
      refine ⟨[], c :: q, rfl, ?_, ?_⟩
      · rw [killAll_nil]
      · rw [killAll_nil]
        exact .cons hc hq

/-- The buffers that are used up go; the next one may be read in part. -/
theorem dequeueSkbs_eq (userlen : UInt32) : ∀ (rlen : UInt32) {q : List ℕ} {v : List Skb}
    {s : Store Skb}, q.Nodup → (∀ b ∈ q, ∃ skb, s.cells b = some (skb, 1)) → Reads s q v →
    ∃ gone left s', q = gone ++ left ∧ dequeueSkbs userlen rlen q s = some (left, s') ∧
      Reads s' left (dequeue userlen rlen v).2.1 ∧ (s' = killAll s gone ∨
        ∃ b ∈ left, ∃ x y, (killAll s gone).cells b = some (x, 1) ∧
          s' = (killAll s gone).set b (y, 1))
  | rlen, [], _, s, _, _, .nil =>
    ⟨[], [], s, rfl, by rw [dequeueSkbs], .nil, .inl killAll_nil.symm⟩
  | rlen, c :: q, skb :: v, s, hnodup, hone, .cons hc hq => by
    obtain ⟨hout, hnodup⟩ := List.nodup_cons.mp hnodup
    obtain ⟨x, hx⟩ := hone c (List.mem_cons_self ..)
    obtain rfl : skb = { x with refcnt := 1 } := Option.some.inj (hc.symm.trans (skbAt_eq hx))
    rw [dequeueSkbs, dequeue]
    by_cases hlt : rlen < userlen
    · rw [if_pos hlt, if_pos hlt, hx]
      simp only [Option.bind_eq_bind, Option.bind_some]
      generalize (if rlen + x.dlen > userlen then userlen - rlen else x.dlen) = dlen
      by_cases hz : x.dlen - dlen = 0
      · have hkeep : ∀ a ∈ q, (s.kill c).cells a = s.cells a := fun a ha =>
          cells_kill_of_ne fun heq => hout (heq ▸ ha)
        rw [if_pos hz, if_pos hz, drop_eq (cells_set_self _) le_rfl, Option.bind_some, kill_set]
        obtain ⟨gone, left, s', rfl, heq, hread, hs'⟩ :=
          dequeueSkbs_eq userlen (rlen + dlen) hnodup
            (fun a ha => hkeep a ha ▸ hone a (List.mem_cons_of_mem _ ha)) (Reads.congr hq hkeep)
        rw [killAll_cons] at hs'
        exact ⟨c :: gone, left, s', rfl, heq, hread, hs'⟩
      · rw [if_neg hz, if_neg hz]
        refine ⟨[], c :: q, _, rfl, rfl, .cons (skbAt_set s c _ 1) (Reads.congr hq fun a ha => ?_),
          .inr ?_⟩
        · exact cells_set_of_ne _ fun heq => hout (heq ▸ ha)
        · rw [killAll_nil]
          exact ⟨c, List.mem_cons_self .., x, _, hx, rfl⟩
    · rw [if_neg hlt, if_neg hlt]
      exact ⟨[], c :: q, s, rfl, rfl, .cons hc hq, .inl killAll_nil.symm⟩

theorem freeQueues_eq (hc : Counted h) :
    freeQueues h = some ⟨killAll h.store h.queues.all, ⟨[], [], []⟩⟩ := by
  have hheld : ∀ b ∈ h.queues.all, ∃ x n, h.store.cells b = some (x, n) ∧ n ≤ 1 := fun b hb =>
    hc.held hb
  have hall := dropAll_eq hc.nodup hheld
  rw [Queues.all, Queues.text, List.append_assoc, dropAll_append, Option.bind_eq_some_iff] at hall
  obtain ⟨s₁, hofo, hall⟩ := hall
  rw [dropAll_append, Option.bind_eq_some_iff] at hall
  obtain ⟨s₂, hreceive, hwrite⟩ := hall
  rw [freeQueues, hofo, Option.bind_eq_bind, Option.bind_some, hreceive, Option.bind_some, hwrite,
    Queues.all, Queues.text, List.append_assoc]
  rfl

/-! ### One act -/

/-- In `tcp_process` the buffer of the segment, `skb`, is in memory, and nobody has it. -/
structure Loose (b : ℕ) (skb : Skb) (h : Heap) : Prop where
  cell : h.store.cells b = some (skb, 0)
  outside : b ∉ h.queues.all

theorem Loose.of_leave {gone : List ℕ} {q : Queues ℕ} (hb : Loose b skb h)
    (hp : h.queues.all.Perm (gone ++ q.all)) : Loose b skb ⟨killAll h.store gone, q⟩ :=
  ⟨(cells_killAll_of_not_mem fun hin => hb.outside (hp.mem_iff.mpr (List.mem_append_left _ hin))).trans
    hb.cell, fun hin => hb.outside (hp.mem_iff.mpr (List.mem_append_right _ hin))⟩

/-- Acknowledged buffers, or all, leave the queues. -/
theorem act_leave (hc : Counted h) (hv : Shows h w) (hb : Loose b skb h) {a : Act}
    (ha : a = .freeSock ∨ ∃ una, a = .clean una) :
    ∃ h', act b h a = some h' ∧ Counted h' ∧ Accounts h h' ∧ Shows h' (onQueues skb w a) ∧
      Loose b skb h' := by
  rcases ha with rfl | ⟨una, rfl⟩
  · have hp : h.queues.all.Perm (h.queues.all ++ (⟨[], [], []⟩ : Queues ℕ).all) := by
      rw [show (⟨[], [], []⟩ : Queues ℕ).all = [] from rfl, List.append_nil]
    obtain ⟨hc', hacc⟩ := hc.leave hp (List.nil_subset _) (List.nil_subset _)
    exact ⟨_, freeQueues_eq hc, hc', hacc, ⟨.nil, .nil, .nil⟩, hb.of_leave hp⟩
  · have hwrite : h.queues.write.Nodup := (List.nodup_append.mp hc.nodup).2.1
    obtain ⟨gone, left, hq, heq, hread⟩ := cleanWrite_eq una hwrite hc.write hv.write
    have hp : h.queues.all.Perm (gone ++ ({ h.queues with write := left } : Queues ℕ).all) := by
      rw [Queues.all, hq]
      exact List.perm_append_comm_assoc _ _ _
    have hleft : left ⊆ h.queues.write := hq ▸ List.subset_append_right gone left
    obtain ⟨hc', hacc⟩ := hc.leave hp (List.Subset.refl _) hleft
    have htext : ∀ a ∈ h.queues.text, (killAll h.store gone).cells a = h.store.cells a := by
      intro a ha
      refine cells_killAll_of_not_mem fun hin => ?_
      have hwrite' : a ∈ h.queues.write := hq ▸ List.mem_append_left left hin
      exact (List.nodup_append.mp hc.nodup).2.2 a ha a hwrite' rfl
    refine ⟨_, ?_, hc', hacc, ⟨hv.ofo.congr fun a ha => ?_, hv.receive.congr fun a ha => ?_, hread⟩,
      hb.of_leave hp⟩
    · rw [act, heq]
      rfl
    · exact htext a (List.mem_append_left _ ha)
    · exact htext a (List.mem_append_right _ ha)

/-- Text is put on a queue, unless it is there already. -/
theorem act_text (hc : Counted h) (hv : Shows h w) (hb : Loose b skb h) (hskb : skb.refcnt = 0) {a : Act}
    (ha : a = .ofo ∨ ∃ rcvNxt, a = .receive rcvNxt) :
    ∃ h', act b h a = some h' ∧ Counted h' ∧ Accounts h h' ∧ Shows h' (onQueues skb w a) ∧
      (Loose b skb h' ∨ b ∈ h'.queues.text) := by
  have hne : h.store.cells b ≠ none := hb.cell ▸ Option.some_ne_none _
  have hkeep : ∀ a ∈ h.queues.all, (h.store.set b (skb, 1)).cells a = h.store.cells a :=
    fun a ha => cells_set_of_ne _ fun heq => hb.outside (heq ▸ ha)
  have hout : b ∉ h.queues.ofo := fun hin =>
    hb.outside (List.mem_append_left _ (List.mem_append_left _ hin))
  have hofo := hv.ofo.congr fun a ha => hkeep a (List.mem_append_left _ (List.mem_append_left _ ha))
  have hreceive := hv.receive.congr fun a ha =>
    hkeep a (List.mem_append_left _ (List.mem_append_right _ ha))
  have hwrite := hv.write.congr fun a ha => hkeep a (List.mem_append_right _ ha)
  have hskb' : { skb with refcnt := 0 } = skb := by rw [← hskb]
  rcases ha with rfl | ⟨rcvNxt, rfl⟩
  · rcases insertOrdered_eq hb.cell hout hv.ofo with ⟨heq, hdup⟩ | ⟨q₁, q₂, hq, heq, hread⟩
    · have hsame : onQueues skb w .ofo = w := by
        rw [hskb'] at hdup
        rw [onQueues, hdup]
      exact ⟨h, by rw [act, heq]; rfl, hc, .refl hc, hsame.symm ▸ hv, .inl hb⟩
    · have hp : (q₁ ++ b :: q₂ ++ h.queues.receive).Perm (b :: h.queues.text) := by
        rw [Queues.text, hq]
        exact List.perm_middle.append_right _
      obtain ⟨hc', hacc⟩ := hc.link skb hne hb.outside
        (q := { h.queues with ofo := q₁ ++ b :: q₂ }) hp rfl
      refine ⟨_, by rw [act, heq]; rfl, hc', hacc, ⟨hskb' ▸ hread, hreceive, hwrite⟩, .inr ?_⟩
      exact hp.mem_iff.mpr (List.mem_cons_self ..)
  · have hnew : Reads (h.store.set b (skb, 1)) [b] [{ skb with refcnt := skb.refcnt + 1 }] := by
      rw [hskb]
      exact .cons (skbAt_set _ b skb 1) .nil
    obtain ⟨moved, left, hq, heq, hleft, hmoved⟩ :=
      consumeOfo_eq rcvNxt hofo (hreceive.append hnew)
    have hp : (left ++ (h.queues.receive ++ [b] ++ moved)).Perm (b :: h.queues.text) := by
      have h₁ : (left ++ (h.queues.receive ++ [b] ++ moved)).Perm
          (b :: (left ++ (h.queues.receive ++ moved))) := by
        rw [List.append_assoc, ← List.append_assoc]
        simpa using @List.perm_middle _ b (left ++ h.queues.receive) moved
      rw [Queues.text, hq]
      refine h₁.trans (.cons b ?_)
      rw [← List.append_assoc]
      exact List.perm_append_comm.trans (List.append_assoc _ _ _ ▸ .refl _)
    obtain ⟨hc', hacc⟩ := hc.link skb hne hb.outside
      (q := ⟨left, h.queues.receive ++ [b] ++ moved, h.queues.write⟩) hp rfl
    refine ⟨_, ?_, hc', hacc, ⟨hleft, hmoved, hwrite⟩, .inr ?_⟩
    · simp only [act, hold_eq hb.cell, Option.bind_eq_bind, Option.bind_some, zero_add, heq]
    · exact hp.mem_iff.mpr (List.mem_cons_self ..)

/-- The last act: the buffer is released, unless a queue has it. -/
theorem act_free (hc : Counted h) (hv : Shows h w) (hb : Loose b skb h ∨ b ∈ h.queues.text) :
    ∃ h', act b h .free = some h' ∧ Counted h' ∧ Accounts h h' ∧ Shows h' w ∧
      (b ∈ h'.store.released ↔ b ∉ h'.queues.all) := by
  rcases hb with hb | hb
  · have hkeep : ∀ a ∈ h.queues.all, (h.store.kill b).cells a = h.store.cells a := fun a ha =>
      cells_kill_of_ne fun heq => hb.outside (heq ▸ ha)
    have hc' : Counted { h with store := h.store.kill b } := by
      refine ⟨hc.tidy.kill (hb.cell ▸ Option.some_ne_none _), hc.nodup, fun a ha => ?_, fun a ha => ?_⟩
      · exact (hkeep a (List.mem_append_left _ ha)).symm ▸ hc.text a ha
      · exact (hkeep a (List.mem_append_right _ ha)).symm ▸ hc.write a ha
    refine ⟨_, ?_, hc', ⟨List.prefix_append _ _, fun a ha => ?_, fun a ha _ => congrArg _ (hkeep a ha)⟩,
      hv.congr rfl hkeep, fun _ => hb.outside,
      fun _ => List.mem_append_right _ (List.mem_singleton_self b)⟩
    · rw [act, release_eq hb.cell (by omega)]
      rfl
    · exact ⟨fun hin => absurd hin (hc'.not_released ha), fun hn => absurd ha hn⟩
  · obtain ⟨x, hx⟩ := hc.text b hb
    have hall : b ∈ h.queues.all := List.mem_append_left _ hb
    refine ⟨h, ?_, hc, .refl hc, hv, fun hin => absurd hin (hc.not_released hall),
      fun hn => absurd hall hn⟩
    rw [act, release_held hx le_rfl]
    rfl

/-! ### The acts of `tcp_process` -/

/-- Buffers leave the queues. -/
def Leaves (a : Act) : Prop := a = .freeSock ∨ ∃ una, a = .clean una

/-- The buffer of the segment may be linked. -/
def Links (a : Act) : Prop := a = .ofo ∨ ∃ rcvNxt, a = .receive rcvNxt

/-- The order of the acts: the buffer of the segment is linked at most once, and its release is
last. -/
inductive Shape : List Act → Prop
  | free : Shape [.free]
  | text {a : Act} (ha : Links a) : Shape [a, .free]
  | leave {a : Act} {as : List Act} (ha : Leaves a) (h : Shape as) : Shape (a :: as)

theorem Shape.run {as : List Act} (hs : Shape as) (hskb : skb.refcnt = 0) :
    ∀ {h : Heap} {w : Queues Skb}, Counted h → Shows h w → Loose b skb h →
    ∃ h', as.foldlM (act b) h = some h' ∧ Counted h' ∧ Accounts h h' ∧
      Shows h' (as.foldl (onQueues skb) w) ∧ (b ∈ h'.store.released ↔ b ∉ h'.queues.all) := by
  induction hs with
  | free =>
    intro h w hc hv hb
    obtain ⟨h', heq, hend⟩ := act_free hc hv (.inl hb)
    exact ⟨h', by rw [List.foldlM_cons, heq]; rfl, hend⟩
  | text ha =>
    intro h w hc hv hb
    obtain ⟨h₁, heq₁, hc₁, hacc₁, hv₁, hb₁⟩ := act_text hc hv hb hskb ha
    obtain ⟨h', heq, hc', hacc, hend⟩ := act_free hc₁ hv₁ hb₁
    refine ⟨h', ?_, hc', hacc₁.trans hc' hacc, hend⟩
    rw [List.foldlM_cons, heq₁, Option.bind_eq_bind, Option.bind_some, List.foldlM_cons, heq]
    rfl
  | leave ha _ ih =>
    intro h w hc hv hb
    obtain ⟨h₁, heq₁, hc₁, hacc₁, hv₁, hb₁⟩ := act_leave hc hv hb ha
    obtain ⟨h', heq, hc', hacc, hend⟩ := ih hc₁ hv₁ hb₁
    refine ⟨h', ?_, hc', hacc₁.trans hc' hacc, hend⟩
    rw [List.foldlM_cons, heq₁, Option.bind_eq_bind, Option.bind_some, heq]

theorem Shape.not_zeroWindow {as : List Act} (hs : Shape as) : .zeroWindow ∉ as := by
  induction hs with
  | free => simp
  | text ha => rcases ha with rfl | ⟨r, rfl⟩ <;> simp
  | leave ha _ ih => rcases ha with rfl | ⟨una, rfl⟩ <;> simpa using ih

variable {sk sk' : TcpSock} {th : TcpHdr} {seg : Seg}

theorem synCheck_cases (sk : TcpSock) :
    (sk.state = .synReceived ∧ sk.parent ≠ none) ∧
      synCheck sk = tcpFreeSock { tcpSendReset sk with link := none } ∨
    ¬ (sk.state = .synReceived ∧ sk.parent ≠ none) ∧ synCheck sk = tcpSendReset sk := by
  by_cases h : (tcpSendReset sk).state = .synReceived ∧ (tcpSendReset sk).parent ≠ none
  · exact .inl ⟨h, if_pos h⟩
  · exact .inr ⟨h, if_neg h⟩

theorem rcvWnd_synCheck (sk : TcpSock) : (synCheck sk).rcvWnd = sk.rcvWnd := by
  rcases synCheck_cases sk with ⟨-, h⟩ | ⟨-, h⟩ <;> rw [h] <;> rfl

theorem rcvWnd_takeAck (sk : TcpSock) (th : TcpHdr) : (takeAck sk th).rcvWnd = sk.rcvWnd := by
  by_cases h : sk.sndUna < th.ackSeq ∧ th.ackSeq ≤ sk.sndNxt
  · obtain ⟨timers, retransmit, heq⟩ := takeAck_of_taken h
    rw [heq]
  · rw [takeAck_of_not_taken h]

/-- Step 5 of `tcp_process` for a sock in `SYN_RECEIVED`: the reset, nothing, or the sock is
accepted. -/
theorem ackCheck_synReceived {c : Bool} (hst : sk.state = .synReceived)
    (h : ackCheck sk th = .ok (sk', c)) : sk' = tcpSendReset sk ∨ sk' = sk ∨
      sk' = tcpSetState { sk with accepted := true, sndUna := th.ackSeq } .established := by
  unfold ackCheck at h
  rw [hst] at h
  simp only at h
  split_ifs at h
  · split at h
    · simp at h
    · exact .inr (.inr (Prod.mk.inj (Except.ok.inj h)).1.symm)
    · exact .inr (.inl (Prod.mk.inj (Except.ok.inj h)).1.symm)
  · exact .inl (Prod.mk.inj (Except.ok.inj h)).1.symm

/-- In the other states the acknowledgement is taken, or nothing happens. -/
theorem ackCheck_of_ne {c : Bool} (hst : sk.state ≠ .synReceived) (h : ackCheck sk th = .ok (sk', c)) :
    Synchronized sk.state ∧ sk' = takeAck sk th ∨ ackActs sk th = [] ∧ sk' = sk := by
  by_cases hsync : Synchronized sk.state
  · rw [ackCheck_eq hsync] at h
    exact .inl ⟨hsync, (Prod.mk.inj (Except.ok.inj h)).1.symm⟩
  · right
    unfold ackCheck at h
    unfold ackActs
    cases hs : sk.state <;> rw [hs] at h hst hsync <;>
      first
        | exact absurd rfl hst
        | exact absurd trivial hsync
        | exact ⟨rfl, (Prod.mk.inj (Except.ok.inj h)).1.symm⟩

theorem ackActs_of_synchronized (hst : Synchronized sk.state) : ackActs sk th =
    if sk.sndUna < th.ackSeq ∧ th.ackSeq ≤ sk.sndNxt then [.clean th.ackSeq] else [] := by
  unfold ackActs
  cases hs : sk.state <;> rw [hs] at hst <;> first | rfl | exact hst.elim

theorem rcvWnd_ackCheck {c : Bool} (h : ackCheck sk th = .ok (sk', c)) : sk'.rcvWnd = sk.rcvWnd := by
  by_cases hst : sk.state = .synReceived
  · rcases ackCheck_synReceived hst h with rfl | rfl | rfl <;> rfl
  · rcases ackCheck_of_ne hst h with ⟨-, rfl⟩ | ⟨-, rfl⟩
    · exact rcvWnd_takeAck sk th
    · rfl

theorem leaves_ackActs : ∀ a ∈ ackActs sk th, Leaves a := by
  unfold ackActs
  split
  case h_7 => simp
  all_goals
    split_ifs
    · simp [Leaves]
    · simp

theorem leaves_synActs : ∀ a ∈ synActs sk, Leaves a := by
  unfold synActs
  split_ifs
  · simp [Leaves]
  · simp

theorem Shape.append {as : List Act} (h : Shape as) : ∀ {pre : List Act}, (∀ a ∈ pre, Leaves a) →
    Shape (pre ++ as)
  | [], _ => h
  | a :: _, hpre => .leave (hpre a (List.mem_cons_self ..))
      (h.append fun b hb => hpre b (List.mem_cons_of_mem _ hb))

/-- Text that has passed the window filter does not find the window closed. -/
theorem shape_segmentText (hw : skb.dlen > 0 → sk.rcvWnd ≠ 0) :
    Shape (segmentTextActs sk skb ++ [.free]) := by
  unfold segmentTextActs
  split
  case h_4 => exact .free
  all_goals
    split_ifs with hlen
    · unfold dataQueueActs
      rw [if_neg (hw hlen)]
      split_ifs
      · exact .text (.inr ⟨_, rfl⟩)
      · exact .text (.inl rfl)
    · exact .free

theorem rcvWnd_ne_of_filter (hf : tcpPacketFilter sk th skb = true) (hlen : skb.dlen > 0) :
    sk.rcvWnd ≠ 0 := by
  intro hw
  simp [tcpPacketFilter, hlen, hw] at hf

/-- Behind the window filter, if no `NULL` parent is read. -/
theorem shape_inWindow (hf : tcpPacketFilter sk th skb = true) :
    Shape (inWindowActs sk th skb) ∨ (∃ f, processInWindow sk th skb = .error f) ∧
      ∀ a ∈ inWindowActs sk th skb, Leaves a := by
  have hsyn : ∀ a ∈ (if th.syn then synActs sk else []), Leaves a := by
    split_ifs
    · exact leaves_synActs
    · simp
  have hwnd : (if th.syn then synCheck sk else sk).rcvWnd = sk.rcvWnd := by
    split_ifs
    · exact rcvWnd_synCheck sk
    · rfl
  unfold inWindowActs processInWindow
  simp only
  generalize (if th.syn then synActs sk else []) = syn at hsyn ⊢
  generalize (if th.syn then synCheck sk else sk) = sk₁ at hwnd ⊢
  by_cases hack : (!th.ack) = true
  · rw [if_pos hack]
    exact .inl (Shape.free.append hsyn)
  rw [if_neg hack, if_neg hack]
  cases hrun : ackCheck sk₁ th with
  | error f =>
    refine .inr ⟨?_, hsyn⟩
    split_ifs
    · exact ⟨_, rfl⟩
    · exact ⟨f, rfl⟩
  | ok r =>
    obtain ⟨sk₂, c⟩ := r
    left
    cases c with
    | false => exact (Shape.free.append leaves_ackActs).append hsyn
    | true =>
      refine ((shape_segmentText fun hlen => ?_).append leaves_ackActs).append hsyn
      rw [rcvWnd_ackCheck hrun, hwnd]
      exact rcvWnd_ne_of_filter hf hlen

theorem shape_synsent (sk : TcpSock) (th : TcpHdr) : Shape (synsentActs sk th) := by
  unfold synsentActs
  split_ifs <;> first | exact .free | exact .leave (.inr ⟨_, rfl⟩) .free

/-- **The buffer of a segment is linked at most once and then released**, unless a `NULL` parent is
read; the branch of `tcp_data_queue` that releases it twice is never taken. -/
theorem shape_processActs (sk : TcpSock) (seg : Seg) : Shape (processActs sk seg) ∨
    (∃ f, tcpProcess sk seg = .error f) ∧ ∀ a ∈ processActs sk seg, Leaves a := by
  unfold processActs tcpProcess
  cases hst : sk.state
  case close | listen => exact .inl .free
  case synSent => exact .inl (shape_synsent sk seg.th)
  all_goals
    simp only
    by_cases hf : tcpPacketFilter sk seg.th (tcpInitSegment seg) = true
    · rw [if_pos hf, if_pos hf]
      exact shape_inWindow hf
    · rw [if_neg hf]
      exact .inl .free

theorem not_zeroWindow_processActs (sk : TcpSock) (seg : Seg) : .zeroWindow ∉ processActs sk seg := by
  rcases shape_processActs sk seg with h | ⟨-, h⟩
  · exact h.not_zeroWindow
  · intro hin
    rcases h _ hin with heq | ⟨una, heq⟩ <;> cases heq

theorem freeSock_not_mem_ackActs : .freeSock ∉ ackActs sk th := by
  unfold ackActs
  split
  case h_7 => simp
  all_goals split_ifs <;> simp

theorem freeSock_not_mem_segmentText : .freeSock ∉ segmentTextActs sk skb := by
  unfold segmentTextActs dataQueueActs
  split
  case h_4 => simp
  all_goals split_ifs <;> simp

/-- Behind the SYN check of a child there is nothing to do. -/
theorem freeSock_inWindow (hin : .freeSock ∈ inWindowActs sk th skb) :
    inWindowActs sk th skb = [.freeSock, .free] := by
  by_cases hchild : th.syn = true ∧ (sk.state = .synReceived ∧ sk.parent ≠ none)
  · have hcheck : synCheck sk = tcpFreeSock { tcpSendReset sk with link := none } := by
      rcases synCheck_cases sk with ⟨-, h⟩ | ⟨h, -⟩
      · exact h
      · exact absurd hchild.2 h
    unfold inWindowActs
    simp only [if_pos hchild.1, synActs, if_pos hchild.2, hcheck]
    split_ifs <;> rfl
  · have hsyn : (if th.syn then synActs sk else []) = [] := by
      unfold synActs
      split_ifs with h₁ h₂
      · exact absurd ⟨h₁, h₂⟩ hchild
      · rfl
      · rfl
    unfold inWindowActs at hin
    simp only [hsyn, List.nil_append] at hin
    generalize (if th.syn then synCheck sk else sk) = sk₁ at hin
    split_ifs at hin
    · simp at hin
    · split at hin
      · simp at hin
      · simp [freeSock_not_mem_ackActs] at hin
      · simp [freeSock_not_mem_ackActs, freeSock_not_mem_segmentText] at hin

/-- A sock that is freed takes no text. -/
theorem freeSock_processActs (hin : .freeSock ∈ processActs sk seg) :
    ∀ a ∈ processActs sk seg, ¬ Links a := by
  have hfreed : ∀ a ∈ [Act.freeSock, .free], ¬ Links a := by simp [Links]
  have hfree : .freeSock ∉ [Act.free] := by simp
  unfold processActs at hin ⊢
  cases hst : sk.state <;> rw [hst] at hin <;> simp only at hin ⊢
  case close | listen => exact absurd hin hfree
  case synSent =>
    unfold synsentActs at hin
    split_ifs at hin <;> simp at hin
  all_goals
    split_ifs at hin ⊢
    · exact freeSock_inWindow hin ▸ hfreed
    · exact absurd hin hfree

/-! ### The acts by contents -/

@[simp] theorem queuesOf_tcpSendAck (sk : TcpSock) : queuesOf (tcpSendAck sk) = queuesOf sk := by
  rw [tcpSendAck_eq]
  rfl

theorem queuesOf_tcpSendSynack (sk : TcpSock) : queuesOf (tcpSendSynack sk) = queuesOf sk := by
  unfold tcpSendSynack
  split_ifs <;> rfl

theorem queuesOf_clean (skb : Skb) (sk : TcpSock) (una : UInt32) :
    queuesOf (tcpCleanRetransmissionQueue sk una) = onQueues skb (queuesOf sk) (.clean una) := by
  obtain ⟨timers, retransmit, heq⟩ := tcpCleanRetransmissionQueue_eq sk una
  rw [heq]
  rfl

theorem queuesOf_tcpAckData (sk : TcpSock) (th : TcpHdr) (skb : Skb) :
    queuesOf (tcpAckData sk th skb) = queuesOf sk := by
  unfold tcpAckData
  split_ifs
  · rw [queuesOf_tcpSendAck]
    rfl
  · rfl

theorem queuesOf_tcpDataQueue (sk : TcpSock) (th : TcpHdr) (skb : Skb) :
    queuesOf (tcpDataQueue sk th skb) = (dataQueueActs sk skb).foldl (onQueues skb) (queuesOf sk) := by
  unfold tcpDataQueue dataQueueActs
  split_ifs
  · rfl
  · exact queuesOf_tcpAckData _ th skb
  · exact queuesOf_tcpSendAck _

theorem queuesOf_segmentText (sk : TcpSock) (th : TcpHdr) (skb : Skb) :
    queuesOf (segmentText sk th skb) =
      (segmentTextActs sk skb).foldl (onQueues skb) (queuesOf sk) := by
  unfold segmentText segmentTextActs
  cases sk.state
  case established | finWait1 | finWait2 =>
    simp only
    split_ifs
    · exact queuesOf_tcpDataQueue sk th skb
    · rfl
  all_goals rfl

theorem queuesOf_finCheck (sk : TcpSock) (th : TcpHdr) (skb : Skb) :
    queuesOf (finCheck sk th skb) = queuesOf sk := by
  by_cases hfin : th.fin = true ∧ sk.rcvNxt - skb.dlen = skb.seq
  · have htake : queuesOf (takeFin sk) = queuesOf sk := queuesOf_tcpSendAck _
    rw [finCheck_of_fin hfin.1 hfin.2, ← htake]
    unfold afterFin
    split_ifs
    · exact htake.symm
    · split <;> rfl
  · unfold finCheck
    rw [if_neg hfin]

theorem queuesOf_synCheck (sk : TcpSock) :
    queuesOf (synCheck sk) = (synActs sk).foldl (onQueues skb) (queuesOf sk) := by
  unfold synActs
  rcases synCheck_cases sk with ⟨hst, h⟩ | ⟨hst, h⟩
  · rw [h, if_pos hst]
    rfl
  · rw [h, if_neg hst]
    rfl

theorem queuesOf_ackCheck (skb : Skb) {c : Bool} (h : ackCheck sk th = .ok (sk', c)) :
    queuesOf sk' = (ackActs sk th).foldl (onQueues skb) (queuesOf sk) := by
  by_cases hst : sk.state = .synReceived
  · have hacts : ackActs sk th = [] := by rw [ackActs, hst]
    rw [hacts]
    rcases ackCheck_synReceived hst h with rfl | rfl | rfl <;> rfl
  · rcases ackCheck_of_ne hst h with ⟨hsync, rfl⟩ | ⟨hacts, rfl⟩
    · rw [ackActs_of_synchronized hsync, takeAck]
      split_ifs
      · exact queuesOf_clean skb { sk with sndUna := th.ackSeq } th.ackSeq
      · rfl
    · rw [hacts]
      rfl

theorem queuesOf_inWindow (h : processInWindow sk th skb = .ok sk') :
    queuesOf sk' = (inWindowActs sk th skb).foldl (onQueues skb) (queuesOf sk) := by
  have hsyn : queuesOf (if th.syn then synCheck sk else sk) =
      (if th.syn then synActs sk else []).foldl (onQueues skb) (queuesOf sk) := by
    split_ifs
    · exact queuesOf_synCheck sk
    · rfl
  unfold processInWindow at h
  unfold inWindowActs
  simp only at h ⊢
  generalize (if th.syn then synActs sk else []) = syn at hsyn ⊢
  generalize (if th.syn then synCheck sk else sk) = sk₁ at hsyn h ⊢
  by_cases hack : (!th.ack) = true
  · rw [if_pos hack] at h ⊢
    obtain rfl := Except.ok.inj h
    rw [hsyn, List.foldl_append]
    rfl
  rw [if_neg hack] at h ⊢
  split_ifs at h
  cases hrun : ackCheck sk₁ th with
  | error f =>
    rw [hrun] at h
    simp at h
  | ok r =>
    obtain ⟨sk₂, c⟩ := r
    have htaken := queuesOf_ackCheck skb hrun
    rw [hrun] at h
    cases c with
    | false =>
      obtain rfl := Except.ok.inj h
      rw [htaken, hsyn]
      simp only [List.foldl_append]
      rfl
    | true =>
      obtain rfl := Except.ok.inj h
      rw [queuesOf_finCheck, queuesOf_segmentText, htaken, hsyn]
      simp only [List.foldl_append]
      rfl

theorem queuesOf_synsent (sk : TcpSock) (th : TcpHdr) :
    queuesOf (tcpSynsent sk th) = (synsentActs sk th).foldl (onQueues skb) (queuesOf sk) := by
  unfold tcpSynsent synsentActs
  by_cases hok : (th.ack && !synsentAckOk sk th) = true
  · rw [if_pos hok, if_pos hok]
    rfl
  rw [if_neg hok, if_neg hok]
  by_cases hrst : th.rst = true
  · rw [if_pos hrst, if_pos hrst]
    rfl
  rw [if_neg hrst, if_neg hrst]
  by_cases hsyn : (!th.syn) = true
  · rw [if_pos hsyn, if_pos hsyn]
    rfl
  rw [if_neg hsyn, if_neg hsyn]
  have hack : queuesOf (if th.ack then tcpCleanRetransmissionQueue
      { synAnswered sk th with sndUna := th.ackSeq } th.ackSeq else synAnswered sk th) =
      (if th.ack then [.clean th.ackSeq, .free] else [.free] : List Act).foldl (onQueues skb)
        (queuesOf sk) := by
    split_ifs
    · exact queuesOf_clean skb { synAnswered sk th with sndUna := th.ackSeq } th.ackSeq
    · rfl
  rw [← hack]
  unfold synAnswered
  simp only
  -- what is sent afterwards leaves the queues alone
  split_ifs
  all_goals
    first
      | exact queuesOf_tcpSendAck _
      | exact queuesOf_tcpSendSynack _

/-- **The acts, on the contents of the queues, are what `tcp_process` does.** -/
theorem queuesOf_tcpProcess (h : tcpProcess sk seg = .ok sk') :
    queuesOf sk' = (processActs sk seg).foldl (onQueues (tcpInitSegment seg)) (queuesOf sk) := by
  unfold tcpProcess at h
  unfold processActs
  cases hst : sk.state <;> rw [hst] at h <;> simp only at h ⊢
  case close =>
    obtain rfl := Except.ok.inj h
    unfold tcpClosed
    split_ifs <;> rfl
  case listen =>
    obtain rfl := Except.ok.inj h
    rcases tcpHandleListen_cases sk seg 0 with heq | heq | ⟨-, heq, -⟩ <;> rw [heq] <;> rfl
  case synSent =>
    obtain rfl := Except.ok.inj h
    exact queuesOf_synsent sk seg.th
  all_goals
    split_ifs at h ⊢
    · exact queuesOf_inWindow h
    · exact Except.ok.inj h ▸ rfl
    · exact Except.ok.inj h ▸ queuesOf_tcpSendAck sk

/-! ### One event -/

theorem Counted.loose_alloc (hc : Counted h) (skb : Skb) :
    Loose h.store.fresh skb { h with store := h.store.alloc skb } :=
  ⟨cells_alloc_self skb, fun hin => absurd (hc.tidy.lt (hc.cell hin)) (lt_irrefl _)⟩

theorem Shows.alloc (hc : Counted h) (hv : Shows h w) (skb : Skb) :
    Shows { h with store := h.store.alloc skb } w :=
  hv.congr rfl fun _ hb => cells_alloc_of_ne skb (hc.tidy.lt (hc.cell hb)).ne

/-- A segment. -/
theorem next_segment (hc : Counted h) (hv : Shows h (queuesOf sk)) (hsk : tcpProcess sk seg = .ok sk') :
    ∃ h', nextHeap sk h (.segment seg) = some h' ∧ Counted h' ∧ Accounts h h' ∧
      Shows h' (queuesOf sk') ∧ (h.store.fresh ∈ h'.store.released ↔ h.store.fresh ∉ h'.queues.all) := by
  have hshape : Shape (processActs sk seg) := by
    refine (shape_processActs sk seg).resolve_right ?_
    rintro ⟨⟨f, hf⟩, -⟩
    rw [hsk] at hf
    cases hf
  obtain ⟨hc₁, hacc₁⟩ := hc.alloc (tcpInitSegment seg)
  obtain ⟨h', heq, hc', hacc, hv', hown⟩ :=
    hshape.run rfl hc₁ (hv.alloc hc _) (hc.loose_alloc (tcpInitSegment seg))
  rw [← queuesOf_tcpProcess hsk] at hv'
  exact ⟨h', heq, hc', hacc₁.trans hc' hacc, hv', hown⟩

theorem next_dequeue (hc : Counted h) (hv : Shows h (queuesOf sk)) (userlen : UInt32) :
    ∃ h', nextHeap sk h (.dequeue userlen) = some h' ∧ Counted h' ∧ Accounts h h' ∧
      Shows h' (queuesOf (tcpDataDequeue sk userlen).1) := by
  obtain ⟨htext, hwrite, hdisj⟩ := List.nodup_append.mp hc.nodup
  obtain ⟨-, hreceive, hdisj'⟩ := List.nodup_append.mp htext
  obtain ⟨gone, left, s', hq, heq, hread, hs'⟩ := dequeueSkbs_eq userlen 0
    hreceive (fun b hb => hc.text b (List.mem_append_right _ hb)) hv.receive
  have hp : h.queues.all.Perm (gone ++ ({ h.queues with receive := left } : Queues ℕ).all) := by
    rw [Queues.all, Queues.text, hq, Queues.all, ← List.append_assoc gone]
    exact (List.perm_append_comm_assoc _ _ _).append_right _
  have hleft : ({ h.queues with receive := left } : Queues ℕ).text ⊆ h.queues.text := by
    rw [Queues.text, Queues.text, hq]
    exact List.append_subset.mpr ⟨List.subset_append_left _ _,
      List.Subset.trans (List.subset_append_right _ _) (List.subset_append_right _ _)⟩
  obtain ⟨hc₁, hacc₁⟩ := hc.leave hp hleft (List.Subset.refl _)
  have hframe : ∀ a ∉ h.queues.receive, s'.cells a = h.store.cells a := by
    intro a ha
    rw [hq, List.mem_append, not_or] at ha
    have hkill := cells_killAll_of_not_mem (s := h.store) ha.1
    rcases hs' with rfl | ⟨b, hb, x, y, -, rfl⟩
    · exact hkill
    · have hne : a ≠ b := by
        rintro rfl
        exact ha.2 hb
      exact (cells_set_of_ne _ hne).trans hkill
  have hshows : Shows ⟨s', { h.queues with receive := left }⟩ (queuesOf (tcpDataDequeue sk userlen).1) :=
    ⟨hv.ofo.congr fun a ha => hframe a fun hin => hdisj' a ha a hin rfl, hread,
      hv.write.congr fun a ha => hframe a fun hin =>
        hdisj a (List.mem_append_right _ hin) a ha rfl⟩
  refine ⟨⟨s', { h.queues with receive := left }⟩, ?_, ?_⟩
  · rw [nextHeap, heq]
    rfl
  · rcases hs' with rfl | ⟨b, -, x, y, hx, rfl⟩
    · exact ⟨hc₁, hacc₁, hshows⟩
    · obtain ⟨hc', hacc⟩ := hc₁.set (y := y) hx
      exact ⟨hc', hacc₁.trans hc' hacc, hshows⟩

theorem next_transmit (hc : Counted h) (hv : Shows h (queuesOf sk)) (skb : Skb) :
    ∃ h', nextHeap sk h (.transmit skb) = some h' ∧ Counted h' ∧ Accounts h h' ∧
      Shows h' (queuesOf { sk with writeQueue := sk.writeQueue ++ [{ skb with refcnt := 0 }] }) := by
  obtain ⟨hc₁, hacc₁⟩ := hc.alloc skb
  have hv₁ := hv.alloc hc skb
  have hb := hc.loose_alloc skb
  have hall : (⟨h.queues.ofo, h.queues.receive, h.queues.write ++ [h.store.fresh]⟩ : Queues ℕ).all =
      h.queues.all ++ [h.store.fresh] := (List.append_assoc ..).symm
  have hc' : Counted ⟨h.store.alloc skb, ⟨h.queues.ofo, h.queues.receive,
      h.queues.write ++ [h.store.fresh]⟩⟩ := by
    refine ⟨hc₁.tidy, ?_, hc₁.text, fun b hin => ?_⟩
    · rw [hall]
      exact hc.nodup.append (List.nodup_singleton _) (List.disjoint_singleton.mpr hb.outside)
    · rcases List.mem_append.mp hin with hin | hin
      · exact hc₁.write b hin
      · rw [List.mem_singleton.mp hin]
        exact ⟨skb, hb.cell⟩
  refine ⟨_, rfl, hc', ⟨List.prefix_rfl, fun b hin => ?_, fun b hin _ => hacc₁.count b hin hin⟩,
    hv₁.ofo, hv₁.receive, hv₁.write.append (.cons (skbAt_eq hb.cell) .nil)⟩
  have hin' : b ∈ h.queues.all ++ [h.store.fresh] := List.mem_append_left _ hin
  rw [hall]
  exact ⟨fun hrel => absurd hrel (hc.not_released hin), fun hn => absurd hin' hn⟩

theorem next_resend (hc : Counted h) (hv : Shows h (queuesOf sk)) (skb : Skb)
    (hsk : nextSock sk (.resend skb) = some sk') :
    ∃ h', nextHeap sk h (.resend skb) = some h' ∧ Counted h' ∧ Accounts h h' ∧
      Shows h' (queuesOf sk') := by
  have hwrite : Reads h.store h.queues.write sk.writeQueue := hv.write
  obtain rfl := Option.some.inj hsk
  rw [nextHeap]
  cases hq : h.queues.write <;> cases hw : sk.writeQueue <;> rw [hq, hw] at hwrite
  case nil.nil =>
    refine ⟨h, rfl, hc, .refl hc, ⟨hv.ofo, hv.receive, ?_⟩⟩
    rw [hq]
    exact .nil
  case nil.cons | cons.nil => cases hwrite
  case cons.cons b q old rest =>
    obtain ⟨hold, hrest⟩ := List.forall₂_cons.mp hwrite
    have hb : b ∈ h.queues.write := hq ▸ List.mem_cons_self ..
    obtain ⟨x, hx⟩ := hc.write b hb
    obtain rfl := Option.some.inj ((skbAt_eq hx).symm.trans hold)
    obtain ⟨hc', hacc⟩ := hc.set (y := skb) hx
    obtain ⟨-, hnodup, hdisj⟩ := List.nodup_append.mp hc.nodup
    have hframe : ∀ a, a ∈ h.queues.text ∨ a ∈ q →
        (h.store.set b (skb, 0)).cells a = h.store.cells a := by
      intro a ha
      refine cells_set_of_ne _ ?_
      rintro rfl
      rcases ha with ha | ha
      · exact hdisj a ha a hb rfl
      · rw [hq] at hnodup
        exact (List.nodup_cons.mp hnodup).1 ha
    refine ⟨_, ?_, hc', hacc, ⟨?_, ?_, ?_⟩⟩
    · simp only [hx, Option.bind_eq_bind, Option.bind_some]
    · exact hv.ofo.congr fun a ha => hframe a (.inl (List.mem_append_left _ ha))
    · exact hv.receive.congr fun a ha => hframe a (.inl (List.mem_append_right _ ha))
    · rw [hq]
      exact .cons (skbAt_set _ b skb 0) (Reads.congr hrest fun a ha => hframe a (.inr ha))

/-- **One event.** -/
theorem next_exact (hc : Counted h) (hv : Shows h (queuesOf sk)) {e : Event}
    (hsk : nextSock sk e = some sk') : ∃ h', nextHeap sk h e = some h' ∧ Counted h' ∧
      Shows h' (queuesOf sk') ∧ Exact ⟨sk, h⟩ e ⟨sk', h'⟩ := by
  cases e with
  | segment seg =>
    have hrun : tcpProcess sk seg = .ok sk' := by
      rw [nextSock] at hsk
      split at hsk
      · cases hsk
      · rename_i heq
        exact heq.trans (congrArg _ (Option.some.inj hsk))
    obtain ⟨h', heq, hc', hacc, hv', hown⟩ := next_segment hc hv hrun
    exact ⟨h', heq, hc', hv', hacc, fun _ _ => hown⟩
  | dequeue userlen =>
    obtain ⟨h', heq, hc', hacc, hv'⟩ := next_dequeue hc hv userlen
    exact ⟨h', heq, hc', Option.some.inj hsk ▸ hv', hacc, fun _ h => by cases h⟩
  | free =>
    have hp : h.queues.all.Perm (h.queues.all ++ (⟨[], [], []⟩ : Queues ℕ).all) := by
      rw [show (⟨[], [], []⟩ : Queues ℕ).all = [] from rfl, List.append_nil]
    obtain ⟨hc', hacc⟩ := hc.leave hp (List.nil_subset _) (List.nil_subset _)
    exact ⟨_, freeQueues_eq hc, hc', Option.some.inj hsk ▸ ⟨.nil, .nil, .nil⟩, hacc,
      fun _ h => by cases h⟩
  | transmit skb =>
    obtain ⟨h', heq, hc', hacc, hv'⟩ := next_transmit hc hv skb
    exact ⟨h', heq, hc', Option.some.inj hsk ▸ hv', hacc, fun _ h => by cases h⟩
  | resend skb =>
    obtain ⟨h', heq, hc', hacc, hv'⟩ := next_resend hc hv skb hsk
    exact ⟨h', heq, hc', hv', hacc, fun _ h => by cases h⟩
  | fields sk₁ => exact ⟨h, rfl, hc, Option.some.inj hsk ▸ hv, .refl hc, fun _ h => by cases h⟩

theorem step_some {s s' : State} {e : Event} (h : step s e = some s') :
    nextSock s.sk e = some s'.sk ∧ nextHeap s.sk s.heap e = some s'.heap := by
  unfold step at h
  split_ifs at h
  simp only [Option.bind_eq_bind, Option.bind_eq_some_iff] at h
  obtain ⟨sk, hsk, heap, hheap, heq⟩ := h
  obtain rfl := Option.some.inj heq
  exact ⟨hsk, hheap⟩

/-- **The counts of the buffers of a sock are exact.** From a sock without buffers on, in every run:
in every state the counts are right and each buffer is on one queue; every event accounts for the
buffers that leave the queues; and no event fails because of a buffer. The branch of
`tcp_data_queue` that releases a buffer before `tcp_process` does is never taken. -/
theorem refcounts_exact (sk : TcpSock) (es : List Event) :
    Always step (fun s => Counted s.heap ∧ Shows s.heap (queuesOf s.sk)) (start sk) es ∧
    Along step (fun s e => (∀ s', step s e = some s' → Exact s e s') ∧
      (s.sk.freed = false → nextSock s.sk e ≠ none → step s e ≠ none)) (start sk) es ∧
    ∀ sk seg, .zeroWindow ∉ processActs sk seg := by
  have hstart : Counted (start sk).heap ∧ Shows (start sk).heap (queuesOf (start sk).sk) :=
    ⟨⟨tidy_empty, List.nodup_nil, fun _ hb => (by cases hb), fun _ hb => (by cases hb)⟩,
      ⟨.nil, .nil, .nil⟩⟩
  have hstep : ∀ s e s', Counted s.heap ∧ Shows s.heap (queuesOf s.sk) → step s e = some s' →
      (Counted s'.heap ∧ Shows s'.heap (queuesOf s'.sk)) ∧ Exact s e s' := by
    rintro s e s' ⟨hc, hv⟩ h
    obtain ⟨hsk, hheap⟩ := step_some h
    obtain ⟨h', heq, hc', hv', hexact⟩ := next_exact hc hv hsk
    obtain rfl := Option.some.inj (heq.symm.trans hheap)
    exact ⟨⟨hc', hv'⟩, hexact⟩
  refine ⟨always_inv (C := fun _ _ => True) (fun s e s' hs _ h => (hstep s e s' hs h).1) hstart
    (Along.of_forall fun _ _ _ => trivial), along_inv (fun s e s' hs h => (hstep s e s' hs h).1)
    (fun s e hs => ⟨fun s' h => (hstep s e s' hs h).2, fun hf hn => ?_⟩) hstart,
    not_zeroWindow_processActs⟩
  obtain ⟨sk', hsk⟩ := Option.ne_none_iff_exists'.mp hn
  obtain ⟨h', heq, -⟩ := next_exact hs.1 hs.2 hsk
  unfold step
  rw [hf, hsk, heq]
  exact Option.some_ne_none _

end ToyIP.Tcp.Buffers
