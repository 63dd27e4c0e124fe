import ToyIP.Lib.CircularList
import ToyIP.Stack.Ipc

/-! # The table of IPC connections

`start_ipc_listener` accepts connections, makes an entry for each in the list `connections`, and
starts a thread that reads requests until the connection ends; then `ipc_free_thread` looks for the
entry by the descriptor, takes it out and closes the descriptor.

A handler that fails, which is when the data of a long request cannot be read, ends the thread as
well, but this exit closes the descriptor only. `connections_exact` says that the table follows the
open connections as long as no handler fails. -/

namespace ToyIP.Stack.Connections

open ToyIP.Lib.CircularList ToyIP.Lib.Run
open ToyIP.Stack.Ipc (ipcBuflen ipcWriteType ipcSendtoType)

/-- The nodes of the list: its head `connections` and the member `list` of each `struct ipc_thread`. -/
inductive Node
  | connections
  | thread (k : ℕ)
  deriving DecidableEq, Repr

/-- Connections are numbered as they are accepted, `fresh` is the next one, and `threads` has the
member `sock` of their entries, as long as these are in memory. `fds` is the table of descriptors of
the system: the connection behind each open one. `serving` are the threads in the loop of
`socket_ipc_open`, with their `sockfd`, and `freeing` is the one that holds the lock in
`ipc_free_thread`. The last fields record each run of `ipc_free_thread`, by the connection that has
ended and the entry that was found, and what each `close` has met. -/
structure State where
  links : Links Node
  threads : ℕ → Option ℤ
  connCount : ℤ
  fresh : ℕ
  fds : ℤ → Option ℕ
  serving : ℕ → Option ℤ
  freeing : Option (ℕ × ℤ)
  removed : List (ℕ × Option ℕ)
  closed : List (Option ℕ)

def init : State where
  links := fun a => if a = .connections then some ⟨some .connections, some .connections⟩ else none
  threads := fun _ => none
  connCount := 0
  fresh := 0
  fds := fun _ => none
  serving := fun _ => none
  freeing := none
  removed := []
  closed := []

/-! ### The code -/

/-- The type of a request and the length of its data, for the requests that have some. -/
structure Request where
  type : ℕ
  len : UInt64
  deriving DecidableEq, Repr

/-- What `ipc_write` and `ipc_sendto` return, where `res` is what `read` returns for the part of the
data that has not come with the request. `ipc_write_rc` returns 0. -/
def ipcGuarded (len : UInt64) (res : ℤ) : ℤ := if ipcBuflen < len.toNat ∧ res = -1 then -1 else 0

/-- What `demux_ipc_socket_call` returns. The other handlers return 0, and so does an unknown type. -/
def demuxIpcSocketCall (req : Request) (res : ℤ) : ℤ :=
  if req.type = ipcWriteType ∨ req.type = ipcSendtoType then ipcGuarded req.len res else 0

def State.setThread (s : State) (k : ℕ) (sock : Option ℤ) : State :=
  { s with threads := fun j => if j = k then sock else s.threads j }

/-- `close`. -/
def State.close (s : State) (fd : ℤ) : State :=
  { s with fds := fun d => if d = fd then none else s.fds d, closed := s.fds fd :: s.closed }

def ipcConnectionsEnqueue (k : ℕ) (s : State) : Option State := do
  let links ← listAddTail s.links (.thread k) .connections
  some { s with links := links, connCount := s.connCount + 1 }

def ipcAllocThread (sock : ℤ) (s : State) : Option State := do
  let k := s.fresh
  let links ← listInit (put s.links (.thread k) (some ⟨none, none⟩)) (.thread k)
  ipcConnectionsEnqueue k { s.setThread k (some sock) with links := links, fresh := k + 1 }

/-- Whether the entry at a node has the descriptor. -/
def isThread (s : State) (sock : ℤ) : Node → Option Bool
  | .connections => none
  | .thread k => (s.threads k).map fun fd => fd == sock

/-- The loop of `ipc_free_thread`, with the entry found. -/
def ipcFreeThread (sock : ℤ) (s : State) : Option (Option ℕ × State) := do
  let found ← (getNext s.links .connections).bind
    (listFind s.links .connections (isThread s sock) (s.fresh + 1))
  match found with
  | some (.thread k) => do
    let links ← listDelInit s.links (.thread k)
    let fd ← s.threads k
    let s := State.close { s with links := links, connCount := s.connCount - 1 } fd
    some (some k, { s.setThread k none with links := put s.links (.thread k) none })
  | _ => some (none, s)

/-- A turn of the loop of `start_ipc_listener`: `accept` returns a descriptor that is not in use, and
the thread is started with it. The lock is taken for writing. -/
def accept (fd : ℤ) (s : State) : Option State :=
  if 0 ≤ fd ∧ s.fds fd = none ∧ s.freeing = none then do
    let k := s.fresh
    let s ← ipcAllocThread fd { s with
      fds := fun d => if d = fd then some s.fresh else s.fds d }
    some { s with serving := fun j => if j = k then some fd else s.serving j }
  else none

/-- A turn of the loop of `socket_ipc_open`: `read` returns `rc`, and there is a request in the buffer
if it is positive. At the end of the loop the lock is taken for reading; if another thread has it, both
change the list at once, and there is no result. -/
def turn (k : ℕ) (rc : ℤ) (req : Request) (res : ℤ) (s : State) : Option State := do
  let sockfd ← s.serving k
  let stop := { s with serving := fun j => if j = k then none else s.serving j }
  if 0 < rc then
    if demuxIpcSocketCall req res = -1 then some (stop.close sockfd) else some s
  else if s.freeing = none then some { stop with freeing := some (k, sockfd) }
  else none

/-- `ipc_free_thread` runs to its end. -/
def leave (s : State) : Option State := do
  let (k, sockfd) ← s.freeing
  let (found, s) ← ipcFreeThread sockfd s
  some { s with freeing := none, removed := (k, found) :: s.removed }

inductive Event
  | accept (fd : ℤ)
  | turn (k : ℕ) (rc : ℤ) (req : Request) (res : ℤ)
  | leave
  deriving DecidableEq, Repr

def step (s : State) : Event → Option State
  | .accept fd => accept fd s
  | .turn k rc req res => turn k rc req res s
  | .leave => leave s

/-! ### The property and its condition -/

/-- The descriptor of the connection is open. -/
def Open (s : State) (k : ℕ) : Prop := ∃ fd, s.fds fd = some k

/-- **The table follows the connections.** The list has one entry for each open one, with its
descriptor, and no others; each run of `ipc_free_thread` has removed the entry of the connection that
had ended; and the descriptor of each connection that is no longer open was closed once. -/
structure Follows (s : State) : Prop where
  table : ∃ l : List ℕ, Ring s.links .connections (l.map .thread) ∧ s.connCount = l.length ∧
    ∀ k, k ∈ l ↔ Open s k
  sock : ∀ k fd, s.fds fd = some k → s.threads k = some fd
  removed : ∀ p ∈ s.removed, p.2 = some p.1
  once : s.closed.Nodup ∧ none ∉ s.closed
  closed : ∀ k, some k ∈ s.closed ↔ k < s.fresh ∧ ¬ Open s k

/-- The data of a write request are longer than the buffer, and the rest of them cannot be read. -/
def GuardFails (req : Request) (res : ℤ) : Prop :=
  (req.type = ipcWriteType ∨ req.type = ipcSendtoType) ∧ ipcBuflen < req.len.toNat ∧ res = -1

/-- No handler fails. -/
def Handled (_ : State) : Event → Prop
  | .turn _ rc req res => 0 < rc → ¬ GuardFails req res
  | _ => True

instance (req : Request) (res : ℤ) : Decidable (GuardFails req res) :=
  inferInstanceAs (Decidable (_ ∧ _))

instance (s : State) : ∀ e, Decidable (Handled s e)
  | .turn _ rc req res => inferInstanceAs (Decidable (0 < rc → ¬ GuardFails req res))
  | .accept _ | .leave => isTrue trivial

theorem demuxIpcSocketCall_eq_iff (req : Request) (res : ℤ) :
    demuxIpcSocketCall req res = -1 ↔ GuardFails req res := by
  unfold demuxIpcSocketCall ipcGuarded GuardFails
  split_ifs with htype hguard
  · exact iff_of_true rfl ⟨htype, hguard⟩
  · exact iff_of_false (by decide) fun h => hguard h.2
  · exact iff_of_false (by decide) fun h => htype h.1

/-! ### The list -/

/-- What else holds of the threads: they are below `fresh`, and each has the descriptor of its own
connection. -/
structure Inv (s : State) : Prop where
  fresh : ∀ j, s.fresh ≤ j → s.links (.thread j) = none ∧ s.serving j = none
  lt : ∀ fd k, s.fds fd = some k → k < s.fresh
  serving : ∀ k fd, s.serving k = some fd → s.fds fd = some k
  freeing : ∀ k fd, s.freeing = some (k, fd) → s.fds fd = some k ∧ s.serving k = none

theorem inv_init : Inv init where
  fresh _ _ := ⟨by simp [init], rfl⟩
  lt _ _ h := by cases h
  serving _ _ h := by cases h
  freeing _ _ h := by cases h

theorem follows_init : Follows init where
  table := ⟨[], ring_nil.mpr ⟨rfl, rfl⟩, rfl, fun k => by simp [Open, init]⟩
  sock _ _ h := by cases h
  removed p hp := by cases hp
  once := ⟨List.nodup_nil, List.not_mem_nil⟩
  closed k := by simp [init]

variable {s s' : State} {l : List ℕ} {k : ℕ} {fd : ℤ}

theorem nodup_of_ring (hring : Ring s.links .connections (l.map .thread)) : l.Nodup :=
  List.Nodup.of_map _ (List.nodup_cons.mp hring.1).2

theorem length_le_fresh (hi : Inv s) (hring : Ring s.links .connections (l.map .thread))
    (hl : ∀ k, k ∈ l ↔ Open s k) : l.length ≤ s.fresh := by
  have hsub : l ⊆ List.range s.fresh := fun k hk => by
    obtain ⟨fd, hfd⟩ := (hl k).mp hk
    exact List.mem_range.mpr (hi.lt fd k hfd)
  simpa using (List.subperm_of_subset (nodup_of_ring hring) hsub).length_le

/-- Two descriptors are not of one connection. -/
theorem Follows.inj (h : Follows s) {fd' : ℤ} (hfd : s.fds fd = some k) (hfd' : s.fds fd' = some k) :
    fd = fd' := Option.some.inj ((h.sock k fd hfd).symm.trans (h.sock k fd' hfd'))

/-- The entry with the descriptor is the one of its connection. -/
theorem find_thread (h : Follows s) (hi : Inv s)
    (hring : Ring s.links .connections (l.map .thread)) (hl : ∀ k, k ∈ l ↔ Open s k)
    (hk : s.fds fd = some k) :
    (getNext s.links .connections).bind
      (listFind s.links .connections (isThread s fd) (s.fresh + 1)) = some (some (.thread k)) := by
  let p : ℕ → Bool := fun j => s.threads j == some fd
  have hf : ∀ a ∈ l.map Node.thread, isThread s fd a =
      some (match a with | .connections => false | .thread j => p j) := by
    intro a ha
    obtain ⟨j, hj, rfl⟩ := List.mem_map.mp ha
    obtain ⟨d, hd⟩ := (hl j).mp hj
    simp [isThread, h.sock j d hd, p]
  have hfind := hring.listFind hf [] _ (s.fresh + 1) rfl
    (Nat.lt_succ_of_le (by simpa using length_le_fresh hi hring hl))
  have heq : l.find? p = some k := by
    cases hfound : l.find? p with
    | none =>
      have hmem := (hl k).mpr ⟨fd, hk⟩
      exact absurd (List.find?_eq_none.mp hfound k hmem) (by simp [p, h.sock k fd hk])
    | some j =>
      obtain ⟨d, hd⟩ := (hl j).mp (List.mem_of_find?_eq_some hfound)
      have hpj : s.threads j = some fd := by simpa [p] using List.find?_some hfound
      obtain rfl : d = fd := Option.some.inj ((h.sock j d hd).symm.trans hpj)
      exact hd.symm.trans hk
  rw [hring.next_head, Option.bind_some, hfind, List.find?_map]
  show some ((l.find? p).map Node.thread) = _
  rw [heq]
  rfl

/-! ### Steps -/

theorem setThread_self (s : State) (k : ℕ) (v : Option ℤ) : (s.setThread k v).threads k = v := if_pos rfl

theorem setThread_other {j : ℕ} (hj : j ≠ k) (v : Option ℤ) :
    (s.setThread k v).threads j = s.threads j := if_neg hj

/-- What `accept` does to the table. -/
theorem accept_some (hs : accept fd s = some s') : s.fds fd = none ∧ s.freeing = none ∧
    ∃ m, listAddTail (put s.links (.thread s.fresh)
        (some ⟨some (.thread s.fresh), some (.thread s.fresh)⟩)) (.thread s.fresh) .connections =
          some m ∧
      s' = { s.setThread s.fresh (some fd) with
        links := m, connCount := s.connCount + 1, fresh := s.fresh + 1
        fds := fun d => if d = fd then some s.fresh else s.fds d
        serving := fun j => if j = s.fresh then some fd else s.serving j } := by
  unfold accept at hs
  rw [Option.ite_none_right_eq_some] at hs
  obtain ⟨⟨-, hfd, hfree⟩, hs⟩ := hs
  obtain ⟨t, ht, hs⟩ := Option.bind_eq_some_iff.mp hs
  rw [ipcAllocThread, listInit_put, Option.bind_eq_bind, Option.bind_some] at ht
  obtain ⟨m, hm, ht⟩ := Option.bind_eq_some_iff.mp ht
  obtain rfl := Option.some.inj ht
  exact ⟨hfd, hfree, m, hm, (Option.some.inj hs).symm⟩

theorem open_accept (hs : accept fd s = some s') (j : ℕ) : Open s' j ↔ j = s.fresh ∨ Open s j := by
  obtain ⟨hfd, -, m, -, hs'⟩ := accept_some hs
  rw [hs']
  constructor
  · rintro ⟨d, hd⟩
    by_cases hdf : d = fd
    · exact .inl (by simpa [hdf, eq_comm] using hd)
    · exact .inr ⟨d, by simpa [hdf] using hd⟩
  · rintro (rfl | ⟨d, hd⟩)
    · exact ⟨fd, if_pos rfl⟩
    · refine ⟨d, (if_neg ?_).trans hd⟩
      rintro rfl
      rw [hfd] at hd
      cases hd

/-- The new entry is the last one. -/
theorem links_accept (hi : Inv s) (hring : Ring s.links .connections (l.map .thread))
    (hl : ∀ k, k ∈ l ↔ Open s k) (hs : accept fd s = some s') :
    Ring s'.links .connections ((l ++ [s.fresh]).map .thread) ∧
      ∀ j, j ∉ l → j ≠ s.fresh → s'.links (.thread j) = s.links (.thread j) := by
  obtain ⟨-, -, m, hm, hs'⟩ := accept_some hs
  have hnot : Node.thread s.fresh ∉ Node.connections :: l.map Node.thread := by
    intro hmem
    have hmem' : s.fresh ∈ l := by simpa using hmem
    obtain ⟨d, hd⟩ := (hl _).mp hmem'
    exact absurd (hi.lt d _ hd) (lt_irrefl _)
  have hring₁ : Ring (put s.links (.thread s.fresh)
      (some ⟨some (.thread s.fresh), some (.thread s.fresh)⟩)) .connections (l.map .thread) :=
    hring.congr fun a ha => put_of_ne (fun (heq : a = .thread s.fresh) => hnot (heq ▸ ha)) _ _
  obtain ⟨m', hm', hring', hsame, -⟩ := hring₁.listAddTail (by simp [put]) hnot
  obtain rfl := Option.some.inj (hm'.symm.trans hm)
  rw [hs', List.map_append]
  refine ⟨hring', fun j hj hne => (hsame _ (by simp [hne, hj])).trans ?_⟩
  exact put_of_ne (by simpa using hne) _ _

theorem inv_accept (h : Follows s) (hi : Inv s) (hs : accept fd s = some s') : Inv s' := by
  obtain ⟨hfd, hfree, m, -, hs'⟩ := accept_some hs
  obtain ⟨l, hring, -, hl⟩ := h.table
  obtain ⟨-, hsame⟩ := links_accept hi hring hl hs
  constructor
  · intro j hj
    have hj' : s.fresh + 1 ≤ j := by rwa [hs'] at hj
    have hne : j ≠ s.fresh := by omega
    have hnotl : j ∉ l := fun hmem => by
      obtain ⟨d, hd⟩ := (hl j).mp hmem
      have := hi.lt d j hd
      omega
    obtain ⟨hlinks, hserv⟩ := hi.fresh j (by omega)
    refine ⟨(hsame j hnotl hne).trans hlinks, ?_⟩
    rw [hs']
    exact (if_neg hne).trans hserv
  · intro d j hd
    rw [hs'] at hd ⊢
    by_cases hdf : d = fd
    · have hj : s.fresh = j := by simpa [hdf] using hd
      exact hj ▸ Nat.lt_succ_self _
    · exact Nat.lt_succ_of_lt (hi.lt d j (by simpa [hdf] using hd))
  · intro j d hd
    rw [hs'] at hd ⊢
    by_cases hj : j = s.fresh
    · obtain rfl : fd = d := by simpa [hj] using hd
      exact (if_pos rfl).trans (by rw [hj])
    · have hd' := hi.serving j d (by simpa [hj] using hd)
      refine (if_neg ?_).trans hd'
      rintro rfl
      rw [hfd] at hd'
      cases hd'
  · intro j d hd
    rw [hs'] at hd
    exact absurd (hfree.symm.trans hd) (by simp)

theorem follows_accept (h : Follows s) (hi : Inv s) (hs : accept fd s = some s') : Follows s' := by
  obtain ⟨hfd, -, m, -, hs'⟩ := accept_some hs
  obtain ⟨l, hring, hcount, hl⟩ := h.table
  have hopen := open_accept hs
  refine ⟨⟨l ++ [s.fresh], (links_accept hi hring hl hs).1, ?_, fun j => ?_⟩, fun j d hd => ?_, ?_, ?_,
    fun j => ?_⟩
  · rw [hs']
    simp [hcount]
  · rw [hopen, ← hl, List.mem_append, List.mem_singleton, or_comm]
  · rw [hs'] at hd ⊢
    by_cases hdf : d = fd
    · obtain rfl : s.fresh = j := by simpa [hdf] using hd
      exact (setThread_self ..).trans (by rw [hdf])
    · have hd' : s.fds d = some j := by simpa [hdf] using hd
      exact (setThread_other (hi.lt d j hd').ne _).trans (h.sock j d hd')
  · rw [hs']
    exact h.removed
  · rw [hs']
    exact h.once
  · rw [hopen, show s'.closed = s.closed by rw [hs']; rfl, h.closed,
      show s'.fresh = s.fresh + 1 by rw [hs']]
    have hlt : Open s j → j < s.fresh := fun ⟨d, hd⟩ => hi.lt d j hd
    constructor
    · rintro ⟨hj, hno⟩
      exact ⟨by omega, not_or.mpr ⟨by omega, hno⟩⟩
    · rintro ⟨hj, hno⟩
      rw [not_or] at hno
      exact ⟨by omega, hno.2⟩

/-- The table without the connection `k`, whose thread ends. -/
def left (s : State) (k : ℕ) (fd : ℤ) (m : Links Node) : State :=
  { s.setThread k none with
    links := put m (.thread k) none, connCount := s.connCount - 1
    fds := fun d => if d = fd then none else s.fds d
    freeing := none, removed := (k, some k) :: s.removed, closed := some k :: s.closed }

/-- What `ipc_free_thread` does to the table when the connection has an entry. -/
theorem leave_some (h : Follows s) (hi : Inv s) (hs : leave s = some s') : ∃ k fd m,
    s.freeing = some (k, fd) ∧ s.fds fd = some k ∧ s.serving k = none ∧
      listDelInit s.links (.thread k) = some m ∧
      s' = left s k fd m := by
  obtain ⟨⟨k, fd⟩, hfree, hs⟩ := Option.bind_eq_some_iff.mp hs
  obtain ⟨hfd, hserv⟩ := hi.freeing k fd hfree
  obtain ⟨l, hring, -, hl⟩ := h.table
  obtain ⟨⟨found, t⟩, ht, hs⟩ := Option.bind_eq_some_iff.mp hs
  rw [ipcFreeThread, find_thread h hi hring hl hfd, Option.bind_eq_bind, Option.bind_some] at ht
  obtain ⟨m, hm, ht⟩ := Option.bind_eq_some_iff.mp ht
  obtain ⟨d, hd, ht⟩ := Option.bind_eq_some_iff.mp ht
  obtain rfl : fd = d := Option.some.inj ((h.sock k fd hfd).symm.trans hd)
  obtain ⟨rfl, rfl⟩ := Prod.mk.inj (Option.some.inj ht)
  refine ⟨k, fd, m, hfree, hfd, hserv, hm, (Option.some.inj hs).symm.trans ?_⟩
  simp only [left, State.close, State.setThread, hfd]

/-- The entry of the connection is taken out and freed. -/
theorem links_leave {m : Links Node} (hring : Ring s.links .connections (l.map .thread))
    (hk : k ∈ l) (hm : listDelInit s.links (.thread k) = some m) :
    Ring (put m (.thread k) none) .connections ((l.erase k).map .thread) ∧
      ∀ j, j ∉ l → put m (.thread k) none (.thread j) = s.links (.thread j) := by
  have hnodup := nodup_of_ring hring
  obtain ⟨xs, ys, rfl⟩ := List.append_of_mem hk
  have hnot : k ∉ xs ++ ys := (List.nodup_cons.mp (List.nodup_middle.mp hnodup)).1
  rw [List.map_append, List.map_cons] at hring
  obtain ⟨m', hm', hring', -, hsame, -⟩ := hring.listDelInit
  obtain rfl := Option.some.inj (hm'.symm.trans hm)
  rw [List.erase_append_right _ fun hx => hnot (List.mem_append_left _ hx), List.erase_cons_head,
    List.map_append]
  refine ⟨hring'.congr fun a ha => put_of_ne ?_ _ _, fun j hj => ?_⟩
  · rintro rfl
    exact hnot (by simpa using ha)
  · have hjk : j ≠ k := by
      rintro rfl
      exact hj (by simp)
    exact (put_of_ne (by simpa using hjk) _ _).trans (hsame _ (by simpa using hj))

section Leave

variable {m : Links Node}

theorem fds_left {d : ℤ} {j : ℕ} : (left s k fd m).fds d = some j ↔ d ≠ fd ∧ s.fds d = some j := by
  by_cases hdf : d = fd <;> simp [left, hdf]

theorem open_left (h : Follows s) (hfd : s.fds fd = some k) (j : ℕ) :
    Open (left s k fd m) j ↔ j ≠ k ∧ Open s j := by
  constructor
  · rintro ⟨d, hd⟩
    obtain ⟨hdf, hold⟩ := fds_left.mp hd
    refine ⟨?_, d, hold⟩
    rintro rfl
    exact hdf (h.inj hold hfd)
  · rintro ⟨hj, d, hd⟩
    refine ⟨d, fds_left.mpr ⟨?_, hd⟩⟩
    rintro rfl
    exact hj (Option.some.inj (hd.symm.trans hfd))

theorem inv_left (h : Follows s) (hi : Inv s) (hfd : s.fds fd = some k) (hserv : s.serving k = none)
    (hm : listDelInit s.links (.thread k) = some m) : Inv (left s k fd m) := by
  obtain ⟨l, hring, -, hl⟩ := h.table
  obtain ⟨-, hsame⟩ := links_leave hring ((hl k).mpr ⟨fd, hfd⟩) hm
  refine ⟨fun j hj => ?_, fun d j hd => hi.lt d j (fds_left.mp hd).2, fun j d hd => ?_,
    fun j d hd => by cases hd⟩
  · have hnotl : j ∉ l := fun hmem => by
      obtain ⟨d, hd⟩ := (hl j).mp hmem
      exact absurd (hi.lt d j hd) (not_lt.mpr hj)
    obtain ⟨hlinks, hserv'⟩ := hi.fresh j hj
    exact ⟨(hsame j hnotl).trans hlinks, hserv'⟩
  · have hd' := hi.serving j d hd
    refine fds_left.mpr ⟨?_, hd'⟩
    rintro rfl
    obtain rfl : k = j := Option.some.inj (hfd.symm.trans hd')
    exact absurd (hserv.symm.trans hd) (by simp)

theorem follows_left (h : Follows s) (hi : Inv s) (hfd : s.fds fd = some k)
    (hm : listDelInit s.links (.thread k) = some m) : Follows (left s k fd m) := by
  obtain ⟨l, hring, hcount, hl⟩ := h.table
  have hk : k ∈ l := (hl k).mpr ⟨fd, hfd⟩
  have hopen := open_left (m := m) h hfd
  refine ⟨⟨l.erase k, (links_leave hring hk hm).1, ?_, fun j => ?_⟩, fun j d hd => ?_, ?_, ?_,
    fun j => ?_⟩
  · show s.connCount - 1 = _
    have hpos := List.length_pos_of_mem hk
    rw [List.length_erase_of_mem hk, hcount]
    omega
  · rw [hopen, ← hl, (nodup_of_ring hring).mem_erase_iff]
  · have hj : j ≠ k := ((hopen j).mp ⟨d, hd⟩).1
    exact (setThread_other hj _).trans (h.sock j d (fds_left.mp hd).2)
  · rintro p hp
    rcases List.mem_cons.mp hp with rfl | hp
    · rfl
    · exact h.removed p hp
  · refine ⟨List.nodup_cons.mpr ⟨fun hmem => ?_, h.once.1⟩, ?_⟩
    · exact ((h.closed k).mp hmem).2 ⟨fd, hfd⟩
    · show none ∉ some k :: s.closed
      simpa using h.once.2
  · have hlt := hi.lt fd k hfd
    rw [hopen, show (left s k fd m).closed = some k :: s.closed from rfl,
      show (left s k fd m).fresh = s.fresh from rfl, List.mem_cons, Option.some.injEq, h.closed]
    by_cases hj : j = k
    · simp [hj, hlt]
    · simp [hj]

end Leave

theorem follows_leave (h : Follows s) (hi : Inv s) (hs : leave s = some s') :
    Follows s' ∧ Inv s' := by
  obtain ⟨k, fd, m, -, hfd, hserv, hm, rfl⟩ := leave_some h hi hs
  exact ⟨follows_left h hi hfd hm, inv_left h hi hfd hserv hm⟩

/-- What a turn does to the table: it closes the descriptor if the handler fails, else nothing. -/
theorem turn_some {rc res : ℤ} {req : Request} (hs : turn k rc req res s = some s') :
    ∃ fd, s.serving k = some fd ∧
      ((0 < rc ∧ GuardFails req res) ∧
          s' = State.close { s with serving := fun j => if j = k then none else s.serving j } fd ∨
        (0 < rc → ¬ GuardFails req res) ∧
          (s' = s ∨ s' = { s with
            serving := fun j => if j = k then none else s.serving j, freeing := some (k, fd) })) := by
  obtain ⟨fd, hfd, hs⟩ := Option.bind_eq_some_iff.mp hs
  refine ⟨fd, hfd, ?_⟩
  simp only [demuxIpcSocketCall_eq_iff] at hs
  split_ifs at hs with hrc hfail hfree
  · exact .inl ⟨⟨hrc, hfail⟩, (Option.some.inj hs).symm⟩
  · exact .inr ⟨fun _ => hfail, .inl (Option.some.inj hs).symm⟩
  · exact .inr ⟨fun h => absurd h hrc, .inr (Option.some.inj hs).symm⟩

theorem follows_turn {rc res : ℤ} {req : Request} (h : Follows s) (hi : Inv s)
    (hs : turn k rc req res s = some s') :
    Follows s' ∧ Inv s' ∧ (0 < rc → ¬ GuardFails req res) ∨
      ¬ Follows s' ∧ 0 < rc ∧ GuardFails req res := by
  obtain ⟨fd, hserv, ⟨hfail, hs'⟩ | ⟨hok, hs'⟩⟩ := turn_some hs
  · -- the entry of a connection that is closed stays in the list
    refine .inr ⟨fun h' => ?_, hfail⟩
    have hfd := hi.serving k fd hserv
    obtain ⟨l, hring, -, hl⟩ := h.table
    obtain ⟨l', hring', -, hl'⟩ := h'.table
    rw [hs'] at hring'
    have hmem : Node.thread k ∈ l'.map Node.thread := by
      rw [← hring.unique hring']
      exact List.mem_map_of_mem ((hl k).mpr ⟨fd, hfd⟩)
    obtain ⟨d, hd⟩ := (hl' k).mp (by simpa using hmem)
    rw [hs'] at hd
    by_cases hdf : d = fd
    · simp [State.close, hdf] at hd
    · exact hdf (h.inj (by simpa [State.close, hdf] using hd) hfd)
  · refine .inl ⟨?_, ?_, hok⟩
    · rcases hs' with rfl | rfl
      · exact h
      · exact ⟨h.table, h.sock, h.removed, h.once, h.closed⟩
    · rcases hs' with rfl | rfl
      · exact hi
      have hfd := hi.serving k fd hserv
      refine ⟨fun j hj => ⟨(hi.fresh j hj).1, ?_⟩, hi.lt, fun j d hd => ?_, fun j d hd => ?_⟩
      · by_cases hjk : j = k
        · exact if_pos hjk
        · exact (if_neg hjk).trans (hi.fresh j hj).2
      · by_cases hjk : j = k
        · simp [hjk] at hd
        · exact hi.serving j d (by simpa [hjk] using hd)
      · obtain ⟨rfl, rfl⟩ := Prod.mk.inj (Option.some.inj hd)
        exact ⟨hfd, if_pos rfl⟩

/-- **One step.** -/
theorem follows_step {e : Event} (h : Follows s) (hi : Inv s) (hs : step s e = some s') :
    (Follows s' → Inv s') ∧ (Follows s' ↔ Handled s e) := by
  cases e with
  | accept fd =>
    exact ⟨fun _ => inv_accept h hi hs, iff_of_true (follows_accept h hi hs) trivial⟩
  | turn k rc req res =>
    rcases follows_turn h hi hs with ⟨h', hi', hok⟩ | ⟨h', hrc, hfail⟩
    · exact ⟨fun _ => hi', iff_of_true h' hok⟩
    · exact ⟨fun h => absurd h h', iff_of_false h' fun hok => hok hrc hfail⟩
  | leave =>
    obtain ⟨h', hi'⟩ := follows_leave h hi hs
    exact ⟨fun _ => hi', iff_of_true h' trivial⟩

/-- **The table of a run.** It follows the connections in every state if and only if no handler
fails. -/
theorem connections_exact {evs : List Event} {t : State} (hr : run step init evs = some t) :
    Always step Follows init evs ↔ Along step Handled init evs :=
  always_iff_along (I := Inv) (fun _ _ _ hi h hs => (follows_step h hi hs).1)
    (fun _ _ _ hi h hs => (follows_step h hi hs).2) inv_init follows_init hr

/-- Two connections, of which the first one ends. -/
def twoConnections : List Event :=
  [.accept 5, .accept 6, .turn 0 4096 ⟨ipcWriteType, 5000⟩ 904, .turn 0 0 ⟨0, 0⟩ 0, .leave]

theorem connections_exact_two : Always step Follows init twoConnections := by
  have hrun : (run step init twoConnections).isSome = true := by decide
  obtain ⟨t, ht⟩ := Option.isSome_iff_exists.mp hrun
  exact (connections_exact ht).mpr (by decide)

/-- The rest of a long request cannot be read, and the next connection gets the same descriptor: its
end takes the stale entry out, and leaves its own. -/
theorem stale_entry : ¬ ∀ (evs : List Event) (t : State), run step init evs = some t →
    Always step Follows init evs := by
  intro hall
  let evs : List Event := [.accept 5, .turn 0 4096 ⟨ipcWriteType, 5000⟩ (-1), .accept 5,
    .turn 1 0 ⟨0, 0⟩ 0, .leave]
  have hrun : (run step init evs).map State.removed = some [(1, some 0)] := by decide
  obtain ⟨t, ht, hremoved⟩ := Option.map_eq_some_iff.mp hrun
  have h := hall evs t ht evs [] t (List.append_nil _).symm ht
  have hown := h.removed (1, some 0) (by simp [hremoved])
  cases hown

end ToyIP.Stack.Connections
