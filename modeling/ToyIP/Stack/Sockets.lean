import ToyIP.Lib.CircularList
import ToyIP.Lib.Run

/-! # The table of sockets

`socket.c` keeps its sockets in the list `sockets` and finds one by the process and the descriptor.
`_socket` and `_accept` add a socket, `_close` takes it out, each after the layer below has answered;
the answers are part of the events.

`alloc_socket` leaves `sk` as `malloc` gives it, and `free_socket` follows it, also for a `_socket`
that fails before `sk` was set. `sockets_refine` says that the table is a map from processes and
descriptors as long as this pointer leads nowhere else and no descriptor overflows. -/

namespace ToyIP.Stack.Sockets

open ToyIP.Lib.CircularList ToyIP.Lib.Run

/-- The nodes of the list: its head `sockets` and the member `list` of each socket. -/
inductive Node
  | sockets
  | sock (k : ℕ)
  deriving DecidableEq, Repr

/-- Where a `struct sock *` leads: nowhere (`NULL`), to memory that is no part of the table, such as a
`struct sock`, also one that was freed, or to any other address. -/
inductive SkPtr
  | null
  | sock
  | wild
  deriving DecidableEq, Repr

/-- `struct socket` less its `list`. The table reads neither the type nor the flags, and of `ops`
only whether it is set. -/
structure Socket where
  pid : ℤ
  fd : ℤ
  ops : Bool
  sk : SkPtr
  deriving DecidableEq, Repr

/-- The sockets are numbered as they are allocated, `fresh` is the next one; `nextFd` is the counter
of `alloc_socket`. The last field records the descriptors of all sockets so far. -/
structure State where
  links : Links Node
  socks : ℕ → Option Socket
  socketCount : ℤ
  fresh : ℕ
  nextFd : ℤ
  given : List ℤ

def init : State where
  links := fun a => if a = .sockets then some ⟨some .sockets, some .sockets⟩ else none
  socks := fun _ => none
  socketCount := 0
  fresh := 0
  nextFd := 4097
  given := []

def State.setSock (s : State) (k : ℕ) (sock : Option Socket) : State :=
  { s with socks := fun j => if j = k then sock else s.socks j }

/-! ### The code -/

def socketSocketsEnqueue (k : ℕ) (s : State) : Option State := do
  let links ← listAddTail s.links (.sock k) .sockets
  some { s with links := links, socketCount := s.socketCount + 1 }

def socketSocketsRemove (k : ℕ) (s : State) : Option State := do
  let links ← listDelInit s.links (.sock k)
  some { s with links := links, socketCount := s.socketCount - 1 }

/-- `alloc_socket`; `stale` is what its memory holds at `sk`. No result: the counter, an `int`,
overflows. -/
def allocSocket (pid : ℤ) (stale : SkPtr) (s : State) : Option State := do
  let links ← listInit (put s.links (.sock s.fresh) (some ⟨none, none⟩)) (.sock s.fresh)
  if s.nextFd < 2147483647 then
    some { s.setSock s.fresh (some ⟨pid, s.nextFd, false, stale⟩) with
      links := links, fresh := s.fresh + 1, nextFd := s.nextFd + 1
      given := s.given ++ [s.nextFd] }
  else none

/-- `free`. -/
def release (k : ℕ) (s : State) : State :=
  { s.setSock k none with links := put s.links (.sock k) none }

/-- `free_socket`. `sock->ops->free` needs a `struct sock` at `sk` and frees it; what is written there
afterwards is no part of the table either. -/
def freeSocket (k : ℕ) (s : State) : Option State := do
  let sock ← s.socks k
  if sock.ops && sock.sk ≠ .sock then none
  else do
    let links ← listDel s.links (.sock k)
    if sock.sk = .wild then none else some (release k { s with links := links })

/-- Whether the socket at a node has the process and the descriptor. -/
def isSocket (s : State) (pid fd : ℤ) : Node → Option Bool
  | .sockets => none
  | .sock k => (s.socks k).map fun sock => sock.pid == pid && sock.fd == fd

def getSocket (pid fd : ℤ) (s : State) : Option (Option ℕ) := do
  let found ← (getNext s.links .sockets).bind
    (listFind s.links .sockets (isSocket s pid fd) (s.fresh + 1))
  match found with
  | some (.sock k) => some (some k)
  | _ => some none

/-- `inet_create` and `inet_accept` where they succeed: the socket has a `struct sock`. -/
def initWithSocket (k : ℕ) (s : State) : State :=
  s.setSock k ((s.socks k).map fun sock => { sock with ops := true, sk := .sock })

/-- `_socket`, where `create` is the answer of `inet_create`; `families` has an entry for `AF_INET`
only. -/
def socket (pid : ℤ) (domain : Fin 128) (stale : SkPtr) (create : ℤ) (s : State) :
    Option (ℤ × State) := do
  let k := s.fresh
  let s ← allocSocket pid stale s
  if domain ≠ 2 || create ≠ 0 then do
    let s ← freeSocket k s
    some (-1, s)
  else do
    let s ← socketSocketsEnqueue k (initWithSocket k s)
    let sock ← s.socks k
    some (sock.fd, s)

/-- `_accept`, where `err` is the answer of `inet_accept`. -/
def accept (pid sockfd : ℤ) (stale : SkPtr) (err : ℤ) (s : State) : Option (ℤ × State) := do
  match ← getSocket pid sockfd s with
  | none => some (-1, s)
  | some j => do
    let sock ← s.socks j
    let k := s.fresh
    let s ← allocSocket pid stale s
    if !sock.ops then none
    else if err < 0 then some (-1, release k s)
    else do
      let s ← socketSocketsEnqueue k (initWithSocket k s)
      let newsock ← s.socks k
      some (newsock.fd, s)

/-- `_close`, where `rc` is the answer of `inet_close`. -/
def close (pid sockfd rc : ℤ) (s : State) : Option (ℤ × State) := do
  match ← getSocket pid sockfd s with
  | none => some (-1, s)
  | some k => do
    let sock ← s.socks k
    if !sock.ops then none
    else if rc = 0 then do
      let s ← socketSocketsRemove k s
      let s ← freeSocket k s
      some (rc, s)
    else some (rc, s)

inductive Event
  | socket (pid : ℤ) (domain : Fin 128) (stale : SkPtr) (create : ℤ)
  | accept (pid sockfd : ℤ) (stale : SkPtr) (err : ℤ)
  | close (pid sockfd rc : ℤ)
  deriving DecidableEq, Repr

/-- No result: a pointer is followed that leads nowhere or to freed memory, or a counter overflows. -/
def call (s : State) : Event → Option (ℤ × State)
  | .socket pid domain stale create => socket pid domain stale create s
  | .accept pid sockfd stale err => accept pid sockfd stale err s
  | .close pid sockfd rc => close pid sockfd rc s

/-! ### The map -/

/-- The socket of each process and descriptor. -/
abbrev Table := ℤ → ℤ → Option ℕ

def Table.set (t : Table) (pid fd : ℤ) (v : Option ℕ) : Table := fun p f =>
  if p = pid ∧ f = fd then v else t p f

/-- What a call that returns `rc` means for the map, where `k` is the socket that it has allocated. -/
def Table.record (t : Table) (k : ℕ) (rc : ℤ) : Event → Table
  | .socket pid _ _ _ | .accept pid _ _ _ => if rc = -1 then t else t.set pid rc (some k)
  | .close pid sockfd _ => if rc = 0 then t.set pid sockfd none else t

/-- The sockets, and the map that they should be. -/
structure World where
  state : State
  table : Table

def start : World := ⟨init, fun _ _ => none⟩

def step (w : World) (e : Event) : Option World :=
  (call w.state e).map fun r => ⟨r.2, w.table.record w.state.fresh r.1 e⟩

/-! ### The property and its condition -/

/-- **The table of sockets is the map.** All descriptors are different; `get_socket` finds the socket
of a process and a descriptor, which was made for them, and no other; and the sockets are counted. -/
structure Refines (w : World) : Prop where
  unique : w.state.given.Nodup
  get : ∀ pid fd, getSocket pid fd w.state = some (w.table pid fd)
  own : ∀ pid fd k, w.table pid fd = some k →
    ∃ sock, w.state.socks k = some sock ∧ sock.pid = pid ∧ sock.fd = fd
  count : ∃ l : List ℕ, Ring w.state.links .sockets (l.map .sock) ∧ w.state.socketCount = l.length

/-- The call fails if it returns this. -/
def Fails (rc : ℤ) : Event → Prop
  | .socket _ _ _ _ | .accept _ _ _ _ => rc = -1
  | .close _ _ _ => rc ≠ 0

/-- A call that fails leaves the table as it was. -/
def Kept (w : World) (e : Event) : Prop := ∀ rc s', call w.state e = some (rc, s') → Fails rc e →
  s'.links = w.state.links ∧ s'.socks = w.state.socks ∧ s'.socketCount = w.state.socketCount

/-- A descriptor that is taken does not overflow the counter, and the memory of a socket that
`_socket` gives up holds no wild pointer. -/
def Sound (w : World) : Event → Prop
  | .socket _ domain stale create =>
    w.state.nextFd < 2147483647 ∧ (domain = 2 ∧ create = 0 ∨ stale ≠ .wild)
  | .accept pid sockfd _ _ => getSocket pid sockfd w.state ≠ some none → w.state.nextFd < 2147483647
  | .close _ _ _ => True

instance (w : World) (e : Event) : Decidable (Sound w e) := by
  unfold Sound
  cases e <;> infer_instance

/-! ### The list -/

/-- The sockets of the list `l` are the ones of the map. The descriptor of a socket is its number
behind 4097. -/
structure Holds (w : World) (l : List ℕ) : Prop where
  ring : Ring w.state.links .sockets (l.map .sock)
  count : w.state.socketCount = l.length
  table : ∀ pid fd k, w.table pid fd = some k ↔ k ∈ l ∧ w.state.socks k = some ⟨pid, fd, true, .sock⟩
  live : ∀ k ∈ l, ∃ pid, w.state.socks k = some ⟨pid, 4097 + k, true, .sock⟩
  fresh : ∀ j, w.state.fresh ≤ j → w.state.links (.sock j) = none ∧ w.state.socks j = none
  nextFd : w.state.nextFd = 4097 + w.state.fresh
  given : w.state.given = (List.range w.state.fresh).map fun k : ℕ => 4097 + (k : ℤ)

section Holds

variable {w : World} {l : List ℕ} (h : Holds w l)
include h

theorem Holds.lt_fresh {k : ℕ} (hk : k ∈ l) : k < w.state.fresh := by
  obtain ⟨pid, hsock⟩ := h.live k hk
  by_contra hle
  rw [(h.fresh k (by omega)).2] at hsock
  cases hsock

theorem Holds.nodup : l.Nodup := List.Nodup.of_map _ (List.nodup_cons.mp h.ring.1).2

theorem Holds.length_le : l.length ≤ w.state.fresh := by
  have hsub : l ⊆ List.range w.state.fresh := fun k hk => List.mem_range.mpr (h.lt_fresh hk)
  simpa using (List.subperm_of_subset h.nodup hsub).length_le

/-- `get_socket` finds what the map has. -/
theorem Holds.getSocket_eq (pid fd : ℤ) : getSocket pid fd w.state = some (w.table pid fd) := by
  let p : ℕ → Bool := fun k => w.state.socks k == some ⟨pid, fd, true, .sock⟩
  have hf : ∀ a ∈ l.map Node.sock, isSocket w.state pid fd a =
      some (match a with | .sockets => false | .sock k => p k) := by
    intro a ha
    obtain ⟨k, hk, rfl⟩ := List.mem_map.mp ha
    obtain ⟨pid', hsock⟩ := h.live k hk
    simp only [isSocket, hsock, Option.map_some, p]
    congr 1
    rw [Bool.eq_iff_iff]
    simp
  have hfind := h.ring.listFind hf [] _ (w.state.fresh + 1) rfl
    (Nat.lt_succ_of_le (by simpa using h.length_le))
  have heq : l.find? p = w.table pid fd := by
    refine Option.ext fun k => ?_
    rw [h.table]
    constructor
    · intro hk
      exact ⟨List.mem_of_find?_eq_some hk, by simpa [p] using List.find?_some hk⟩
    · rintro ⟨hk, hsock⟩
      -- a socket with another number has another descriptor
      cases hfound : l.find? p with
      | none => exact absurd (List.find?_eq_none.mp hfound k hk) (by simp [p, hsock])
      | some j =>
        obtain ⟨pid', hj⟩ := h.live j (List.mem_of_find?_eq_some hfound)
        obtain ⟨pid'', hk'⟩ := h.live k hk
        have hpj : w.state.socks j = some ⟨pid, fd, true, .sock⟩ := by
          simpa [p] using List.find?_some hfound
        rw [hpj] at hj
        rw [hsock] at hk'
        simp only [Option.some.injEq, Socket.mk.injEq] at hj hk'
        rw [show j = k by omega]
  rw [getSocket, h.ring.next_head, Option.bind_some, hfind, List.find?_map]
  show (match (l.find? p).map Node.sock with
    | some (.sock k) => some (some k)
    | _ => some none) = _
  rw [heq]
  cases w.table pid fd <;> rfl

theorem Holds.refines : Refines w where
  unique := by
    rw [h.given]
    refine List.Nodup.map (fun a b hab => ?_) List.nodup_range
    simpa using hab
  get := h.getSocket_eq
  own pid fd k hk := ⟨_, ((h.table pid fd k).mp hk).2, rfl, rfl⟩
  count := ⟨l, h.ring, h.count⟩

end Holds

theorem holds_start : Holds start [] := by
  refine ⟨ring_nil.mpr ⟨rfl, rfl⟩, rfl, ?_, ?_, fun j _ => ⟨rfl, rfl⟩, rfl, rfl⟩ <;> simp [start]

/-! ### A new socket -/

/-- A descriptor is used up. -/
def State.spend (s : State) : State :=
  { s with fresh := s.fresh + 1, nextFd := s.nextFd + 1, given := s.given ++ [s.nextFd] }

/-- The memory of a new socket. -/
def State.alloced (s : State) (pid : ℤ) (stale : SkPtr) : State :=
  { s.spend with
    links := put s.links (.sock s.fresh) (some ⟨some (.sock s.fresh), some (.sock s.fresh)⟩)
    socks := fun j => if j = s.fresh then some ⟨pid, s.nextFd, false, stale⟩ else s.socks j }

/-- The new socket in the list. -/
def State.added (s : State) (pid : ℤ) (links : Links Node) : State :=
  { s.spend with
    links := links, socketCount := s.socketCount + 1
    socks := fun j => if j = s.fresh then some ⟨pid, s.nextFd, true, .sock⟩ else s.socks j }

theorem allocSocket_eq (pid : ℤ) (stale : SkPtr) (s : State) : allocSocket pid stale s =
    if s.nextFd < 2147483647 then some (s.alloced pid stale) else none := by
  rw [allocSocket, listInit_put]
  rfl

theorem initWithSocket_alloced (s : State) (pid : ℤ) (stale : SkPtr) :
    initWithSocket s.fresh (s.alloced pid stale) =
      { s.added pid (s.alloced pid stale).links with socketCount := s.socketCount } := by
  have hsocks : (initWithSocket s.fresh (s.alloced pid stale)).socks = (s.added pid s.links).socks := by
    funext j
    by_cases hj : j = s.fresh <;> simp [initWithSocket, State.setSock, State.alloced, State.added, hj]
  unfold initWithSocket at hsocks ⊢
  rw [State.setSock, State.mk.injEq]
  exact ⟨rfl, hsocks, rfl, rfl, rfl, rfl⟩

section New

variable {w : World} {l : List ℕ} (h : Holds w l)
include h

/-- A socket that is freed again leaves nothing. -/
theorem Holds.release_alloced (pid : ℤ) (stale : SkPtr) :
    release w.state.fresh (w.state.alloced pid stale) = w.state.spend := by
  obtain ⟨hlinks, hsocks⟩ := h.fresh w.state.fresh le_rfl
  have hsock : (release w.state.fresh (w.state.alloced pid stale)).socks = w.state.socks := by
    funext j
    by_cases hj : j = w.state.fresh <;> simp [release, State.setSock, State.alloced, hj, hsocks]
  have hlink : (release w.state.fresh (w.state.alloced pid stale)).links = w.state.links := by
    show put (put _ _ _) _ none = _
    rw [put_put, put_self hlinks]
  unfold release at hsock hlink ⊢
  rw [State.mk.injEq]
  exact ⟨hlink, hsock, rfl, rfl, rfl, rfl⟩

theorem Holds.freeSocket_alloced (pid : ℤ) (stale : SkPtr) :
    freeSocket w.state.fresh (w.state.alloced pid stale) =
      if stale = .wild then none else some w.state.spend := by
  have hsock : (w.state.alloced pid stale).socks w.state.fresh =
      some ⟨pid, w.state.nextFd, false, stale⟩ := if_pos rfl
  have hdel : listDel (w.state.alloced pid stale).links (.sock w.state.fresh) =
      some (w.state.alloced pid stale).links := listDel_self (if_pos rfl)
  rw [← h.release_alloced pid stale, freeSocket]
  simp [hsock, hdel]

theorem Holds.spend : Holds ⟨w.state.spend, w.table⟩ l where
  ring := h.ring
  count := h.count
  table := h.table
  live := h.live
  fresh j hj := h.fresh j (Nat.le_of_succ_le hj)
  nextFd := by
    show w.state.nextFd + 1 = 4097 + ((w.state.fresh + 1 : ℕ) : ℤ)
    rw [h.nextFd]
    push_cast
    ring
  given := by
    show w.state.given ++ [w.state.nextFd] = (List.range (w.state.fresh + 1)).map _
    rw [List.range_succ, List.map_append, ← h.given, List.map_singleton, h.nextFd]

/-- **A new socket at the end of the list.** -/
theorem Holds.enqueue (pid : ℤ) (stale : SkPtr) : ∃ links,
    socketSocketsEnqueue w.state.fresh (initWithSocket w.state.fresh (w.state.alloced pid stale)) =
      some (w.state.added pid links) ∧
    Holds ⟨w.state.added pid links, w.table.set pid w.state.nextFd (some w.state.fresh)⟩
      (l ++ [w.state.fresh]) := by
  have hspend := h.spend
  have hnot : Node.sock w.state.fresh ∉ Node.sockets :: l.map Node.sock := by
    simpa using fun hk => Nat.lt_irrefl _ (h.lt_fresh hk)
  have hring : Ring (w.state.alloced pid stale).links .sockets (l.map .sock) :=
    h.ring.congr fun a ha => if_neg (by
      rintro rfl
      exact hnot ha)
  obtain ⟨links, hadd, hring', hframe, -⟩ := hring.listAddTail
    (by simp [State.alloced, put]) hnot
  refine ⟨links, ?_, by rwa [List.map_append, List.map_singleton], ?_, fun p f k => ?_, fun k hk => ?_,
    fun j hj => ?_, hspend.nextFd, hspend.given⟩
  · rw [socketSocketsEnqueue, initWithSocket_alloced]
    show (listAddTail (w.state.alloced pid stale).links _ _).bind _ = _
    rw [hadd]
    rfl
  · show w.state.socketCount + 1 = _
    rw [h.count, List.length_append, List.length_singleton]
    push_cast
    rfl
  · show (if p = pid ∧ f = w.state.nextFd then some w.state.fresh else w.table p f) = some k ↔
      k ∈ l ++ [w.state.fresh] ∧ (if k = w.state.fresh then some ⟨pid, w.state.nextFd, true, .sock⟩
        else w.state.socks k) = some ⟨p, f, true, .sock⟩
    by_cases hk : k = w.state.fresh
    · have hno : w.table p f ≠ some k := fun heq =>
        absurd (h.lt_fresh ((h.table p f k).mp heq).1) (by omega)
      rw [if_pos hk]
      split_ifs with hpf
      · simp [hk, hpf]
      · simp only [hno, false_iff, Option.some.injEq, Socket.mk.injEq, not_and]
        rintro - rfl rfl
        exact absurd ⟨rfl, rfl⟩ hpf
    · rw [if_neg hk]
      have hold := h.table p f k
      split_ifs with hpf
      · -- the descriptor is new
        refine iff_of_false (by simpa using Ne.symm hk) ?_
        rintro ⟨hmem, hsock⟩
        obtain ⟨pid', hlive⟩ := h.live k (by simpa [hk] using hmem)
        rw [hsock, Option.some.injEq, Socket.mk.injEq, hpf.2, h.nextFd] at hlive
        omega
      · simpa [hk] using hold
  · show ∃ pid', (if k = w.state.fresh then _ else w.state.socks k) = _
    by_cases hfresh : k = w.state.fresh
    · rw [if_pos hfresh, h.nextFd, hfresh]
      exact ⟨pid, rfl⟩
    · rw [if_neg hfresh]
      exact h.live k (by simpa [hfresh] using hk)
  · have hlt : w.state.fresh < j := hj
    obtain ⟨hlinks, hsocks⟩ := h.fresh j hlt.le
    have hout : Node.sock j ∉ Node.sockets :: (l.map Node.sock ++ [Node.sock w.state.fresh]) := by
      simpa [hlt.ne'] using fun hk => absurd (h.lt_fresh hk) (by omega)
    refine ⟨(hframe _ hout).trans ?_, ?_⟩
    · show put _ _ _ _ = _
      rw [put, if_neg (by simpa using hlt.ne'), hlinks]
    · show (if j = w.state.fresh then _ else _) = _
      rw [if_neg hlt.ne', hsocks]

end New

/-! ### A socket that is closed -/

/-- **A socket leaves the list and the map.** -/
theorem Holds.remove {w : World} {l : List ℕ} (h : Holds w l) {pid fd : ℤ} {k : ℕ}
    (hk : w.table pid fd = some k) : ∃ s s', socketSocketsRemove k w.state = some s ∧
      freeSocket k s = some s' ∧ Holds ⟨s', w.table.set pid fd none⟩ (l.erase k) := by
  obtain ⟨hmem, hsock⟩ := (h.table pid fd k).mp hk
  obtain ⟨xs, ys, rfl⟩ := List.append_of_mem hmem
  have hnodup := List.nodup_middle.mp h.nodup
  have hout : k ∉ xs ++ ys := (List.nodup_cons.mp hnodup).1
  have hring := h.ring
  rw [List.map_append, List.map_cons] at hring
  obtain ⟨links, hdel, hring', hself, hframe, -⟩ := hring.listDelInit
  have herase : (xs ++ k :: ys).erase k = xs ++ ys := by
    rw [List.erase_append_right _ fun hin => hout (List.mem_append_left _ hin), List.erase_cons_head]
  let s : State := { w.state with links := links, socketCount := w.state.socketCount - 1 }
  have hremove : socketSocketsRemove k w.state = some s := by
    rw [socketSocketsRemove, hdel]
    rfl
  have hfree : freeSocket k s = some (release k s) := by
    have hsock' : s.socks k = some ⟨pid, fd, true, .sock⟩ := hsock
    have hdel' : listDel s.links (.sock k) = some s.links := listDel_self hself
    simp [freeSocket, hsock', hdel']
  refine ⟨s, release k s, hremove, hfree, ?_⟩
  rw [herase]
  have hother : ∀ j ∈ xs ++ ys, j ≠ k := by
    rintro j hj rfl
    exact hout hj
  refine ⟨?_, ?_, fun p f j => ?_, fun j hj => ?_, fun j hj => ?_, h.nextFd, h.given⟩
  · rw [List.map_append]
    refine hring'.congr fun a ha => if_neg ?_
    rintro rfl
    rw [← List.map_append] at ha
    exact hout (by simpa using ha)
  · show w.state.socketCount - 1 = _
    rw [h.count]
    simp only [List.length_append, List.length_cons]
    omega
  · show (if p = pid ∧ f = fd then none else w.table p f) = some j ↔
      j ∈ xs ++ ys ∧ (if j = k then none else w.state.socks j) = some ⟨p, f, true, .sock⟩
    have hold := h.table p f j
    by_cases hj : j = k
    · refine iff_of_false (fun heq => ?_) fun hin => hout (hj ▸ hin.1)
      split_ifs at heq with hpf
      have hsame := (hold.mp heq).2
      rw [hj, hsock, Option.some.injEq, Socket.mk.injEq] at hsame
      exact hpf ⟨hsame.1.symm, hsame.2.1.symm⟩
    · rw [if_neg hj]
      split_ifs with hpf
      · -- another socket has another descriptor
        refine iff_of_false (by simp) ?_
        rintro ⟨hin, hsame⟩
        obtain ⟨pj, hlive⟩ := h.live j (by simp at hin ⊢; tauto)
        obtain ⟨pk, hlive'⟩ := h.live k (by simp)
        rw [hsame, Option.some.injEq, Socket.mk.injEq] at hlive
        rw [hsock, Option.some.injEq, Socket.mk.injEq] at hlive'
        omega
      · rw [hold]
        simp [hj]
  · obtain ⟨pj, hlive⟩ := h.live j (by simp at hj ⊢; tauto)
    exact ⟨pj, (if_neg (hother j hj)).trans hlive⟩
  · obtain ⟨hlinks, hsocks⟩ := h.fresh j hj
    have hlt := h.lt_fresh hmem
    have hfresh : w.state.fresh ≤ j := hj
    have hne : j ≠ k := by omega
    have hnot : Node.sock j ∉ Node.sockets :: (xs.map Node.sock ++ Node.sock k :: ys.map Node.sock) := by
      intro hin
      have hin' : j ∈ xs ++ k :: ys := by simpa using hin
      exact absurd (h.lt_fresh hin') (by omega)
    refine ⟨?_, (if_neg hne).trans hsocks⟩
    show put links _ none _ = none
    rw [put, if_neg (by simpa using hne), hframe _ hnot, hlinks]

/-! ### The calls -/

section Calls

variable {w : World} {l : List ℕ} (h : Holds w l)
include h

/-- No descriptor is the -1 of a failed call. -/
theorem Holds.ne_neg_one : w.state.nextFd ≠ -1 := by
  rw [h.nextFd]
  omega

/-- `_socket` has no result, fails or adds a socket. -/
theorem Holds.socket_eq (pid : ℤ) (domain : Fin 128) (stale : SkPtr) (create : ℤ) :
    (¬ Sound w (.socket pid domain stale create) ∧ socket pid domain stale create w.state = none) ∨
    (Sound w (.socket pid domain stale create) ∧
      socket pid domain stale create w.state = some (-1, w.state.spend)) ∨
    ∃ links, Sound w (.socket pid domain stale create) ∧
      socket pid domain stale create w.state = some (w.state.nextFd, w.state.added pid links) ∧
      Holds ⟨w.state.added pid links, w.table.set pid w.state.nextFd (some w.state.fresh)⟩
        (l ++ [w.state.fresh]) := by
  by_cases hfd : w.state.nextFd < 2147483647
  · have hrun : socket pid domain stale create w.state =
        if domain ≠ 2 || create ≠ 0 then
          (freeSocket w.state.fresh (w.state.alloced pid stale)).bind fun s => some (-1, s)
        else (socketSocketsEnqueue w.state.fresh (initWithSocket w.state.fresh
          (w.state.alloced pid stale))).bind fun s =>
            (s.socks w.state.fresh).bind fun sock => some (sock.fd, s) := by
      rw [socket, allocSocket_eq, if_pos hfd]
      rfl
    rw [hrun]
    by_cases hok : domain = 2 ∧ create = 0
    · obtain ⟨links, hadd, hholds⟩ := h.enqueue pid stale
      refine .inr (.inr ⟨links, ⟨hfd, .inl hok⟩, ?_, hholds⟩)
      rw [if_neg (by simp [hok]), hadd, Option.bind_some,
        show (w.state.added pid links).socks w.state.fresh = some _ from if_pos rfl]
      rfl
    · have hfail : (domain ≠ 2 || create ≠ 0) = true := by
        simp only [Bool.or_eq_true, decide_eq_true_eq]
        tauto
      rw [if_pos hfail, h.freeSocket_alloced]
      by_cases hwild : stale = .wild
      · refine .inl ⟨fun hs => hs.2.elim hok fun hne => hne hwild, ?_⟩
        rw [if_pos hwild]
        rfl
      · refine .inr (.inl ⟨⟨hfd, .inr hwild⟩, ?_⟩)
        rw [if_neg hwild]
        rfl
  · refine .inl ⟨fun hs => hfd hs.1, ?_⟩
    rw [socket, allocSocket_eq, if_neg hfd]
    rfl

theorem Holds.accept_eq (pid sockfd : ℤ) (stale : SkPtr) (err : ℤ) :
    (¬ Sound w (.accept pid sockfd stale err) ∧ accept pid sockfd stale err w.state = none) ∨
    (Sound w (.accept pid sockfd stale err) ∧ ∃ s, accept pid sockfd stale err w.state = some (-1, s) ∧
      (s = w.state ∨ s = w.state.spend)) ∨
    ∃ links, Sound w (.accept pid sockfd stale err) ∧
      accept pid sockfd stale err w.state = some (w.state.nextFd, w.state.added pid links) ∧
      Holds ⟨w.state.added pid links, w.table.set pid w.state.nextFd (some w.state.fresh)⟩
        (l ++ [w.state.fresh]) := by
  have hget := h.getSocket_eq pid sockfd
  have hsound : Sound w (.accept pid sockfd stale err) ↔
      (w.table pid sockfd ≠ none → w.state.nextFd < 2147483647) := by
    rw [Sound, hget, ne_eq, Option.some.injEq]
  rw [hsound]
  unfold accept
  rw [hget]
  simp only [Option.bind_eq_bind, Option.bind_some]
  cases hfound : w.table pid sockfd with
  | none => exact .inr (.inl ⟨fun hne => absurd rfl hne, _, rfl, .inl rfl⟩)
  | some j =>
    have hsock := ((h.table pid sockfd j).mp hfound).2
    simp only [hsock, Option.bind_some, allocSocket_eq]
    by_cases hfd : w.state.nextFd < 2147483647
    · simp only [if_pos hfd, Option.bind_some, Bool.not_true, Bool.false_eq_true, if_false]
      by_cases herr : err < 0
      · refine .inr (.inl ⟨fun _ => hfd, _, ?_, .inr rfl⟩)
        rw [if_pos herr, h.release_alloced]
      · obtain ⟨links, hadd, hholds⟩ := h.enqueue pid stale
        refine .inr (.inr ⟨links, fun _ => hfd, ?_, hholds⟩)
        rw [if_neg herr, hadd]
        show ((w.state.added pid links).socks w.state.fresh).bind _ = _
        rw [show (w.state.added pid links).socks w.state.fresh = some _ from if_pos rfl]
        rfl
    · refine .inl ⟨fun hs => hfd (hs (Option.some_ne_none j)), ?_⟩
      rw [if_neg hfd]
      rfl

theorem Holds.close_eq (pid sockfd rc : ℤ) :
    (∃ r, r ≠ 0 ∧ close pid sockfd rc w.state = some (r, w.state)) ∨
    ∃ s k, close pid sockfd rc w.state = some (0, s) ∧
      Holds ⟨s, w.table.set pid sockfd none⟩ (l.erase k) := by
  have hget := h.getSocket_eq pid sockfd
  unfold close
  rw [hget]
  simp only [Option.bind_eq_bind, Option.bind_some]
  cases hfound : w.table pid sockfd with
  | none => exact .inl ⟨-1, by decide, rfl⟩
  | some k =>
    have hsock := ((h.table pid sockfd k).mp hfound).2
    simp only [hsock, Option.bind_some, Bool.not_true, Bool.false_eq_true, if_false]
    by_cases hrc : rc = 0
    · obtain ⟨s, s', hremove, hfree, hholds⟩ := h.remove hfound
      refine .inr ⟨s', k, ?_, hholds⟩
      simp [hrc, hremove, hfree]
    · exact .inl ⟨rc, hrc, by rw [if_neg hrc]⟩

/-- **One call.** It has a result if and only if it is sound; then the sockets are the ones of the map
again, and a call that fails has changed nothing. -/
theorem Holds.step (e : Event) : (¬ Sound w e ∧ step w e = none) ∨
    (Sound w e ∧ ∃ w' l', step w e = some w' ∧ Holds w' l') ∧ Kept w e := by
  have hne := h.ne_neg_one
  unfold Sockets.step Kept
  cases e with
  | socket pid domain stale create =>
    rcases h.socket_eq pid domain stale create with ⟨hno, hnone⟩ | ⟨hs, hfail⟩ | ⟨links, hs, hadd, hholds⟩
    · refine .inl ⟨hno, ?_⟩
      rw [call, hnone]
      rfl
    · refine .inr ⟨⟨hs, _, l, ?_, h.spend⟩, fun rc s' hcall _ => ?_⟩
      · rw [call, hfail, Option.map_some, Table.record, if_pos rfl]
      · rw [call, hfail, Option.some.injEq, Prod.mk.injEq] at hcall
        rw [← hcall.2]
        exact ⟨rfl, rfl, rfl⟩
    · refine .inr ⟨⟨hs, _, _, ?_, hholds⟩, fun rc s' hcall hfails => ?_⟩
      · rw [call, hadd, Option.map_some, Table.record, if_neg hne]
      · rw [call, hadd, Option.some.injEq, Prod.mk.injEq] at hcall
        exact absurd (hcall.1.trans hfails) hne
  | accept pid sockfd stale err =>
    rcases h.accept_eq pid sockfd stale err with ⟨hno, hnone⟩ | ⟨hs, s, hfail, hsame⟩ |
      ⟨links, hs, hadd, hholds⟩
    · refine .inl ⟨hno, ?_⟩
      rw [call, hnone]
      rfl
    · refine .inr ⟨⟨hs, ⟨s, w.table⟩, l, ?_, ?_⟩, fun rc s' hcall _ => ?_⟩
      · rw [call, hfail, Option.map_some, Table.record, if_pos rfl]
      · rcases hsame with rfl | rfl
        · exact h
        · exact h.spend
      · rw [call, hfail, Option.some.injEq, Prod.mk.injEq] at hcall
        rw [← hcall.2]
        rcases hsame with rfl | rfl <;> exact ⟨rfl, rfl, rfl⟩
    · refine .inr ⟨⟨hs, _, _, ?_, hholds⟩, fun rc s' hcall hfails => ?_⟩
      · rw [call, hadd, Option.map_some, Table.record, if_neg hne]
      · rw [call, hadd, Option.some.injEq, Prod.mk.injEq] at hcall
        exact absurd (hcall.1.trans hfails) hne
  | close pid sockfd rc =>
    rcases h.close_eq pid sockfd rc with ⟨r, hr, hfail⟩ | ⟨s, k, hclose, hholds⟩
    · refine .inr ⟨⟨trivial, w, l, ?_, h⟩, fun rc' s' hcall _ => ?_⟩
      · rw [call, hfail, Option.map_some, Table.record, if_neg hr]
      · rw [call, hfail, Option.some.injEq, Prod.mk.injEq] at hcall
        rw [← hcall.2]
        exact ⟨rfl, rfl, rfl⟩
    · refine .inr ⟨⟨trivial, _, _, ?_, hholds⟩, fun rc' s' hcall hfails => ?_⟩
      · rw [call, hclose, Option.map_some, Table.record, if_pos rfl]
      · rw [call, hclose, Option.some.injEq, Prod.mk.injEq] at hcall
        exact absurd hcall.1.symm hfails

end Calls

theorem holds_step (w : World) (e : Event) (w' : World) (h : ∃ l, Holds w l)
    (hs : step w e = some w') : ∃ l', Holds w' l' := by
  obtain ⟨l, hl⟩ := h
  rcases hl.step e with ⟨-, hnone⟩ | ⟨⟨-, w'', l', hs', hl'⟩, -⟩
  · rw [hnone] at hs
    cases hs
  · obtain rfl := Option.some.inj (hs'.symm.trans hs)
    exact ⟨l', hl'⟩

/-- **The table of sockets is a map from processes and descriptors.** Along a run of calls, with
whatever answers from the layer below, every call returns, the table is the map in every state and
each failing call leaves it as it was, if and only if no descriptor overflows and `free_socket` meets
no wild pointer. -/
theorem sockets_refine (es : List Event) :
    ((∃ t, run step start es = some t) ∧ Always step Refines start es ∧ Along step Kept start es) ↔
      Along step Sound start es := by
  have hstart : ∃ l, Holds start l := ⟨[], holds_start⟩
  have hiff : (∃ t, run step start es = some t) ∧ Always step (fun w => ∃ l, Holds w l) start es ↔
      Along step Sound start es := by
    refine run_always_iff_along (L := fun _ _ => True) (I := fun _ => True)
      (fun _ _ _ _ _ _ _ _ => trivial) (fun w e _ hw _ => ?_) trivial hstart
      (Along.of_forall fun _ _ _ => trivial)
    obtain ⟨l, hl⟩ := hw
    rcases hl.step e with ⟨hno, hnone⟩ | ⟨⟨hs, w', l', hs', hl'⟩, -⟩
    · refine iff_of_false ?_ hno
      rintro ⟨w', hs', -⟩
      rw [hnone] at hs'
      cases hs'
    · exact iff_of_true ⟨w', hs', l', hl'⟩ hs
  have halways : Always step (fun w => ∃ l, Holds w l) start es :=
    always_inv (C := fun _ _ => True) (fun w e w' hw _ hs => holds_step w e w' hw hs) hstart
      (Along.of_forall fun _ _ _ => trivial)
  rw [← hiff]
  constructor
  · rintro ⟨hrun, -⟩
    exact ⟨hrun, halways⟩
  · rintro ⟨hrun, -⟩
    refine ⟨hrun, fun es₁ es₂ u heq hu => ?_, along_inv holds_step (fun w e hw => ?_) hstart⟩
    · obtain ⟨l, hl⟩ := halways es₁ es₂ u heq hu
      exact hl.refines
    · obtain ⟨l, hl⟩ := hw
      rcases hl.step e with ⟨-, hnone⟩ | ⟨-, hkept⟩
      · intro rc s' hcall
        rw [step, hcall] at hnone
        cases hnone
      · exact hkept

/-- A listener, a connection and their end; a call for a wrong process, and one for a domain that
there is not. -/
example : Along step Sound start [.socket 7 2 .wild 0, .accept 7 4097 .wild (-1), .accept 7 4097 .null 0,
    .close 8 4097 0, .socket 8 1 .sock 0, .close 7 4097 0, .close 7 4099 0] := by decide

/-- The memory of the first socket holds an old frame at `sk`, and there is no family for its domain.
-/
theorem wild_socket : ¬ ∀ es : List Event, (∃ t, run step start es = some t) ∧
    Always step Refines start es ∧ Along step Kept start es := by
  intro hall
  obtain ⟨t, ht⟩ := (hall [.socket 7 1 .wild 0]).1
  have hnone : run step start [.socket 7 1 .wild 0] = none := by decide +kernel
  rw [hnone] at ht
  cases ht

end ToyIP.Stack.Sockets
