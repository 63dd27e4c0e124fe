import ToyIP.Lib.CircularList
import ToyIP.Lib.Run

/-! # The table of the client library

`liblevelip.c` keeps an entry for each of its sockets in the list `lvlip_socks`, by which a call
finds the connection of its descriptor. `lvl_socket` and `lvl_accept` add an entry, `lvl_close`
takes it out.

`lvl_accept` and `lvl_close` wait for the answer of the stack first. `lvl_socket` adds its entry
before it asks, and where the answer is an error it frees the entry without taking it out of the
list. `table_matches` says that this is the only failure. -/

namespace ToyIP.Stack.Lvlip

open ToyIP.Lib.CircularList ToyIP.Lib.Run

/-- The nodes of the list: its head `lvlip_socks` and the member `list` of each entry. -/
inductive Node
  | lvlipSocks
  | sock (k : ℕ)
  deriving DecidableEq, Repr

/-- `struct lvlip_sock` less its `list`. -/
structure LvlipSock where
  lvlfd : ℤ
  fd : ℤ
  deriving DecidableEq, Repr

/-- The entries are numbered as they are allocated, `fresh` is the next one. The last field records
the descriptors that were returned and not yet closed successfully. -/
structure State where
  links : Links Node
  socks : ℕ → Option LvlipSock
  fresh : ℕ
  opened : List ℤ

def init : State where
  links := fun a => if a = .lvlipSocks then some ⟨some .lvlipSocks, some .lvlipSocks⟩ else none
  socks := fun _ => none
  fresh := 0
  opened := []

/-- What the stack answers. -/
inductive Answer
  | success (rc : ℕ)
  | error
  deriving DecidableEq, Repr

/-- `err->rc` in the response: `ipc_write_rc` and `ipc_accept` send -1 for every error. -/
def Answer.rc : Answer → ℤ
  | .success rc => rc
  | .error => -1

def State.setSock (s : State) (k : ℕ) (sock : Option LvlipSock) : State :=
  { s with socks := fun j => if j = k then sock else s.socks j }

/-- `lvlip_alloc`: `memset` clears the pointers. -/
def lvlipAlloc (s : State) (sock : LvlipSock) : State :=
  { s.setSock s.fresh (some sock) with
    links := put s.links (.sock s.fresh) (some ⟨none, none⟩), fresh := s.fresh + 1 }

/-- `lvlip_free`. -/
def lvlipFree (k : ℕ) (s : State) : State :=
  { s.setSock k none with links := put s.links (.sock k) none }

def lvlipSocksEnqueue (k : ℕ) (s : State) : Option State := do
  let links ← listAddTail s.links (.sock k) .lvlipSocks
  some { s with links := links }

def lvlipSocksRemove (k : ℕ) (s : State) : Option State := do
  let links ← listDelInit s.links (.sock k)
  some { s with links := links }

/-- Whether the entry at a node is for the descriptor; no result for an entry that is freed. -/
def hasFd (s : State) (fd : ℤ) : Node → Option Bool
  | .lvlipSocks => none
  | .sock k => (s.socks k).map fun sock => sock.fd == fd

/-- The number of the first entry for the descriptor. Without one the callers run into their
`assert(0)`. -/
def lvlipGetSock (fd : ℤ) (s : State) : Option ℕ := do
  let found ← (getNext s.links .lvlipSocks).bind
    (listFind s.links .lvlipSocks (hasFd s fd) (s.fresh + 1))
  match found with
  | some (.sock k) => some k
  | _ => none

/-- `is_socket_supported`. -/
def isSocketSupported (domain type protocol : ℕ) : Bool :=
  domain = 2 && (type = 1 || type = 2) && (protocol = 0 || protocol = 6)

/-- `lvl_socket`, with the connection `lvlfd` of `init_socket`. -/
def lvlSocket (domain type protocol : ℕ) (lvlfd : ℤ) (answer : Answer) (s : State) :
    Option (ℤ × State) := do
  let k := s.fresh
  if isSocketSupported domain type protocol then
    let s ← lvlipSocksEnqueue k (lvlipAlloc s ⟨lvlfd, 0⟩)
    let sockfd := answer.rc
    if sockfd = -1 then some (-1, lvlipFree k s)
    else some (sockfd, s.setSock k (some ⟨lvlfd, sockfd⟩))
  else none

/-- `lvl_accept`. -/
def lvlAccept (sockfd : ℤ) (answer : Answer) (s : State) : Option (ℤ × State) := do
  let sock ← (lvlipGetSock sockfd s).bind s.socks
  if answer.rc < 0 then some (answer.rc, s)
  else
    let k := s.fresh
    let s ← lvlipSocksEnqueue k (lvlipAlloc s ⟨sock.lvlfd, answer.rc⟩)
    some (answer.rc, s)

/-- `lvl_close`. -/
def lvlClose (fd : ℤ) (answer : Answer) (s : State) : Option (ℤ × State) := do
  let k ← lvlipGetSock fd s
  if answer.rc = 0 then
    let s ← lvlipSocksRemove k s
    some (answer.rc, lvlipFree k s)
  else some (answer.rc, s)

inductive Event
  | socket (domain type protocol : ℕ) (lvlfd : ℤ) (answer : Answer)
  | accept (sockfd : ℤ) (answer : Answer)
  | close (fd : ℤ) (answer : Answer)
  deriving DecidableEq, Repr

/-- A call, and the record of what is open. No result: the call does not return, or it follows a
pointer to memory that was freed. -/
def step (s : State) : Event → Option State
  | .socket domain type protocol lvlfd answer =>
    (lvlSocket domain type protocol lvlfd answer s).map fun r =>
      if 0 ≤ r.1 then { r.2 with opened := s.opened ++ [r.1] } else r.2
  | .accept sockfd answer => (lvlAccept sockfd answer s).map fun r =>
      if 0 ≤ r.1 then { r.2 with opened := s.opened ++ [r.1] } else r.2
  | .close fd answer => (lvlClose fd answer s).map fun r =>
      if r.1 = 0 then { r.2 with opened := s.opened.erase fd } else r.2

/-! ### The property and its condition -/

/-- The descriptor of an entry. -/
def State.fd (s : State) (k : ℕ) : Option ℤ := (s.socks k).map LvlipSock.fd

/-- **The table matches.** It is a list of live entries, one for each descriptor that is open. -/
def Matches (s : State) : Prop :=
  ∃ l : List ℕ, Ring s.links .lvlipSocks (l.map .sock) ∧ l.map s.fd = s.opened.map some

/-- The answer of a call that fails. -/
def Fails : Event → Prop
  | .socket _ _ _ _ answer | .accept _ answer => answer.rc < 0
  | .close _ answer => answer.rc ≠ 0

/-- A call that fails leaves the table as it was. -/
def Kept (s : State) (e : Event) : Prop :=
  Fails e → ∀ s', step s e = some s' →
    s'.links = s.links ∧ s'.socks = s.socks ∧ s'.opened = s.opened

/-- No `lvl_socket` fails. -/
def Sound : Event → Prop
  | .socket _ _ _ _ answer => answer ≠ .error
  | .accept _ _ | .close _ _ => True

instance (e : Event) : Decidable (Sound e) := by
  unfold Sound
  cases e <;> infer_instance

/-! ### The list -/

/-- What has not been allocated is not there. -/
def Fresh (s : State) : Prop := ∀ j, s.fresh ≤ j → s.socks j = none

/-- The table with its entries. -/
structure Table (s : State) (l : List ℕ) : Prop where
  ring : Ring s.links .lvlipSocks (l.map .sock)
  fds : l.map s.fd = s.opened.map some
  fresh : Fresh s

section Table

variable {s : State} {l : List ℕ} (h : Table s l)
include h

theorem Table.live {k : ℕ} (hk : k ∈ l) : ∃ sock, s.socks k = some sock := by
  have hmem : s.fd k ∈ s.opened.map some := h.fds ▸ List.mem_map_of_mem hk
  obtain ⟨fd, -, hfd⟩ := List.mem_map.mp hmem
  obtain ⟨sock, hsock, -⟩ := Option.map_eq_some_iff.mp hfd.symm
  exact ⟨sock, hsock⟩

theorem Table.lt_fresh {k : ℕ} (hk : k ∈ l) : k < s.fresh := by
  obtain ⟨sock, hsock⟩ := h.live hk
  by_contra hle
  rw [h.fresh k (by omega)] at hsock
  cases hsock

theorem Table.nodup : l.Nodup := List.Nodup.of_map _ (List.nodup_cons.mp h.ring.1).2

theorem Table.length_le : l.length ≤ s.fresh := by
  have hsub : l ⊆ List.range s.fresh := fun k hk => List.mem_range.mpr (h.lt_fresh hk)
  simpa using (List.subperm_of_subset h.nodup hsub).length_le

/-- The search finds the first entry that has the descriptor. -/
theorem Table.lvlipGetSock_eq (fd : ℤ) :
    lvlipGetSock fd s = l.find? fun k => s.fd k == some fd := by
  have hf : ∀ a ∈ l.map Node.sock,
      hasFd s fd a = some (match a with | .lvlipSocks => false | .sock k => s.fd k == some fd) := by
    intro a ha
    obtain ⟨k, hk, rfl⟩ := List.mem_map.mp ha
    obtain ⟨sock, hsock⟩ := h.live hk
    simp [hasFd, State.fd, hsock]
  have hfind := h.ring.listFind hf [] _ (s.fresh + 1) rfl
    (Nat.lt_succ_of_le (by simpa using h.length_le))
  rw [lvlipGetSock, h.ring.next_head, Option.bind_some, hfind, List.find?_map]
  show (match (l.find? fun k => s.fd k == some fd).map Node.sock with
    | some (.sock k) => some k
    | _ => none) = _
  cases l.find? fun k => s.fd k == some fd <;> rfl

/-- A new entry at the end of the list. -/
theorem Table.enqueue : ∃ links, Ring links .lvlipSocks ((l ++ [s.fresh]).map .sock) ∧ ∀ sock,
    lvlipSocksEnqueue s.fresh (lvlipAlloc s sock) = some { lvlipAlloc s sock with links := links } := by
  have hnot : Node.sock s.fresh ∉ Node.lvlipSocks :: l.map Node.sock := by
    simpa using fun hk => Nat.lt_irrefl _ (h.lt_fresh hk)
  have hring : Ring (put s.links (.sock s.fresh) (some ⟨none, none⟩)) .lvlipSocks (l.map .sock) := by
    refine h.ring.congr fun a ha => if_neg ?_
    rintro rfl
    exact hnot ha
  obtain ⟨links, hadd, hring', -, -⟩ := hring.listAddTail (by simp [put]) hnot
  refine ⟨links, by rwa [List.map_append, List.map_singleton], fun sock => ?_⟩
  rw [lvlipSocksEnqueue, show listAddTail (lvlipAlloc s sock).links _ _ = some links from hadd]
  rfl

end Table

theorem Table.matches {s : State} {l : List ℕ} (h : Table s l) : Matches s := ⟨l, h.ring, h.fds⟩

theorem table_init : Table init [] := by
  refine ⟨ring_nil.mpr ⟨?_, ?_⟩, rfl, fun j _ => rfl⟩ <;> rfl

/-- An entry for a descriptor that is returned. -/
theorem table_add {s s' : State} {l : List ℕ} (h : Table s l) (sock : LvlipSock)
    (hring : Ring s'.links .lvlipSocks ((l ++ [s.fresh]).map .sock))
    (hsocks : ∀ j, s'.socks j = if j = s.fresh then some sock else s.socks j)
    (hfresh : s'.fresh = s.fresh + 1) (hopened : s'.opened = s.opened ++ [sock.fd]) :
    Table s' (l ++ [s.fresh]) := by
  refine ⟨hring, ?_, fun j hj => ?_⟩
  · have hold : ∀ k ∈ l, s'.fd k = s.fd k := by
      intro k hk
      rw [State.fd, hsocks, if_neg (h.lt_fresh hk).ne, State.fd]
    have hnew : s'.fd s.fresh = some sock.fd := by
      rw [State.fd, hsocks, if_pos rfl]
      rfl
    rw [List.map_append, List.map_congr_left hold, h.fds, List.map_singleton, hnew, hopened,
      List.map_append, List.map_singleton]
  · rw [hsocks, if_neg (by omega)]
    exact h.fresh j (by omega)

/-! ### The calls -/

theorem Answer.rc_lt_zero (answer : Answer) : answer.rc < 0 ↔ answer = .error := by
  cases answer with
  | success rc => simp [Answer.rc]
  | error => simp [Answer.rc]

/-- `lvl_socket` after its entry was added. -/
theorem step_socket {s : State} {links : Links Node}
    (hadd : ∀ sock, lvlipSocksEnqueue s.fresh (lvlipAlloc s sock) =
      some { lvlipAlloc s sock with links := links })
    {domain type protocol : ℕ} (hsupp : isSocketSupported domain type protocol = true) (lvlfd : ℤ)
    (answer : Answer) :
    step s (.socket domain type protocol lvlfd answer) = some
      (match answer with
      | .success rc =>
        { ({ lvlipAlloc s ⟨lvlfd, 0⟩ with links := links }.setSock s.fresh (some ⟨lvlfd, rc⟩)) with
          opened := s.opened ++ [(rc : ℤ)] }
      | .error => lvlipFree s.fresh { lvlipAlloc s ⟨lvlfd, 0⟩ with links := links }) := by
  rw [step, lvlSocket, if_pos hsupp, hadd]
  cases answer with
  | success rc =>
    have hrc : (rc : ℤ) ≠ -1 := by omega
    simp [Answer.rc, hrc]
  | error => simp [Answer.rc]

theorem matches_socket {s s' : State} {l : List ℕ} (h : Table s l) {domain type protocol : ℕ}
    {lvlfd : ℤ} {answer : Answer}
    (hs : step s (.socket domain type protocol lvlfd answer) = some s') :
    (Matches s' ↔ answer ≠ .error) ∧ Fresh s' := by
  obtain ⟨links, hring, hadd⟩ := h.enqueue
  have hsupp : isSocketSupported domain type protocol = true := by
    by_contra hno
    rw [step, lvlSocket, if_neg hno] at hs
    cases hs
  rw [step_socket hadd hsupp, Option.some.injEq] at hs
  cases answer with
  | success rc =>
    have htable : Table s' (l ++ [s.fresh]) := by
      subst hs
      refine table_add h ⟨lvlfd, rc⟩ hring (fun j => ?_) rfl rfl
      by_cases hj : j = s.fresh <;> simp [State.setSock, lvlipAlloc, hj]
    exact ⟨iff_of_true htable.matches (by simp), htable.fresh⟩
  | error =>
    subst hs
    refine ⟨iff_of_false ?_ fun hne => hne rfl, fun j hj => ?_⟩
    · -- the entry is in the list when it is freed
      rintro ⟨l', hring', -⟩
      rw [List.map_append, List.map_singleton] at hring
      exact hring.not_ring_of_freed hring'
    · have hj' : s.fresh < j := hj
      simpa [lvlipFree, State.setSock, lvlipAlloc, hj'.ne'] using h.fresh j hj'.le

/-- An `lvl_accept` that fails changes nothing. -/
theorem accept_fails {s s' : State} {sockfd : ℤ} {answer : Answer} (hrc : answer.rc < 0)
    (hs : step s (.accept sockfd answer) = some s') : s' = s := by
  obtain ⟨r, hr, rfl⟩ := Option.map_eq_some_iff.mp hs
  obtain ⟨sock, -, hr⟩ := Option.bind_eq_some_iff.mp hr
  rw [if_pos hrc, Option.some.injEq] at hr
  rw [← hr]
  exact if_neg (by simpa using hrc)

/-- Nor does an `lvl_close` that fails. -/
theorem close_fails {s s' : State} {fd : ℤ} {answer : Answer} (hrc : answer.rc ≠ 0)
    (hs : step s (.close fd answer) = some s') : s' = s := by
  obtain ⟨r, hr, rfl⟩ := Option.map_eq_some_iff.mp hs
  obtain ⟨k, -, hr⟩ := Option.bind_eq_some_iff.mp hr
  rw [if_neg hrc, Option.some.injEq] at hr
  rw [← hr]
  exact if_neg hrc

theorem table_accept {s s' : State} {l : List ℕ} (h : Table s l) {sockfd : ℤ} {answer : Answer}
    (hs : step s (.accept sockfd answer) = some s') : ∃ l', Table s' l' := by
  by_cases hrc : answer.rc < 0
  · rw [accept_fails hrc hs]
    exact ⟨l, h⟩
  · obtain ⟨links, hring, hadd⟩ := h.enqueue
    obtain ⟨r, hr, rfl⟩ := Option.map_eq_some_iff.mp hs
    obtain ⟨sock, -, hr⟩ := Option.bind_eq_some_iff.mp hr
    rw [if_neg hrc] at hr
    simp only [hadd, Option.bind_eq_bind, Option.bind_some, Option.some.injEq] at hr
    subst hr
    rw [if_pos (not_lt.mp hrc)]
    exact ⟨_, table_add h ⟨sock.lvlfd, answer.rc⟩ hring (fun j => rfl) rfl rfl⟩

/-- A descriptor that is closed leaves the table with its entry. -/
theorem table_close {s s' : State} {l : List ℕ} (h : Table s l) {fd : ℤ} {answer : Answer}
    (hs : step s (.close fd answer) = some s') : ∃ l', Table s' l' := by
  by_cases hrc : answer.rc = 0
  · obtain ⟨r, hr, rfl⟩ := Option.map_eq_some_iff.mp hs
    obtain ⟨k, hk, hr⟩ := Option.bind_eq_some_iff.mp hr
    rw [h.lvlipGetSock_eq, List.find?_eq_some_iff_append] at hk
    obtain ⟨hfd, xs, ys, rfl, hxs⟩ := hk
    have hring := h.ring
    rw [List.map_append, List.map_cons] at hring
    obtain ⟨links, hdel, hring', -, -⟩ := hring.listDelInit
    have hremove : lvlipSocksRemove k s = some { s with links := links } := by
      rw [lvlipSocksRemove, hdel]
      rfl
    rw [if_pos hrc, hremove] at hr
    simp only [Option.bind_eq_bind, Option.bind_some, Option.some.injEq] at hr
    subst hr
    rw [if_pos hrc]
    have hk : k ∉ xs ++ ys := (List.nodup_cons.mp (List.nodup_middle.mp h.nodup)).1
    refine ⟨xs ++ ys, ?_, ?_, fun j hj => ?_⟩
    · rw [List.map_append]
      refine hring'.congr fun a ha => if_neg ?_
      rintro rfl
      simp only [List.mem_cons, reduceCtorEq, false_or, ← List.map_append, List.mem_map,
        Node.sock.injEq, exists_eq_right] at ha
      exact hk ha
    · have hother : ∀ j ∈ xs ++ ys, (lvlipFree k s).fd j = s.fd j := by
        intro j hj
        have hjk : j ≠ k := by rintro rfl; exact hk hj
        simp [State.fd, lvlipFree, State.setSock, hjk]
      have hfd' : s.fd k = some fd := by simpa using hfd
      have hnot : some fd ∉ xs.map s.fd := by
        intro hmem
        obtain ⟨j, hj, hjfd⟩ := List.mem_map.mp hmem
        exact absurd hjfd (by simpa using hxs j hj)
      show (xs ++ ys).map (lvlipFree k s).fd = (s.opened.erase fd).map some
      rw [List.map_congr_left hother, List.map_erase (Option.some_injective ℤ), ← h.fds,
        List.map_append, List.map_append, List.map_cons, hfd', List.erase_append_right _ hnot,
        List.erase_cons_head]
    · show (if j = k then none else s.socks j) = none
      split_ifs
      · rfl
      · exact h.fresh j hj
  · rw [close_fails hrc hs]
    exact ⟨l, h⟩

theorem matches_step {s s' : State} {e : Event} (hf : Fresh s) (hm : Matches s)
    (hs : step s e = some s') : (Matches s' ↔ Sound e) ∧ Fresh s' := by
  obtain ⟨l, hring, hfds⟩ := hm
  have h : Table s l := ⟨hring, hfds, hf⟩
  cases e with
  | socket domain type protocol lvlfd answer => exact matches_socket h hs
  | accept sockfd answer =>
    obtain ⟨l', h'⟩ := table_accept h hs
    exact ⟨iff_of_true h'.matches trivial, h'.fresh⟩
  | close fd answer =>
    obtain ⟨l', h'⟩ := table_close h hs
    exact ⟨iff_of_true h'.matches trivial, h'.fresh⟩

theorem kept_of_sound {s : State} {e : Event} (h : Sound e) : Kept s e := by
  intro hfails s' hs
  cases e with
  | socket domain type protocol lvlfd answer => exact absurd (answer.rc_lt_zero.mp hfails) h
  | accept sockfd answer =>
    rw [accept_fails hfails hs]
    exact ⟨rfl, rfl, rfl⟩
  | close fd answer =>
    rw [close_fails hfails hs]
    exact ⟨rfl, rfl, rfl⟩

/-- **The table of the client library.** Along a run the table matches the open descriptors in every
state and every call that fails leaves it as it was, if and only if no `lvl_socket` fails. -/
theorem table_matches {es : List Event} {t : State} (hr : run step init es = some t) :
    Always step Matches init es ∧ Along step Kept init es ↔ ∀ e ∈ es, Sound e := by
  have hiff : Always step Matches init es ↔ Along step (fun _ e => Sound e) init es :=
    always_iff_along (I := Fresh) (fun s e s' hf hm hs _ => (matches_step hf hm hs).2)
      (fun s e s' hf hm hs => (matches_step hf hm hs).1) table_init.fresh table_init.matches hr
  constructor
  · rintro ⟨halways, -⟩
    exact Along.forall_of_run hr (hiff.mp halways)
  · intro hall
    have hsound : Along step (fun _ e => Sound e) init es := Along.of_forall fun e he _ => hall e he
    exact ⟨hiff.mpr hsound, hsound.mono fun s e he => kept_of_sound he⟩

/-- A socket is opened, listens and accepts a connection; both are closed. -/
def oneConnection : List Event :=
  [.socket 2 1 0 7 (.success 4097), .accept 4097 .error, .accept 4097 (.success 4098),
    .close 4097 (.success 0), .close 4098 .error, .close 4098 (.success 0)]

theorem table_matches_oneConnection :
    Always step Matches init oneConnection ∧ Along step Kept init oneConnection := by
  have hrun : (run step init oneConnection).isSome = true := by decide
  obtain ⟨t, ht⟩ := Option.isSome_iff_exists.mp hrun
  exact (table_matches ht).mpr (by decide)

/-- The stack has no socket for the first call; its entry is freed and stays in the list. -/
theorem freed_entry : ¬ ∀ (es : List Event) (t : State), run step init es = some t →
    Always step Matches init es ∧ Along step Kept init es := by
  intro hall
  have hrun : (run step init [.socket 2 1 0 7 .error]).map
      (fun t => (getNext t.links .lvlipSocks, (t.links (.sock 0)).isSome)) =
      some (some (some (.sock 0)), false) := by decide
  obtain ⟨t, ht, heq⟩ := Option.map_eq_some_iff.mp hrun
  obtain ⟨hnext, hfreed⟩ := Prod.mk.inj heq
  obtain ⟨l, hring, -⟩ := (hall _ t ht).1 _ [] t (List.append_nil _).symm ht
  have hin := (hring.succ (List.mem_cons_self ..) hnext).1
  rw [hring.isSome hin] at hfreed
  cases hfreed

end ToyIP.Stack.Lvlip
