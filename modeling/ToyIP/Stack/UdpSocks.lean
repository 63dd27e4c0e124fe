import ToyIP.Lib.CircularList
import ToyIP.Lib.Run

/-! # The table of UDP socks

`udp_sock.c` keeps the socks in the list `udp_socks`, by which `udp_lookup_sock` finds the sock of a
port. `udp_connect`, `udp_sendto` and `udp_bind` give a sock its port and put it into the list,
`udp_close` takes it out and frees it.

The three have different tests for whether the sock is in the list already. `udp_connect` asks for
its address, which is right. `udp_sendto` asks `udp_sk_in_socks`, which is true of a sock in no
list, so it adds the sock again on each call and cuts the socks in between out of the list.
`udp_bind` takes the result of `udp_set_sport` for an error even when the port has been set, so it
adds no sock at all. And `udp_close` takes a sock out that has never been added. `table_exact` says
which calls keep the table exact, and that no others do. -/

namespace ToyIP.Stack.UdpSocks

open ToyIP.Lib.CircularList ToyIP.Lib.Run

/-- The nodes of the list: its head `udp_socks` and the member `link` of each sock. -/
inductive Node
  | udpSocks
  | sock (k : ℕ)
  deriving DecidableEq, Repr

inductive SockState
  | unconnected
  | connected
  | closed
  deriving DecidableEq, Repr

/-- A `struct sockaddr_in`, in host byte order. -/
structure Addr where
  sinAddr : UInt32
  sinPort : UInt16
  deriving DecidableEq, Repr

/-- What the functions use of a `struct sock` less its `link`. -/
structure Sock where
  state : SockState
  saddr : UInt32
  sport : UInt16
  daddr : UInt32
  dport : UInt16
  deriving DecidableEq, Repr

/-- A datagram on its way to `ip_output`, with the sock that has sent it. -/
structure Datagram where
  sock : ℕ
  saddr : UInt32
  sport : UInt16
  daddr : UInt32
  dport : UInt16
  data : List UInt8
  deriving DecidableEq, Repr

/-- The table. Socks are numbered as they are allocated, `fresh` is the next one; `port` is the
static variable of `udp_generate_port`. The last three fields record which socks have been given a
local port, which have been added to the list, and what has been sent. -/
structure State where
  links : Links Node
  socks : ℕ → Option Sock
  fresh : ℕ
  port : ℤ
  tick : UInt32
  given : List ℕ
  attached : List ℕ
  sent : List Datagram

def init : State where
  links := fun a => if a = .udpSocks then some ⟨some .udpSocks, some .udpSocks⟩ else none
  socks := fun _ => none
  fresh := 0
  port := 40000
  tick := 0
  given := []
  attached := []
  sent := []

/-- `"10.0.1.4"`. -/
def stackaddr : UInt32 := 0x0A000104

def State.setSock (s : State) (k : ℕ) (sk : Option Sock) : State :=
  { s with socks := fun j => if j = k then sk else s.socks j }

/-- `udp_alloc_sock`: `memset` clears all pointers. -/
def udpAllocSock (s : State) : State :=
  { s.setSock s.fresh (some ⟨.unconnected, 0, 0, 0, 0⟩) with
    links := put s.links (.sock s.fresh) (some ⟨none, none⟩), fresh := s.fresh + 1 }

def timerGetTick (s : State) : ℤ := s.tick.toInt32.toInt

/-- The next port, an `int` cut to 16 bits. -/
def udpGeneratePort (s : State) : UInt16 :=
  UInt16.ofInt (s.port + 1 + (timerGetTick s).tmod 10000)

/-- The sock is given a port. -/
def State.give (s : State) (k : ℕ) (sk : Sock) : State :=
  { s.setSock k (some sk) with given := k :: s.given }

/-- `list_add_tail(&sk->link, &udp_socks)`. -/
def udpSocksAdd (k : ℕ) (s : State) : Option State := do
  let links ← listAddTail s.links (.sock k) .udpSocks
  some { s with links := links, attached := k :: s.attached }

def udpSkInSocks (k : ℕ) (s : State) : Option Bool :=
  (getNext s.links (.sock k)).map fun next => next == some (.sock k)

/-- Whether the sock at a node has the port; no result for a sock that is freed. -/
def hasPort (s : State) (port : UInt16) : Node → Option Bool
  | .udpSocks => none
  | .sock k => (s.socks k).map fun sk => sk.sport == port

/-- The first sock in the list that has the port. -/
def udpLookupSock (dport : UInt16) (s : State) : Option (Option Node) :=
  (getNext s.links .udpSocks).bind (listFind s.links .udpSocks (hasPort s dport) (s.fresh + 1))

def udpPortUsed (pt : UInt16) (s : State) : Option Bool :=
  (udpLookupSock pt s).map Option.isSome

def udpSend (k : ℕ) (buf : List UInt8) (s : State) : Option State := do
  let sk ← s.socks k
  some { s with sent := ⟨k, sk.saddr, sk.sport, sk.daddr, sk.dport, buf⟩ :: s.sent }

def udpConnect (k : ℕ) (addr : Addr) (s : State) : Option State := do
  let sk ← s.socks k
  let s' := { s.give k { sk with
    dport := addr.sinPort, daddr := addr.sinAddr, saddr := stackaddr, sport := udpGeneratePort s,
    state := .connected } with port := s.port + 1 }
  if sk.saddr ≠ 0 then some s' else udpSocksAdd k s'

def udpSendto (k : ℕ) (buf : List UInt8) (skaddr : Option Addr) (s : State) : Option State := do
  let sk ← s.socks k
  match sk.state, skaddr with
  | .connected, none => udpSend k buf s
  | .unconnected, some addr => do
    let s' := { s.give k { sk with
      daddr := addr.sinAddr, dport := addr.sinPort, sport := udpGeneratePort s, saddr := stackaddr }
      with port := s.port + 1 }
    let inSocks ← udpSkInSocks k s'
    let s'' ← (if inSocks then some s' else udpSocksAdd k s')
    udpSend k buf s''
  | _, _ => some s

/-- `udp_set_sport` with its result `rc`, which stays -1 when the port is set. -/
def udpSetSport (k : ℕ) (sport : UInt16) (s : State) : Option (ℤ × State) :=
  if sport = 0 then some (-1, s)
  else do
    let used ← udpPortUsed sport s
    if used then some (-1, s)
    else do
      let sk ← s.socks k
      some (-1, s.give k { sk with sport := sport })

def udpBind (k : ℕ) (saddr : Addr) (s : State) : Option (ℤ × State) := do
  let sk ← s.socks k
  if sk.saddr ≠ 0 then some (-1, s)
  else do
    let (err, s) ← udpSetSport k saddr.sinPort s
    if err < 0 then some (-1, s)
    else do
      let sk ← s.socks k
      let s ← udpSocksAdd k (s.setSock k (some { sk with saddr := saddr.sinAddr }))
      some (0, s)

/-- `udp_socks_remove` and `udp_free_sock`. -/
def udpClose (k : ℕ) (s : State) : Option State := do
  let links ← listDelInit s.links (.sock k)
  some ({ s with links := put links (.sock k) none }.setSock k none)

inductive Event
  | create
  | connect (k : ℕ) (addr : Addr)
  | sendto (k : ℕ) (buf : List UInt8) (skaddr : Option Addr)
  | bind (k : ℕ) (saddr : Addr)
  | close (k : ℕ)
  | tick
  deriving DecidableEq, Repr

/-- What a call does; no result means that it follows a null pointer, reads freed memory or does not
end. -/
def step (s : State) : Event → Option State
  | .create => some (udpAllocSock s)
  | .connect k addr => udpConnect k addr s
  | .sendto k buf skaddr => udpSendto k buf skaddr s
  | .bind k saddr => (udpBind k saddr s).map Prod.snd
  | .close k => udpClose k s
  | .tick => some { s with tick := s.tick + 1 }

/-! ### The property and its condition -/

def Open (s : State) (k : ℕ) : Prop := (s.socks k).isSome = true

/-- The calls name socks that are open. -/
def InUse (s : State) : Event → Prop
  | .create | .tick => True
  | .connect k _ | .sendto k _ _ | .bind k _ | .close k => Open s k

/-- **The table is exact.** It is a list without repetition; the open socks that have been given a
port, or have been added once, are in it; all of its socks are open and have been added; and the
port of every datagram of an open sock leads to that sock. -/
structure Exact (s : State) (l : List ℕ) : Prop where
  ring : Ring s.links .udpSocks (l.map .sock)
  mem : ∀ k, Open s k → k ∈ s.given ∨ k ∈ s.attached → k ∈ l
  attached : ∀ k ∈ l, Open s k ∧ k ∈ s.attached
  lookup : ∀ d ∈ s.sent, Open s d.sock → udpLookupSock d.sport s = some (some (.sock d.sock))

/-- The socks in the list. -/
def table (s : State) : List ℕ :=
  (nodes s.links .udpSocks s.fresh (getNext s.links .udpSocks).join).filterMap fun
    | .udpSocks => none
    | .sock k => some k

def HasPort (s : State) (port : UInt16) (k : ℕ) : Prop := hasPort s port (.sock k) = some true

instance (s : State) (port : UInt16) (k : ℕ) : Decidable (HasPort s port k) :=
  inferInstanceAs (Decidable (_ = _))

/-- The sock has sent a datagram. -/
def HasSent (s : State) (k : ℕ) : Prop := ∃ d ∈ s.sent, d.sock = k

/-- The calls that keep the table exact. `udp_connect` gives a sock that has sent its port again,
and no sock behind it in the table has sent from that port. `udp_sendto` with an address is called
on a sock that is not in the table, and gives it a port that none there has; without an address it
is called where no sock before it in the table has its port. `udp_bind` sets no port. `udp_close` is
called on a sock in the table. -/
def Sound (s : State) : Event → Prop
  | .create | .tick => True
  | .connect k _ => k ∈ table s → (HasSent s k → HasPort s (udpGeneratePort s) k) ∧
      ∀ j ∈ ((table s).dropWhile (· ≠ k)).tail, HasSent s j → ¬ HasPort s (udpGeneratePort s) j
  | .sendto k _ (some _) => (s.socks k).map Sock.state = some .unconnected →
      k ∉ table s ∧ ∀ j ∈ table s, ¬ HasPort s (udpGeneratePort s) j
  | .sendto k _ none => (s.socks k).map Sock.state = some .connected →
      ∀ j ∈ (table s).takeWhile (· ≠ k), (s.socks j).map Sock.sport ≠ (s.socks k).map Sock.sport
  | .bind k saddr => (s.socks k).map Sock.saddr = some 0 →
      saddr.sinPort = 0 ∨ ∃ j ∈ table s, HasPort s saddr.sinPort j
  | .close k => k ∈ table s

instance (s : State) (k : ℕ) : Decidable (Open s k) := inferInstanceAs (Decidable (_ = true))

instance (s : State) (k : ℕ) : Decidable (HasSent s k) :=
  inferInstanceAs (Decidable (∃ d ∈ s.sent, d.sock = k))

instance (s : State) (e : Event) : Decidable (InUse s e) := by
  unfold InUse; cases e <;> infer_instance

instance (s : State) (e : Event) : Decidable (Sound s e) := by
  unfold Sound
  rcases e with _ | _ | ⟨_, _, _ | _⟩ | _ | _ | _ <;> infer_instance

/-! ### The list and its search -/

/-- The list of an exact table, as far as the search reads it. -/
structure Listed (s : State) (l : List ℕ) : Prop where
  ring : Ring s.links .udpSocks (l.map .sock)
  isOpen : ∀ k ∈ l, Open s k
  length : l.length ≤ s.fresh

/-- The first sock of the list that has the port. -/
def First (s : State) (l : List ℕ) (port : UInt16) (k : ℕ) : Prop :=
  HasPort s port k ∧ ∃ xs ys, l = xs ++ k :: ys ∧ ∀ j ∈ xs, ¬ HasPort s port j

theorem Listed.nodup {s : State} {l : List ℕ} (h : Listed s l) : l.Nodup :=
  List.Nodup.of_map _ (List.nodup_cons.mp h.ring.1).2

theorem Listed.lookup_eq {s : State} {l : List ℕ} (h : Listed s l) (port : UInt16) :
    udpLookupSock port s = some ((l.find? fun k => HasPort s port k).map .sock) := by
  have hf : ∀ a ∈ l.map Node.sock, hasPort s port a = some (decide (hasPort s port a = some true)) := by
    intro a ha
    obtain ⟨k, hk, rfl⟩ := List.mem_map.mp ha
    obtain ⟨sk, hsk⟩ := Option.isSome_iff_exists.mp (h.isOpen k hk)
    simp [hasPort, hsk, beq_eq_decide]
  have hfind := h.ring.listFind hf [] _ _ rfl
    (Nat.lt_succ_of_le (by simpa using h.length) : (l.map Node.sock).length < s.fresh + 1)
  rw [udpLookupSock, h.ring.next_head, Option.bind_some, hfind, List.find?_map]
  rfl

theorem Listed.lookup_iff {s : State} {l : List ℕ} (h : Listed s l) (port : UInt16) (k : ℕ) :
    udpLookupSock port s = some (some (.sock k)) ↔ First s l port k := by
  rw [h.lookup_eq, Option.some.injEq, Option.map_eq_some_iff]
  simp [List.find?_eq_some_iff_append, First]

theorem Listed.table_eq {s : State} {l : List ℕ} (h : Listed s l) : table s = l := by
  have hnodes := h.ring.nodes [] _ _ rfl
    (by simpa using h.length : (l.map Node.sock).length ≤ s.fresh)
  rw [table, h.ring.next_head]
  simp only [Option.join_some, hnodes, List.filterMap_map]
  exact List.filterMap_some

/-- A list around one of its socks. -/
theorem takeWhile_dropWhile {l xs ys : List ℕ} {k : ℕ} (h : l = xs ++ k :: ys) (hnodup : l.Nodup) :
    l.takeWhile (· ≠ k) = xs ∧ l.dropWhile (· ≠ k) = k :: ys := by
  subst h
  have hxs : ∀ x ∈ xs, decide (x ≠ k) = true := by
    intro x hx
    rw [decide_eq_true_eq]
    exact (List.nodup_append.mp hnodup).2.2 x hx k (by simp)
  constructor
  · rw [List.takeWhile_append_of_pos hxs]
    simp
  · rw [List.dropWhile_append_of_pos hxs]
    simp

/-- Of two socks of a list one stands before the other. -/
theorem before_iff {l xs ys us vs : List ℕ} {j k : ℕ} (hnodup : l.Nodup) (hk : l = xs ++ k :: ys)
    (hj : l = us ++ j :: vs) (hne : j ≠ k) : k ∈ us ↔ j ∈ ys := by
  rcases List.append_eq_append_iff.mp (hk.symm.trans hj) with ⟨as, hus, has⟩ | ⟨as, hxs, has⟩
  · cases as with
    | nil => exact absurd (List.cons.inj has).1.symm hne
    | cons a as =>
      obtain ⟨rfl, hys⟩ := List.cons.inj has
      exact iff_of_true (by rw [hus]; simp) (by rw [hys]; simp)
  · cases as with
    | nil => exact absurd (List.cons.inj has).1 hne
    | cons a as =>
      obtain ⟨rfl, -⟩ := List.cons.inj has
      rw [hk] at hnodup
      have hsides := List.nodup_append.mp hnodup
      refine iff_of_false (fun hin => ?_) (fun hin => ?_)
      · exact hsides.2.2 k (by rw [hxs]; simp [hin]) k (by simp) rfl
      · exact hsides.2.2 j (by rw [hxs]; simp) j (by simp [hin]) rfl

/-! ### The invariant -/

/-- What holds of all states with an exact table: the socks and the records are below `fresh`, a
sock that has never been added has null pointers, and has no address. -/
structure Inv (s : State) : Prop where
  fresh : ∀ k, s.fresh ≤ k → s.socks k = none ∧ k ∉ s.given ∧ k ∉ s.attached
  blank : ∀ k, Open s k → k ∉ s.attached → s.links (.sock k) = some ⟨none, none⟩
  saddr : ∀ k sk, s.socks k = some sk → (sk.saddr ≠ 0 ↔ k ∈ s.attached)
  connected : ∀ k sk, s.socks k = some sk → sk.state = .connected → k ∈ s.attached
  sent : ∀ k, HasSent s k → k ∈ s.attached

theorem Inv.lt_fresh {s : State} {k : ℕ} (h : Inv s) (hk : Open s k) : k < s.fresh := by
  by_contra hle
  rw [Open, (h.fresh k (Nat.le_of_not_lt hle)).1] at hk
  exact Bool.false_ne_true hk

theorem listed_of_lt {s : State} {l : List ℕ} (hring : Ring s.links .udpSocks (l.map .sock))
    (hopen : ∀ k ∈ l, Open s k) (hlt : ∀ k ∈ l, k < s.fresh) : Listed s l := by
  refine ⟨hring, hopen, ?_⟩
  have hnodup : l.Nodup := List.Nodup.of_map _ (List.nodup_cons.mp hring.1).2
  have hsub : l ⊆ List.range s.fresh := fun k hk => List.mem_range.mpr (hlt k hk)
  have hle := (List.subperm_of_subset hnodup hsub).length_le
  rwa [List.length_range] at hle

theorem Exact.listed {s : State} {l : List ℕ} (h : Exact s l) (hi : Inv s) : Listed s l :=
  listed_of_lt h.ring (fun k hk => (h.attached k hk).1) fun k hk => hi.lt_fresh (h.attached k hk).1

theorem Exact.mem_iff {s : State} {l : List ℕ} {k : ℕ} (h : Exact s l) (hk : Open s k) :
    k ∈ l ↔ k ∈ s.attached :=
  ⟨fun hl => (h.attached k hl).2, fun ha => h.mem k hk (.inr ha)⟩

theorem Exact.first {s : State} {l : List ℕ} {d : Datagram} (h : Exact s l) (hi : Inv s)
    (hd : d ∈ s.sent) (hopen : Open s d.sock) : First s l d.sport d.sock :=
  ((h.listed hi).lookup_iff _ _).mp (h.lookup d hd hopen)

theorem inv_init : Inv init := by
  constructor <;> simp [init, Open, HasSent]

theorem exact_init : Exact init [] := by
  refine ⟨?_, ?_, ?_, ?_⟩
  · rw [List.map_nil, ring_nil]
    exact ⟨rfl, rfl⟩
  · simp [init, Open]
  · simp
  · simp [init]

/-- The search of a list depends on the ports of its socks only. -/
theorem First.congr {s s' : State} {l : List ℕ} {port : UInt16} {k : ℕ} (h : First s l port k)
    (heq : ∀ j ∈ l, HasPort s' port j ↔ HasPort s port j) : First s' l port k := by
  obtain ⟨hport, xs, ys, rfl, hxs⟩ := h
  refine ⟨(heq k (by simp)).mpr hport, xs, ys, rfl, fun j hj => ?_⟩
  rw [heq j (by simp [hj])]
  exact hxs j hj

theorem First.mem {s : State} {l : List ℕ} {port : UInt16} {k : ℕ} (h : First s l port k) : k ∈ l := by
  obtain ⟨-, xs, ys, rfl, -⟩ := h
  simp

theorem First.append {s : State} {l : List ℕ} {port : UInt16} {k : ℕ} (h : First s l port k)
    (m : List ℕ) : First s (l ++ m) port k := by
  obtain ⟨hport, xs, ys, rfl, hxs⟩ := h
  exact ⟨hport, xs, ys ++ m, by simp, hxs⟩

/-- Taking another sock out of the list leaves the first one first. -/
theorem First.remove {s : State} {xs ys : List ℕ} {port : UInt16} {j k : ℕ}
    (h : First s (xs ++ k :: ys) port j) (hne : j ≠ k) : First s (xs ++ ys) port j := by
  obtain ⟨hport, us, vs, heq, hus⟩ := h
  rcases List.append_eq_append_iff.mp heq with ⟨as, rfl, has⟩ | ⟨as, rfl, has⟩
  · cases as with
    | nil =>
      rw [List.nil_append] at has
      exact absurd (List.cons.inj has).1.symm hne
    | cons a as =>
      obtain ⟨rfl, rfl⟩ := List.cons.inj has
      exact ⟨hport, xs ++ as, vs, by simp, fun i hi => hus i (by simp at hi ⊢; tauto)⟩
  · cases as with
    | nil =>
      rw [List.nil_append] at has
      exact absurd (List.cons.inj has).1 hne
    | cons a as =>
      obtain ⟨rfl, rfl⟩ := List.cons.inj has
      exact ⟨hport, us, as ++ ys, by simp, hus⟩

theorem hasPort_congr {s s' : State} {k : ℕ} (h : s'.socks k = s.socks k) (port : UInt16) :
    HasPort s' port k ↔ HasPort s port k := by
  simp only [HasPort, hasPort, h]

theorem hasPort_iff {s : State} {k : ℕ} {sk : Sock} (h : s.socks k = some sk) (port : UInt16) :
    HasPort s port k ↔ sk.sport = port := by
  simp [HasPort, hasPort, h]

/-- An exact table, by the first socks of its list. -/
theorem exact_of_first {s : State} {l : List ℕ} (hring : Ring s.links .udpSocks (l.map .sock))
    (hmem : ∀ k, Open s k → k ∈ s.given ∨ k ∈ s.attached → k ∈ l)
    (hatt : ∀ k ∈ l, Open s k ∧ k ∈ s.attached) (hlt : ∀ k ∈ l, k < s.fresh)
    (hfirst : ∀ d ∈ s.sent, Open s d.sock → First s l d.sport d.sock) : Exact s l := by
  have hl := listed_of_lt hring (fun k hk => (hatt k hk).1) hlt
  exact ⟨hring, hmem, hatt, fun d hd ho => (hl.lookup_iff _ _).mpr (hfirst d hd ho)⟩

/-! ### The calls -/

theorem exact_create {s : State} {l : List ℕ} (h : Exact s l) (hi : Inv s) :
    Exact (udpAllocSock s) l := by
  have hne : ∀ {k}, k ∈ l → k ≠ s.fresh := fun hk => (hi.lt_fresh (h.attached _ hk).1).ne
  have hsocks : ∀ {k}, k ≠ s.fresh → (udpAllocSock s).socks k = s.socks k := fun hk => if_neg hk
  refine exact_of_first ?_ ?_ ?_ ?_ ?_
  · refine h.ring.congr fun a ha => if_neg ?_
    rintro rfl
    simp at ha
    exact hne ha rfl
  · intro k hk hgiven
    have hkf : k ≠ s.fresh := by
      rintro rfl
      exact hgiven.elim (hi.fresh _ le_rfl).2.1 (hi.fresh _ le_rfl).2.2
    rw [Open, hsocks hkf] at hk
    exact h.mem k hk hgiven
  · intro k hk
    rw [Open, hsocks (hne hk)]
    exact h.attached k hk
  · intro k hk
    exact Nat.lt_succ_of_lt (hi.lt_fresh (h.attached k hk).1)
  · intro d hd hopen
    have hk : d.sock ≠ s.fresh := fun hk => (hi.fresh _ le_rfl).2.2 (hk ▸ hi.sent d.sock ⟨d, hd, rfl⟩)
    rw [Open, hsocks hk] at hopen
    exact (h.first hi hd hopen).congr fun j hj => hasPort_congr (hsocks (hne hj)) _

/-- The state of `udp_connect` and `udp_sendto` with the port given. -/
def given (s : State) (k : ℕ) (sk : Sock) : State := { s.give k sk with port := s.port + 1 }

theorem given_socks (s : State) (k j : ℕ) (sk : Sock) :
    (given s k sk).socks j = if j = k then some sk else s.socks j := rfl

/-- The state with the sock added as well. -/
def added (s : State) (k : ℕ) (sk : Sock) (links : Links Node) : State :=
  { given s k sk with links := links, attached := k :: s.attached }

/-- A sock that is in no list is added, with a port. -/
theorem exact_add {s : State} {l : List ℕ} {k : ℕ} (h : Exact s l) (hi : Inv s) (hopen : Open s k)
    (hk : k ∉ l) (sk : Sock) : ∃ m, udpSocksAdd k (given s k sk) = some (added s k sk m) ∧
      Exact (added s k sk m) (l ++ [k]) ∧ Listed (added s k sk m) (l ++ [k]) ∧
      ∀ j, j ∉ l → j ≠ k → m (.sock j) = s.links (.sock j) := by
  have hcell : (s.links (.sock k)).isSome := by
    rw [hi.blank k hopen fun ha => hk (h.mem k hopen (.inr ha))]
    rfl
  obtain ⟨m, hm, hring, hframe, -⟩ := h.ring.listAddTail hcell (by simp [hk])
  have hring' : Ring m .udpSocks ((l ++ [k]).map .sock) := by
    rw [List.map_append]
    exact hring
  have hatt : ∀ j ∈ l ++ [k], ((given s k sk).socks j).isSome ∧ j ∈ k :: s.attached := by
    intro j hj
    rw [given_socks]
    by_cases hjk : j = k
    · simp [hjk]
    · have hjl : j ∈ l := by simpa [hjk] using hj
      rw [if_neg hjk]
      exact ⟨(h.attached j hjl).1, List.mem_cons_of_mem _ (h.attached j hjl).2⟩
  have hlt : ∀ j ∈ l ++ [k], j < s.fresh := by
    intro j hj
    rcases List.mem_append.mp hj with hj | hj
    · exact hi.lt_fresh (h.attached j hj).1
    · obtain rfl := List.mem_singleton.mp hj
      exact hi.lt_fresh hopen
  refine ⟨m, Option.bind_eq_some_iff.mpr ⟨m, hm, rfl⟩, exact_of_first hring' (fun j hj hg => ?_) hatt hlt
    fun d hd hdo => ?_, listed_of_lt hring' (fun j hj => (hatt j hj).1) hlt, fun j hjl hjk => ?_⟩
  · by_cases hjk : j = k
    · simp [hjk]
    · have hj : Open (given s k sk) j := hj
      rw [Open, given_socks, if_neg hjk] at hj
      refine List.mem_append_left _ (h.mem j hj ?_)
      simpa [added, given, State.give, State.setSock, hjk] using hg
  · have hdk : d.sock ≠ k := by
      rintro rfl
      exact hk (h.mem _ hopen (.inr (hi.sent _ ⟨d, hd, rfl⟩)))
    have hdo : Open (given s k sk) d.sock := hdo
    rw [Open, given_socks, if_neg hdk] at hdo
    refine ((h.first hi hd hdo).congr fun j hj => hasPort_congr ?_ _).append [k]
    exact (given_socks s k j sk).trans (if_neg fun hjk : j = k => hk (hjk ▸ hj))
  · exact hframe _ (by simp [hjl, hjk])

/-- A sock of the list gets another port. -/
theorem exact_given_iff {s : State} {l xs ys : List ℕ} {k : ℕ} (sk : Sock) (h : Exact s l)
    (hi : Inv s) (hl : l = xs ++ k :: ys) :
    (∃ l', Exact (given s k sk) l') ↔ (HasSent s k → HasPort s sk.sport k) ∧
      ∀ j ∈ ys, HasSent s j → ¬ HasPort s sk.sport j := by
  have hnodup := (h.listed hi).nodup
  have hk : k ∈ l := by rw [hl]; simp
  have hopen := (h.attached k hk).1
  have hnot : k ∉ xs ++ ys := (List.nodup_cons.mp (List.nodup_middle.mp (hl ▸ hnodup))).1
  have hopen' : ∀ j, Open (given s k sk) j ↔ Open s j := by
    intro j
    rw [Open, given_socks]
    split
    · subst j; simp [hopen]
    · rfl
  have hport : ∀ {j}, j ≠ k → ∀ port, HasPort (given s k sk) port j ↔ HasPort s port j :=
    fun hj => hasPort_congr (if_neg hj)
  have hportk : ∀ port, HasPort (given s k sk) port k ↔ sk.sport = port :=
    hasPort_iff (if_pos rfl)
  have hfind : ∀ {d}, d ∈ s.sent → Open s d.sock → First s l d.sport d.sock := fun hd => h.first hi hd
  have hsent : ∀ {d}, d ∈ s.sent → d.sock ∈ l → Open s d.sock := fun _ hd => (h.attached _ hd).1
  constructor
  · rintro ⟨l', h'⟩
    have hll : l.map Node.sock = l'.map Node.sock := h.ring.unique h'.ring
    obtain rfl : l = l' := List.map_injective_iff.mpr (fun _ _ heq => Node.sock.inj heq) hll
    have hfind' : ∀ {d}, d ∈ s.sent → Open s d.sock → First (given s k sk) l d.sport d.sock := by
      intro d hd hdo
      refine ((listed_of_lt h'.ring (fun j hj => (h'.attached j hj).1) fun j hj => ?_).lookup_iff
        _ _).mp (h'.lookup d hd ((hopen' _).mpr hdo))
      exact hi.lt_fresh (h.attached j hj).1
    constructor
    · rintro ⟨d, hd, rfl⟩
      have hold := (hfind hd hopen).1
      have hnew := (hportk _).mp (hfind' hd hopen).1
      rwa [hnew]
    · rintro j hj ⟨d, hd, rfl⟩ hp
      have hjl : d.sock ∈ l := by rw [hl]; simp [hj]
      obtain ⟨hold, -⟩ := hfind hd (hsent hd hjl)
      obtain ⟨-, us, vs, heq, hus⟩ := hfind' hd (hsent hd hjl)
      -- `k` stands before the sock and now has its port
      have hport' : sk.sport = d.sport := by
        obtain ⟨sk', hsk', -⟩ := Option.map_eq_some_iff.mp hp
        rw [hasPort_iff hsk'] at hp hold
        rw [← hp, hold]
      have hjk : d.sock ≠ k := by
        rintro heq'
        exact hnot (by rw [← heq']; simp [hj])
      exact hus k ((before_iff hnodup hl heq hjk).mpr hj) ((hportk _).mpr hport')
  · rintro ⟨hown, hothers⟩
    refine ⟨l, exact_of_first h.ring (fun j hj hg => ?_) (fun j hj => ?_) (fun j hj => ?_)
      fun d hd hdo => ?_⟩
    · refine h.mem j ((hopen' j).mp hj) ?_
      by_cases hjk : j = k
      · exact .inr (hjk ▸ (h.attached k hk).2)
      · simpa [given, State.give, State.setSock, hjk] using hg
    · exact ⟨(hopen' j).mpr (h.attached j hj).1, (h.attached j hj).2⟩
    · exact hi.lt_fresh (h.attached j hj).1
    · obtain ⟨hold, us, vs, heq, hus⟩ := hfind hd ((hopen' _).mp hdo)
      by_cases hdk : d.sock = k
      · have hp := hown ⟨d, hd, hdk⟩
        refine ⟨?_, us, vs, heq, fun j hj => ?_⟩
        · rw [hdk] at hold ⊢
          obtain ⟨sk', hsk', -⟩ := Option.map_eq_some_iff.mp hp
          rw [hasPort_iff hsk'] at hp hold
          rw [hportk, ← hp, hold]
        · have hjk : j ≠ k := by
            rintro rfl
            rw [heq, hdk] at hnodup
            exact (List.nodup_append.mp hnodup).2.2 j hj j (by simp) rfl
          rw [hport hjk]
          exact hus j hj
      · refine ⟨(hport hdk _).mpr hold, us, vs, heq, fun j hj => ?_⟩
        by_cases hjk : j = k
        · rw [hjk, hportk]
          intro hp
          have hbehind := (before_iff hnodup hl heq hdk).mp (hjk ▸ hj)
          exact hothers d.sock hbehind ⟨d, hd, rfl⟩ (hp ▸ hold)
        · rw [hport hjk]
          exact hus j hj

/-- A sock of the list sends a datagram. -/
theorem exact_send_iff {s : State} {l xs ys : List ℕ} {k : ℕ} {sk : Sock} (h : Exact s l)
    (hlist : Listed s l) (hl : l = xs ++ k :: ys) (hsk : s.socks k = some sk) (buf : List UInt8) :
    ∃ s', udpSend k buf s = some s' ∧
      ((∃ l', Exact s' l') ↔ ∀ j ∈ xs, ¬ HasPort s sk.sport j) := by
  refine ⟨_, by rw [udpSend, hsk]; rfl, ?_⟩
  have hopen : Open s k := by simp [Open, hsk]
  constructor
  · rintro ⟨l', h'⟩ j hj
    have hll : l.map Node.sock = l'.map Node.sock := h.ring.unique h'.ring
    obtain rfl : l = l' := List.map_injective_iff.mpr (fun _ _ heq => Node.sock.inj heq) hll
    have hlook := h'.lookup _ (List.mem_cons_self ..) hopen
    obtain ⟨-, us, vs, heq, hus⟩ := (hlist.lookup_iff sk.sport k).mp hlook
    obtain ⟨rfl, -⟩ : xs = us ∧ ys = vs := by
      have h₁ := takeWhile_dropWhile hl hlist.nodup
      have h₂ := takeWhile_dropWhile heq hlist.nodup
      exact ⟨h₁.1.symm.trans h₂.1, (List.cons.inj (h₁.2.symm.trans h₂.2)).2⟩
    exact hus j hj
  · intro hxs
    refine ⟨l, h.ring, h.mem, h.attached, fun d hd hdo => ?_⟩
    rcases List.mem_cons.mp hd with rfl | hd
    · exact (hlist.lookup_iff sk.sport k).mpr ⟨(hasPort_iff hsk _).mpr rfl, xs, ys, hl, hxs⟩
    · exact h.lookup d hd hdo

theorem step_connect_eq {s : State} {k : ℕ} {sk : Sock} (hsk : s.socks k = some sk) (addr : Addr) :
    step s (.connect k addr) =
      if sk.saddr ≠ 0 then some (given s k ⟨.connected, stackaddr, udpGeneratePort s, addr.sinAddr,
        addr.sinPort⟩)
      else udpSocksAdd k (given s k ⟨.connected, stackaddr, udpGeneratePort s, addr.sinAddr,
        addr.sinPort⟩) := by
  rw [step, udpConnect, hsk]
  rfl

theorem step_connect {s : State} {l : List ℕ} {k : ℕ} (h : Exact s l) (hi : Inv s) (hopen : Open s k)
    (addr : Addr) :
    (∃ s', step s (.connect k addr) = some s' ∧ ∃ l', Exact s' l') ↔ Sound s (.connect k addr) := by
  obtain ⟨sk, hsk⟩ := Option.isSome_iff_exists.mp hopen
  have htable := (h.listed hi).table_eq
  have hstep := step_connect_eq hsk addr
  have hsaddr := hi.saddr k sk hsk
  by_cases hk : k ∈ l
  · obtain ⟨xs, ys, hl⟩ := List.append_of_mem hk
    rw [if_pos (hsaddr.mpr ((h.mem_iff hopen).mp hk))] at hstep
    have hiff := exact_given_iff ⟨.connected, stackaddr, udpGeneratePort s, addr.sinAddr,
      addr.sinPort⟩ h hi hl
    have htail : (l.dropWhile (· ≠ k)).tail = ys := by
      rw [(takeWhile_dropWhile hl (h.listed hi).nodup).2, List.tail_cons]
    simp only [Sound, htable, htail, hk, true_imp_iff]
    rw [← hiff, hstep]
    simp
  · rw [if_neg fun hne => hk ((h.mem_iff hopen).mpr (hsaddr.mp hne))] at hstep
    obtain ⟨m, hm, hexact, -, -⟩ := exact_add h hi hopen hk ⟨.connected, stackaddr, udpGeneratePort s,
      addr.sinAddr, addr.sinPort⟩
    refine iff_of_true ⟨_, hstep.trans hm, _, hexact⟩ ?_
    intro hin
    exact absurd (htable ▸ hin) hk

theorem step_sendto_none {s : State} {l : List ℕ} {k : ℕ} (h : Exact s l) (hi : Inv s)
    (hopen : Open s k) (buf : List UInt8) :
    (∃ s', step s (.sendto k buf none) = some s' ∧ ∃ l', Exact s' l') ↔
      Sound s (.sendto k buf none) := by
  obtain ⟨sk, hsk⟩ := Option.isSome_iff_exists.mp hopen
  by_cases hconn : sk.state = .connected
  · have hk : k ∈ l := (h.mem_iff hopen).mpr (hi.connected k sk hsk hconn)
    obtain ⟨xs, ys, hl⟩ := List.append_of_mem hk
    obtain ⟨s', hs', hiff⟩ := exact_send_iff h (h.listed hi) hl hsk buf
    have hstep : step s (.sendto k buf none) = some s' := by
      rw [step, udpSendto, hsk]
      simp only [Option.bind_eq_bind, Option.bind_some, hconn, hs']
    have hhead := (takeWhile_dropWhile hl (h.listed hi).nodup).1
    simp only [hstep, Option.some.injEq, exists_eq_left', hiff, Sound, (h.listed hi).table_eq, hhead,
      hsk, Option.map_some, hconn, true_imp_iff]
    refine forall₂_congr fun j hj => not_congr ?_
    obtain ⟨skj, hskj⟩ := Option.isSome_iff_exists.mp (h.attached j (by rw [hl]; simp [hj])).1
    rw [hasPort_iff hskj, hskj, Option.map_some, Option.some.injEq]
  · have hstep : step s (.sendto k buf none) = some s := by
      rw [step, udpSendto, hsk]
      cases hst : sk.state <;> simp_all
    refine iff_of_true ⟨s, hstep, l, h⟩ fun hc => absurd ?_ hconn
    rw [hsk] at hc
    exact Option.some.inj hc

/-- `udp_sk_in_socks` is false of every open sock, in the table or not. -/
theorem udpSkInSocks_eq {s : State} {l : List ℕ} {k : ℕ} (h : Exact s l) (hi : Inv s)
    (hopen : Open s k) : udpSkInSocks k s = some false := by
  by_cases hk : k ∈ l
  · obtain ⟨xs, ys, rfl⟩ := List.append_of_mem hk
    have hnext := h.ring
    rw [List.map_append, List.map_cons] at hnext
    have hnot : k ∉ ys := by
      have := (h.listed hi).nodup
      exact (List.nodup_cons.mp (List.nodup_append.mp this).2.1).1
    rw [udpSkInSocks, hnext.next]
    cases ys with
    | nil => rfl
    | cons j ys =>
      have hjk : j ≠ k := by rintro rfl; exact hnot (by simp)
      simp [hjk]
  · rw [udpSkInSocks, getNext, hi.blank k hopen fun ha => hk ((h.mem_iff hopen).mpr ha)]
    rfl

/-- `udp_sendto` with an address on a sock without connection. -/
theorem step_sendto_eq {s : State} {l : List ℕ} {k : ℕ} {sk : Sock} (h : Exact s l) (hi : Inv s)
    (hsk : s.socks k = some sk) (hst : sk.state = .unconnected) (buf : List UInt8) (addr : Addr) :
    step s (.sendto k buf (some addr)) = (udpSocksAdd k (given s k ⟨sk.state, stackaddr,
      udpGeneratePort s, addr.sinAddr, addr.sinPort⟩)).bind (udpSend k buf) := by
  have hopen : Open s k := by simp [Open, hsk]
  have hin : ∀ sk', udpSkInSocks k (given s k sk') = some false := fun _ =>
    show udpSkInSocks k s = some false from udpSkInSocks_eq h hi hopen
  rw [step, udpSendto, hsk]
  simp only [Option.bind_eq_bind, Option.bind_some, hst]
  erw [hin]
  rfl

theorem step_sendto_some {s : State} {l : List ℕ} {k : ℕ} (h : Exact s l) (hi : Inv s)
    (hopen : Open s k) (buf : List UInt8) (addr : Addr) :
    (∃ s', step s (.sendto k buf (some addr)) = some s' ∧ ∃ l', Exact s' l') ↔
      Sound s (.sendto k buf (some addr)) := by
  obtain ⟨sk, hsk⟩ := Option.isSome_iff_exists.mp hopen
  have htable := (h.listed hi).table_eq
  by_cases hst : sk.state = .unconnected
  · have hstep := step_sendto_eq h hi hsk hst buf addr
    by_cases hk : k ∈ l
    · -- the sock is added for the second time
      refine iff_of_false ?_ fun hs => (hs (by rw [hsk, ← hst]; rfl)).1 (htable ▸ hk)
      rintro ⟨s', hs', l', h'⟩
      rw [hstep] at hs'
      obtain ⟨s₁, hs₁, hs'⟩ := Option.bind_eq_some_iff.mp hs'
      obtain ⟨m, hm, hs₁⟩ := Option.bind_eq_some_iff.mp hs₁
      obtain ⟨sk', -, hs'⟩ := Option.bind_eq_some_iff.mp hs'
      obtain rfl := Option.some.inj hs₁
      obtain rfl := Option.some.inj hs'
      obtain ⟨xs, ys, rfl⟩ := List.append_of_mem hk
      have hring := h.ring
      rw [List.map_append, List.map_cons] at hring
      exact hring.not_ring_of_listAddTail hm h'.ring
    · obtain ⟨m, hm, hexact, hlist, -⟩ := exact_add h hi hopen hk ⟨sk.state, stackaddr,
        udpGeneratePort s, addr.sinAddr, addr.sinPort⟩
      obtain ⟨s', hs', hiff⟩ := exact_send_iff hexact hlist (rfl : l ++ [k] = l ++ k :: [])
        ((given_socks s k k _).trans (if_pos rfl)) buf
      rw [hstep, hm, Option.bind_some, hs']
      simp only [Option.some.injEq, exists_eq_left', hiff, Sound, hsk, Option.map_some, hst, htable, hk,
        not_false_eq_true, true_and, true_imp_iff]
      refine forall₂_congr fun j hj => not_congr (hasPort_congr ?_ _)
      exact (given_socks s k j _).trans (if_neg fun hjk : j = k => hk (hjk ▸ hj))
  · have hstep : step s (.sendto k buf (some addr)) = some s := by
      rw [step, udpSendto, hsk]
      cases hst' : sk.state <;> simp_all
    refine iff_of_true ⟨s, hstep, l, h⟩ fun hu => absurd ?_ hst
    rw [hsk] at hu
    exact Option.some.inj hu

theorem udpPortUsed_eq {s : State} {l : List ℕ} (h : Listed s l) (port : UInt16) :
    udpPortUsed port s = some (decide (∃ j ∈ l, HasPort s port j)) := by
  rw [udpPortUsed, h.lookup_eq, Option.map_some, Option.isSome_map, Option.some.injEq,
    Bool.eq_iff_iff, List.find?_isSome]
  simp

/-- `udp_bind` sets a port that is free, of a sock without address, and does nothing else. -/
theorem step_bind_eq {s : State} {l : List ℕ} {k : ℕ} {sk : Sock} (h : Listed s l)
    (hsk : s.socks k = some sk) (saddr : Addr) :
    step s (.bind k saddr) = some (if sk.saddr = 0 ∧ saddr.sinPort ≠ 0 ∧
      ¬ ∃ j ∈ l, HasPort s saddr.sinPort j then s.give k { sk with sport := saddr.sinPort } else s) := by
  have hused := udpPortUsed_eq h saddr.sinPort
  by_cases haddr : sk.saddr = 0
  · by_cases hport : saddr.sinPort = 0
    · simp [step, udpBind, hsk, udpSetSport, hport]
    · by_cases hin : ∃ j ∈ l, HasPort s saddr.sinPort j
      · rw [if_neg fun hc => hc.2.2 hin]
        simp [step, udpBind, hsk, haddr, udpSetSport, hport, hused, hin]
      · rw [if_pos ⟨haddr, hport, hin⟩]
        simp [step, udpBind, hsk, haddr, udpSetSport, hport, hused, hin]
  · simp [step, udpBind, hsk, haddr]

/-- A sock that has a port and has not been added is not in the table. -/
theorem not_exact_give {s : State} {l' : List ℕ} {k : ℕ} {sk sk' : Sock} (hi : Inv s)
    (hsk : s.socks k = some sk) (haddr : sk.saddr = 0) : ¬ Exact (s.give k sk') l' := by
  intro h'
  have hmem := h'.mem k (by simp [Open, State.give, State.setSock]) (.inl (List.mem_cons_self ..))
  exact (hi.saddr k sk hsk).mpr (h'.attached k hmem).2 haddr

theorem step_bind {s : State} {l : List ℕ} {k : ℕ} (h : Exact s l) (hi : Inv s) (hopen : Open s k)
    (saddr : Addr) :
    (∃ s', step s (.bind k saddr) = some s' ∧ ∃ l', Exact s' l') ↔ Sound s (.bind k saddr) := by
  obtain ⟨sk, hsk⟩ := Option.isSome_iff_exists.mp hopen
  rw [step_bind_eq (h.listed hi) hsk saddr, Sound, (h.listed hi).table_eq, hsk, Option.map_some,
    Option.some.injEq]
  split
  next hset =>
    obtain ⟨haddr, hport, hfree⟩ := hset
    refine iff_of_false ?_ fun hs => (hs haddr).elim hport hfree
    rintro ⟨s', hs', l', h'⟩
    exact not_exact_give hi hsk haddr (Option.some.inj hs' ▸ h')
  next hkeep =>
    refine iff_of_true ⟨s, rfl, l, h⟩ fun haddr => ?_
    by_contra hnot
    exact hkeep ⟨haddr, not_or.mp hnot⟩

theorem close_eq {s s' : State} {k : ℕ} (hs : step s (.close k) = some s') : ∃ m,
    listDelInit s.links (.sock k) = some m ∧
      s' = { s with links := put m (.sock k) none }.setSock k none := by
  obtain ⟨m, hm, hs⟩ := Option.bind_eq_some_iff.mp hs
  exact ⟨m, hm, (Option.some.inj hs).symm⟩

theorem step_close {s : State} {l : List ℕ} {k : ℕ} (h : Exact s l) (hi : Inv s) (hopen : Open s k) :
    (∃ s', step s (.close k) = some s' ∧ ∃ l', Exact s' l') ↔ Sound s (.close k) := by
  have hlist := h.listed hi
  rw [Sound, hlist.table_eq]
  constructor
  · rintro ⟨s', hs', -⟩
    obtain ⟨m, hm, -⟩ := close_eq hs'
    by_contra hk
    -- the pointers of a sock that has never been added are null
    have hblank := hi.blank k hopen fun ha => hk ((h.mem_iff hopen).mpr ha)
    simp [listDelInit, listDel, getPrev, getNext, hblank, setNext] at hm
  · intro hk
    obtain ⟨xs, ys, rfl⟩ := List.append_of_mem hk
    have hring := h.ring
    rw [List.map_append, List.map_cons] at hring
    obtain ⟨m, hm, hring', -, -, -⟩ := hring.listDelInit
    have hnot : k ∉ xs ++ ys := (List.nodup_cons.mp (List.nodup_middle.mp hlist.nodup)).1
    have hmem : ∀ {j}, j ∈ xs ++ ys → j ∈ xs ++ k :: ys ∧ j ≠ k := by
      intro j hj
      refine ⟨by simp at hj ⊢; tauto, ?_⟩
      rintro rfl
      exact hnot hj
    refine ⟨{ s with links := put m (.sock k) none }.setSock k none,
      Option.bind_eq_some_iff.mpr ⟨m, hm, rfl⟩, xs ++ ys, exact_of_first ?_ ?_ ?_ ?_ ?_⟩
    · rw [List.map_append]
      refine hring'.congr fun a ha => if_neg ?_
      rintro rfl
      simp at ha hnot
      tauto
    · intro j hj hg
      by_cases hjk : j = k
      · simp [Open, State.setSock, hjk] at hj
      · have hin := h.mem j (by simpa [Open, State.setSock, hjk] using hj) hg
        simp [hjk] at hin ⊢
        exact hin
    · intro j hj
      obtain ⟨hjl, hjk⟩ := hmem hj
      exact ⟨by simpa [Open, State.setSock, hjk] using (h.attached j hjl).1, (h.attached j hjl).2⟩
    · intro j hj
      exact hi.lt_fresh (h.attached j (hmem hj).1).1
    · intro d hd hdo
      by_cases hdk : d.sock = k
      · simp [Open, State.setSock, hdk] at hdo
      · have hfirst := h.first hi hd (by simpa [Open, State.setSock, hdk] using hdo)
        refine (hfirst.remove hdk).congr fun j hj => hasPort_congr ?_ _
        exact if_neg (hmem hj).2

/-! ### Every run -/

theorem inv_create {s : State} (hi : Inv s) : Inv (udpAllocSock s) := by
  have hfresh := hi.fresh s.fresh le_rfl
  refine ⟨fun k hk => ?_, fun k hk ha => ?_, fun k sk hsk => ?_, fun k sk hsk hc => ?_, hi.sent⟩
  · have hk' : s.fresh < k := hk
    obtain ⟨h₁, h₂⟩ := hi.fresh k hk'.le
    exact ⟨(if_neg hk'.ne').trans h₁, h₂⟩
  · by_cases hkf : k = s.fresh
    · simp [udpAllocSock, put, hkf]
    · have hold := hi.blank k (by simpa [Open, udpAllocSock, State.setSock, hkf] using hk) ha
      simpa [udpAllocSock, put, hkf] using hold
  · by_cases hkf : k = s.fresh
    · obtain rfl : (⟨.unconnected, 0, 0, 0, 0⟩ : Sock) = sk := by
        simpa [udpAllocSock, State.setSock, hkf] using hsk
      exact iff_of_false (fun hne => hne rfl) (hkf ▸ hfresh.2.2)
    · exact hi.saddr k sk (by simpa [udpAllocSock, State.setSock, hkf] using hsk)
  · by_cases hkf : k = s.fresh
    · obtain rfl : (⟨.unconnected, 0, 0, 0, 0⟩ : Sock) = sk := by
        simpa [udpAllocSock, State.setSock, hkf] using hsk
      cases hc
    · exact hi.connected k sk (by simpa [udpAllocSock, State.setSock, hkf] using hsk) hc

/-- One sock gets an address and is in the table, and may send. -/
theorem inv_put {s s' : State} {k : ℕ} {sk : Sock} (hi : Inv s) (hopen : Open s k)
    (hfresh : s'.fresh = s.fresh) (hsocks : s'.socks = (given s k sk).socks) (hsaddr : sk.saddr ≠ 0)
    (hgiven : s'.given = k :: s.given) (hatt : ∀ j, j ∈ s'.attached ↔ j = k ∨ j ∈ s.attached)
    (hlinks : ∀ j, j ∉ s'.attached → s'.links (.sock j) = s.links (.sock j))
    (hsent : ∀ j, HasSent s' j → j = k ∨ HasSent s j) : Inv s' := by
  have hother : ∀ j, j ≠ k → s'.socks j = s.socks j := by
    intro j hj
    rw [hsocks, given_socks, if_neg hj]
  have hself : s'.socks k = some sk := by rw [hsocks, given_socks, if_pos rfl]
  refine ⟨fun j hj => ?_, fun j hj ha => ?_, fun j sk' hsk => ?_, fun j sk' hsk hc => ?_, fun j hj => ?_⟩
  · rw [hfresh] at hj
    obtain ⟨h₁, h₂, h₃⟩ := hi.fresh j hj
    have hjk : j ≠ k := by
      rintro rfl
      exact Nat.lt_irrefl _ (Nat.lt_of_lt_of_le (hi.lt_fresh hopen) hj)
    rw [hother j hjk, hgiven, hatt]
    simp [h₁, h₂, h₃, hjk]
  · obtain ⟨hjk, hja⟩ := not_or.mp ((not_congr (hatt j)).mp ha)
    rw [Open, hother j hjk] at hj
    rw [hlinks j ha]
    exact hi.blank j hj hja
  · rw [hatt]
    by_cases hjk : j = k
    · subst hjk
      rw [hself, Option.some.injEq] at hsk
      exact iff_of_true (hsk ▸ hsaddr) (.inl rfl)
    · rw [hother j hjk] at hsk
      rw [hi.saddr j sk' hsk]
      simp [hjk]
  · rw [hatt]
    by_cases hjk : j = k
    · exact .inl hjk
    · rw [hother j hjk] at hsk
      exact .inr (hi.connected j sk' hsk hc)
  · rw [hatt]
    exact (hsent j hj).imp id (hi.sent j)

/-- A sock of the table sends. -/
theorem inv_send {s s' : State} {k : ℕ} {buf : List UInt8} (hi : Inv s) (hk : k ∈ s.attached)
    (hs : udpSend k buf s = some s') : Inv s' := by
  obtain ⟨sk, -, hs⟩ := Option.bind_eq_some_iff.mp hs
  obtain rfl := Option.some.inj hs
  refine { hi with sent := ?_ }
  rintro j ⟨d, hd, rfl⟩
  rcases List.mem_cons.mp hd with rfl | hd
  · exact hk
  · exact hi.sent _ ⟨d, hd, rfl⟩

theorem stackaddr_ne : stackaddr ≠ 0 := by decide

theorem inv_added {s : State} {l : List ℕ} {k : ℕ} {sk : Sock} {m : Links Node} (h : Exact s l)
    (hi : Inv s) (hopen : Open s k) (hsaddr : sk.saddr ≠ 0)
    (hframe : ∀ j, j ∉ l → j ≠ k → m (.sock j) = s.links (.sock j)) : Inv (added s k sk m) := by
  refine inv_put hi hopen rfl rfl hsaddr rfl (fun j => List.mem_cons) (fun j ha => ?_)
    fun j hj => .inr hj
  obtain ⟨hjk, hja⟩ := not_or.mp ((not_congr List.mem_cons).mp ha)
  exact hframe j (fun hl => hja (h.attached j hl).2) hjk

theorem inv_step {s s' : State} {e : Event} {l l' : List ℕ} (h : Exact s l) (hi : Inv s)
    (hu : InUse s e) (hs : step s e = some s') (h' : Exact s' l') : Inv s' := by
  cases e with
  | create => exact Option.some.inj hs ▸ inv_create hi
  | tick => exact Option.some.inj hs ▸ ⟨hi.fresh, hi.blank, hi.saddr, hi.connected, hi.sent⟩
  | connect k addr =>
    have hopen : Open s k := hu
    obtain ⟨sk, hsk⟩ := Option.isSome_iff_exists.mp hopen
    have hstep := step_connect_eq hsk addr
    by_cases hk : k ∈ l
    · have hatt := (h.mem_iff hopen).mp hk
      rw [if_pos ((hi.saddr k sk hsk).mpr hatt)] at hstep
      obtain rfl := Option.some.inj (hstep.symm.trans hs)
      refine inv_put hi hopen rfl rfl stackaddr_ne rfl (fun j => ?_) (fun _ _ => rfl) fun j hj => .inr hj
      constructor
      · exact .inr
      · rintro (rfl | hj)
        · exact hatt
        · exact hj
    · rw [if_neg fun hne => hk ((h.mem_iff hopen).mpr ((hi.saddr k sk hsk).mp hne))] at hstep
      obtain ⟨m, hm, -, -, hframe⟩ := exact_add h hi hopen hk ⟨.connected, stackaddr,
        udpGeneratePort s, addr.sinAddr, addr.sinPort⟩
      obtain rfl := Option.some.inj (hm.symm.trans (hstep.symm.trans hs))
      exact inv_added h hi hopen stackaddr_ne hframe
  | sendto k buf skaddr =>
    have hopen : Open s k := hu
    obtain ⟨sk, hsk⟩ := Option.isSome_iff_exists.mp hopen
    cases skaddr with
    | none =>
      rw [step, udpSendto, hsk] at hs
      cases hst : sk.state with
      | connected =>
        simp only [Option.bind_eq_bind, Option.bind_some, hst] at hs
        exact inv_send hi (hi.connected k sk hsk hst) hs
      | unconnected | closed =>
        simp only [Option.bind_eq_bind, Option.bind_some, hst, Option.some.injEq] at hs
        exact hs ▸ hi
    | some addr =>
      by_cases hst : sk.state = .unconnected
      · have hsound := (step_sendto_some h hi hopen buf addr).mp ⟨s', hs, l', h'⟩
        have hk : k ∉ l := (h.listed hi).table_eq ▸ (hsound (by rw [hsk, ← hst]; rfl)).1
        obtain ⟨m, hm, -, -, hframe⟩ := exact_add h hi hopen hk ⟨sk.state, stackaddr,
          udpGeneratePort s, addr.sinAddr, addr.sinPort⟩
        rw [step_sendto_eq h hi hsk hst, hm, Option.bind_some] at hs
        exact inv_send (inv_added h hi hopen stackaddr_ne hframe) (List.mem_cons_self ..) hs
      · rw [step, udpSendto, hsk] at hs
        cases hst' : sk.state with
        | unconnected => exact absurd hst' hst
        | connected | closed =>
          simp only [Option.bind_eq_bind, Option.bind_some, hst', Option.some.injEq] at hs
          exact hs ▸ hi
  | bind k saddr =>
    obtain ⟨sk, hsk⟩ := Option.isSome_iff_exists.mp hu
    rw [step_bind_eq (h.listed hi) hsk saddr, Option.some.injEq] at hs
    split at hs
    next hset => exact absurd (hs ▸ h') (not_exact_give hi hsk hset.1)
    next => exact hs ▸ hi
  | close k =>
    obtain ⟨m, hm, rfl⟩ := close_eq hs
    have hk : k ∈ l := by
      have hsound := (step_close h hi hu).mp ⟨_, hs, l', h'⟩
      rwa [Sound, (h.listed hi).table_eq] at hsound
    obtain ⟨xs, ys, rfl⟩ := List.append_of_mem hk
    have hring := h.ring
    rw [List.map_append, List.map_cons] at hring
    obtain ⟨m', hm', -, -, hframe, -⟩ := hring.listDelInit
    obtain rfl := Option.some.inj (hm.symm.trans hm')
    have hsocks : ∀ {j sk}, (if j = k then none else s.socks j) = some sk → s.socks j = some sk := by
      intro j sk hj
      split at hj
      · cases hj
      · exact hj
    refine ⟨fun j hj => ?_, fun j hj ha => ?_, fun j sk hsk => hi.saddr j sk (hsocks hsk),
      fun j sk hsk => hi.connected j sk (hsocks hsk), hi.sent⟩
    · obtain ⟨h₁, h₂⟩ := hi.fresh j hj
      exact ⟨by simp [State.setSock, h₁], h₂⟩
    · have hjk : j ≠ k := by
        rintro rfl
        exact ha (h.attached j hk).2
      have hjl : j ∉ xs ++ k :: ys := fun hl => ha (h.attached j hl).2
      have hold : s.links (.sock j) = some ⟨none, none⟩ :=
        hi.blank j (by simpa [Open, State.setSock, hjk] using hj) ha
      rw [← hold, ← hframe (.sock j) (by simp at hjl ⊢; tauto)]
      exact if_neg (by simp [hjk])

/-- The condition of one call, whatever it is. -/
theorem exact_step {s : State} {e : Event} {l : List ℕ} (h : Exact s l) (hi : Inv s)
    (hu : InUse s e) : (∃ s', step s e = some s' ∧ ∃ l', Exact s' l') ↔ Sound s e := by
  cases e with
  | create => exact iff_of_true ⟨_, rfl, l, exact_create h hi⟩ trivial
  | tick => exact iff_of_true ⟨_, rfl, l, h.ring, h.mem, h.attached, h.lookup⟩ trivial
  | connect k addr => exact step_connect h hi hu addr
  | sendto k buf skaddr =>
    cases skaddr with
    | none => exact step_sendto_none h hi hu buf
    | some addr => exact step_sendto_some h hi hu buf addr
  | bind k saddr => exact step_bind h hi hu saddr
  | close k => exact step_close h hi hu

/-- **The table of UDP socks.** A sequence of calls on open socks is defined throughout and keeps
the table exact in every state if and only if all of its calls are sound. -/
theorem table_exact (es : List Event) (h : Along step InUse init es) :
    (∃ s, run step init es = some s) ∧ Always step (fun s => ∃ l, Exact s l) init es ↔
      Along step Sound init es := by
  refine run_always_iff_along (I := Inv) ?_ ?_ inv_init ⟨[], exact_init⟩ h
  · rintro s e s' hi ⟨l, hexact⟩ hu hs ⟨l', hexact'⟩
    exact inv_step hexact hi hu hs hexact'
  · rintro s e hi ⟨l, hexact⟩ hu
    exact exact_step hexact hi hu

/-- One sock connects and sends twice, another one sends to an address; then both are closed. -/
def twoSocks : List Event :=
  [.create, .create, .connect 0 ⟨0x0A000105, 7⟩, .sendto 0 [1] none,
    .sendto 1 [2] (some ⟨0x0A000105, 9⟩), .tick, .sendto 0 [3] none, .close 0, .close 1]

theorem table_exact_twoSocks :
    (∃ s, run step init twoSocks = some s) ∧ Always step (fun s => ∃ l, Exact s l) init twoSocks :=
  (table_exact twoSocks (by decide)).mpr (by decide)

/-- Two socks send to an address, and the first one does so again: it is added for the second time.
-/
def sentTwice : List Event :=
  [.create, .create, .sendto 0 [1] (some ⟨0x0A000105, 7⟩), .sendto 1 [2] (some ⟨0x0A000105, 7⟩),
    .sendto 0 [3] (some ⟨0x0A000105, 7⟩)]

/-- The second sock, which is open, is gone from the table. -/
theorem lost_sock : ¬ ∀ es, Along step InUse init es →
    (∃ s, run step init es = some s) ∧ Always step (fun s => ∃ l, Exact s l) init es := by
  intro hall
  obtain ⟨⟨s, hs⟩, halways⟩ := hall sentTwice (by decide)
  obtain ⟨l, hexact⟩ := halways sentTwice [] s (List.append_nil _).symm hs
  have hrun : (run step init sentTwice).map (fun s => (s.sent.any fun d => d.sock = 1 ∧ d.sport = 40002,
      decide (Open s 1), udpLookupSock 40002 s)) = some (true, true, some none) := by decide
  rw [hs, Option.map_some, Option.some.injEq, Prod.mk.injEq, Prod.mk.injEq] at hrun
  obtain ⟨hsent, hopen, hlookup⟩ := hrun
  obtain ⟨d, hd, hdk⟩ := List.any_eq_true.mp hsent
  obtain ⟨hk, hport⟩ := of_decide_eq_true hdk
  have hfound := hexact.lookup d hd (hk ▸ of_decide_eq_true hopen)
  rw [hport, hlookup] at hfound
  cases hfound

end ToyIP.Stack.UdpSocks
