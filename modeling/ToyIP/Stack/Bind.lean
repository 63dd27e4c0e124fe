import ToyIP.Stack.TcpLookup
import ToyIP.Stack.UdpSocks

/-! # Binding a sock

`inet_bind` asks for a local address and hands the rest to the protocol: TCP sets the port with
`tcp_set_sport`, and takes the address back if that fails; UDP has `udp_bind`, which sets the port
with `udp_set_sport` and then the address. `udp_set_sport` returns -1 even when it has set the port,
so no UDP sock is ever bound. `bind_exact_iff` says when a call of `inet_bind` is exact. -/

namespace ToyIP.Stack.Bind

open ToyIP.Lib.CircularList ToyIP.Tcp.Types
open ToyIP.Stack.TcpSocks (localIpaddress)

/-! ### The property -/

/-- **A call binds exactly.** It returns 0 if and only if the sock is `bindable`; then the result
`has` what it should have, and else nothing has changed. -/
def BindExact {σ : Type} (bindable : Prop) (has : σ → Prop) (s : σ) (res : Option (ℤ × σ)) : Prop :=
  ∃ rc s', res = some (rc, s') ∧ (rc = 0 ↔ bindable) ∧ (rc = 0 → has s') ∧ (rc ≠ 0 → s' = s)

/-- A call that refuses. -/
theorem bindExact_refused {σ : Type} {bindable : Prop} {has : σ → Prop} {s s' : σ} :
    BindExact bindable has s (some (-1, s')) ↔ ¬ bindable ∧ s' = s := by
  constructor
  · rintro ⟨rc, t, heq, hiff, -, hsame⟩
    obtain ⟨rfl, rfl⟩ := Prod.mk.inj (Option.some.inj heq)
    exact ⟨fun hb => absurd (hiff.mpr hb) (by decide), hsame (by decide)⟩
  · rintro ⟨hno, hsame⟩
    exact ⟨-1, s', rfl, iff_of_false (by decide) hno, fun h => absurd h (by decide), fun _ => hsame⟩

/-- The address is local and the port can be had. -/
def Bindable (addr : UInt32) (port : UInt16) (used : Prop) : Prop :=
  localIpaddress addr = true ∧ port ≠ 0 ∧ ¬ used

/-! ### TCP -/

section Tcp

open ToyIP.Stack.TcpSocks

/-- The list of socks that listen or connect, with any socks in it. -/
structure TcpTable (s : State) (cl : List ℕ) : Prop where
  ring : Ring s.links .tcpConnectingOrListeningSocks (cl.map .sock)
  isOpen : ∀ k ∈ cl, Open s k
  length : cl.length ≤ s.fresh

/-- A sock in the list has the port. -/
def TcpUsed (s : State) (cl : List ℕ) (port : UInt16) : Prop :=
  ∃ j ∈ cl, ∃ sk, s.socks j = some sk ∧ sk.sport = port

/-- The sock has the address and the port. -/
def TcpHas (k : ℕ) (addr : UInt32) (port : UInt16) (s : State) : Prop :=
  ∃ sk, s.socks k = some sk ∧ sk.saddr = addr ∧ sk.sport = port

variable {s : State} {cl : List ℕ} {k : ℕ} {sk : TcpSock} {addr : UInt32} {port : UInt16} {used : Bool}

theorem TcpTable.portUsed (h : TcpTable s cl) (port : UInt16) :
    ∃ used, tcpPortUsed port s = some used ∧ (used = true ↔ TcpUsed s cl port) := by
  refine ⟨_, by rw [tcpPortUsed, TcpLookup.search_ring h.ring h.isOpen h.length, Option.map_some], ?_⟩
  simp only [Option.isSome_map, List.find?_isSome, Option.any_eq_true, beq_iff_eq, TcpUsed]

theorem socks_setSock_self (s : State) (sk : TcpSock) : (s.setSock k (some sk)).socks k = some sk :=
  if_pos rfl

theorem tcpSetSport_eq (hsk : s.socks k = some sk) (hused : tcpPortUsed port s = some used) :
    tcpSetSport k port (s.setSock k (some { sk with saddr := addr })) = some (
      if port = 0 ∨ used = true then (-1, s.setSock k (some { sk with saddr := addr }))
      else (0, s.setSock k (some { sk with saddr := addr, sport := port }))) := by
  rw [tcpSetSport]
  by_cases hzero : port = 0
  · rw [if_pos hzero, if_pos (.inl hzero)]
  rw [if_neg hzero, tcpPortUsed_setSock hsk, hused, Option.bind_eq_bind, Option.bind_some]
  cases used
  · rw [if_neg Bool.false_ne_true, socks_setSock_self, if_neg (by simp [hzero]), Option.bind_eq_bind,
      Option.bind_some, setSock_setSock]
  · rw [if_pos rfl, if_pos (.inr rfl)]

/-- What `inet_bind` returns for a sock without a port. -/
theorem inetBind_eq (hsk : s.socks k = some sk) (hport : sk.sport = 0)
    (hused : tcpPortUsed port s = some used) : inetBind k addr port s = some (
      if localIpaddress addr = false then (-1, s)
      else if port = 0 ∨ used = true then (-1, s.setSock k (some { sk with saddr := 0 }))
      else (0, { s.setSock k (some { sk with saddr := addr, sport := port, dport := 0, daddr := 0 })
        with bound := fun j => if j = k then some (addr, port) else s.bound j })) := by
  rw [inetBind, hsk, Option.bind_eq_bind, Option.bind_some, if_neg (not_not.mpr hport)]
  cases hlocal : localIpaddress addr
  · rfl
  rw [tcpSetSport_eq hsk hused, Option.bind_eq_bind, Option.bind_some]
  by_cases hno : port = 0 ∨ used = true
  · simp [hno, socks_setSock_self, setSock_setSock]
  · simp [hno, socks_setSock_self, setSock_setSock]
    rfl

/-- To clear an address that is set is a change. -/
theorem setSock_saddr_iff (hsk : s.socks k = some sk) :
    s.setSock k (some { sk with saddr := 0 }) = s ↔ sk.saddr = 0 := by
  constructor
  · intro h
    have hsocks := congrFun (congrArg State.socks h) k
    rw [hsk] at hsocks
    exact congrArg TcpSock.saddr (Option.some.inj ((if_pos rfl).symm.trans hsocks)).symm
  · intro h
    have hsame : { sk with saddr := 0 } = sk := by rw [← h]
    rw [hsame, State.setSock]
    congr 1
    funext j
    split_ifs with hj
    · rw [hj, hsk]
    · rfl

theorem tcp_bind_exact_iff (h : TcpTable s cl) (hsk : s.socks k = some sk) (hport : sk.sport = 0) :
    BindExact (Bindable addr port (TcpUsed s cl port)) (TcpHas k addr port) s
        (inetBind k addr port s) ↔
      ¬ (localIpaddress addr = true ∧ (port = 0 ∨ TcpUsed s cl port) ∧ sk.saddr ≠ 0) := by
  obtain ⟨used, hused, hiff⟩ := h.portUsed port
  rw [inetBind_eq hsk hport hused, ← hiff]
  cases hlocal : localIpaddress addr
  · exact iff_of_true (bindExact_refused.mpr ⟨fun hb => by simp [Bindable, hlocal] at hb, rfl⟩) (by simp)
  rw [if_neg (by decide)]
  split_ifs with hno
  · rw [bindExact_refused, setSock_saddr_iff hsk]
    simp [Bindable, hno]
    tauto
  · refine iff_of_true ⟨0, _, rfl, iff_of_true rfl ?_, fun _ => ?_, fun h => absurd rfl h⟩ (by tauto)
    · exact ⟨hlocal, fun hz => hno (.inl hz), fun hu => hno (.inr hu)⟩
    · exact ⟨_, if_pos rfl, rfl, rfl⟩

end Tcp

/-! ### UDP -/

section Udp

open ToyIP.Stack.UdpSocks

/-- `inet_bind` for a UDP sock. -/
def inetBind (k : ℕ) (addr : Addr) (s : State) : Option (ℤ × State) := do
  let sk ← s.socks k
  if sk.sport ≠ 0 then some (-1, s)
  else if !localIpaddress addr.sinAddr then some (-1, s)
  else udpBind k addr s

/-- A sock in the table has the port. -/
def UdpUsed (s : State) (l : List ℕ) (port : UInt16) : Prop := ∃ j ∈ l, HasPort s port j

/-- The sock has the address and the port and is in the table. -/
def UdpHas (k : ℕ) (addr : Addr) (s : State) : Prop :=
  (∃ sk, s.socks k = some sk ∧ sk.saddr = addr.sinAddr ∧ sk.sport = addr.sinPort) ∧
    ∃ l : List ℕ, Ring s.links .udpSocks (l.map .sock) ∧ k ∈ l

variable {s : State} {l : List ℕ} {k : ℕ} {sk : Sock} {addr : Addr} {used : Bool}

theorem udpPortUsed_eq (h : Listed s l) (port : UInt16) :
    ∃ used, udpPortUsed port s = some used ∧ (used = true ↔ UdpUsed s l port) := by
  refine ⟨_, by rw [udpPortUsed, h.lookup_eq, Option.map_some], ?_⟩
  simp only [Option.isSome_map, List.find?_isSome, decide_eq_true_eq, UdpUsed]

/-- The port is set, and the call fails all the same. -/
theorem udp_inetBind_eq (hsk : s.socks k = some sk) (hport : sk.sport = 0)
    (hused : udpPortUsed addr.sinPort s = some used) : inetBind k addr s = some (
      if localIpaddress addr.sinAddr = false ∨ sk.saddr ≠ 0 ∨ addr.sinPort = 0 ∨ used = true
      then (-1, s) else (-1, s.give k { sk with sport := addr.sinPort })) := by
  rw [inetBind, hsk, Option.bind_eq_bind, Option.bind_some, if_neg (not_not.mpr hport)]
  cases hlocal : localIpaddress addr.sinAddr
  · rfl
  rw [udpBind, hsk, Option.bind_eq_bind, Option.bind_some]
  by_cases haddr : sk.saddr = 0
  · by_cases hzero : addr.sinPort = 0
    · simp [udpSetSport, haddr, hzero]
    · cases used <;> simp [udpSetSport, haddr, hzero, hused, hsk]
  · simp [haddr]

theorem udp_bind_exact_iff (h : Listed s l) (hsk : s.socks k = some sk) (hport : sk.sport = 0) :
    BindExact (Bindable addr.sinAddr addr.sinPort (UdpUsed s l addr.sinPort)) (UdpHas k addr) s
        (inetBind k addr s) ↔
      ¬ Bindable addr.sinAddr addr.sinPort (UdpUsed s l addr.sinPort) := by
  obtain ⟨used, hused, hiff⟩ := udpPortUsed_eq h addr.sinPort
  rw [udp_inetBind_eq hsk hport hused]
  split_ifs with hno
  · rw [bindExact_refused]
    exact and_iff_left rfl
  · simp only [not_or] at hno
    have hok : Bindable addr.sinAddr addr.sinPort (UdpUsed s l addr.sinPort) :=
      ⟨by simpa using hno.1, hno.2.2.1, fun hu => hno.2.2.2 (hiff.mpr hu)⟩
    rw [bindExact_refused]
    exact iff_of_false (fun hb => hb.1 hok) fun hb => hb hok

end Udp

/-- **When `inet_bind` is exact and atomic**, for every address and port, every sock without a port
and every list of socks. For TCP a refused port must not find an address that was set before; for UDP
the call must be one to be refused. -/
theorem bind_exact_iff (k : ℕ) (addr : UInt32) (port : UInt16) :
    (∀ (s : TcpSocks.State) (cl : List ℕ) (sk : TcpSock),
      TcpTable s cl → s.socks k = some sk → sk.sport = 0 →
      (BindExact (Bindable addr port (TcpUsed s cl port)) (TcpHas k addr port) s
          (TcpSocks.inetBind k addr port s) ↔
        ¬ (localIpaddress addr = true ∧ (port = 0 ∨ TcpUsed s cl port) ∧ sk.saddr ≠ 0))) ∧
    ∀ (s : UdpSocks.State) (l : List ℕ) (sk : UdpSocks.Sock),
      UdpSocks.Listed s l → s.socks k = some sk → sk.sport = 0 →
      (BindExact (Bindable addr port (UdpUsed s l port)) (UdpHas k ⟨addr, port⟩) s
          (inetBind k ⟨addr, port⟩ s) ↔
        ¬ Bindable addr port (UdpUsed s l port)) :=
  ⟨fun _ _ _ h hsk hport => tcp_bind_exact_iff h hsk hport,
    fun _ _ _ h hsk hport => udp_bind_exact_iff h hsk hport⟩

/-- One sock of each kind, and empty lists. -/
def oneTcp : TcpSocks.State := TcpSocks.init.alloc tcpAllocSock none

def oneUdp : UdpSocks.State := UdpSocks.udpAllocSock UdpSocks.init

theorem tcpTable_oneTcp : TcpTable oneTcp [] :=
  ⟨by rw [List.map_nil, ring_nil]; exact ⟨rfl, rfl⟩, by simp, Nat.zero_le _⟩

theorem listed_oneUdp : UdpSocks.Listed oneUdp [] :=
  ⟨by rw [List.map_nil, ring_nil]; exact ⟨rfl, rfl⟩, by simp, Nat.zero_le _⟩

theorem bind_exact_iff_one :
    (BindExact (Bindable 0x0A000104 80 (TcpUsed oneTcp [] 80)) (TcpHas 0 0x0A000104 80) oneTcp
        (TcpSocks.inetBind 0 0x0A000104 80 oneTcp) ↔
      ¬ (localIpaddress 0x0A000104 = true ∧ ((80 : UInt16) = 0 ∨ TcpUsed oneTcp [] 80) ∧
        (0 : UInt32) ≠ 0)) ∧
    (BindExact (Bindable 0x0A000104 53 (UdpUsed oneUdp [] 53)) (UdpHas 0 ⟨0x0A000104, 53⟩) oneUdp
        (inetBind 0 ⟨0x0A000104, 53⟩ oneUdp) ↔
      ¬ Bindable 0x0A000104 53 (UdpUsed oneUdp [] 53)) :=
  ⟨(bind_exact_iff 0 0x0A000104 80).1 oneTcp [] _ tcpTable_oneTcp rfl rfl,
    (bind_exact_iff 0 0x0A000104 53).2 oneUdp [] _ listed_oneUdp rfl rfl⟩

/-- A UDP sock is bound to a free port of the host. The call fails, leaves the sock with the port
and without the address, and a second call fails because of the port. -/
theorem not_bind_exact : ∃ s', inetBind 0 ⟨0x0A000104, 53⟩ oneUdp = some (-1, s') ∧
    (s'.socks 0).map UdpSocks.Sock.sport = some 53 ∧
    (s'.socks 0).map UdpSocks.Sock.saddr = some 0 ∧
    (inetBind 0 ⟨0x0A000104, 54⟩ s').map Prod.fst = some (-1) ∧
    Bindable 0x0A000104 53 (UdpUsed oneUdp [] 53) ∧
    ¬ BindExact (Bindable 0x0A000104 53 (UdpUsed oneUdp [] 53)) (UdpHas 0 ⟨0x0A000104, 53⟩) oneUdp
      (inetBind 0 ⟨0x0A000104, 53⟩ oneUdp) := by
  have hok : Bindable 0x0A000104 53 (UdpUsed oneUdp [] 53) :=
    ⟨by decide, by decide, by simp [UdpUsed]⟩
  refine ⟨_, rfl, rfl, rfl, rfl, hok, fun h => ?_⟩
  exact (udp_bind_exact_iff listed_oneUdp rfl rfl).mp h hok

end ToyIP.Stack.Bind
