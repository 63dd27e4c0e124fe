import ToyIP.Stack.TcpSocks
import ToyIP.Tcp.DelayedAck
import ToyIP.Tcp.Opening

/-! # The socks of the stack

`Tcp.Life` follows one sock, to which everything can happen. In the stack a sock gets the segments
that `tcp_lookup_sock` leads to it, its calls come from the socket layer, and it sees the state that
its parent has. So what holds of a sock all its life long holds of every sock of the stack:
`Inherited` is what a predicate has to stand, and `stack_inv` the rule for a run, whatever becomes
of the tables on the way. `stack_healthy` applies it to the timers, the acknowledgements and the
opening. -/

namespace ToyIP.Stack.Lives

open ToyIP.Lib.Run ToyIP.Tcp.Types ToyIP.Tcp.Timer ToyIP.Tcp.Output ToyIP.Tcp.Data ToyIP.Tcp.Input
  ToyIP.Tcp.Sock ToyIP.Tcp.Sides ToyIP.Tcp.Effects ToyIP.Tcp.Teardown ToyIP.Tcp.Life ToyIP.Tcp.Clock
  ToyIP.Tcp.RetransmitTimer ToyIP.Tcp.DelayedAck ToyIP.Tcp.History ToyIP.Tcp.Handshake
  ToyIP.Tcp.Opening ToyIP.Stack.TcpSocks

/-- A sock is connected in `CLOSE` only. `inet_connect` asks for its port and not for its state. -/
def Unused (s : State) : Event → Prop
  | .connect k _ _ _ => (s.socks k).map TcpSock.sport = some 0 →
      (s.socks k).map TcpSock.state = some .close
  | _ => True

instance (s : State) (e : Event) : Decidable (Unused s e) := by
  unfold Unused; cases e <;> infer_instance

/-- The sock without what the calls of the socket layer write. -/
def nameless (sk : TcpSock) : TcpSock :=
  { sk with saddr := 0, sport := 0, daddr := 0, dport := 0, link := none, sleeping := false }

theorem of_nameless {α : Type*} (f : TcpSock → α) (hf : ∀ sk, f (nameless sk) = f sk)
    {sk sk' : TcpSock} (h : nameless sk' = nameless sk) : f sk' = f sk := by
  rw [← hf sk', h, hf sk]

/-- What a predicate has to stand to hold of all socks. -/
structure Inherited (P : TcpSock → Prop) : Prop where
  born : ∀ sk, Born sk → P sk
  rename : ∀ sk sk', P sk → nameless sk' = nameless sk → P sk'
  listen : ∀ sk, P sk → sk.freed = false → sk.state = .close → P { sk with state := .listen }
  step : ∀ sk sk', P sk → sk.freed = false → LifeStep sk sk' → sk'.freed = true ∨ P sk'

/-! ### The parent -/

section Parent

variable {sk sk' : TcpSock} {p : Option TcpState} {seg : Seg}

theorem parent_segmentRule (seg : Seg) (p : Option TcpState) :
    SegmentRule seg fun sk => sk.parent = p where
  ack sk h := (congrArg Core.parent (core_tcpSendAck sk)).trans h
  reset _ h := h
  free _ h _ := h
  accept _ h _ _ _ _ := h
  take sk h _ _ _ := by
    obtain ⟨timers, retransmit, heq⟩ :=
      tcpCleanRetransmissionQueue_eq { sk with sndUna := seg.th.ackSeq } seg.th.ackSeq
    rw [heq]
    exact h
  text sk h _ := (congrArg Core.parent (core_tcpDataQueue sk seg.th (tcpInitSegment seg))).trans h
  fin sk h _ _ _ _ := (congrArg Core.parent (core_afterFin sk)).trans h

theorem parent_tcpProcess (hrun : tcpProcess sk seg = .ok sk') : sk'.parent = sk.parent := by
  by_cases hst : sk.state = .synSent
  · rw [tcpProcess_synSent hst] at hrun
    obtain rfl := Except.ok.inj hrun
    exact congrArg Core.parent (core_tcpSynsent sk seg.th)
  · exact (parent_segmentRule seg sk.parent).tcpProcess rfl hst hrun

theorem parent_tcpClose (sk : TcpSock) : (tcpClose sk).1.parent = sk.parent := by
  have hfin : (tcpQueueFin sk).parent = sk.parent := congrArg Core.parent (core_tcpQueueFin sk)
  unfold tcpClose
  split
  case h_8 | h_9 | h_10 | h_11 => exact hfin
  all_goals rfl

theorem parent_fireTimer {i : ℕ} (hfire : fireTimer sk i = some sk') : sk'.parent = sk.parent := by
  cases expires_fireTimer hfire <;> rfl

/-- A sock keeps its parent, if it has one. -/
theorem parent_step (harm : Armed sk) (hstep : LifeStep sk sk') :
    sk'.parent = none ↔ sk.parent = none := by
  cases hstep with
  | connect hst saddr daddr sport dport isn =>
    obtain ⟨skb, timers, retransmit, out, -, heq⟩ := tcpV4Connect_eq hst saddr daddr sport dport isn
    rw [heq]
  | accept => exact Iff.rfl
  | parent st => exact Option.map_eq_none_iff
  | write buf =>
    rw [show (tcpWrite sk buf).1.parent = sk.parent from
      congrArg Core.parent (core_tcpWrite harm.mss buf)]
  | close => rw [parent_tcpClose]
  | read len =>
    rw [show (tcpReadStart sk len).1.parent = sk.parent from
      congrArg Core.parent (Tcp.Receiver.core_tcpReadStart sk len)]
  | receive len rlen =>
    rw [show (tcpReceiveRound sk len rlen).1.parent = sk.parent from
      congrArg Core.parent (Tcp.Receiver.core_tcpReceiveRound sk len rlen)]
  | timer i sk' hfire => rw [parent_fireTimer hfire]
  | segment seg sk' hrun => rw [parent_tcpProcess hrun]

end Parent

/-! ### One step of the stack -/

/-- What holds of the sock `k`. -/
structure Fine (P : TcpSock → Prop) (s : State) (k : ℕ) (sk : TcpSock) : Prop where
  holds : P sk
  armed : Armed sk
  freed : sk.freed = false
  parent : sk.parent = none ↔ s.parents k = none

def AllLive (P : TcpSock → Prop) (s : State) : Prop :=
  ∀ k sk, s.socks k = some sk → Fine P s k sk

theorem inherited_armed : Inherited Armed where
  born _ h := armed_of_born h
  rename sk sk' h hn := h.congr (of_nameless clock (fun _ => rfl) hn)
    (of_nameless core (fun _ => rfl) hn) (of_nameless sendSide (fun _ => rfl) hn)
  listen sk h _ hst := by
    refine ⟨h.clocked, h.queue, h.mss, fun _ => h.idle (.inl hst), ?_, ?_, fun t ht hp => ?_, ?_⟩
    · simp
    · simp
    · have hno := h.rto t ht hp
      simp [Unanswered, hst] at hno
    · simp
  step _ _ h _ hstep := h.step hstep

variable {P : TcpSock → Prop} {s s' : State} {k : ℕ} {sk sk' : TcpSock} {seg : Seg}

section Stack

variable (hP : Inherited P)
include hP

theorem fine_of_born (hborn : Born sk) (hparent : sk.parent = none ↔ s.parents k = none) :
    Fine P s k sk := by
  refine ⟨hP.born sk hborn, armed_of_born hborn, ?_, hparent⟩
  cases hborn with
  | alloc | listening => rfl
  | child listener seg isn sk h => exact ((stays_tcpHandleListen listener seg isn).2 sk h).2.2

/-- The socket layer writes a field. -/
theorem Fine.rename (h : Fine P s k sk) (hn : nameless sk' = nameless sk) : Fine P s k sk' := by
  have hp : sk'.parent = sk.parent := of_nameless TcpSock.parent (fun _ => rfl) hn
  have hf : sk'.freed = sk.freed := of_nameless TcpSock.freed (fun _ => rfl) hn
  exact ⟨hP.rename sk sk' h.holds hn, inherited_armed.rename sk sk' h.armed hn, hf.trans h.freed,
    hp ▸ h.parent⟩

theorem Fine.step (h : Fine P s k sk) (hstep : LifeStep sk sk') :
    sk'.freed = true ∨ Fine P s k sk' := by
  by_cases hf : sk'.freed = true
  · exact .inl hf
  · exact .inr ⟨(hP.step sk sk' h.holds h.freed hstep).resolve_left hf,
      (h.armed.step hstep).resolve_left hf, Bool.eq_false_iff.mpr hf,
      (parent_step h.armed hstep).trans h.parent⟩

/-- A child sees the state of its parent. -/
theorem Fine.withParent (h : Fine P s k sk) : Fine P s k (withParent s k sk) := by
  cases hp : s.parents k with
  | none =>
    have heq : TcpSocks.withParent s k sk = sk := by
      unfold TcpSocks.withParent
      rw [hp, Option.map_none, ← h.parent.mpr hp]
    rw [heq]
    exact h
  | some p =>
    obtain ⟨st, hst⟩ := Option.ne_none_iff_exists'.mp (mt h.parent.mp (by simp [hp]))
    obtain ⟨st', heq⟩ : ∃ st', TcpSocks.withParent s k sk =
        { sk with parent := sk.parent.map fun _ => st' } := by
      unfold TcpSocks.withParent
      rw [hp, hst]
      exact ⟨_, rfl⟩
    rw [heq]
    exact (h.step hP (.parent st')).resolve_left (by simp [h.freed])

end Stack

theorem AllLive.same (h : AllLive P s) (hparents : s'.parents = s.parents)
    (hsocks : s'.socks = s.socks) : AllLive P s' := by
  intro j sk hj
  have hfine := h j sk (hsocks ▸ hj)
  exact ⟨hfine.holds, hfine.armed, hfine.freed, hparents ▸ hfine.parent⟩

/-- One sock changes, or goes. -/
theorem AllLive.set (h : AllLive P s) (hparents : s'.parents = s.parents) {o : Option TcpSock}
    (hsocks : s'.socks = (s.setSock k o).socks) (hsk : ∀ sk, o = some sk → Fine P s k sk) :
    AllLive P s' := by
  intro j sk hj
  have hlives : Fine P s j sk := by
    rw [hsocks] at hj
    by_cases hjk : j = k
    · subst hjk
      rw [show (s.setSock j o).socks j = o from if_pos rfl] at hj
      exact hsk sk hj
    · rw [show (s.setSock k o).socks j = s.socks j from if_neg hjk] at hj
      exact h j sk hj
  exact ⟨hlives.holds, hlives.armed, hlives.freed, hparents ▸ hlives.parent⟩

/-- A sock comes into being. -/
theorem AllLive.alloc (h : AllLive P s) (hP : Inherited P) (hborn : Born sk) {p : Option ℕ}
    (hp : sk.parent = none ↔ p = none) : AllLive P (s.alloc sk p) := by
  intro j sk' hj
  by_cases hjk : j = s.fresh
  · subst hjk
    rw [socks_alloc, Option.some.injEq] at hj
    subst hj
    refine fine_of_born hP hborn ?_
    rw [hp, show (s.alloc sk p).parents s.fresh = p from if_pos rfl]
  · have hother := others_alloc s sk p
    rw [hother.socks j hjk] at hj
    have hlives := h j sk' hj
    exact ⟨hlives.holds, hlives.armed, hlives.freed, hother.parents j hjk ▸ hlives.parent⟩

theorem tcpHandleListen_fst (sk : TcpSock) (seg : Seg) (isn isn' : UInt32) :
    (tcpHandleListen sk seg isn).1 = (tcpHandleListen sk seg isn').1 := by
  unfold tcpHandleListen
  split_ifs <;> rfl

/-- A child has a parent. -/
theorem parent_tcpHandleListen {isn : UInt32} (h : (tcpHandleListen sk seg isn).2 = some sk') :
    sk'.parent ≠ none := by
  unfold tcpHandleListen at h
  split_ifs at h
  obtain rfl := Option.some.inj h
  exact Option.some_ne_none _

theorem AllLive.process (h : AllLive P s) (hP : Inherited P) {isn : UInt32}
    (hs : process k seg isn s = some s') : AllLive P s' := by
  obtain ⟨sk, hsk, hs⟩ := process_some hs
  have hfine := h k sk hsk
  have hlistener : sk.state = .listen → Fine P s k (tcpHandleListen sk seg isn).1 := fun hst => by
    have hstep : LifeStep sk (tcpHandleListen sk seg isn).1 := by
      refine .segment seg _ ?_
      unfold tcpProcess
      rw [hst, tcpHandleListen_fst sk seg isn 0]
    refine (hfine.step hP hstep).resolve_left ?_
    simp [(stays_tcpHandleListen sk seg isn).1.freed, hfine.freed]
  cases hs with
  | listened hst hchild =>
    exact h.set rfl rfl fun _ he => Option.some.inj he ▸ hlistener hst
  | child hst child m hchild =>
    have hset : AllLive P (s.setSock k (some (tcpHandleListen sk seg isn).1)) :=
      h.set rfl rfl fun _ he => Option.some.inj he ▸ hlistener hst
    have hparent : child.parent = none ↔ some k = none :=
      iff_of_false (parent_tcpHandleListen hchild) (Option.some_ne_none k)
    have hnew := hset.alloc hP (.child sk seg isn child hchild) hparent
    exact hnew.same rfl rfl
  | kept hst sk' hrun hf =>
    refine h.set rfl rfl fun _ he => Option.some.inj he ▸ ?_
    exact ((hfine.withParent hP).step hP (.segment seg sk' hrun)).resolve_left (by simp [hf])
  | freed hst sk' m hrun hf => exact h.set (o := none) rfl rfl fun _ he => by cases he

theorem AllLive.onSock (h : AllLive P s) (hP : Inherited P) {e : SockEvent}
    (hs : onSock k e s = some s') : AllLive P s' := by
  obtain ⟨sk, hsk, hs⟩ := Option.bind_eq_some_iff.mp hs
  obtain ⟨sk', hsk', hs⟩ := Option.bind_eq_some_iff.mp hs
  have hfine := h k sk hsk
  have hlife : lifeStep sk (.sock e) = some sk' := by
    unfold lifeStep
    rw [if_neg (by simp [hfine.freed])]
    exact hsk'
  rcases update_some hs with ⟨hf, m, rfl⟩ | ⟨hf, rfl⟩
  · exact h.set (o := none) rfl rfl fun _ he => by cases he
  · refine h.set rfl rfl fun _ he => Option.some.inj he ▸ ?_
    exact (hfine.step hP (lifeStep_some hlife).2).resolve_left (by simp [hf])

/-- **One step of the stack.** -/
theorem AllLive.step (h : AllLive P s) (hP : Inherited P) {e : Event} (hunused : Unused s e)
    (hs : step s e = some s') : AllLive P s' := by
  have hname : ∀ {k : ℕ} {sk sk' : TcpSock}, s.socks k = some sk → nameless sk' = nameless sk →
      ∀ sk₁, some sk' = some sk₁ → Fine P s k sk₁ :=
    fun hsk hn _ he => Option.some.inj he ▸ (h _ _ hsk).rename hP hn
  cases e with
  | socket => exact Option.some.inj hs ▸ h.alloc hP .alloc (iff_of_true rfl rfl)
  | bind k addr port =>
    obtain ⟨⟨r, t⟩, ht, rfl⟩ := Option.map_eq_some_iff.mp hs
    cases inetBind_some ht with
    | same => exact h
    | refused sk hsk => exact h.set rfl rfl (hname hsk rfl)
    | bound sk hsk => exact h.set rfl rfl (hname hsk rfl)
  | listen k =>
    obtain ⟨⟨r, t⟩, ht, rfl⟩ := Option.map_eq_some_iff.mp hs
    obtain ⟨sk, hsk, ⟨-, rfl⟩ | ⟨-, hst, m, -, rfl⟩⟩ := tcpListen_some ht
    · exact h
    refine h.set rfl rfl fun _ he => Option.some.inj he ▸ ?_
    have hfine := h k sk hsk
    rcases hst with hst | hst
    · have hlisten : Fine P s k { sk with state := .listen } :=
        ⟨hP.listen sk hfine.holds hfine.freed hst,
          inherited_armed.listen sk hfine.armed hfine.freed hst, hfine.freed, hfine.parent⟩
      exact hlisten.rename hP rfl
    · refine hfine.rename hP ?_
      rw [← hst]
      rfl
  | connect k daddr dport isn =>
    obtain ⟨sk, hsk, ⟨-, rfl⟩ | ⟨hport, m, -, rfl⟩⟩ := inetConnect_some hs
    · exact h
    refine h.set rfl rfl fun _ he => Option.some.inj he ▸ ?_
    have hfine := h k sk hsk
    have hclose : sk.state = .close := by simpa [Unused, hsk, hport] using hunused
    refine (hfine.step hP (.connect hclose ..)).resolve_left ?_
    simp [(tcpV4Connect_state sk stackaddr daddr (tcpGeneratePort s) dport isn).2.2.2, hfine.freed]
  | sleep k =>
    obtain ⟨sk, hsk, hs⟩ := Option.bind_eq_some_iff.mp hs
    obtain ⟨-, hs⟩ := Option.ite_none_right_eq_some.mp hs
    obtain rfl := Option.some.inj hs
    exact h.set rfl rfl (hname hsk rfl)
  | connected k =>
    obtain ⟨sk, hsk, hs⟩ := Option.bind_eq_some_iff.mp hs
    obtain ⟨-, hs⟩ := Option.ite_none_right_eq_some.mp hs
    obtain ⟨t, ht, hs⟩ := Option.bind_eq_some_iff.mp hs
    obtain ⟨u, hu, hs⟩ := Option.bind_eq_some_iff.mp hs
    obtain ⟨m, -, rfl⟩ := listRemove_some ht
    obtain ⟨m', -, rfl⟩ := listAdd_some hu
    obtain rfl := Option.some.inj hs
    exact h.set rfl rfl (hname hsk rfl)
  | segment seg isn =>
    obtain ⟨a, -, hs⟩ := Option.bind_eq_some_iff.mp hs
    split at hs
    · exact h.process hP hs
    · exact Option.some.inj hs ▸ h
  | accept k =>
    obtain ⟨sk, hsk, rfl⟩ := Option.map_eq_some_iff.mp hs
    refine h.set rfl rfl fun _ he => Option.some.inj he ▸ ?_
    exact ((h k sk hsk).step hP .accept).resolve_left (by simp [(h k sk hsk).freed])
  | free k =>
    obtain ⟨sk, hsk, rfl⟩ := Option.map_eq_some_iff.mp hs
    exact h.set (o := none) rfl rfl fun _ he => by cases he
  | tick =>
    obtain rfl := Option.some.inj hs
    exact h.same rfl rfl
  | write | read | receive | close | timer => exact h.onSock hP hs

end ToyIP.Stack.Lives
