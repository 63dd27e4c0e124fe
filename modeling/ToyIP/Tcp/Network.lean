import ToyIP.Lib.Run
import ToyIP.Lib.Word32
import ToyIP.Tcp.Effects

/-! # TCP: two endpoints and a network

A client opened with `tcp_begin_connect`, a listening sock, and the child that `tcp_handle_listen`
makes from the client's SYN. The network can deliver every segment that was ever handed to
`ip_output`, at any time and any number of times; what is never delivered is lost. A segment that is
for the child once it exists goes to the child, as `tcp_lookup_sock` asks the list of the
established socks first. Every step is atomic, as each holds the lock of its sock. -/

namespace ToyIP.Tcp.Network

open ToyIP.Lib.Run ToyIP.Tcp.Types ToyIP.Tcp.Timer ToyIP.Tcp.Output ToyIP.Tcp.Data ToyIP.Tcp.Input
  ToyIP.Tcp.Sock ToyIP.Tcp.Sides ToyIP.Tcp.Effects

/-- The two endpoints, with the one reader of the client. `got` are the bytes he has read, `written`
the bytes written on the child, and `established` tells that the client has been in
`ESTABLISHED`. -/
structure Link where
  client : TcpSock
  listener : TcpSock
  child : Option TcpSock := none
  reader : Reader := .idle
  got : List UInt8 := []
  written : List UInt8 := []
  established : Bool := false

/-- An endpoint of the connection. -/
inductive Party
  | client | child
  deriving DecidableEq, Repr

/-- A call or a timer of an endpoint, the delivery of a segment, or a step of the client's reader. A
segment is named by its place among those that its sender has sent. -/
inductive LinkEvent
  | write (p : Party) (buf : List UInt8)
  | close (p : Party)
  | timer (p : Party) (i : ℕ)
  | toClient (i : ℕ)
  | resetToClient (i : ℕ)
  | toServer (i : ℕ) (isn : UInt32)
  | read (len : ℕ)
  | round
  deriving DecidableEq, Repr

/-- A step of the client, as long as it is not freed. -/
def onClient (l : Link) (f : TcpSock → Option TcpSock) : Option Link :=
  if l.client.freed then none
  else (f l.client).map fun sk =>
    { l with client := sk, established := l.established || decide (sk.state = .established) }

/-- A step of the child, as long as it is not freed. -/
def onChild (l : Link) (f : TcpSock → Option TcpSock) : Option Link :=
  match l.child with
  | none => none
  | some c => if c.freed then none else (f c).map fun c => { l with child := some c }

/-- `tcp_write`, if the sequence numbers of the bytes do not wrap. -/
def write (buf : List UInt8) (sk : TcpSock) : Option TcpSock :=
  if sk.sndNxt.toNat + buf.length < 4294967296 then some (tcpWrite sk buf).1 else none

/-- `tcp_close`, if the sequence number of the FIN does not wrap. -/
def close (sk : TcpSock) : Option TcpSock :=
  if sk.sndNxt.toNat + 1 < 4294967296 then some (tcpClose sk).1 else none

/-- `tcp_process` on a segment, if there is one. -/
def receive (seg : Option Seg) (sk : TcpSock) : Option TcpSock :=
  seg.bind fun seg => match tcpProcess sk seg with
    | .ok sk => some sk
    | .error _ => none

/-- The bytes that `tcp_write` takes on the child. -/
def taken (l : Link) (buf : List UInt8) : List UInt8 :=
  match l.child with
  | none => []
  | some c => if (tcpWrite c buf).2 < 0 then [] else buf

/-- One event. -/
def linkStep (l : Link) : LinkEvent → Option Link
  | .write .client buf => onClient l (write buf)
  | .write .child buf =>
    (onChild l (write buf)).map fun l' => { l' with written := l.written ++ taken l buf }
  | .close .client => onClient l close
  | .close .child => onChild l close
  | .timer .client i => onClient l fun sk => fireTimer sk i
  | .timer .child i => onChild l fun sk => fireTimer sk i
  | .toClient i => onClient l (receive (l.child.bind fun c => c.out[i]?))
  | .resetToClient i => onClient l (receive l.listener.out[i]?)
  | .toServer i isn =>
    match l.child with
    | some _ => onChild l (receive l.client.out[i]?)
    | none =>
      if isn.toNat + 1 < 4294967296 then
        l.client.out[i]?.map fun seg =>
          { l with
            listener := (tcpHandleListen l.listener seg isn).1
            child := (tcpHandleListen l.listener seg isn).2 }
      else none
  | .read len =>
    match l.reader with
    | .idle =>
      (onClient l fun sk => some (tcpReadStart sk len).1).map fun l' =>
        { l' with reader := (tcpReadStart l.client len).2 }
    | .receiving _ _ => none
  | .round =>
    match l.reader with
    | .idle => none
    | .receiving len rlen =>
      (onClient l fun sk => some (tcpReceiveRound sk len rlen).1).map fun l' =>
        { l' with
          reader := (tcpReceiveRound l.client len rlen).2.2
          got := l.got ++ (tcpReceiveRound l.client len rlen).2.1 }

/-- A fresh sock with the addresses `tcp_connect` gives it. -/
def connectSock (saddr daddr : UInt32) (sport dport : UInt16) : TcpSock :=
  { tcpAllocSock with
    saddr := saddr, daddr := daddr, sport := sport, dport := dport
    link := some .connectingOrListening }

/-- A sock in `LISTEN`. -/
def listenSock (sport : UInt16) : TcpSock :=
  { tcpAllocSock with state := .listen, sport := sport, link := some .connectingOrListening }

/-- The state after `tcp_begin_connect`. -/
def start (saddr daddr : UInt32) (sport dport : UInt16) (isn : UInt32) : Link :=
  { client := tcpBeginConnect (connectSock saddr daddr sport dport) isn,
    listener := listenSock dport }

/-! ### One step, seen from the endpoint that makes it -/

theorem onClient_some {l l' : Link} {f : TcpSock → Option TcpSock} (h : onClient l f = some l') :
    l.client.freed = false ∧ ∃ sk, f l.client = some sk ∧
      l' = { l with
        client := sk, established := l.established || decide (sk.state = .established) } := by
  unfold onClient at h
  split_ifs at h with hf
  obtain ⟨sk, hsk, rfl⟩ := Option.map_eq_some_iff.mp h
  exact ⟨Bool.eq_false_iff.mpr hf, sk, hsk, rfl⟩

theorem onChild_some {l l' : Link} {f : TcpSock → Option TcpSock} (h : onChild l f = some l') :
    ∃ c c', l.child = some c ∧ c.freed = false ∧ f c = some c' ∧
      l' = { l with child := some c' } := by
  unfold onChild at h
  split at h
  · exact absurd h (by simp)
  · rename_i c hc
    split_ifs at h with hf
    obtain ⟨sk, hsk, rfl⟩ := Option.map_eq_some_iff.mp h
    exact ⟨c, sk, hc, Bool.eq_false_iff.mpr hf, hsk, rfl⟩

theorem write_some {buf : List UInt8} {sk sk' : TcpSock} (h : write buf sk = some sk') :
    sk.sndNxt.toNat + buf.length < 4294967296 ∧ sk' = (tcpWrite sk buf).1 := by
  unfold write at h
  split_ifs at h with hw
  exact ⟨hw, (Option.some.inj h).symm⟩

theorem close_some {sk sk' : TcpSock} (h : close sk = some sk') :
    sk.sndNxt.toNat + 1 < 4294967296 ∧ sk' = (tcpClose sk).1 := by
  unfold close at h
  split_ifs at h with hw
  exact ⟨hw, (Option.some.inj h).symm⟩

theorem receive_some {o : Option Seg} {sk sk' : TcpSock} (h : receive o sk = some sk') :
    ∃ seg, o = some seg ∧ tcpProcess sk seg = .ok sk' := by
  obtain ⟨seg, hseg, h⟩ := Option.bind_eq_some_iff.mp h
  refine ⟨seg, hseg, ?_⟩
  split at h
  · rename_i sk'' hp
    rw [hp, Option.some.inj h]
  · exact absurd h (by simp)

/-- What one end can do when the segments it may be given satisfy `P`. The steps of the reader touch
the receive queue and his flags only. -/
inductive EndStep (P : Seg → Prop) (sk : TcpSock) : TcpSock → Prop
  | write (buf : List UInt8) (h : sk.sndNxt.toNat + buf.length < 4294967296) :
      EndStep P sk (tcpWrite sk buf).1
  | close (h : sk.sndNxt.toNat + 1 < 4294967296) : EndStep P sk (tcpClose sk).1
  | timer (i : ℕ) {sk' : TcpSock} (h : fireTimer sk i = some sk') : EndStep P sk sk'
  | segment (seg : Seg) (hP : P seg) {sk' : TcpSock} (h : tcpProcess sk seg = .ok sk') :
      EndStep P sk sk'
  | reader (receiveQueue : List Skb) (flagPsh flagFin recvSleeping : Bool)
      (h : sk.receiveQueue = [] → receiveQueue = []) :
      EndStep P sk { sk with
        receiveQueue := receiveQueue, flagPsh := flagPsh, flagFin := flagFin
        recvSleeping := recvSleeping }

theorem EndStep.mono {P Q : Seg → Prop} (hPQ : ∀ s, P s → Q s) {sk sk' : TcpSock}
    (h : EndStep P sk sk') : EndStep Q sk sk' := by
  cases h with
  | write buf h => exact .write buf h
  | close h => exact .close h
  | timer i h => exact .timer i h
  | segment seg hP h => exact .segment seg (hPQ seg hP) h
  | reader receiveQueue flagPsh flagFin recvSleeping h =>
    exact .reader receiveQueue flagPsh flagFin recvSleeping h

theorem endStep_write {P : Seg → Prop} {buf : List UInt8} {sk sk' : TcpSock}
    (h : write buf sk = some sk') : EndStep P sk sk' := by
  obtain ⟨hw, rfl⟩ := write_some h
  exact .write buf hw

theorem endStep_close {P : Seg → Prop} {sk sk' : TcpSock} (h : close sk = some sk') :
    EndStep P sk sk' := by
  obtain ⟨hw, rfl⟩ := close_some h
  exact .close hw

theorem endStep_receive {P : Seg → Prop} {o : Option Seg} {sk sk' : TcpSock}
    (hP : ∀ seg, o = some seg → P seg) (h : receive o sk = some sk') : EndStep P sk sk' := by
  obtain ⟨seg, hseg, hp⟩ := receive_some h
  exact .segment seg (hP seg hseg) hp

theorem endStep_tcpReadStart {P : Seg → Prop} (sk : TcpSock) (len : ℕ) :
    EndStep P sk (tcpReadStart sk len).1 := by
  have hsame : EndStep P sk sk := .reader _ sk.flagPsh sk.flagFin sk.recvSleeping id
  unfold tcpReadStart
  split
  any_goals exact hsame
  split_ifs
  · exact .reader _ sk.flagPsh false sk.recvSleeping id
  · exact hsame
  · exact hsame

theorem endStep_tcpReceiveRound {P : Seg → Prop} (sk : TcpSock) (len rlen : ℕ) :
    EndStep P sk (tcpReceiveRound sk len rlen).1 := by
  have hnil : sk.receiveQueue = [] →
      (dequeue (UInt32.ofNat (len - rlen)) 0 sk.receiveQueue).2.1 = [] := fun h => by
    rw [h]; rfl
  unfold tcpReceiveRound tcpDataDequeue
  simp only
  split_ifs
  · exact .reader _ false sk.flagFin sk.recvSleeping hnil
  · exact .reader _ _ sk.flagFin sk.recvSleeping hnil
  · exact .reader _ _ sk.flagFin true hnil

/-- Every event is a step of the client, of the child, or of the listener before there is a child.
-/
inductive LinkStep (l : Link) : Link → Prop
  | client {sk : TcpSock} {reader : Reader} {got : List UInt8} (hf : l.client.freed = false)
      (h : EndStep (fun s => (∃ c, l.child = some c ∧ s ∈ c.out) ∨ s ∈ l.listener.out) l.client sk) :
      LinkStep l { l with
        client := sk, reader := reader, got := got
        established := l.established || decide (sk.state = .established) }
  | child {c c' : TcpSock} {written : List UInt8} (hc : l.child = some c) (hf : c.freed = false)
      (h : EndStep (fun s => s ∈ l.client.out) c c') :
      LinkStep l { l with child := some c', written := written }
  | listener (hn : l.child = none) {seg : Seg} {isn : UInt32} (hseg : seg ∈ l.client.out)
      (hw : isn.toNat + 1 < 4294967296) :
      LinkStep l { l with
        listener := (tcpHandleListen l.listener seg isn).1
        child := (tcpHandleListen l.listener seg isn).2 }

theorem linkStep_client {l l' : Link} {f : TcpSock → Option TcpSock} (h : onClient l f = some l')
    (hf : ∀ sk, f l.client = some sk →
      EndStep (fun s => (∃ c, l.child = some c ∧ s ∈ c.out) ∨ s ∈ l.listener.out) l.client sk) :
    LinkStep l l' := by
  obtain ⟨hfree, sk, hsk, rfl⟩ := onClient_some h
  exact .client hfree (hf sk hsk)

theorem linkStep_child {l l' : Link} {f : TcpSock → Option TcpSock} (h : onChild l f = some l')
    (hf : ∀ c c', f c = some c' → EndStep (fun s => s ∈ l.client.out) c c') : LinkStep l l' := by
  obtain ⟨c, c', hc, hfree, hc', rfl⟩ := onChild_some h
  exact .child hc hfree (hf c c' hc')

theorem linkStep_some {l l' : Link} {e : LinkEvent} (h : linkStep l e = some l') :
    LinkStep l l' := by
  match e with
  | .write .client buf => exact linkStep_client h fun _ => endStep_write
  | .write .child buf =>
    obtain ⟨l₁, hl₁, rfl⟩ := Option.map_eq_some_iff.mp h
    obtain ⟨c, c', hc, hfree, hc', rfl⟩ := onChild_some hl₁
    exact .child hc hfree (endStep_write hc')
  | .close .client => exact linkStep_client h fun _ => endStep_close
  | .close .child => exact linkStep_child h fun _ _ => endStep_close
  | .timer .client i =>
    have h : onClient l (fun sk => fireTimer sk i) = some l' := h
    exact linkStep_client h fun _ hsk => .timer i hsk
  | .timer .child i =>
    have h : onChild l (fun sk => fireTimer sk i) = some l' := h
    exact linkStep_child h fun _ _ hc' => .timer i hc'
  | .toClient i =>
    refine linkStep_client h fun _ hsk => endStep_receive (fun seg hseg => ?_) hsk
    obtain ⟨c, hc, hseg⟩ := Option.bind_eq_some_iff.mp hseg
    exact Or.inl ⟨c, hc, List.mem_of_getElem? hseg⟩
  | .resetToClient i =>
    exact linkStep_client h fun _ hsk =>
      endStep_receive (fun seg hseg => Or.inr (List.mem_of_getElem? hseg)) hsk
  | .toServer i isn =>
    cases hchild : l.child with
    | some c =>
      simp only [linkStep, hchild] at h
      exact linkStep_child h fun _ _ hc' =>
        endStep_receive (fun _ hseg => List.mem_of_getElem? hseg) hc'
    | none =>
      simp only [linkStep, hchild] at h
      split_ifs at h with hw
      obtain ⟨seg, hseg, rfl⟩ := Option.map_eq_some_iff.mp h
      exact .listener hchild (List.mem_of_getElem? hseg) hw
  | .read len =>
    simp only [linkStep] at h
    split at h
    · obtain ⟨l₁, hl₁, rfl⟩ := Option.map_eq_some_iff.mp h
      obtain ⟨hfree, sk, hsk, rfl⟩ := onClient_some hl₁
      obtain rfl := Option.some.inj hsk
      exact .client hfree (endStep_tcpReadStart _ len)
    · exact absurd h (by simp)
  | .round =>
    simp only [linkStep] at h
    split at h
    · exact absurd h (by simp)
    · rename_i len rlen _
      obtain ⟨l₁, hl₁, rfl⟩ := Option.map_eq_some_iff.mp h
      obtain ⟨hfree, sk, hsk, rfl⟩ := onClient_some hl₁
      obtain rfl := Option.some.inj hsk
      exact .client hfree (endStep_tcpReceiveRound _ len rlen)

/-! ### The client before the answer to its SYN -/

/-- The client in `SYN_SENT`: only its SYN was sent, and only its timer runs. -/
structure Connecting (iss : UInt32) (sk : TcpSock) : Prop where
  state : sk.state = .synSent
  freed : sk.freed = false
  smss : sk.smss = 1460
  isn : sk.isn = iss
  una : sk.sndUna = iss
  nxt : sk.sndNxt = iss + 1
  queue : ∃ skb, sk.writeQueue = [skb] ∧ skb.endSeq = iss ∧ skb.dlen = 0 ∧ skb.payload = [] ∧
    skb.th.syn = true ∧ skb.th.ack = false ∧ skb.th.fin = false
  out : ∀ s ∈ sk.out, s.th.syn = true ∧ s.th.ack = false ∧ s.th.fin = false ∧ s.th.seq = iss ∧
    s.dlen = 0 ∧ s.payload = []
  timers : ∀ t ∈ sk.timers, t.handler = .tcpConnectRto
  receiveQueue : sk.receiveQueue = []
  ofoQueue : sk.ofoQueue = []

theorem connecting_start (saddr daddr : UInt32) (sport dport : UInt16) (isn : UInt32) :
    Connecting isn (start saddr daddr sport dport isn).client := by
  have hnxt : isn + 0 = isn := UInt32.add_zero isn
  refine ⟨rfl, rfl, rfl, rfl, rfl, ?_, ⟨_, rfl, hnxt, rfl, rfl, rfl, rfl, rfl⟩, ?_, ?_, rfl, rfl⟩
  · show isn + 0 + 1 = isn + 1
    rw [hnxt]
  · intro s hs
    have hs : s ∈ [_] := hs
    rw [List.mem_singleton] at hs
    subst hs
    exact ⟨rfl, rfl, rfl, rfl, rfl, rfl⟩
  · intro t ht
    have ht : t ∈ [_] := ht
    rw [List.mem_singleton] at ht
    subst ht
    rfl

/-- Cancelling or releasing timers does not change their callbacks. -/
theorem handlers_modify {ts : List Timer} {h : Handler} (hts : ∀ t ∈ ts, t.handler = h) (i : ℕ)
    {f : Timer → Timer} (hf : ∀ t, (f t).handler = t.handler) :
    ∀ t ∈ ts.modify i f, t.handler = h := by
  intro t ht
  obtain ⟨k, hk, rfl⟩ := List.mem_iff_getElem.mp ht
  rw [List.getElem_modify]
  rw [List.length_modify] at hk
  split_ifs
  · rw [hf]; exact hts _ (List.getElem_mem hk)
  · exact hts _ (List.getElem_mem hk)

theorem handlers_release {sk : TcpSock} {h : Handler} (hts : ∀ t ∈ sk.timers, t.handler = h) :
    ∀ t ∈ (tcpReleaseRetransmissionTimer sk).timers, t.handler = h := by
  have : (tcpReleaseRetransmissionTimer sk).timers = (timerRelease sk sk.retransmit).timers := rfl
  rw [this]
  unfold timerRelease
  cases sk.retransmit with
  | none => exact hts
  | some i => exact handlers_modify hts i fun _ => rfl

/-- In `SYN_SENT` only `tcp_connect_rto` is armed. -/
theorem handlers_reset {sk : TcpSock} (hst : sk.state = .synSent)
    (hts : ∀ t ∈ sk.timers, t.handler = .tcpConnectRto) :
    ∀ t ∈ (tcpResetRetransmissionTimer sk).timers, t.handler = .tcpConnectRto := by
  intro t ht
  have hst' : (tcpReleaseRetransmissionTimer sk).state = .synSent := hst
  unfold tcpResetRetransmissionTimer timerAdd at ht
  rcases List.mem_append.mp ht with ht | ht
  · exact handlers_release hts t ht
  · rw [List.mem_singleton] at ht
    rw [ht]
    unfold retransmissionTimer
    rw [if_pos hst']

/-- `tcp_connect_rto` sends the SYN again, or frees the sock. -/
theorem Connecting.tcpConnectRto {iss : UInt32} {sk : TcpSock} (h : Connecting iss sk) :
    Connecting iss (tcpConnectRto sk) ∨
      ((tcpConnectRto sk).freed = true ∧ (tcpConnectRto sk).receiveQueue = [] ∧
        (tcpConnectRto sk).out = sk.out) := by
  have hst : sk.state ≠ .established := by rw [h.state]; simp
  by_cases hb : sk.backoff > 3
  · rw [tcpConnectRto_free hst hb]
    exact Or.inr ⟨rfl, rfl, rfl⟩
  · left
    obtain ⟨skb, hq, hend, hdlen, hpay, hsyn, hack, hfin⟩ := h.queue
    rw [tcpConnectRto_cons hst hb hq]
    have hts := handlers_release h.timers
    generalize hsk₁ : { tcpReleaseRetransmissionTimer sk with
      writeQueue := [sentSkb sk skb sk.sndUna]
      out := sk.out ++ [sentSeg sk skb sk.sndUna]
      backoff := sk.backoff + 1 } = sk₁
    have hts₁ : ∀ t ∈ sk₁.timers, t.handler = .tcpConnectRto := hsk₁ ▸ hts
    have hst₁ : sk₁.state = .synSent := hsk₁ ▸ h.state
    have hreset := handlers_reset hst₁ hts₁
    obtain ⟨timers, retransmit, heq⟩ := tcpResetRetransmissionTimer_eq sk₁
    rw [heq] at hreset ⊢
    subst hsk₁
    refine ⟨h.state, h.freed, h.smss, h.isn, h.una, h.nxt, ?_, ?_, hreset, h.receiveQueue,
      h.ofoQueue⟩
    · refine ⟨_, rfl, ?_, hdlen, hpay, hsyn, hack, hfin⟩
      show sk.sndUna + skb.dlen = iss
      rw [h.una, hdlen, UInt32.add_zero]
    · intro s hs
      rcases List.mem_append.mp hs with hs | hs
      · exact h.out s hs
      · rw [List.mem_singleton] at hs
        subst hs
        exact ⟨hsyn, hack, hfin, h.una, hdlen, hpay⟩

/-- The timer of the SYN. -/
theorem Connecting.timer {iss : UInt32} {sk sk' : TcpSock} (h : Connecting iss sk) {i : ℕ}
    (hstep : fireTimer sk i = some sk') :
    Connecting iss sk' ∨ (sk'.freed = true ∧ sk'.receiveQueue = [] ∧ sk'.out = sk.out) := by
  obtain ⟨t, ht, -, rfl⟩ := fireTimer_runs hstep
  rw [h.timers t (List.mem_of_getElem? ht)]
  have hts := handlers_modify h.timers i (f := fun t => { t with cancelled := true }) fun _ => rfl
  have h' : Connecting iss
      { sk with timers := sk.timers.modify i fun t => { t with cancelled := true } } :=
    ⟨h.state, h.freed, h.smss, h.isn, h.una, h.nxt, h.queue, h.out, hts, h.receiveQueue,
      h.ofoQueue⟩
  exact h'.tcpConnectRto

/-- The client after the answer to its SYN, apart from its timers: `seq` is the sequence number of
the answer. -/
def answered (sk : TcpSock) (seq : UInt32) : TcpSock :=
  let sk := { sk with
    state := .established, rcvNxt := seq + 1, irs := seq, sndUna := sk.sndNxt, writeQueue := []
    sleeping := false }
  { sk with out := sk.out ++ [ackSeg sk] }

/-- A segment without SYN does nothing, an acknowledgement of the SYN establishes the connection. -/
theorem Connecting.segment {iss : UInt32} {sk : TcpSock} (h : Connecting iss sk)
    (hw : iss.toNat + 1 < 4294967296) {seg : Seg}
    (hseg : seg.th.syn = true → seg.th.ack = true ∧ seg.th.ackSeq = iss + 1) :
    tcpProcess sk seg = .ok sk ∨ seg.th.syn = true ∧ ∃ timers retransmit, tcpProcess sk seg =
      .ok { answered sk seg.th.seq with timers := timers, retransmit := retransmit } := by
  rw [tcpProcess_synSent h.state]
  unfold tcpSynsent
  by_cases hok : (seg.th.ack && !synsentAckOk sk seg.th) = true
  · rw [if_pos hok]; exact Or.inl rfl
  rw [if_neg hok]
  by_cases hrst : seg.th.rst = true
  · rw [if_pos hrst]; exact Or.inl rfl
  rw [if_neg hrst]
  cases hsyn : seg.th.syn
  · exact Or.inl rfl
  obtain ⟨hack, hnum⟩ := hseg hsyn
  refine Or.inr ⟨rfl, ?_⟩
  obtain ⟨skb, hq, hend, -⟩ := h.queue
  have hone : (iss + 1).toNat = iss.toNat + 1 := Lib.Word32.toNat_add_of_lt hw
  have hgt : seg.th.ackSeq > sk.isn := by
    rw [hnum, h.isn, gt_iff_lt, Lib.Word32.lt_iff, hone]
    omega
  have hpop : sk.writeQueue.dropWhile (fun skb => skb.endSeq ≤ seg.th.ackSeq) = [] := by
    have : skb.endSeq ≤ seg.th.ackSeq := by
      rw [hnum, hend, Lib.Word32.le_iff, hone]
      omega
    rw [hq, List.dropWhile_cons_of_pos (by simpa using this), List.dropWhile_nil]
  obtain ⟨timers, retransmit, heq⟩ := tcpCleanRetransmissionQueue_eq
    { sk with rcvNxt := seg.th.seq + 1, irs := seg.th.seq, sndUna := seg.th.ackSeq } seg.th.ackSeq
  simp only [hack, if_true, Bool.not_true, Bool.false_eq_true, if_false, heq, hgt, hpop]
  refine ⟨timers, retransmit, ?_⟩
  rw [tcpSendAck_eq]
  rfl

/-! ### The listener -/

/-- The listener answers an acknowledgement with a reset, and a SYN with a child. -/
theorem tcpHandleListen_cases (sk : TcpSock) (seg : Seg) (isn : UInt32) :
    tcpHandleListen sk seg isn = (sk, none) ∨
      tcpHandleListen sk seg isn = (tcpSendReset sk, none) ∨
      seg.th.syn = true ∧ (tcpHandleListen sk seg isn).1 = sk ∧
        ∃ c, (tcpHandleListen sk seg isn).2 = some c := by
  unfold tcpHandleListen
  split_ifs with _ _ hsyn
  · exact Or.inl rfl
  · exact Or.inr (Or.inl rfl)
  · exact Or.inl rfl
  · exact Or.inr (Or.inr ⟨by simpa using hsyn, rfl, _, rfl⟩)

/-- The child that a SYN makes. -/
structure Fresh (sk : TcpSock) (seg : Seg) (iss : UInt32) (c : TcpSock) : Prop where
  state : c.state = .synReceived
  parent : c.parent = some sk.state
  freed : c.freed = false
  smss : c.smss = 1460
  isn : c.isn = iss
  una : c.sndUna = iss
  nxt : c.sndNxt = iss + 1
  rcvNxt : c.rcvNxt = seg.th.seq + 1
  writeQueue : c.writeQueue = []
  ofoQueue : c.ofoQueue = []
  out : ∃ s, c.out = [s] ∧ s.th.syn = true ∧ s.th.ack = true ∧ s.th.fin = false ∧
    s.th.seq = iss ∧ s.th.ackSeq = seg.th.seq + 1 ∧ s.dlen = 0 ∧ s.payload = []

theorem fresh_of_tcpHandleListen {sk c : TcpSock} {seg : Seg} {isn : UInt32}
    (h : (tcpHandleListen sk seg isn).2 = some c) : Fresh sk seg isn c := by
  unfold tcpHandleListen at h
  split_ifs at h
  obtain rfl := Option.some.inj h
  exact ⟨rfl, rfl, rfl, rfl, rfl, rfl, rfl, rfl, rfl, rfl,
    ⟨_, rfl, rfl, rfl, rfl, rfl, rfl, rfl, rfl⟩⟩

end ToyIP.Tcp.Network
