import ToyIP.Tcp.Input

/-! # TCP: socket calls and timer ticks

`tcp_write`, `tcp_close`, `tcp_done` and the reader's side of `tcp_sock.c`, with `tcp_receive` cut
at its `wait_sleep`, and the call of an expired timer by `timers_tick`. -/

namespace ToyIP.Tcp.Sock

open ToyIP.Tcp.Types ToyIP.Tcp.Timer ToyIP.Tcp.Output ToyIP.Tcp.Data ToyIP.Tcp.Input

/-- `tcp_write`: the sock afterwards and the result. -/
def tcpWrite (sk : TcpSock) (buf : List UInt8) : TcpSock × Int :=
  match sk.state with
  | .established | .closeWait => (tcpSend sk buf, buf.length)
  | _ => (sk, -1)

/-- `tcp_close`. -/
def tcpClose (sk : TcpSock) : TcpSock × Int :=
  match sk.state with
  | .close | .closing | .lastAck | .timeWait | .finWait1 | .finWait2 => ({ sk with err := -9 }, -1)
  | .listen => (tcpFreeSock { tcpSetState sk .close with link := none }, 0)
  | .synSent | .synReceived | .established => (tcpSetState (tcpQueueFin sk) .finWait1, 0)
  | .closeWait => (tcpSetState (tcpQueueFin sk) .lastAck, 0)

/-- `tcp_done`. -/
def tcpDone (sk : TcpSock) : TcpSock := tcpFreeSock { sk with link := none }

/-- `tcp_linger`, a timer callback. -/
def tcpLinger (sk : TcpSock) : TcpSock :=
  tcpDone { timerRelease sk sk.linger with linger := none }

/-- A timer callback. -/
def runHandler (sk : TcpSock) : Handler → TcpSock
  | .tcpConnectRto => tcpConnectRto sk
  | .tcpRetransmissionTimeout => tcpRetransmissionTimeout sk
  | .tcpSendDelack => tcpSendDelack sk
  | .tcpLinger => tcpLinger sk

/-- `timers_tick` on the expired timer `i`: it is marked cancelled and its callback runs. A timer
that was cancelled before does not fire. -/
def fireTimer (sk : TcpSock) (i : ℕ) : Option TcpSock :=
  match sk.timers[i]? with
  | none => none
  | some t =>
    if t.cancelled then none
    else some (runHandler
      { sk with timers := sk.timers.modify i fun t => { t with cancelled := true } } t.handler)

theorem fireTimer_runs {sk sk' : TcpSock} {i : ℕ} (h : fireTimer sk i = some sk') :
    ∃ t, sk.timers[i]? = some t ∧ t.cancelled = false ∧ sk' = runHandler
      { sk with timers := sk.timers.modify i fun t => { t with cancelled := true } } t.handler := by
  unfold fireTimer at h
  cases ht : sk.timers[i]? with
  | none =>
    rw [ht] at h
    exact absurd h (by simp)
  | some t =>
    rw [ht] at h
    obtain ⟨hc, h⟩ := Option.ite_none_left_eq_some.mp h
    exact ⟨t, rfl, Bool.eq_false_iff.mpr hc, (Option.some.inj h).symm⟩

/-- Where the one reader of a sock is: outside, or in `tcp_receive` with `rlen` of `len` bytes
copied. -/
inductive Reader
  | idle
  | receiving (len rlen : ℕ)
  deriving DecidableEq, Repr

/-- The state test of `tcp_read`. -/
def tcpReadStart (sk : TcpSock) (len : ℕ) : TcpSock × Reader :=
  match sk.state with
  | .listen | .synSent | .synReceived | .established | .finWait1 | .finWait2 =>
    (sk, if 0 < len then .receiving len 0 else .idle)
  | .closeWait =>
    if sk.receiveQueue = [] ∧ sk.flagFin then ({ sk with flagFin := false }, .idle)
    else (sk, if 0 < len then .receiving len 0 else .idle)
  | _ => (sk, .idle)

/-- One round of the loop of `tcp_receive`, up to its return or its `wait_sleep`: the sock, the
bytes copied to the reader and where the reader is then. -/
def tcpReceiveRound (sk : TcpSock) (len rlen : ℕ) : TcpSock × List UInt8 × Reader :=
  let d := tcpDataDequeue sk (UInt32.ofNat (len - rlen))
  let rlen := rlen + d.2.length
  let sk := d.1
  if sk.flagPsh then ({ sk with flagPsh := false }, d.2, .idle)
  else if sk.flagFin ∨ rlen = len then (sk, d.2, .idle)
  else ({ sk with recvSleeping := true }, d.2, .receiving len rlen)

end ToyIP.Tcp.Sock
