import ToyIP.Tcp.Types

/-! # TCP: the timers of a sock

`timer_add`, `timer_release` and `timer_cancel` on the timers one sock has added, and the functions
of `tcp.c` and `tcp_output.c` that stop, release or re-arm one of its timers. A timer stays in the
list after it was cancelled or released; when `timers_tick` frees it cannot be seen from the
sock. -/

namespace ToyIP.Tcp.Timer

open ToyIP.Tcp.Types

/-- `timer_add`: the new timer has one reference, and its place in the list is its name. -/
def timerAdd (sk : TcpSock) (expire : UInt32) (handler : Handler) : TcpSock × ℕ :=
  ({ sk with timers := sk.timers ++ [{ handler := handler, expire := expire }] }, sk.timers.length)

/-- `timer_release`. -/
def timerRelease (sk : TcpSock) (t : Option ℕ) : TcpSock :=
  { sk with timers := match t with
    | none => sk.timers
    | some i => sk.timers.modify i fun t => { t with refcnt := t.refcnt - 1 } }

/-- `timer_cancel`. -/
def timerCancel (sk : TcpSock) (t : Option ℕ) : TcpSock :=
  { sk with timers := match t with
    | none => sk.timers
    | some i => sk.timers.modify i fun t => { t with refcnt := t.refcnt - 1, cancelled := true } }

/-- `tcp_stop_retransmission_timer`. -/
def tcpStopRetransmissionTimer (sk : TcpSock) : TcpSock :=
  { timerCancel sk sk.retransmit with retransmit := none }

/-- `tcp_release_retransmission_timer`. -/
def tcpReleaseRetransmissionTimer (sk : TcpSock) : TcpSock :=
  { timerRelease sk sk.retransmit with retransmit := none }

/-- `tcp_stop_delack_timer`. -/
def tcpStopDelackTimer (sk : TcpSock) : TcpSock := { timerCancel sk sk.delack with delack := none }

/-- `tcp_release_delack_timer`. -/
def tcpReleaseDelackTimer (sk : TcpSock) : TcpSock :=
  { timerRelease sk sk.delack with delack := none }

/-- `tcp_clear_timers`. -/
def tcpClearTimers (sk : TcpSock) : TcpSock := tcpStopDelackTimer (tcpStopRetransmissionTimer sk)

/-- The retransmission timer for a state: `TCP_SYN_BACKOFF << backoff` ticks and `tcp_connect_rto`
in `SYN_SENT`, 500 ticks and `tcp_retransmission_timeout` in every other state. -/
def retransmissionTimer (sk : TcpSock) : UInt32 × Handler :=
  if sk.state = .synSent then (500 <<< sk.backoff.toUInt32, .tcpConnectRto)
  else (500, .tcpRetransmissionTimeout)

/-- `tcp_reset_retransmission_timer`. -/
def tcpResetRetransmissionTimer (sk : TcpSock) : TcpSock :=
  let sk := tcpReleaseRetransmissionTimer sk
  let t := timerAdd sk (retransmissionTimer sk).1 (retransmissionTimer sk).2
  { t.1 with retransmit := some t.2 }

end ToyIP.Tcp.Timer
