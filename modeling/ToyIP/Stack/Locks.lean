import ToyIP.Lib.LockOrder
import ToyIP.Tcp.Types

/-! # The stack: its locks

What the functions of the stack do with their locks. Five locks are global, one guards each list:
the sockets, the UDP socks, the two lists of TCP socks and the timers; a sixth guards the IPC
connections. The others belong to a sock: its own lock, the locks of its three queues and of its two
`struct wait_lock`s. Each definition is the locked sections of one function; what the function
computes is left out, so a branch is free unless it is on the state of the sock, and `.sleep` is a
place where the thread waits for something outside: in `pthread_cond_wait`, which has released the
lock of the flag, or for the application at the other end of the IPC socket. The trylock of
`timer_free` is a branch as well.

The locks are ordered by `rank`. All calls follow the order but one, and so they cannot deadlock
(`no_deadlock`): `inet_close` holds the lock of the sock while it calls `tcp_close`, which on a
listening sock calls `tcp_free_sock`, which takes it again. That call never returns, and it keeps
the lock forever (`close_listening_hangs`). -/

namespace ToyIP.Stack.Locks

open ToyIP.Lib.Run ToyIP.Lib.LockOrder ToyIP.Lib.LockOrder.Code ToyIP.Tcp.Types

/-- The locks. A sock goes by a number. -/
inductive LockId
  -- `lock` of ipc.c, `slock` of socket.c, `slock` of udp_sock.c
  | ipc | sockets | udpSocks
  -- `cl_lock` and `es_lock` of tcp_sock.c
  | connectingOrListening | establishedOrSynRecvd
  -- `sk->lock`, `sk->receive_queue.lock`, `sk->write_queue.lock`, `tsk->ofo_queue.lock`
  | sk (k : ℕ) | receiveQueue (k : ℕ) | writeQueue (k : ℕ) | ofoQueue (k : ℕ)
  -- `sk->recv_wait.lock`, `tsk->wait.lock`
  | recvWait (k : ℕ) | wait (k : ℕ)
  -- `lock` of timer.c
  | timers
  deriving DecidableEq, Repr

abbrev LockCode := Code LockId

/-- A section under a mutex, or under a rwlock that is taken for writing. -/
def mutex (l : LockId) (c : LockCode := .skip) : LockCode := .locked .exclusive l c

/-- A section under a rwlock that is taken for reading. -/
def rdlock (l : LockId) (c : LockCode := .skip) : LockCode := .locked .shared l c

/-! ### wait.h -/

def waitWakeup (w : LockId) : LockCode := mutex w

/-- `wait_sleep`; each turn of its loop releases the lock, sleeps, and takes the lock again. -/
def waitSleep (w : LockId) : LockCode := all [loop (all [mutex w, .sleep]), mutex w]

/-! ### timer.c -/

def timerFree : LockCode := opt (mutex .timers)

def timerAdd : LockCode := mutex .timers

def timerRelease : LockCode := mutex .timers

def timerCancel : LockCode := mutex .timers

/-! ### tcp.c, tcp_output.c -/

/-- What hands a frame to the device takes no lock. -/
def tcpTransmitSkb : LockCode := .skip

def tcpStopRetransmissionTimer : LockCode := timerCancel

def tcpReleaseRetransmissionTimer : LockCode := timerRelease

def tcpStopDelackTimer : LockCode := timerCancel

def tcpReleaseDelackTimer : LockCode := timerRelease

def tcpResetRetransmissionTimer : LockCode := all [tcpReleaseRetransmissionTimer, timerAdd]

def tcpQueueTransmitSkb (k : ℕ) : LockCode :=
  mutex (.writeQueue k) (all [opt tcpResetRetransmissionTimer, tcpTransmitSkb])

def tcpClearTimers (k : ℕ) : LockCode :=
  all [mutex (.writeQueue k) (all [tcpStopRetransmissionTimer, tcpStopDelackTimer]), timerCancel]

def tcpClearQueues (k : ℕ) : LockCode := mutex (.ofoQueue k)

def tcpFreeSock (k : ℕ) : LockCode :=
  mutex (.sk k) (all [tcpClearTimers k, tcpClearQueues k])

def tcpEstablishedOrSynRecvdSocksEnqueue : LockCode := mutex .establishedOrSynRecvd

def tcpEstablishedOrSynRecvdSocksRemove : LockCode := mutex .establishedOrSynRecvd

def tcpConnectingOrListeningSocksEnqueue : LockCode := mutex .connectingOrListening

def tcpConnectingOrListeningSocksRemove : LockCode := mutex .connectingOrListening

def tcpDone (k : ℕ) : LockCode := all [tcpEstablishedOrSynRecvdSocksRemove, tcpFreeSock k]

def tcpEnterTimeWait (k : ℕ) : LockCode := all [tcpClearTimers k, timerCancel, timerAdd]

def tcpNotifyUser (k : ℕ) : LockCode := opt (waitWakeup (.wait k))

def tcpSendDelack : LockCode := all [tcpReleaseDelackTimer, tcpTransmitSkb]

def tcpConnectRto (k : ℕ) : LockCode :=
  all [tcpReleaseRetransmissionTimer, opt (either (tcpFreeSock k)
    (mutex (.writeQueue k) (opt (all [tcpTransmitSkb, tcpResetRetransmissionTimer]))))]

def tcpRetransmissionTimeout (k : ℕ) : LockCode :=
  mutex (.writeQueue k) (all [tcpReleaseRetransmissionTimer,
    either (tcpNotifyUser k) (all [tcpTransmitSkb, timerAdd])])

def tcpLinger (k : ℕ) : LockCode := all [timerRelease, tcpDone k]

/-- A timer callback of the sock `k`. -/
def runHandler (k : ℕ) : Handler → LockCode
  | .tcpConnectRto => tcpConnectRto k
  | .tcpRetransmissionTimeout => tcpRetransmissionTimeout k
  | .tcpSendDelack => tcpSendDelack
  | .tcpLinger => tcpLinger k

/-- `timers_tick` over the list of timers, with the sock and the callback of each. -/
def timersTick (ts : List (ℕ × Handler)) : LockCode :=
  all (ts.map fun t => all [opt (runHandler t.1 t.2), opt timerFree])

/-! ### tcp_input.c, tcp_data.c -/

def tcpRecvNotify (k : ℕ) : LockCode := waitWakeup (.recvWait k)

/-- `tcp_synrecv_ack`, with the parent `p`. -/
def tcpSynrecvAck (p : ℕ) : LockCode := opt (waitWakeup (.wait p))

def tcpCleanRetransmissionQueue (k : ℕ) : LockCode :=
  mutex (.writeQueue k) (opt tcpStopRetransmissionTimer)

def tcpHandleListen : LockCode :=
  either tcpTransmitSkb (opt (all [tcpTransmitSkb, tcpEstablishedOrSynRecvdSocksEnqueue]))

def tcpSynsent (k : ℕ) : LockCode :=
  opt (all [opt (tcpCleanRetransmissionQueue k),
    either (all [tcpTransmitSkb, waitWakeup (.wait k)]) tcpTransmitSkb])

def tcpDataQueue : LockCode :=
  opt (either (all [tcpStopDelackTimer, either tcpTransmitSkb timerAdd]) tcpTransmitSkb)

/-- Step 4 of `tcp_process`. -/
def synCheck (k : ℕ) : LockCode :=
  all [tcpTransmitSkb, opt (all [tcpEstablishedOrSynRecvdSocksRemove, tcpFreeSock k])]

/-- Step 5. -/
def ackCheck (k p : ℕ) : LockCode :=
  either (tcpSynrecvAck p) (opt (tcpCleanRetransmissionQueue k))

/-- Steps 7 and 8. -/
def textAndFin (k : ℕ) : LockCode :=
  mutex (.receiveQueue k) (all [opt (all [tcpDataQueue, tcpRecvNotify k]),
    opt (all [tcpTransmitSkb, tcpRecvNotify k, opt (either (tcpRecvNotify k) (tcpEnterTimeWait k))])])

/-- `tcp_process` on the sock `k` with the parent `p`. -/
def tcpProcess (k p : ℕ) : TcpState → LockCode
  | .close => tcpTransmitSkb
  | .listen => tcpHandleListen
  | .synSent => tcpSynsent k
  | _ => either tcpTransmitSkb
      (all [opt (synCheck k), opt (all [ackCheck k p, opt (textAndFin k)])])

def tcpLookupSock : LockCode :=
  all [rdlock .establishedOrSynRecvd, opt (rdlock .connectingOrListening)]

/-- `tcp_in`; the sock that it finds is `k`, in the state `st`. -/
def tcpIn (k p : ℕ) (st : TcpState) : LockCode := all [tcpLookupSock, opt (tcpProcess k p st)]

def tcpDataDequeue (k : ℕ) : LockCode := mutex (.receiveQueue k)

def tcpReceive (k : ℕ) : LockCode :=
  all [loop (all [tcpDataDequeue k, waitSleep (.recvWait k)]), opt (tcpDataDequeue k)]

/-! ### tcp_sock.c -/

def tcpWrite (k : ℕ) : LockCode := opt (loop (tcpQueueTransmitSkb k))

def tcpRead (k : ℕ) : LockCode := opt (tcpReceive k)

def tcpClose (k : ℕ) : TcpState → LockCode
  | .close | .closing | .lastAck | .timeWait | .finWait1 | .finWait2 => .skip
  | .listen => all [tcpConnectingOrListeningSocksRemove, tcpFreeSock k]
  | .synSent | .synReceived | .established | .closeWait => tcpQueueTransmitSkb k

def tcpV4Connect (k : ℕ) : LockCode :=
  all [tcpConnectingOrListeningSocksEnqueue, tcpQueueTransmitSkb k, waitSleep (.wait k),
    tcpConnectingOrListeningSocksRemove, tcpEstablishedOrSynRecvdSocksEnqueue]

def tcpAccept (k : ℕ) : LockCode := loop (waitSleep (.wait k))

def tcpListen : LockCode := opt tcpConnectingOrListeningSocksEnqueue

/-! ### udp.c, udp_sock.c -/

def udpLookupSock : LockCode := rdlock .udpSocks

def udpRecvNotify (k : ℕ) : LockCode := waitWakeup (.recvWait k)

def udpIn (k : ℕ) : LockCode := all [udpLookupSock, opt (udpRecvNotify k)]

def udpDataDequeue (k : ℕ) : LockCode := mutex (.receiveQueue k)

/-- `udp_recvfrom` and `udp_read`. -/
def udpRecvfrom (k : ℕ) : LockCode :=
  all [loop (all [udpDataDequeue k, waitSleep (.recvWait k)]), udpDataDequeue k]

def udpCleanUpReceiveQueue (k : ℕ) : LockCode := mutex (.receiveQueue k)

def udpConnect (k : ℕ) : LockCode := mutex .udpSocks (opt (udpCleanUpReceiveQueue k))

def udpSend : LockCode := .skip

def udpSendto : LockCode := opt (all [opt (mutex .udpSocks), udpSend])

def udpBind : LockCode := opt (mutex .udpSocks)

def udpClose : LockCode := mutex .udpSocks

/-! ### socket.c, inet.c -/

def getSocket : LockCode := rdlock .sockets

def socketSocketsEnqueue : LockCode := mutex .sockets

def socketSocketsRemove : LockCode := mutex .sockets

def freeSocket : LockCode := mutex .sockets

/-- `socket_debug`, which is empty unless `DEBUG_SOCKET` is defined. -/
def socketDebug : LockCode := opt (rdlock .sockets)

/-- `inet_close`, which holds `sk->lock` while it calls the close of the protocol. -/
def inetClose (k : ℕ) (close : LockCode) : LockCode := mutex (.sk k) close

/-- The protocol of a socket that is closed, with the state of a TCP sock. -/
inductive Closed
  | udp
  | tcp (st : TcpState)
  deriving DecidableEq, Repr

def Closed.close (k : ℕ) : Closed → LockCode
  | .udp => udpClose
  | .tcp st => tcpClose k st

/-- What a thread is called to do: the thread of `netdev_rx_loop` for each frame, the one of
`timers_start` for each tick, the listener for each connection, and a thread of `socket_ipc_open` for
each request, with the sock `k` of the socket that the request names, if there is one. -/
inductive Job
  | tcpIn (k p : ℕ) (st : TcpState)
  | udpIn (k : ℕ)
  | timersTick (ts : List (ℕ × Handler))
  | ipcAllocThread
  | ipcFreeThread
  | socket
  | bind
  | connect (k : ℕ)
  | write (k : ℕ)
  | read (k : ℕ)
  | sendto
  | recvfrom (k : ℕ)
  | listen
  | accept (k : ℕ)
  | close (k : ℕ) (c : Closed)

/-- A request on a socket: it is looked up, and the response is written. -/
def request (c : LockCode) : LockCode := all [getSocket, opt c, .sleep]

def Job.code : Job → LockCode
  | .tcpIn k p st => Locks.tcpIn k p st
  | .udpIn k => Locks.udpIn k
  | .timersTick ts => all [Locks.timersTick ts, socketDebug]
  | .ipcAllocThread => mutex .ipc
  | .ipcFreeThread => rdlock .ipc
  | .socket => all [either socketSocketsEnqueue freeSocket, .sleep]
  | .bind => request udpBind
  | .connect k => request (either (tcpV4Connect k) (udpConnect k))
  -- the rest of a long message is read from the IPC socket first
  | .write k => all [opt .sleep, request (either (tcpWrite k) udpSend)]
  | .read k => request (either (tcpRead k) (udpRecvfrom k))
  | .sendto => all [opt .sleep, request udpSendto]
  | .recvfrom k => request (udpRecvfrom k)
  | .listen => request tcpListen
  | .accept k => request (all [tcpAccept k, opt socketSocketsEnqueue])
  | .close k c => request (all [inetClose k (c.close k), opt (all [socketSocketsRemove, freeSocket])])

/-! ### The order -/

def rank : LockId → ℕ
  | .ipc | .sockets => 0
  | .sk _ => 1
  | .udpSocks | .connectingOrListening | .establishedOrSynRecvd => 2
  | .receiveQueue _ => 3
  | .writeQueue _ | .ofoQueue _ => 4
  | .recvWait _ | .wait _ => 5
  | .timers => 6

section

variable {b : ℕ} (k : ℕ)

@[simp] theorem within_mutex {l : LockId} {c : LockCode} :
    (mutex l c).Within rank b ↔ b ≤ rank l ∧ c.Within rank (rank l + 1) := Iff.rfl

@[simp] theorem within_rdlock {l : LockId} {c : LockCode} :
    (rdlock l c).Within rank b ↔ b ≤ rank l ∧ c.Within rank (rank l + 1) := Iff.rfl

/-- Nobody calls `wait_sleep` in a locked section. -/
theorem within_waitSleep {w : LockId} : (waitSleep w).Within rank 0 := by
  simp [waitSleep]

theorem within_tcpQueueTransmitSkb : (tcpQueueTransmitSkb k).Within rank 4 := by
  simp [tcpQueueTransmitSkb, tcpResetRetransmissionTimer, tcpReleaseRetransmissionTimer,
    timerRelease, timerAdd, tcpTransmitSkb, rank]

theorem within_tcpClearTimers : (tcpClearTimers k).Within rank 4 := by
  simp [tcpClearTimers, tcpStopRetransmissionTimer, tcpStopDelackTimer, timerCancel, rank]

theorem within_tcpFreeSock : (tcpFreeSock k).Within rank 1 := by
  have hclear := (within_tcpClearTimers k).mono (a := 2) (by omega)
  simp [tcpFreeSock, tcpClearQueues, hclear, rank]

theorem within_tcpConnectRto : (tcpConnectRto k).Within rank 1 := by
  simp [tcpConnectRto, within_tcpFreeSock, tcpResetRetransmissionTimer,
    tcpReleaseRetransmissionTimer, timerRelease, timerAdd, tcpTransmitSkb, rank]

theorem within_tcpRetransmissionTimeout : (tcpRetransmissionTimeout k).Within rank 4 := by
  simp [tcpRetransmissionTimeout, tcpReleaseRetransmissionTimer, tcpNotifyUser, waitWakeup,
    timerRelease, timerAdd, tcpTransmitSkb, rank]

theorem within_tcpLinger : (tcpLinger k).Within rank 1 := by
  simp [tcpLinger, tcpDone, tcpEstablishedOrSynRecvdSocksRemove, within_tcpFreeSock, timerRelease,
    rank]

theorem within_runHandler : ∀ f, (runHandler k f).Within rank 1
  | .tcpConnectRto => within_tcpConnectRto k
  | .tcpRetransmissionTimeout => (within_tcpRetransmissionTimeout k).mono (by omega)
  | .tcpSendDelack => by
    simp [runHandler, tcpSendDelack, tcpReleaseDelackTimer, timerRelease, tcpTransmitSkb, rank]
  | .tcpLinger => within_tcpLinger k

theorem within_timersTick (ts : List (ℕ × Handler)) : (timersTick ts).Within rank 0 := by
  rw [timersTick, within_all]
  intro c hc
  obtain ⟨t, -, rfl⟩ := List.mem_map.mp hc
  have hhandler := (within_runHandler t.1 t.2).mono (a := 0) (by omega)
  simp [hhandler, timerFree]

theorem within_textAndFin : (textAndFin k).Within rank 3 := by
  simp [textAndFin, tcpDataQueue, tcpStopDelackTimer, tcpRecvNotify, waitWakeup, tcpEnterTimeWait,
    within_tcpClearTimers, timerCancel, timerAdd, tcpTransmitSkb, rank]

theorem within_tcpProcess (p : ℕ) (st : TcpState) : (tcpProcess k p st).Within rank 1 := by
  have hfin := (within_textAndFin k).mono (a := 1) (by omega)
  cases st <;>
    simp [tcpProcess, tcpHandleListen, tcpSynsent, synCheck, ackCheck, tcpSynrecvAck, hfin,
      tcpCleanRetransmissionQueue, tcpStopRetransmissionTimer, timerCancel, waitWakeup,
      within_tcpFreeSock, tcpEstablishedOrSynRecvdSocksEnqueue,
      tcpEstablishedOrSynRecvdSocksRemove, tcpTransmitSkb, rank]

/-- The close of a TCP sock in any state but LISTEN goes well with `sk->lock`. -/
theorem within_tcpClose {st : TcpState} (hst : st ≠ .listen) : (tcpClose k st).Within rank 2 := by
  have hfin := (within_tcpQueueTransmitSkb k).mono (a := 2) (by omega)
  cases st <;> simp_all [tcpClose]

theorem within_close {c : Closed} (hc : c ≠ .tcp .listen) : (c.close k).Within rank 2 := by
  cases c with
  | udp => simp [Closed.close, udpClose, rank]
  | tcp st => exact within_tcpClose k fun hst => hc (hst ▸ rfl)

end

/-- **The order of the locks**: every job but the close of a listening sock follows it. -/
theorem within_job {j : Job} (hj : ∀ k, j ≠ .close k (.tcp .listen)) : j.code.Within rank 0 := by
  cases j with
  | tcpIn k p st =>
    have hprocess := (within_tcpProcess k p st).mono (a := 0) (by omega)
    simp [Job.code, tcpIn, tcpLookupSock, hprocess, rank]
  | udpIn k => simp [Job.code, udpIn, udpLookupSock, udpRecvNotify, waitWakeup, rank]
  | timersTick ts => simp [Job.code, within_timersTick, socketDebug]
  | ipcAllocThread => simp [Job.code]
  | ipcFreeThread => simp [Job.code]
  | socket => simp [Job.code, socketSocketsEnqueue, freeSocket]
  | bind => simp [Job.code, request, getSocket, udpBind]
  | connect k =>
    have hsyn := (within_tcpQueueTransmitSkb k).mono (a := 0) (by omega)
    simp [Job.code, request, getSocket, tcpV4Connect, hsyn, within_waitSleep, udpConnect,
      udpCleanUpReceiveQueue, tcpConnectingOrListeningSocksEnqueue,
      tcpConnectingOrListeningSocksRemove, tcpEstablishedOrSynRecvdSocksEnqueue, rank]
  | write k =>
    have hsend := (within_tcpQueueTransmitSkb k).mono (a := 0) (by omega)
    simp [Job.code, request, getSocket, tcpWrite, hsend, udpSend]
  | read k =>
    simp [Job.code, request, getSocket, tcpRead, tcpReceive, tcpDataDequeue, udpRecvfrom,
      udpDataDequeue, within_waitSleep]
  | sendto => simp [Job.code, request, getSocket, udpSendto, udpSend]
  | recvfrom k =>
    simp [Job.code, request, getSocket, udpRecvfrom, udpDataDequeue, within_waitSleep]
  | listen => simp [Job.code, request, getSocket, tcpListen, tcpConnectingOrListeningSocksEnqueue]
  | accept k =>
    simp [Job.code, request, getSocket, tcpAccept, within_waitSleep, socketSocketsEnqueue]
  | close k c =>
    have hclose := within_close k (c := c) fun hc => hj k (hc ▸ rfl)
    simp [Job.code, request, getSocket, inetClose, hclose, socketSocketsRemove, freeSocket, rank]

/-! ### The threads -/

/-- Every call is a job of the stack, and none is the close of a listening sock. -/
def Orderly {τ : Type*} (es : List (Event τ LockId)) : Prop :=
  ∀ t c, Event.call t c ∈ es → ∃ j : Job, c = j.code ∧ ∀ k, j ≠ .close k (.tcp .listen)

section

variable {τ : Type*} [Fintype τ] [DecidableEq τ]

theorem ordered_of_orderly {es : List (Event τ LockId)} (hes : Orderly es)
    {s : τ → Thread LockId} (h : run step idle es = some s) : Ordered rank s := by
  refine ordered_run (fun e he => ?_) h
  cases e with
  | call t c =>
    obtain ⟨j, rfl, hj⟩ := hes t c he
    exact within_job hj
  | go t b => trivial
  | wake t => trivial

/-- **No deadlock.** Whatever the threads are called to do, and in whatever order their steps come:
nobody waits for himself, not even through others; a thread that sleeps holds no lock; and those who
hold locks can always go on by themselves until no lock is held. -/
theorem no_deadlock {es : List (Event τ LockId)} (hes : Orderly es) {s : τ → Thread LockId}
    (h : run step idle es = some s) :
    (∀ t, ¬ Relation.TransGen (WaitsFor s) t t) ∧ (∀ t, (s t).Asleep → (s t).held = []) ∧
      ∃ fs s', run step s fs = some s' ∧ (∀ e ∈ fs, ∃ t b, e = .go t b ∧ (s t).held ≠ []) ∧
        (∀ t, (s' t).held = []) ∧ ∀ t, (s t).held = [] → s' t = s t :=
  ⟨not_waits_self (ordered_of_orderly hes h),
    fun t ht => (ordered_of_orderly hes h t).held_of_asleep ht,
    exists_release (ordered_of_orderly hes h)⟩

/-- One thread closes a connection, and the thread of the timers, which frees the sock after the last
retry, waits for it. -/
def closing : List (Event Bool LockId) :=
  .call true (Job.close 0 (.tcp .established)).code :: List.replicate 8 (.go true true) ++
    .call false (Job.timersTick [(0, .tcpConnectRto)]).code :: List.replicate 11 (.go false true)

theorem no_deadlock_closing : ∃ s, run step idle closing = some s ∧ WaitsFor s false true ∧
    (∀ t, ¬ Relation.TransGen (WaitsFor s) t t) ∧ (∀ t, (s t).Asleep → (s t).held = []) ∧
      ∃ fs s', run step s fs = some s' ∧ (∀ e ∈ fs, ∃ t b, e = .go t b ∧ (s t).held ≠ []) ∧
        (∀ t, (s' t).held = []) ∧ ∀ t, (s t).held = [] → s' t = s t := by
  have horderly : Orderly closing := by
    intro t c hc
    simp only [closing, List.cons_append, List.mem_cons, List.mem_append, List.mem_replicate,
      Event.call.injEq, reduceCtorEq, and_false, false_or, or_false] at hc
    rcases hc with ⟨-, rfl⟩ | ⟨-, rfl⟩
    · exact ⟨_, rfl, by simp⟩
    · exact ⟨_, rfl, by simp⟩
  exact ⟨_, rfl, ⟨_, rfl, _, List.mem_cons_self .., rfl, rfl⟩, no_deadlock horderly rfl⟩

/-! ### The close of a listening sock -/

/-- What the thread has left to do when it comes to `tcp_free_sock`. -/
def beforeFreeSock (k : ℕ) : List (Item LockId) :=
  [.code (tcpFreeSock k), .code (all []), .unlock (.sk k),
    .code (all [opt (all [socketSocketsRemove, freeSocket])]), .code (all [.sleep])]

/-- The thread that closes a listening sock comes to `tcp_free_sock` with the lock of the sock. -/
theorem alone_close (k : ℕ) :
    (Thread.mk [] [.code (Job.close k (.tcp .listen)).code]).alone (List.replicate 13 true) =
      some ⟨[(.exclusive, .sk k)], beforeFreeSock k⟩ := rfl

theorem takes_tcpClose (k : ℕ) : (tcpClose k .listen).Takes (.sk k) = true := by
  simp [tcpClose, tcpFreeSock, mutex, all, Takes]

/-- **The close of a listening sock hangs.** A thread that comes to `inet_close` of a listening sock
never returns, and once it has the lock of the sock everyone who comes to that lock waits for it. In
every reachable state a thread without work can be called to do this, and it can then come to wait
for itself. -/
theorem close_listening_hangs (t : τ) (k : ℕ) :
    (∀ (s : τ → Thread LockId) rest,
      (s t).todo = .code (inetClose k (tcpClose k .listen)) :: rest →
      ∀ es s', run step s es = some s' → (s' t).todo ≠ [] ∧
        (s' t = s t ∨ ∀ u p, (s' u).wants = some p → p.2 = .sk k → WaitsFor s' u t)) ∧
    ∀ (es : List (Event τ LockId)) s, Orderly es → run step idle es = some s → (s t).todo = [] →
      ∃ fs gs s', run step s (fs ++ .call t (Job.close k (.tcp .listen)).code :: gs) = some s' ∧
        WaitsFor s' t t := by
  constructor
  · intro s rest ht es s' h
    rcases doomed_run (takes_tcpClose k) ht h with heq | hd
    · exact ⟨by rw [heq, ht]; simp, .inl heq⟩
    · exact ⟨hd.todo_ne_nil, .inr fun u p hp hl => hd.waitsFor hp hl⟩
  · intro es s hes h ht
    have hordered := ordered_of_orderly hes h
    have hheld : (s t).held = [] := by
      have hf := hordered t
      rw [ht] at hf
      exact hf.nil
    -- first everyone releases the locks
    obtain ⟨fs, s₁, hfs, -, hnone, hkeep⟩ := exists_release hordered
    have hs₁ : s₁ t = ⟨[], []⟩ := by rw [hkeep t hheld, ← hheld, ← ht]
    have hcall : step s₁ (.call t (Job.close k (.tcp .listen)).code) =
        some (Function.update s₁ t ⟨[], [.code (Job.close k (.tcp .listen)).code]⟩) := by
      rw [step, hs₁]
    have halone := run_alone (t := t)
      (s := Function.update s₁ t ⟨[], [.code (Job.close k (.tcp .listen)).code]⟩)
      (fun u hu => by rw [Function.update_of_ne hu]; exact hnone u)
      (by rw [Function.update_self]; exact alone_close k)
    rw [Function.update_idem] at halone
    refine ⟨fs, _, _, run_append.mpr ⟨s₁, hfs, run_cons.mpr ⟨_, hcall, halone⟩⟩, ?_⟩
    refine ⟨(.exclusive, .sk k), ?_, (.exclusive, .sk k), ?_, rfl, rfl⟩
    · rw [Function.update_self]; rfl
    · rw [Function.update_self]; exact List.mem_cons_self ..

end

end ToyIP.Stack.Locks
