import ToyIP.Lib.Bytes
import ToyIP.Lib.Run

/-! # Write requests over the IPC connection

An application sends its calls to the stack over a stream socket. `lvl_write` and `lvl_sendto` put
headers before the data and write all of it at once; the loop of `socket_ipc_open` reads at most
`IPC_BUFLEN` bytes into a buffer, takes the data that are there behind the headers, and reads what
is longer than `IPC_BUFLEN` from the connection.

The bound does not count the headers. Where headers and data together are longer than the buffer,
the server takes bytes from behind its buffer for data and leaves as many of the connection unread.
`write_framing` says that this is the only failure. -/

namespace ToyIP.Stack.Ipc

open ToyIP.Lib.Bytes ToyIP.Lib.Run

/-! ### The application -/

/-- `struct sockaddr_in`, with its fields as they lie in memory. -/
structure SockaddrIn where
  sinFamily : UInt16
  sinPort : UInt16
  sinAddr : UInt32
  sinZero : UInt64
  deriving DecidableEq, Repr

def SockaddrIn.bytes (a : SockaddrIn) : List UInt8 :=
  le 2 a.sinFamily.toNat ++ (le 2 a.sinPort.toNat ++ (le 4 a.sinAddr.toNat ++ le 8 a.sinZero.toNat))

/-- A call of the application. -/
inductive Call
  | write (sockfd : UInt32) (buf : List UInt8)
  | sendto (sockfd : UInt32) (buf : List UInt8) (saddr : SockaddrIn)
  deriving DecidableEq, Repr

def ipcBuflen : ℕ := 4096
def ipcWriteType : ℕ := 3
def ipcSendtoType : ℕ := 9

/-- The sizes of the packed structures without their data. -/
def sizeofIpcMsg : ℕ := 6
def sizeofIpcWrite : ℕ := 12
def sizeofIpcSendto : ℕ := 28

def ipcMsg (type : ℕ) (pid : UInt32) (data : List UInt8) : List UInt8 :=
  le 2 type ++ (le 4 pid.toNat ++ data)

def ipcWriteMsg (sockfd : UInt32) (buf : List UInt8) : List UInt8 :=
  le 4 sockfd.toNat ++ (le 8 buf.length ++ buf)

def ipcSendtoMsg (sockfd : UInt32) (saddr : SockaddrIn) (buf : List UInt8) : List UInt8 :=
  le 4 sockfd.toNat ++ (le 8 buf.length ++ (saddr.bytes ++ buf))

/-- The message of a call. Its length is an `int`, and the message is allocated by that length. -/
def lvlMessage (pid : UInt32) (c : Call) : Option (List UInt8) :=
  let m := match c with
    | .write sockfd buf => ipcMsg ipcWriteType pid (ipcWriteMsg sockfd buf)
    | .sendto sockfd buf saddr => ipcMsg ipcSendtoType pid (ipcSendtoMsg sockfd saddr buf)
  if m.length < 2 ^ 31 then some m else none

/-! ### The server -/

/-- Memory of the server. A byte that has not come over the connection in this request is `none`:
what is left in the buffer from before, what lies behind the buffer, and what `memset` has put. -/
abbrev Mem := List (Option UInt8)

/-- `n` bytes from `i` on, also where the memory ends before. -/
def memcpy (m : Mem) (i n : ℕ) : Mem := slice m i n ++ List.replicate (n - (slice m i n).length) none

/-- A word of `n` bytes at `i`, if all of them have come over the connection. -/
def word (m : Mem) (i n : ℕ) : Option ℕ := ((memcpy m i n).mapM id).map ofLe

/-- `read(2)`: as many of the bytes in flight as are asked for; it waits if there are none. -/
def read (stream : List UInt8) (n : ℕ) : Option (List UInt8 × List UInt8) :=
  if stream = [] then none else some (stream.take n, stream.drop n)

/-- What `_write` and `_sendto` are called with. -/
inductive Handed
  | write (pid sockfd : UInt32) (buf : Mem)
  | sendto (pid sockfd : UInt32) (buf : Mem) (addr : SockaddrIn)
  deriving DecidableEq, Repr

/-- The data of a message: `len` bytes from `off` on, of which those behind `IPC_BUFLEN` are read
from the connection. -/
def ipcPayload (msg : Mem) (off len : ℕ) (stream : List UInt8) : Option (Mem × List UInt8) :=
  let buf := memcpy msg off (min ipcBuflen len)
  if ipcBuflen < len then do
    let (more, stream) ← read stream (len - ipcBuflen)
    some (buf ++ (more.map some ++ List.replicate (len - ipcBuflen - more.length) none), stream)
  else some (buf, stream)

def ipcWrite (msg : Mem) (stream : List UInt8) : Option (Handed × List UInt8) := do
  let pid ← word msg 2 4
  let sockfd ← word msg 6 4
  let len ← word msg 10 8
  let (buf, stream) ← ipcPayload msg (sizeofIpcMsg + sizeofIpcWrite) len stream
  some (.write (UInt32.ofNat pid) (UInt32.ofNat sockfd) buf, stream)

def ipcSendto (msg : Mem) (stream : List UInt8) : Option (Handed × List UInt8) := do
  let pid ← word msg 2 4
  let sockfd ← word msg 6 4
  let len ← word msg 10 8
  let sinFamily ← word msg 18 2
  let sinPort ← word msg 20 2
  let sinAddr ← word msg 22 4
  let sinZero ← word msg 26 8
  let (buf, stream) ← ipcPayload msg (sizeofIpcMsg + sizeofIpcSendto) len stream
  some (.sendto (UInt32.ofNat pid) (UInt32.ofNat sockfd) buf
    ⟨UInt16.ofNat sinFamily, UInt16.ofNat sinPort, UInt32.ofNat sinAddr, UInt64.ofNat sinZero⟩, stream)

/-- The messages of the two calls; the others are not sent here. -/
def demuxIpcSocketCall (msg : Mem) (stream : List UInt8) : Option (Handed × List UInt8) := do
  let type ← word msg 0 2
  if type = ipcWriteType then ipcWrite msg stream
  else if type = ipcSendtoType then ipcSendto msg stream
  else none

/-- The bytes in flight, the calls of the application, and the calls of the stack. -/
structure State where
  stream : List UInt8
  asked : List Call
  handed : List Handed
  deriving DecidableEq, Repr

def init : State := ⟨[], [], []⟩

/-- One pass of the loop. -/
def socketIpcOpen (s : State) : Option State := do
  let (got, stream) ← read s.stream ipcBuflen
  let buf := got.map some ++ List.replicate (ipcBuflen - got.length) none
  let (handed, stream) ← demuxIpcSocketCall buf stream
  some { s with stream := stream, handed := s.handed ++ [handed] }

/-- A request, up to its response. -/
def exchange (pid : UInt32) (s : State) (c : Call) : Option State := do
  let m ← lvlMessage pid c
  socketIpcOpen { s with stream := s.stream ++ m, asked := s.asked ++ [c] }

/-! ### The property and its condition -/

/-- The call of the stack that a call of the application is for. -/
def meant (pid : UInt32) : Call → Handed
  | .write sockfd buf => .write pid sockfd (buf.map some)
  | .sendto sockfd buf saddr => .sendto pid sockfd (buf.map some) saddr

/-- All requests have been decoded as they were sent, and nothing is left of them. -/
def Framed (pid : UInt32) (s : State) : Prop := s.stream = [] ∧ s.handed = s.asked.map (meant pid)

/-- The headers and the data fit into the buffer of the server. -/
def Fits : Call → Prop
  | .write _ buf => sizeofIpcMsg + sizeofIpcWrite + buf.length ≤ ipcBuflen
  | .sendto _ buf _ => sizeofIpcMsg + sizeofIpcSendto + buf.length ≤ ipcBuflen

/-! ### Reading a message -/

theorem mapM_some (xs : List UInt8) : (xs.map some).mapM (m := Option) id = some xs := by
  induction xs with
  | nil => rfl
  | cons x xs ih => simp [List.mapM_cons, ih]

/-- Memory that has come over the connection, up to the end of a read. -/
theorem memcpy_received {xs : List UInt8} {rest : Mem} {i n : ℕ} (h : i + n ≤ xs.length) :
    memcpy (xs.map some ++ rest) i n = (slice xs i n).map some := by
  have hslice : slice (xs.map some ++ rest) i n = (slice xs i n).map some := by
    rw [slice_append (by simpa using h)]
    simp [slice]
  rw [memcpy, hslice, List.length_map, length_slice h, Nat.sub_self, List.replicate_zero,
    List.append_nil]

theorem word_received {xs : List UInt8} {rest : Mem} {i n : ℕ} (h : i + n ≤ xs.length) :
    word (xs.map some ++ rest) i n = some (ofLe (slice xs i n)) := by
  rw [word, memcpy_received h, mapM_some, Option.map_some]

/-- The buffer of the server after a read of `m`. -/
def received (m : List UInt8) : Mem :=
  (m.take ipcBuflen).map some ++ List.replicate (ipcBuflen - (m.take ipcBuflen).length) none

/-- A word of a message, in its first `IPC_BUFLEN` bytes. -/
theorem word_of_message {m : List UInt8} {i n v : ℕ} (hm : i + n ≤ m.length) (hb : i + n ≤ ipcBuflen)
    (hv : slice m i n = le n v) (hlt : v < 256 ^ n) : word (received m) i n = some v := by
  have hslice : slice (m.take ipcBuflen) i n = slice m i n := by
    have h : slice (slice m 0 ipcBuflen) i n = slice m (0 + i) n := slice_slice hb
    rwa [Nat.zero_add] at h
  rw [received, word_received (by rw [List.length_take]; omega), hslice, hv, ofLe_le_of_lt hlt]

section Message

variable {m buf : List UInt8} {off : ℕ} (hlen : m.length = off + buf.length)
  (hslice : slice m off buf.length = buf)
include hlen hslice

/-- The data of a message that fits. -/
theorem ipcPayload_of_fits (h : off + buf.length ≤ ipcBuflen) :
    ipcPayload (received m) off buf.length (m.drop ipcBuflen) = some (buf.map some, []) := by
  have hnot : ¬ ipcBuflen < buf.length := by omega
  have hall : m.take ipcBuflen = m := List.take_of_length_le (by omega)
  have hrest : m.drop ipcBuflen = [] := List.drop_eq_nil_of_le (by omega)
  rw [ipcPayload, if_neg hnot, received, hall, hrest, Nat.min_eq_right (by omega),
    memcpy_received (by omega), hslice]

omit hslice in
/-- Of a message that does not fit some bytes are left: those behind the buffer, or as many of them
as the headers take. -/
theorem ipcPayload_leaves (hoff : 0 < off) (h : ¬ off + buf.length ≤ ipcBuflen) {b : Mem}
    {rest : List UInt8}
    (hp : ipcPayload (received m) off buf.length (m.drop ipcBuflen) = some (b, rest)) : rest ≠ [] := by
  have hleft : 0 < rest.length := by
    rw [ipcPayload] at hp
    split at hp
    next hlong =>
      obtain ⟨⟨more, stream⟩, hread, hp⟩ := Option.bind_eq_some_iff.mp hp
      obtain ⟨-, rfl⟩ := Prod.mk.inj (Option.some.inj hp)
      rw [read, Option.ite_none_left_eq_some] at hread
      obtain ⟨-, rfl⟩ := Prod.mk.inj (Option.some.inj hread.2)
      rw [List.length_drop, List.length_drop, hlen]
      omega
    next hshort =>
      obtain ⟨-, rfl⟩ := Prod.mk.inj (Option.some.inj hp)
      rw [List.length_drop, hlen]
      omega
  exact List.ne_nil_of_length_pos hleft

end Message

theorem length_ipcWrite (pid sockfd : UInt32) (buf : List UInt8) :
    (ipcMsg ipcWriteType pid (ipcWriteMsg sockfd buf)).length =
      sizeofIpcMsg + sizeofIpcWrite + buf.length := by
  simp only [ipcMsg, ipcWriteMsg, List.length_append, length_le, sizeofIpcMsg, sizeofIpcWrite]
  omega

theorem length_ipcSendto (pid sockfd : UInt32) (saddr : SockaddrIn) (buf : List UInt8) :
    (ipcMsg ipcSendtoType pid (ipcSendtoMsg sockfd saddr buf)).length =
      sizeofIpcMsg + sizeofIpcSendto + buf.length := by
  simp only [ipcMsg, ipcSendtoMsg, SockaddrIn.bytes, List.length_append, length_le, sizeofIpcMsg,
    sizeofIpcSendto]
  omega

/-- The server finds the fields of `lvl_write`. -/
theorem demux_ipcWrite {pid sockfd : UInt32} {buf m : List UInt8}
    (hm : m = ipcMsg ipcWriteType pid (ipcWriteMsg sockfd buf)) (hlen : m.length < 2 ^ 31)
    (stream : List UInt8) :
    demuxIpcSocketCall (received m) stream =
      (ipcPayload (received m) (sizeofIpcMsg + sizeofIpcWrite) buf.length stream).map
        fun p => (.write pid sockfd p.1, p.2) := by
  have hl := length_ipcWrite pid sockfd buf
  rw [← hm] at hl
  have h18 : sizeofIpcMsg + sizeofIpcWrite = 18 := rfl
  have hb : ipcBuflen = 4096 := rfl
  have htype : word (received m) 0 2 = some ipcWriteType :=
    word_of_message (by omega) (by omega) (by simp [hm, ipcMsg, slice_prefix]) (by decide)
  have hpid : word (received m) 2 4 = some pid.toNat :=
    word_of_message (by omega) (by omega) (by simp [hm, ipcMsg, slice_of_append, slice_prefix])
      pid.toNat_lt
  have hfd : word (received m) 6 4 = some sockfd.toNat :=
    word_of_message (by omega) (by omega)
      (by simp [hm, ipcMsg, ipcWriteMsg, slice_of_append, slice_prefix]) sockfd.toNat_lt
  have hbuf : word (received m) 10 8 = some buf.length :=
    word_of_message (by omega) (by omega)
      (by simp [hm, ipcMsg, ipcWriteMsg, slice_of_append, slice_prefix]) (by omega)
  rw [demuxIpcSocketCall, htype]
  simp only [Option.bind_eq_bind, Option.bind_some, if_true, ipcWrite, hpid, hfd, hbuf,
    UInt32.ofNat_toNat]
  cases ipcPayload (received m) (sizeofIpcMsg + sizeofIpcWrite) buf.length stream <;> rfl

/-- The server finds the fields of `lvl_sendto`. -/
theorem demux_ipcSendto {pid sockfd : UInt32} {saddr : SockaddrIn} {buf m : List UInt8}
    (hm : m = ipcMsg ipcSendtoType pid (ipcSendtoMsg sockfd saddr buf)) (hlen : m.length < 2 ^ 31)
    (stream : List UInt8) :
    demuxIpcSocketCall (received m) stream =
      (ipcPayload (received m) (sizeofIpcMsg + sizeofIpcSendto) buf.length stream).map
        fun p => (.sendto pid sockfd p.1 saddr, p.2) := by
  have hl := length_ipcSendto pid sockfd saddr buf
  rw [← hm] at hl
  have h34 : sizeofIpcMsg + sizeofIpcSendto = 34 := rfl
  have hb : ipcBuflen = 4096 := rfl
  have htype : word (received m) 0 2 = some ipcSendtoType :=
    word_of_message (by omega) (by omega) (by simp [hm, ipcMsg, slice_prefix]) (by decide)
  have hpid : word (received m) 2 4 = some pid.toNat :=
    word_of_message (by omega) (by omega) (by simp [hm, ipcMsg, slice_of_append, slice_prefix])
      pid.toNat_lt
  have hfd : word (received m) 6 4 = some sockfd.toNat :=
    word_of_message (by omega) (by omega)
      (by simp [hm, ipcMsg, ipcSendtoMsg, slice_of_append, slice_prefix]) sockfd.toNat_lt
  have hbuf : word (received m) 10 8 = some buf.length :=
    word_of_message (by omega) (by omega)
      (by simp [hm, ipcMsg, ipcSendtoMsg, slice_of_append, slice_prefix]) (by omega)
  have hfamily : word (received m) 18 2 = some saddr.sinFamily.toNat :=
    word_of_message (by omega) (by omega)
      (by simp [hm, ipcMsg, ipcSendtoMsg, SockaddrIn.bytes, slice_of_append, slice_prefix])
      saddr.sinFamily.toNat_lt
  have hport : word (received m) 20 2 = some saddr.sinPort.toNat :=
    word_of_message (by omega) (by omega)
      (by simp [hm, ipcMsg, ipcSendtoMsg, SockaddrIn.bytes, slice_of_append, slice_prefix])
      saddr.sinPort.toNat_lt
  have haddr : word (received m) 22 4 = some saddr.sinAddr.toNat :=
    word_of_message (by omega) (by omega)
      (by simp [hm, ipcMsg, ipcSendtoMsg, SockaddrIn.bytes, slice_of_append, slice_prefix])
      saddr.sinAddr.toNat_lt
  have hzero : word (received m) 26 8 = some saddr.sinZero.toNat :=
    word_of_message (by omega) (by omega)
      (by simp [hm, ipcMsg, ipcSendtoMsg, SockaddrIn.bytes, slice_of_append, slice_prefix])
      saddr.sinZero.toNat_lt
  rw [demuxIpcSocketCall, htype]
  simp only [Option.bind_eq_bind, Option.bind_some, ipcSendto, hpid, hfd, hbuf, hfamily, hport, haddr,
    hzero, UInt32.ofNat_toNat, UInt16.ofNat_toNat, UInt64.ofNat_toNat]
  cases ipcPayload (received m) (sizeofIpcMsg + sizeofIpcSendto) buf.length stream <;> rfl

/-! ### Every sequence of calls -/

/-- One request whose fields the server finds: it is handled as sent if and only if it fits. -/
theorem framed_exchange {pid : UInt32} {s : State} {c : Call} {m buf : List UInt8} {off : ℕ}
    {f : Mem → Handed} (hs : Framed pid s) (hm : lvlMessage pid c = if m.length < 2 ^ 31 then some m
      else none) (hoff : 0 < off) (hb : off < ipcBuflen) (hlen : m.length = off + buf.length)
    (hslice : slice m off buf.length = buf) (hmeant : meant pid c = f (buf.map some))
    (hdemux : m.length < 2 ^ 31 → ∀ stream, demuxIpcSocketCall (received m) stream =
      (ipcPayload (received m) off buf.length stream).map fun p => (f p.1, p.2)) :
    (∃ s', exchange pid s c = some s' ∧ Framed pid s') ↔ off + buf.length ≤ ipcBuflen := by
  obtain ⟨hstream, hhanded⟩ := hs
  have hbl : ipcBuflen = 4096 := rfl
  have hne : m ≠ [] := List.ne_nil_of_length_pos (by omega)
  have hopen : m.length < 2 ^ 31 → exchange pid s c =
      (ipcPayload (received m) off buf.length (m.drop ipcBuflen)).map fun p =>
        ⟨p.2, s.asked ++ [c], s.handed ++ [f p.1]⟩ := by
    intro hlt
    rw [exchange, hm, if_pos hlt]
    simp only [Option.bind_eq_bind, Option.bind_some, socketIpcOpen, hstream, List.nil_append, read,
      if_neg hne]
    change (demuxIpcSocketCall (received m) _).bind _ = _
    rw [hdemux hlt]
    cases ipcPayload (received m) off buf.length (m.drop ipcBuflen) <;> rfl
  constructor
  · rintro ⟨s', hs', hstream', -⟩
    by_contra hnot
    by_cases hlt : m.length < 2 ^ 31
    · rw [hopen hlt, Option.map_eq_some_iff] at hs'
      obtain ⟨⟨b, rest⟩, hp, rfl⟩ := hs'
      exact ipcPayload_leaves hlen hoff hnot hp hstream'
    · rw [exchange, hm, if_neg hlt] at hs'
      cases hs'
  · intro hfits
    refine ⟨⟨[], s.asked ++ [c], s.handed ++ [f (buf.map some)]⟩, ?_, rfl, ?_⟩
    · rw [hopen (by omega), ipcPayload_of_fits hlen hslice hfits]
      rfl
    · change s.handed ++ [f (buf.map some)] = (s.asked ++ [c]).map (meant pid)
      rw [List.map_append, ← hhanded, List.map_singleton, hmeant]

theorem exchange_iff {pid : UInt32} {s : State} {c : Call} (hs : Framed pid s) :
    (∃ s', exchange pid s c = some s' ∧ Framed pid s') ↔ Fits c := by
  cases c with
  | write sockfd buf =>
    refine framed_exchange hs rfl (by decide) (by decide) (length_ipcWrite pid sockfd buf) ?_ rfl
      fun hlt => demux_ipcWrite rfl hlt
    simp [ipcMsg, ipcWriteMsg, sizeofIpcMsg, sizeofIpcWrite, slice_of_append, slice_all]
  | sendto sockfd buf saddr =>
    refine framed_exchange (f := fun b => .sendto pid sockfd b saddr) hs rfl (by decide) (by decide)
      (length_ipcSendto pid sockfd saddr buf) ?_ rfl fun hlt => demux_ipcSendto rfl hlt
    simp [ipcMsg, ipcSendtoMsg, SockaddrIn.bytes, sizeofIpcMsg, sizeofIpcSendto, slice_of_append,
      slice_all]

/-- **The framing of write requests.** A sequence of calls is decoded as it was sent, with the
stream at a message boundary after each of them, if and only if every message fits into the buffer.
-/
theorem write_framing (pid : UInt32) (cs : List Call) :
    (∃ t, run (exchange pid) init cs = some t) ∧ Always (exchange pid) (Framed pid) init cs ↔
      ∀ c ∈ cs, Fits c := by
  have hiff : (∃ t, run (exchange pid) init cs = some t) ∧ Always (exchange pid) (Framed pid) init cs ↔
      Along (exchange pid) (fun _ => Fits) init cs :=
    run_always_iff_along (I := fun _ => True) (L := fun _ _ => True) (fun _ _ _ _ _ _ _ _ => trivial)
      (fun _ _ _ hs _ => exchange_iff hs) trivial ⟨rfl, rfl⟩ (Along.of_forall fun _ _ _ => trivial)
  constructor
  · rintro ⟨⟨t, ht⟩, ha⟩
    exact Along.forall_of_run ht (hiff.mp ⟨⟨t, ht⟩, ha⟩)
  · intro hfits
    exact hiff.mpr (Along.of_forall fun c hc _ => hfits c hc)

/-- One byte more than fits: the whole message is 4097 bytes long. -/
def tooLong : Call := .write 4097 (List.replicate 4079 7)

/-- The last byte of the request stays in the stream. -/
theorem left_over : ¬ ∀ cs, (∃ t, run (exchange 1) init cs = some t) ∧
    Always (exchange 1) (Framed 1) init cs := by
  intro hall
  obtain ⟨⟨t, ht⟩, halways⟩ := hall [tooLong]
  obtain ⟨s', hs', hnil⟩ := run_cons.mp ht
  have hframed := halways [tooLong] [] t rfl ht
  rw [run_nil, Option.some.injEq] at hnil
  have hfits := (exchange_iff ⟨rfl, rfl⟩).mp ⟨s', hs', hnil ▸ hframed⟩
  rw [tooLong, Fits, List.length_replicate] at hfits
  exact absurd hfits (by decide)

end ToyIP.Stack.Ipc
