import Mathlib.Algebra.Order.Ring.Nat
import Mathlib.Tactic.Common

/-!
# The operating system interface

Answers of the system calls the library makes, the kernel's epoll interest list
and its eventfd counter.  Every call takes the kernel's answer as an argument,
so a theorem about all answers covers every behaviour of the kernel.
-/

namespace Lucky

abbrev Byte := UInt8

/-- How a call can fail to return: an exception, undefined behaviour, a failed
`assert`, or the `exit` of `LOG_FATAL`. -/
inductive Fault where
  | lengthError
  | outOfBounds
  | assertion
  | logFatal
  deriving DecidableEq, Repr

/-- The answer of `readv`: `-1` with an `errno`, or the bytes received. -/
inductive ReadvResult where
  | failed (errno : Nat)
  | received (bytes : List Byte)
  deriving DecidableEq, Repr

/-- The answer of `::write`: the returned value and `errno` after the call. -/
structure WriteResult where
  returned : Int
  errno : Nat
  deriving DecidableEq, Repr

def EWOULDBLOCK : Nat := 11

/-- `::write` returns `-1` or a count up to the requested length. -/
def WriteResult.Valid (answer : WriteResult) (requested : Nat) : Prop :=
  answer.returned = -1 ∨ (0 ≤ answer.returned ∧ answer.returned ≤ requested)

instance (answer : WriteResult) (requested : Nat) : Decidable (answer.Valid requested) :=
  inferInstanceAs (Decidable (_ ∨ _))

/-! ## epoll -/

abbrev Mask := BitVec 32

def EPOLLIN : Mask := 0x001
def EPOLLPRI : Mask := 0x002
def EPOLLOUT : Mask := 0x004
def EPOLLERR : Mask := 0x008
def EPOLLHUP : Mask := 0x010

/-- The `epoll_event` the kernel keeps for a descriptor. -/
structure EpollEvent (Ptr : Type) where
  events : Mask
  ptr : Ptr
  deriving DecidableEq, Repr

inductive EpollOperation where
  | EPOLL_CTL_ADD
  | EPOLL_CTL_MOD
  | EPOLL_CTL_DEL
  deriving DecidableEq, Repr

/-- The kernel's interest list: the event kept for each monitored descriptor. -/
abbrev InterestList (Ptr : Type) := Nat → Option (EpollEvent Ptr)

/-- `epoll_ctl`: ADD needs the descriptor absent, MOD and DEL need it present;
`none` is the answer `-1`. -/
def epollCtl {Ptr : Type} (interest : InterestList Ptr) (operation : EpollOperation)
    (fd : Nat) (event : EpollEvent Ptr) : Option (InterestList Ptr) :=
  match operation, (interest fd).isSome with
  | .EPOLL_CTL_ADD, false => some (Function.update interest fd (some event))
  | .EPOLL_CTL_MOD, true => some (Function.update interest fd (some event))
  | .EPOLL_CTL_DEL, true => some (Function.update interest fd none)
  | _, _ => none

/-! ## eventfd -/

def eventfdMax : Nat := 2 ^ 64 - 2

/-- A non-blocking `write` of 1: it fails, leaving the counter, when the sum
would exceed the largest value. -/
def eventfdWrite (counter : Nat) : Nat :=
  if counter + 1 ≤ eventfdMax then counter + 1 else counter

theorem eventfdWrite_pos (counter : Nat) : 0 < eventfdWrite counter := by
  unfold eventfdWrite
  split
  next possible => omega
  next full =>
    simp only [eventfdMax] at full
    omega

end Lucky
