import Lucky.Epoller.Filed
import Lucky.Systems.Fallible
import Lucky.Systems.Machine
import Lucky.Systems.Size
import Lucky.Systems.Window

/-!
# Waiting for events

`epoll` has the kernel fill the array `events_`, hands the reported `Filed`s on in
`activeFileds` and may enlarge the array.  The `int` that `epoll_wait` returns is kept
in a `size_t` and becomes an `int` again for the loop of `fillActiveFileds`.
-/

namespace Lucky

open Systems

def EINTR : Nat := 4

/-- The answer of `epoll_wait`: `-1`, or the events it has stored; `errno` after the call
either way. -/
inductive EpollWaitResult (Ptr : Type) where
  | failed (errno : Nat)
  | stored (events : List (EpollEvent Ptr)) (errno : Nat)
  deriving DecidableEq, Repr

namespace EpollWaitResult

variable {Ptr : Type}

def errno : EpollWaitResult Ptr → Nat
  | .failed errno | .stored _ errno => errno

def events : EpollWaitResult Ptr → List (EpollEvent Ptr)
  | .failed _ => []
  | .stored events _ => events

/-- The `int` that is returned. -/
def returned : EpollWaitResult Ptr → BitVec 32
  | .failed _ => -1
  | .stored events _ => BitVec.ofNat 32 events.length

/-- `epoll_wait` stores no more events than fit, and returns their number. -/
def Valid (answer : EpollWaitResult Ptr) (size : Nat) : Prop :=
  answer.events.length ≤ size ∧ answer.events.length < 2 ^ 31

instance (answer : EpollWaitResult Ptr) (size : Nat) : Decidable (answer.Valid size) :=
  inferInstanceAs (Decidable (_ ∧ _))

/-- No two of the events carry the same `Filed` with different masks. -/
def OneMask (answer : EpollWaitResult Ptr) : Prop :=
  ∀ first ∈ answer.events, ∀ second ∈ answer.events, first.ptr = second.ptr →
    first.events = second.events

instance [DecidableEq Ptr] (answer : EpollWaitResult Ptr) : Decidable answer.OneMask :=
  inferInstanceAs (Decidable (∀ _ ∈ _, ∀ _ ∈ _, _ → _))

theorem toInt_returned_failed (errno : Nat) :
    (EpollWaitResult.failed errno : EpollWaitResult Ptr).returned.toInt = -1 :=
  toInt_neg_one

theorem toInt_returned_stored {size : Nat} {events : List (EpollEvent Ptr)} {errno : Nat}
    (valid : Valid (.stored events errno) size) :
    (EpollWaitResult.stored events errno).returned.toInt = events.length :=
  toInt_ofNat valid.2

/-- What is not negative is the number of the events stored. -/
theorem stored_of_returned {size : Nat} {answer : EpollWaitResult Ptr} (valid : answer.Valid size)
    (returned : 0 ≤ answer.returned.toInt) :
    ∃ events errno, answer = .stored events errno ∧ answer.returned.toInt = events.length := by
  cases answer with
  | failed errno =>
      rw [toInt_returned_failed] at returned
      omega
  | stored events errno => exact ⟨events, errno, rfl, toInt_returned_stored valid⟩

end EpollWaitResult

/-- Which of its branches `epoll` has taken. -/
inductive PollBranch where
  | happened
  | timeout
  /-- With the `errno` it reports and restores. -/
  | error (errno : Nat)
  | interrupted
  deriving DecidableEq, Repr

/-- The part of an `Epoller` that waits, with the `Filed`s of its loop. -/
structure Polling (Ptr : Type) where
  /-- `events_`; `none` is a cell the kernel has not written to. -/
  events : List (Option (EpollEvent Ptr))
  filed : Ptr → Filed
  activeFileds : List Ptr

namespace Polling

variable {Ptr : Type}

def kEventListSize : Nat := 16

/-- `max_size()` of a vector of `epoll_event`s, which have 12 bytes. -/
def maxEvents : Nat := maxSize / 12

def make (filed : Ptr → Filed) : Polling Ptr :=
  ⟨List.replicate kEventListSize none, filed, []⟩

/-- What `epoll_wait` writes to the array. -/
def epollWait (s : Polling Ptr) (answer : EpollWaitResult Ptr) : Polling Ptr :=
  { s with events := splice s.events 0 (answer.events.map some) }

/-- `events_.resize(size)`: new cells are zero. -/
def resize (s : Polling Ptr) (size : Nat) : Except Fault (Polling Ptr) :=
  if size ≤ maxEvents then
    .ok { s with events := s.events.take size ++ List.replicate (size - s.events.length) none }
  else
    .error .lengthError

theorem epollWait_of_nil {s : Polling Ptr} {answer : EpollWaitResult Ptr}
    (nothing : answer.events = []) : s.epollWait answer = s := by
  simp [epollWait, splice, nothing]

theorem length_epollWait {s : Polling Ptr} {answer : EpollWaitResult Ptr}
    (valid : answer.Valid s.events.length) :
    (s.epollWait answer).events.length = s.events.length := by
  have fits : 0 + (answer.events.map some).length ≤ s.events.length := by
    simpa using valid.1
  exact length_splice fits

theorem length_resize {s t : Polling Ptr} {size : Nat} (returned : s.resize size = .ok t) :
    t.events.length = size ∧ t.filed = s.filed ∧ t.activeFileds = s.activeFileds := by
  unfold resize at returned
  split at returned
  next =>
    cases returned
    refine ⟨?_, rfl, rfl⟩
    simp only [List.length_append, List.length_take, List.length_replicate]
    omega
  next => cases returned

variable [DecidableEq Ptr]

/-- `setRevents` on the `Filed` of the event, and `push_back`. -/
def activate (s : Polling Ptr) (event : EpollEvent Ptr) : Polling Ptr :=
  { s with
    filed := Function.update s.filed event.ptr { s.filed event.ptr with revents := event.events }
    activeFileds := s.activeFileds ++ [event.ptr] }

def fillActiveFileds (s : Polling Ptr) (events_num : BitVec 32) : Except Fault (Polling Ptr) :=
  (List.range events_num.toInt.toNat).foldlM (fun s i =>
    match s.events[i]? with
    | some (some event) => .ok (s.activate event)
    | some none | none => .error .outOfBounds) s

/-- `epoll`, given the answer of `epoll_wait`. -/
def epoll (s : Polling Ptr) (answer : EpollWaitResult Ptr) :
    Except Fault (Polling Ptr × PollBranch) :=
  let waited := s.epollWait answer
  let events_num := sizeOfInt answer.returned
  let saveErrno := answer.errno
  if 0 < events_num then do
    let filled ← waited.fillActiveFileds (intOfSize events_num)
    if events_num = sizeSub filled.events.length 1 then
      return (← filled.resize (filled.events.length * 2 % sizeModulus), .happened)
    else
      return (filled, .happened)
  else if events_num = 0 then
    .ok (waited, .timeout)
  else if saveErrno ≠ EINTR then
    .ok (waited, .error saveErrno)
  else
    .ok (waited, .interrupted)

/-! ## Laws -/

theorem foldl_activate (s : Polling Ptr) (events : List (EpollEvent Ptr)) :
    (events.foldl activate s).events = s.events ∧
      (events.foldl activate s).activeFileds =
        s.activeFileds ++ events.map fun event => event.ptr := by
  induction events generalizing s with
  | nil => simp
  | cons event rest inductionHypothesis =>
      obtain ⟨array, active⟩ := inductionHypothesis (s.activate event)
      refine ⟨array, active.trans ?_⟩
      simp [activate]

/-- A `Filed` has the mask of the last event that carries it. -/
theorem foldl_activate_filed (s : Polling Ptr) (events : List (EpollEvent Ptr)) (p : Ptr) :
    ((∀ event ∈ events, event.ptr ≠ p) ∧ (events.foldl activate s).filed p = s.filed p) ∨
      ∃ event ∈ events, event.ptr = p ∧
        (events.foldl activate s).filed p = { s.filed p with revents := event.events } := by
  induction events generalizing s with
  | nil => simp
  | cons event rest inductionHypothesis =>
      rcases inductionHypothesis (s.activate event) with
        ⟨absent, same⟩ | ⟨last, membership, carries, set⟩
      · by_cases carries : event.ptr = p
        · subst carries
          refine .inr ⟨event, List.mem_cons_self, rfl, ?_⟩
          rw [List.foldl_cons, same]
          simp [activate]
        · refine .inl ⟨?_, ?_⟩
          · intro other membership
            rcases List.mem_cons.mp membership with rfl | later
            · exact carries
            · exact absent other later
          · rw [List.foldl_cons, same]
            exact Function.update_of_ne (fun equal => carries equal.symm) _ _
      · refine .inr ⟨last, List.mem_cons_of_mem _ membership, carries, ?_⟩
        rw [List.foldl_cons, set]
        by_cases same : p = event.ptr
        · subst same
          simp [activate]
        · simp [activate, same]

/-- The loop hands on the events that have just been stored, and no other cell. -/
theorem fillActiveFileds_stored {s : Polling Ptr} {events : List (EpollEvent Ptr)} {errno : Nat}
    (valid : EpollWaitResult.Valid (.stored events errno) s.events.length) :
    (s.epollWait (.stored events errno)).fillActiveFileds
        (EpollWaitResult.stored events errno).returned =
      .ok (events.foldl activate (s.epollWait (.stored events errno))) := by
  have array : (s.epollWait (.stored events errno)).events =
      events.map some ++ s.events.drop events.length := by
    simp [epollWait, splice, EpollWaitResult.events]
  rw [fillActiveFileds, EpollWaitResult.toInt_returned_stored valid, Int.toNat_natCast]
  refine (foldlM_range_eq_ok
    (fun t : Polling Ptr => t.events = events.map some ++ s.events.drop events.length) ?_ array).1
  intro t position event found place
  have inside := (List.getElem?_eq_some_iff.mp place).1
  have cell : t.events[position]? = some (some event) := by
    rw [found, List.getElem?_append_left (by simpa using inside), List.getElem?_map, place]
    rfl
  refine ⟨?_, found⟩
  simp only [cell]

/-- The branch for reported events, whatever number was taken for theirs. -/
theorem epoll_happened {s filled : Polling Ptr} {answer : EpollWaitResult Ptr} {events_num : Nat}
    (number : sizeOfInt answer.returned = events_num) (positive : 0 < events_num)
    (fills : (s.epollWait answer).fillActiveFileds (intOfSize events_num) = .ok filled) :
    s.epoll answer =
      (if events_num = sizeSub filled.events.length 1 then
        filled.resize (filled.events.length * 2 % sizeModulus) else .ok filled).map
          fun t => (t, .happened) := by
  simp only [epoll, number, positive, if_true, fills, bind, Except.bind]
  split
  next => cases filled.resize (filled.events.length * 2 % sizeModulus) <;> rfl
  next => rfl

/-- Reported events: the `Filed`s are handed on, and the array is doubled when the report
is one short of filling it. -/
theorem epoll_stored {s : Polling Ptr} {events : List (EpollEvent Ptr)} {errno : Nat}
    (valid : EpollWaitResult.Valid (.stored events errno) s.events.length)
    (nonempty : 0 < events.length) :
    ∃ t, s.epoll (.stored events errno) = .ok (t, .happened) ∧
      t.filed = (events.foldl activate (s.epollWait (.stored events errno))).filed ∧
      t.activeFileds = s.activeFileds ++ events.map (fun event => event.ptr) ∧
      t.events.length = if events.length = sizeSub s.events.length 1 then
        s.events.length * 2 % sizeModulus else s.events.length := by
  have small : events.length < 2 ^ 31 := valid.2
  have number : sizeOfInt (EpollWaitResult.stored events errno).returned = events.length :=
    sizeOfInt_ofNat small
  obtain ⟨array, active⟩ := foldl_activate (s.epollWait (.stored events errno)) events
  have length : (events.foldl activate (s.epollWait (.stored events errno))).events.length =
      s.events.length := by
    rw [array]
    exact length_epollWait valid
  rw [epoll_happened number nonempty (fillActiveFileds_stored valid), length]
  by_cases last : events.length = sizeSub s.events.length 1
  · have possible : s.events.length * 2 % sizeModulus ≤ maxEvents := by
      simp only [sizeSub, sizeModulus, maxEvents, maxSize] at *
      omega
    rw [if_pos last, if_pos last]
    cases resized : (events.foldl activate (s.epollWait (.stored events errno))).resize
        (s.events.length * 2 % sizeModulus) with
    | error fault => simp [resize, possible] at resized
    | ok t =>
        obtain ⟨size, filed, activeFileds⟩ := length_resize resized
        exact ⟨t, rfl, filed, activeFileds.trans active, size⟩
  · rw [if_neg last, if_neg last]
    exact ⟨_, rfl, rfl, active, length⟩

/-- Nothing in time: nothing changes. -/
theorem epoll_timeout (s : Polling Ptr) (errno : Nat) :
    s.epoll (.stored [] errno) = .ok (s, .timeout) := by
  have zero : sizeOfInt (EpollWaitResult.stored ([] : List (EpollEvent Ptr)) errno).returned = 0 :=
    rfl
  have waited : s.epollWait (.stored [] errno) = s := epollWait_of_nil rfl
  simp only [epoll, zero, Nat.lt_irrefl, if_false, if_true, waited]

/-- A failure is taken for `2 ^ 64 - 1` events, none of which is handed on. -/
theorem epoll_failed (s : Polling Ptr) (errno : Nat) :
    ∃ t, s.epoll (.failed errno) = .ok (t, .happened) ∧
      (s.events.length < sizeModulus → t = s) := by
  have number : sizeOfInt (EpollWaitResult.failed errno : EpollWaitResult Ptr).returned =
      sizeModulus - 1 := sizeOfInt_neg_one
  have nothing : (s.epollWait (.failed errno)).fillActiveFileds (intOfSize (sizeModulus - 1)) =
      .ok s := by
    rw [epollWait_of_nil rfl, fillActiveFileds, toInt_intOfSize_max]
    rfl
  rw [epoll_happened number (by decide) nothing]
  by_cases last : sizeModulus - 1 = sizeSub s.events.length 1
  -- only of the empty array, which stays empty
  · have wraps : s.events.length * 2 % sizeModulus = 0 := by
      simp only [sizeSub, sizeModulus] at *
      omega
    rw [if_pos last, wraps]
    refine ⟨{ s with events := [] }, by simp [resize, Except.map], fun isSize => ?_⟩
    have noCell : s.events.length = 0 := by
      simp only [sizeSub, sizeModulus] at last isSize
      omega
    rw [← List.eq_nil_of_length_eq_zero noCell]
  · rw [if_neg last]
    exact ⟨s, rfl, fun _ => rfl⟩

/-- No outcome reads outside the array, and a doubled array is not too large. -/
theorem epoll_returns (s : Polling Ptr) (answer : EpollWaitResult Ptr)
    (valid : answer.Valid s.events.length) : ∃ result, s.epoll answer = .ok result := by
  cases answer with
  | failed errno =>
      obtain ⟨t, taken, _⟩ := s.epoll_failed errno
      exact ⟨_, taken⟩
  | stored events errno =>
      cases events with
      | nil => exact ⟨_, s.epoll_timeout errno⟩
      | cons event rest =>
          obtain ⟨t, taken, _⟩ := epoll_stored valid (Nat.succ_pos _)
          exact ⟨_, taken⟩

end Polling

end Lucky
