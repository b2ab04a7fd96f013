import Lucky.Epoller.Poll

/-!
# The capacity of the array of events

`epoll` doubles `events_` when the report is one short of filling it.  A report that does
fill it leaves the array as it is, and a load above the capacity fills it at every call.
-/

namespace Lucky

open Systems

namespace Polling

variable {Ptr : Type} [DecidableEq Ptr]

/-- `activeFileds_.clear()` and `epoll`, at the head of every turn of the loop. -/
def polls : Machine (Polling Ptr) (EpollWaitResult Ptr) where
  step s answer :=
    if answer.Valid s.events.length then
      ({ s with activeFileds := [] }.epoll answer).toOption.map Prod.fst
    else
      none

/-- The report fills the array. -/
def Fills (s : Polling Ptr) (answer : EpollWaitResult Ptr) : Prop :=
  answer.returned.toInt = s.events.length

instance (s : Polling Ptr) (answer : EpollWaitResult Ptr) : Decidable (s.Fills answer) :=
  inferInstanceAs (Decidable (_ = _))

/-- If the report fills the array, the array is larger at the next call. -/
def GrowsWhenFull (s : Polling Ptr) (answer : EpollWaitResult Ptr) : Prop :=
  s.Fills answer → ∀ t ∈ polls.step s answer, s.events.length < t.events.length

instance (s : Polling Ptr) (answer : EpollWaitResult Ptr) : Decidable (s.GrowsWhenFull answer) :=
  inferInstanceAs (Decidable (_ → ∀ _ ∈ polls.step s answer, _))

/-- At least `k` descriptors are ready: the report has `k` events, or as many as fit. -/
def Loaded (k : Nat) (s : Polling Ptr) (answer : EpollWaitResult Ptr) : Prop :=
  (min k s.events.length : Nat) ≤ answer.returned.toInt

instance (k : Nat) (s : Polling Ptr) (answer : EpollWaitResult Ptr) :
    Decidable (s.Loaded k answer) :=
  inferInstanceAs (Decidable (_ ≤ _))

/-- No valid answer of `epoll_wait` stops the loop. -/
theorem polls_enabled (s : Polling Ptr) (answer : EpollWaitResult Ptr)
    (valid : answer.Valid s.events.length) : ∃ t, polls.step s answer = some t := by
  obtain ⟨⟨t, branch⟩, taken⟩ := epoll_returns { s with activeFileds := [] } answer valid
  refine ⟨t, ?_⟩
  simp only [polls, if_pos valid, taken]
  rfl

theorem polls_step {s t : Polling Ptr} {answer : EpollWaitResult Ptr}
    (stepped : polls.step s answer = some t) :
    answer.Valid s.events.length ∧
      ∃ branch, ({ s with activeFileds := [] } : Polling Ptr).epoll answer = .ok (t, branch) := by
  simp only [polls] at stepped
  split at stepped
  next valid =>
    obtain ⟨⟨after, branch⟩, taken, rfl⟩ := Option.map_eq_some_iff.mp stepped
    exact ⟨valid, branch, toOption_eq_some.mp taken⟩
  next => cases stepped

/-- A full array keeps its size. -/
theorem polls_step_fills {s t : Polling Ptr} {answer : EpollWaitResult Ptr}
    (stepped : polls.step s answer = some t) (fills : s.Fills answer) :
    t.events.length = s.events.length := by
  obtain ⟨valid, branch, taken⟩ := polls_step stepped
  rw [Fills] at fills
  obtain ⟨events, errno, rfl, number⟩ := EpollWaitResult.stored_of_returned valid (by omega)
  cases events with
  | nil =>
      rw [epoll_timeout] at taken
      cases taken
      rfl
  | cons event rest =>
      obtain ⟨after, happened, _, _, size⟩ :=
        epoll_stored (s := { s with activeFileds := [] }) valid (Nat.succ_pos _)
      rw [taken] at happened
      cases happened
      -- the test compares with the size less one
      have other : (event :: rest).length ≠ sizeSub s.events.length 1 := by
        have small : (event :: rest).length < 2 ^ 31 := valid.2
        simp only [sizeSub, sizeModulus] at *
        omega
      rw [size, if_neg other]

/-- Under a load above the capacity every report fills the array. -/
theorem fills_of_loaded {k : Nat} {s t : Polling Ptr} {answer : EpollWaitResult Ptr}
    (stepped : polls.step s answer = some t) (loaded : s.Loaded k answer)
    (above : s.events.length < k) : s.Fills answer := by
  obtain ⟨valid, _⟩ := polls_step stepped
  rw [Loaded, Nat.min_eq_right (Nat.le_of_lt above)] at loaded
  obtain ⟨events, errno, rfl, number⟩ := EpollWaitResult.stored_of_returned valid (by omega)
  have fits : events.length ≤ s.events.length := valid.1
  rw [Fills]
  omega

/-- The array grows whenever it is full in exactly the runs in which it never is; and
it comes to hold a lasting load exactly when it does from the start. -/
theorem capacity_follows_load_iff (start : Polling Ptr) (answers : List (EpollWaitResult Ptr)) :
    (polls.Guarded GrowsWhenFull start answers ↔
      polls.Guarded (fun s answer => ¬ s.Fills answer) start answers) ∧
    ∀ (k : Nat) (states : Nat → Polling Ptr) (reports : Nat → EpollWaitResult Ptr),
      polls.Endless states reports → (∀ i, (states i).Loaded k (reports i)) →
      ((∃ i, k ≤ (states i).events.length ∧ (k : Int) ≤ (reports i).returned.toInt) ↔
        k ≤ (states 0).events.length) := by
  constructor
  · apply Machine.guarded_iff_guarded (fun _ => True) (fun _ _ _ _ _ => trivial) ?_ trivial
    intro s answer t _ stepped
    constructor
    · intro grows fills
      have larger := grows fills t stepped
      rw [polls_step_fills stepped fills] at larger
      omega
    · intro notFull fills
      exact absurd fills notFull
  · intro k states reports run loaded
    constructor
    · rintro ⟨i, holds, _⟩
      by_contra above
      have same : (states i).events.length = (states 0).events.length := by
        apply run.invariant (fun s => s.events.length = (states 0).events.length) ?_ rfl loaded
        intro s answer t same ready stepped
        have fills := fills_of_loaded stepped ready (by omega)
        rw [polls_step_fills stepped fills, same]
      omega
    · intro holds
      refine ⟨0, holds, ?_⟩
      have ready := loaded 0
      rwa [Loaded, Nat.min_eq_left holds] at ready

/-- Each of the first `count` descriptors has something to read. -/
def readable (count : Nat) : EpollWaitResult Nat :=
  .stored ((List.range count).map fun fd => ⟨EPOLLIN, fd⟩) 0

/-- A full array of sixteen events stays as it is. -/
theorem full_array_keeps_size :
    ¬ polls.Guarded GrowsWhenFull (make Filed.make) [readable 16] := by
  decide +kernel

/-- Fifteen events double the array; a lasting load of sixteen is reported whole. -/
theorem capacity_follows_load_iff_sixteen :
    polls.Guarded GrowsWhenFull (make Filed.make) [readable 15, readable 20] ∧
      ∃ i, 16 ≤ (polls.follow (make Filed.make) (fun _ => readable 16) i).events.length ∧
        (16 : Int) ≤ (readable 16).returned.toInt := by
  have full : ∀ s : Polling Nat, s.events.length = 16 → s.Fills (readable 16) := by
    intro s size
    rw [Fills, size]
    decide
  have run : polls.Endless (polls.follow (make Filed.make) fun _ => readable 16)
      fun _ => readable 16 := by
    refine Machine.endless_follow (fun s => s.events.length = 16) ?_ rfl
    intro _ s size
    obtain ⟨t, stepped⟩ := polls_enabled s (readable 16) (by rw [size]; decide)
    exact ⟨t, stepped, (polls_step_fills stepped (full s size)).trans size⟩
  have follows := capacity_follows_load_iff (make Filed.make) [readable 15, readable 20]
  refine ⟨follows.1.mpr (by decide +kernel), ?_⟩
  refine (follows.2 16 _ (fun _ => readable 16) run fun i => ?_).mpr (by decide)
  have number : (readable 16).returned.toInt = 16 := by decide
  rw [Loaded, number]
  omega

end Polling

end Lucky
