import Lucky.Epoller.Poll

/-!
# The outcomes of `epoll_wait`

`epoll` tells three outcomes apart: events, a timeout and a failure other than an
interruption.  The number of events is a `size_t`, so that the last cannot be told from
the first: `-1` is greater than zero.
-/

namespace Lucky

open Systems

namespace Polling

variable {Ptr : Type}

/-- The outcome of `epoll_wait` is told for what it is. -/
structure Classified (s : Polling Ptr) (answer : EpollWaitResult Ptr) (t : Polling Ptr)
    (branch : PollBranch) : Prop where
  received : 0 < answer.returned.toInt →
    t.activeFileds = s.activeFileds ++ answer.events.map (fun event => event.ptr) ∧
    (∀ event ∈ answer.events,
      t.filed event.ptr = { s.filed event.ptr with revents := event.events }) ∧
    ∀ p, (∀ event ∈ answer.events, event.ptr ≠ p) → t.filed p = s.filed p
  unchanged : answer.returned.toInt ≤ 0 →
    t.activeFileds = s.activeFileds ∧ t.filed = s.filed ∧ t.events = s.events
  happened : branch = .happened ↔ 0 < answer.returned.toInt
  timeout : branch = .timeout ↔ answer.returned.toInt = 0
  error : ∀ errno, branch = .error errno ↔
    answer.returned.toInt = -1 ∧ answer.errno ≠ EINTR ∧ errno = answer.errno

theorem classified_timeout (s : Polling Ptr) (errno : Nat) :
    Classified s (.stored [] errno) s .timeout := by
  have number : (EpollWaitResult.stored ([] : List (EpollEvent Ptr)) errno).returned.toInt = 0 :=
    rfl
  refine ⟨?_, fun _ => ⟨rfl, rfl, rfl⟩, ?_, ?_, ?_⟩
  · intro positive
    omega
  · simp [number]
  · simp [number]
  · simp [number]

variable [DecidableEq Ptr]

/-- Two masks for one `Filed` cannot both be left in its `revents_`. -/
theorem classified_stored_iff {s t : Polling Ptr} {events : List (EpollEvent Ptr)} {errno : Nat}
    (valid : EpollWaitResult.Valid (.stored events errno) s.events.length)
    (nonempty : 0 < events.length)
    (filed : t.filed = (events.foldl activate (s.epollWait (.stored events errno))).filed)
    (active : t.activeFileds = s.activeFileds ++ events.map fun event => event.ptr) :
    Classified s (.stored events errno) t .happened ↔
      EpollWaitResult.OneMask (.stored events errno) := by
  have number := EpollWaitResult.toInt_returned_stored valid
  constructor
  · intro classified first firstReported second secondReported same
    have ⟨_, masks, _⟩ := classified.received (by omega)
    have one := masks first firstReported
    rw [same, masks second secondReported] at one
    exact (congrArg Filed.revents one).symm
  · intro oneMask
    have last := foldl_activate_filed (s.epollWait (.stored events errno)) events
    refine ⟨fun _ => ⟨active, ?_, ?_⟩, fun empty => ?_, ?_, ?_, ?_⟩
    · intro event reported
      rcases last event.ptr with ⟨absent, _⟩ | ⟨other, membership, same, set⟩
      · exact absurd rfl (absent event reported)
      · rw [filed, set, oneMask other membership event reported same]
        rfl
    · intro p absent
      rcases last p with ⟨_, kept⟩ | ⟨other, membership, same, _⟩
      · rw [filed, kept]
        rfl
      · exact absurd same (absent other membership)
    · omega
    · simpa [number] using nonempty
    · simpa [number] using List.length_pos_iff.mp nonempty
    · intro other
      simp [number]

/-- An outcome is told for what it is exactly when `epoll_wait` has not failed and no
`Filed` is reported with two masks. -/
theorem epoll_classified_iff (s : Polling Ptr) (answer : EpollWaitResult Ptr)
    (valid : answer.Valid s.events.length) :
    ∃ t branch, s.epoll answer = .ok (t, branch) ∧
      (Classified s answer t branch ↔ answer.returned ≠ -1 ∧ answer.OneMask) := by
  cases answer with
  | failed errno =>
      obtain ⟨t, taken, _⟩ := s.epoll_failed errno
      refine ⟨t, .happened, taken, ?_⟩
      constructor
      · intro classified
        have positive := classified.happened.mp rfl
        rw [EpollWaitResult.toInt_returned_failed] at positive
        omega
      · intro failed
        exact absurd rfl failed.1
  | stored events errno =>
      have number := EpollWaitResult.toInt_returned_stored valid
      have succeeded : (EpollWaitResult.stored events errno).returned ≠ -1 := by
        intro failed
        rw [failed, toInt_neg_one] at number
        omega
      cases events with
      | nil =>
          refine ⟨s, .timeout, s.epoll_timeout errno, ?_⟩
          have oneMask : EpollWaitResult.OneMask (.stored ([] : List (EpollEvent Ptr)) errno) :=
            fun _ reported => by cases reported
          exact iff_of_true (s.classified_timeout errno) ⟨succeeded, oneMask⟩
      | cons event rest =>
          obtain ⟨t, taken, filed, active, _⟩ := epoll_stored valid (Nat.succ_pos _)
          refine ⟨t, .happened, taken, ?_⟩
          rw [classified_stored_iff valid (Nat.succ_pos _) filed active]
          exact ⟨fun oneMask => ⟨succeeded, oneMask⟩, fun both => both.2⟩

theorem epoll_classified_iff_reported :
    ∃ t branch, (make fun _ : Bool => Filed.make 5).epoll
        (.stored [⟨EPOLLOUT, true⟩, ⟨EPOLLIN, false⟩] 0) = .ok (t, branch) ∧
      Classified (make fun _ => Filed.make 5)
        (.stored [⟨EPOLLOUT, true⟩, ⟨EPOLLIN, false⟩] 0) t branch := by
  obtain ⟨t, branch, taken, classified⟩ := epoll_classified_iff
    (make fun _ : Bool => Filed.make 5) (.stored [⟨EPOLLOUT, true⟩, ⟨EPOLLIN, false⟩] 0)
    (by decide)
  exact ⟨t, branch, taken, classified.mpr ⟨by decide, by decide⟩⟩

/-- A bad descriptor, error 9: the failure is taken for events, and not reported. -/
theorem failure_taken_for_events :
    EpollWaitResult.Valid (.failed 9 : EpollWaitResult Unit) kEventListSize ∧
      ∃ t, (make fun _ : Unit => Filed.make 5).epoll (.failed 9) = .ok (t, .happened) ∧
        ¬ Classified (make fun _ => Filed.make 5) (.failed 9) t .happened := by
  refine ⟨by decide, ?_⟩
  obtain ⟨t, taken, _⟩ := epoll_failed (make fun _ : Unit => Filed.make 5) 9
  refine ⟨t, taken, fun classified => ?_⟩
  have reported := (classified.error 9).mpr (by decide)
  cases reported

end Polling

end Lucky
