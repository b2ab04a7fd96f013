import Lucky.Epoller.Registration

/-!
# `Filed`s without interest

epoll reports `EPOLLHUP` and `EPOLLERR` for a monitored descriptor even when its
mask is empty, so a `Filed` with no events should not be monitored.  `update`
looks at `index_` first: only a `Filed` in state `kAdded` is deleted when its
events are gone, any other is added with the empty mask.
-/

namespace Lucky

open Systems

variable {Ptr : Type}

def Filed.Request.disables : Filed.Request → Bool
  | .disableReading | .disableWriting | .disableAll => true
  | .enableReading | .enableWriting | .remove => false

theorem Filed.Request.events_ne_none {request : Filed.Request}
    (enables : request = .enableReading ∨ request = .enableWriting) (events : Mask) :
    request.events events ≠ kNoneEvent := by
  have nonzero {mask : Mask} (positive : mask ≠ 0) : events ||| mask ≠ 0 := by
    intro zero
    apply positive
    exact (BitVec.or_eq_zero_iff.mp zero).2
  rcases enables with rfl | rfl
  · exact nonzero (by decide)
  · exact nonzero (by decide)

/-- A request leaves a `Filed` without events monitored exactly when it has taken the
last events of one that was not in the kernel's list. -/
theorem Filed.Request.added_without_events_iff (request : Filed.Request) (f : Filed) :
    (request.events f.events = kNoneEvent → request.index f ≠ .kAdded) ↔
      (request.disables = true → request.events f.events = kNoneEvent → f.index = .kAdded) := by
  have updated (events : Mask) : (events = kNoneEvent →
      Filed.updatedIndex { f with events := events } ≠ .kAdded) ↔
        (true = true → events = kNoneEvent → f.index = .kAdded) := by
    rw [eq_self, true_imp_iff]
    apply imp_congr_right
    rintro rfl
    cases f.index <;> simp [updatedIndex, isNoneEvent]
  cases request with
  | enableReading =>
      have interested := events_ne_none (.inl rfl) f.events
      exact iff_of_true (fun silent => absurd silent interested)
        (fun _ silent => absurd silent interested)
  | enableWriting =>
      have interested := events_ne_none (.inr rfl) f.events
      exact iff_of_true (fun silent => absurd silent interested)
        (fun _ silent => absurd silent interested)
  | disableReading => exact updated (f.events &&& ~~~kReadEvent)
  | disableWriting => exact updated (f.events &&& ~~~kWriteEvent)
  | disableAll => exact updated kNoneEvent
  | remove =>
      refine iff_of_true ?_ ?_
      · rintro _ ⟨⟩
      · rintro ⟨⟩

/-- The descriptor is absent also where `DEL` has failed. -/
theorem Epoller.updateHelper_del {epoller after : Epoller Ptr} {ptr : Ptr} {f : Filed}
    (returned : epoller.updateHelper .EPOLL_CTL_DEL ptr f = .ok after) :
    after.interest f.fd = none := by
  cases monitored : epoller.interest f.fd with
  | none =>
      simp only [updateHelper, epollCtl, monitored, Option.isSome_none, if_true,
        Except.ok.injEq] at returned
      rw [← returned]
      exact monitored
  | some event =>
      simp only [updateHelper, epollCtl, monitored, Option.isSome_some, Except.ok.injEq] at returned
      rw [← returned]
      exact Function.update_self ..

theorem Epoller.updateHelper_add {epoller after : Epoller Ptr} {ptr : Ptr} {f : Filed}
    (returned : epoller.updateHelper .EPOLL_CTL_ADD ptr f = .ok after) :
    after.interest f.fd = some ⟨f.events, ptr⟩ := by
  cases monitored : epoller.interest f.fd with
  | none =>
      simp only [updateHelper, epollCtl, monitored, Option.isSome_none, Except.ok.injEq] at returned
      rw [← returned]
      exact Function.update_self ..
  | some event => simp [updateHelper, epollCtl, monitored] at returned

variable [DecidableEq Ptr]

/-- Whatever the records say, an `update` without events that returns leaves the
descriptor unmonitored exactly when `index_` was `kAdded`. -/
theorem Epoller.update_unmonitored_iff {epoller after : Epoller Ptr} {ptr : Ptr} {f g : Filed}
    (silent : f.events = Filed.kNoneEvent) (returned : epoller.update ptr f = .ok (after, g)) :
    after.interest f.fd = none ↔ f.index = .kAdded := by
  cases index : f.index with
  | kNew =>
      simp only [update, index] at returned
      rcases bind_eq_ok.mp returned with ⟨_, added, finished⟩
      cases finished
      simp [updateHelper_add added]
  | kDeleted =>
      simp only [update, index] at returned
      split at returned
      · cases returned
      · split at returned
        · cases returned
        · rcases bind_eq_ok.mp returned with ⟨_, added, finished⟩
          cases finished
          simp [updateHelper_add added]
  | kAdded =>
      simp only [update, index, Filed.isNoneEvent, silent, beq_self_eq_true, if_true] at returned
      rcases bind_eq_ok.mp returned with ⟨_, deleted, finished⟩
      cases finished
      exact iff_of_true (updateHelper_del deleted) rfl

/-- A request that returns has set `events_` and `index_` and nothing else in the
`Filed`. -/
theorem Filed.Request.call_filed {epoller after : Epoller Ptr} {ptr : Ptr} {f g : Filed}
    {request : Filed.Request} (returned : request.call epoller ptr f = .ok (after, g)) :
    g = { f with events := request.events f.events, index := request.index f } := by
  cases request with
  | remove => exact Epoller.remove_filed returned
  | _ => exact Epoller.update_filed returned

theorem Filed.Request.call_unmonitored_iff {epoller after : Epoller Ptr} {ptr : Ptr} {f g : Filed}
    {request : Filed.Request} (disables : request.disables = true)
    (silent : request.events f.events = kNoneEvent)
    (returned : request.call epoller ptr f = .ok (after, g)) :
    after.interest f.fd = none ↔ f.index = .kAdded := by
  have updated (events : Mask) (isNone : events = kNoneEvent)
      (returned : epoller.update ptr { f with events := events } = .ok (after, g)) :
      after.interest f.fd = none ↔ f.index = .kAdded :=
    Epoller.update_unmonitored_iff (f := { f with events := events }) isNone returned
  cases request with
  | enableReading | enableWriting | remove => cases disables
  | disableReading => exact updated (f.events &&& ~~~kReadEvent) silent returned
  | disableWriting => exact updated (f.events &&& ~~~kWriteEvent) silent returned
  | disableAll => exact updated kNoneEvent silent returned

namespace Attached

/-- No `Filed` without events is in the kernel's interest list. -/
def Unmonitored (state : Attached Ptr) : Prop :=
  ∀ p, (state.filed p).events = Filed.kNoneEvent →
    state.epoller.interest (state.filed p).fd = none

/-- A call that disables the last events finds the `Filed` in state `kAdded`. -/
def ClearsAdded (state : Attached Ptr) (action : Ptr × Filed.Request) : Prop :=
  action.2.disables = true →
    action.2.events (state.filed action.1).events = Filed.kNoneEvent →
      (state.filed action.1).index = .kAdded

instance (state : Attached Ptr) (action : Ptr × Filed.Request) :
    Decidable (state.ClearsAdded action) :=
  inferInstanceAs (Decidable (_ → _ → _))

omit [DecidableEq Ptr] in
theorem Consistent.unmonitored_iff {fd : Ptr → Nat} {state : Attached Ptr}
    (consistent : Consistent fd state) : Unmonitored state ↔
      ∀ p, (state.filed p).events = Filed.kNoneEvent → (state.filed p).index ≠ .kAdded := by
  apply forall_congr'
  intro p
  rw [(consistent.registered p).monitored]
  cases (state.filed p).index <;> simp

theorem step_call {state next : Attached Ptr} {action : Ptr × Filed.Request}
    (stepped : requests.step state action = some next) :
    action.2.call state.epoller action.1 (state.filed action.1) =
        .ok (next.epoller, next.filed action.1) ∧
      next.filed = Function.update state.filed action.1
        { state.filed action.1 with
          events := action.2.events (state.filed action.1).events
          index := action.2.index (state.filed action.1) } := by
  simp only [requests] at stepped
  split at stepped
  next epoller f called =>
    cases stepped
    rw [← Filed.Request.call_filed called]
    exact ⟨called.trans (by simp only [Function.update_self]), rfl⟩
  next => cases stepped

/-! ## The calls of a run -/

/-- A call that disables the last events of a `Filed` leaves its descriptor out of the
kernel's list. -/
def LeavesUnmonitored (state : Attached Ptr) (action : Ptr × Filed.Request) : Prop :=
  ∀ next ∈ requests.step state action, action.2.disables = true →
    (next.filed action.1).events = Filed.kNoneEvent →
      next.epoller.interest (next.filed action.1).fd = none

instance (state : Attached Ptr) (action : Ptr × Filed.Request) :
    Decidable (state.LeavesUnmonitored action) :=
  inferInstanceAs (Decidable (∀ next ∈ _, _))

theorem leavesUnmonitored_iff {state next : Attached Ptr} {action : Ptr × Filed.Request}
    (stepped : requests.step state action = some next) :
    state.LeavesUnmonitored action ↔ state.ClearsAdded action := by
  obtain ⟨called, filed⟩ := step_call stepped
  simp only [LeavesUnmonitored, Option.mem_def, stepped, Option.some.injEq, forall_eq', filed,
    Function.update_self, ClearsAdded]
  apply imp_congr_right
  intro disables
  apply imp_congr_right
  intro silent
  exact Filed.Request.call_unmonitored_iff disables silent called

/-- `disableAll` takes a descriptor from one side of the kernel's list to the other, so
a second call undoes the first. -/
theorem disableAll_twice {state once twice : Attached Ptr} {p : Ptr}
    (first : requests.step state (p, .disableAll) = some once)
    (second : requests.step once (p, .disableAll) = some twice) :
    (twice.filed p).index ≠ (once.filed p).index ∧
      twice.epoller.interest (state.filed p).fd ≠ once.epoller.interest (state.filed p).fd := by
  obtain ⟨firstCall, firstFiled⟩ := step_call first
  obtain ⟨secondCall, secondFiled⟩ := step_call second
  have left := Filed.Request.call_unmonitored_iff rfl rfl firstCall
  have right := Filed.Request.call_unmonitored_iff rfl rfl secondCall
  have indexOnce := congrArg Filed.index (congrFun firstFiled p)
  have indexTwice := congrArg Filed.index (congrFun secondFiled p)
  have descriptor := congrArg Filed.fd (congrFun firstFiled p)
  simp only [Function.update_self] at indexOnce indexTwice descriptor
  have flips : (once.filed p).index = .kAdded ↔ (state.filed p).index ≠ .kAdded := by
    rw [indexOnce]
    cases index : (state.filed p).index <;>
      simp [Filed.Request.index, Filed.Request.events, Filed.updatedIndex, Filed.isNoneEvent, index]
  refine ⟨?_, ?_⟩
  · rw [indexTwice]
    cases index : (once.filed p).index <;>
      simp [Filed.Request.index, Filed.Request.events, Filed.updatedIndex, Filed.isNoneEvent, index]
  · intro same
    simp only at left right
    rw [descriptor, same, left, flips] at right
    exact absurd right.symm not_iff_self

/-- In a run of requests on any `Filed`s, every call that disables the last events
leaves the descriptor unmonitored exactly when each of these calls finds its `Filed`
in state `kAdded`.  A second `disableAll` never leaves `index_` and the kernel's list
as the first one left them; when no two `Filed`s share a descriptor it always returns. -/
theorem leavesUnmonitored_iff_clearsAdded (fd : Ptr → Nat)
    (actions : List (Ptr × Filed.Request)) :
    (requests.Guarded LeavesUnmonitored (make fd) actions ↔
      requests.Guarded ClearsAdded (make fd) actions) ∧
    ∀ state, requests.exec (make fd) actions = some state → ∀ p,
      (∀ once twice, requests.step state (p, .disableAll) = some once →
        requests.step once (p, .disableAll) = some twice →
        (twice.filed p).index ≠ (once.filed p).index ∧
        twice.epoller.interest (state.filed p).fd ≠ once.epoller.interest (state.filed p).fd) ∧
      (Function.Injective fd → ∃ once twice,
        requests.step state (p, .disableAll) = some once ∧
        requests.step once (p, .disableAll) = some twice) := by
  refine ⟨?_, ?_⟩
  · apply Machine.guarded_iff_guarded (fun _ => True)
    · exact fun _ _ _ _ _ => trivial
    · exact fun _ _ _ _ stepped => leavesUnmonitored_iff stepped
    · trivial
  · intro state run p
    refine ⟨fun once twice first second => disableAll_twice first second, ?_⟩
    intro distinct
    obtain ⟨final, ran, consistent⟩ := (make_consistent fd).exec distinct actions
    rw [run] at ran
    cases ran
    obtain ⟨once, first, onceConsistent⟩ := consistent.step distinct (p, .disableAll)
    obtain ⟨twice, second, _⟩ := onceConsistent.step distinct (p, .disableAll)
    exact ⟨once, twice, first, second⟩

/-- `disableAll` on a `Filed` that was never added, and on one that has just been
deleted, has the kernel monitor it with an empty mask. -/
theorem disableAll_monitors_filed_without_events :
    ¬ requests.Guarded LeavesUnmonitored (make fun _ : Unit => 3) [((), .disableAll)] ∧
    ¬ requests.Guarded LeavesUnmonitored (make fun _ : Unit => 3)
        [((), .enableReading), ((), .disableAll), ((), .disableAll)] ∧
    (requests.exec (make fun _ : Unit => 3)
        [((), .enableReading), ((), .disableAll)]).map
      (fun state => ((state.filed ()).index, state.epoller.interest 3)) =
      some (.kDeleted, none) ∧
    (requests.exec (make fun _ : Unit => 3)
        [((), .enableReading), ((), .disableAll), ((), .disableAll)]).map
      (fun state => ((state.filed ()).index, state.epoller.interest 3)) =
      some (.kAdded, some ⟨0, ()⟩) := by
  decide +kernel

/-- Reading and writing are disabled one after the other, the `Filed` is added again
and removed, and another `Filed` takes over its descriptor. -/
theorem leavesUnmonitored_iff_clearsAdded_reused :
    requests.Guarded LeavesUnmonitored (make fun _ : Bool => 3)
        [(true, .enableReading), (true, .enableWriting), (true, .disableWriting),
          (true, .disableReading), (true, .enableWriting), (true, .disableAll), (true, .remove),
          (false, .enableReading), (false, .disableAll)] ∧
    ∃ once twice, requests.step (make fun _ : Unit => 3) ((), .disableAll) = some once ∧
      requests.step once ((), .disableAll) = some twice :=
  ⟨(leavesUnmonitored_iff_clearsAdded (fun _ : Bool => 3) _).1.mpr (by decide +kernel),
    ((leavesUnmonitored_iff_clearsAdded (fun _ : Unit => 3) []).2 _ rfl ()).2
      (fun _ _ _ => rfl)⟩

/-! ## The states of a run -/

/-- A step from a state without monitored idle `Filed`s leads to such a state exactly
when it clears the events of none but an added `Filed`. -/
theorem Consistent.step_unmonitored_iff {fd : Ptr → Nat} (distinct : Function.Injective fd)
    {state next : Attached Ptr} (consistent : Consistent fd state) (silent : Unmonitored state)
    {action : Ptr × Filed.Request} (stepped : requests.step state action = some next) :
    Unmonitored next ↔ state.ClearsAdded action := by
  obtain ⟨after, moved, nextConsistent⟩ := consistent.step distinct action
  rw [stepped] at moved
  cases moved
  have filed := (step_call stepped).2
  rw [ClearsAdded, ← Filed.Request.added_without_events_iff,
    nextConsistent.unmonitored_iff, filed]
  constructor
  · intro unmonitored
    simpa using unmonitored action.1
  · intro own p
    by_cases same : p = action.1
    · subst same
      simpa using own
    · simpa [same] using consistent.unmonitored_iff.mp silent p

/-- Where no two `Filed`s share a descriptor, in no state of a run a `Filed` without
events is monitored exactly when the calls meet the same condition. -/
theorem unmonitored_iff_clearsAdded (fd : Ptr → Nat) (distinct : Function.Injective fd)
    (actions : List (Ptr × Filed.Request)) :
    requests.Always Unmonitored (make fd) actions ↔
      requests.Guarded ClearsAdded (make fd) actions := by
  apply Machine.always_iff_guarded (fun state => Consistent fd state ∧ Unmonitored state)
  · rintro state action next ⟨consistent, silent⟩ clears stepped
    obtain ⟨after, moved, nextConsistent⟩ := consistent.step distinct action
    rw [stepped] at moved
    cases moved
    exact ⟨nextConsistent, (consistent.step_unmonitored_iff distinct silent stepped).mpr clears⟩
  · exact fun state holds => holds.2
  · rintro state action next ⟨consistent, silent⟩ stepped unmonitored
    exact (consistent.step_unmonitored_iff distinct silent stepped).mp unmonitored
  · exact ⟨make_consistent fd, fun _ _ => rfl⟩

end Attached

end Lucky
