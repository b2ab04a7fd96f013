import Lucky.EventLoop.Loop

/-!
# Consumption of wake-ups

With a level-triggered `epoll_wait` a wake-up is consumed when the handler of
`wakeupFd_` empties the eventfd counter.  `handelwakeupRead` writes to it, so
the first report that is handled leaves the descriptor readable for good.
-/

namespace Lucky

open Systems

namespace EventLoop

variable {Tid F : Type}

/-- Once a report of `wakeupFd_` has been handled, the counter holds only the
wake-ups sent since; and no more reports than wake-ups have been made. -/
structure WakeupsConsumed (s : EventLoop Tid F) : Prop where
  counter : 0 < s.history.handled → s.counter ≤ s.history.wakeupsSinceHandled
  reports : s.history.reports ≤ s.history.wakeups

instance (s : EventLoop Tid F) : Decidable (WakeupsConsumed s) :=
  decidable_of_iff
    ((0 < s.history.handled → s.counter ≤ s.history.wakeupsSinceHandled) ∧
      s.history.reports ≤ s.history.wakeups)
    ⟨fun holds => ⟨holds.1, holds.2⟩,
      fun consumed => ⟨consumed.counter, consumed.reports⟩⟩

/-- Before the first report is handled there has been at most one. -/
structure Unhandled (s : EventLoop Tid F) : Prop where
  handled : s.history.handled = 0
  woken : 0 < s.counter → 0 < s.history.wakeups
  reported : s.history.reports = 0 ∨
    s.history.reports = 1 ∧ 0 < s.history.wakeups ∧ s.pc = .handling true

theorem make_unhandled : Unhandled (make : EventLoop Tid F) :=
  ⟨rfl, fun positive => absurd positive (Nat.lt_irrefl 0), .inl rfl⟩

theorem Unhandled.consumed {s : EventLoop Tid F} (unhandled : Unhandled s) :
    WakeupsConsumed s := by
  refine ⟨by simp [unhandled.handled], ?_⟩
  rcases unhandled.reported with unreported | ⟨one, woken, _⟩ <;> omega

theorem Unhandled.move {s t : EventLoop Tid F} {pc : LoopPc} (unhandled : Unhandled s)
    (place : s.At pc) (undue : pc ≠ .handling true)
    (handled : t.history.handled = s.history.handled)
    (counter : t.counter = s.counter) (wakeups : t.history.wakeups = s.history.wakeups)
    (reports : t.history.reports = s.history.reports) : Unhandled t := by
  refine ⟨handled.trans unhandled.handled, ?_, .inl ?_⟩
  · rw [counter, wakeups]
    exact unhandled.woken
  · rw [reports]
    rcases unhandled.reported with unreported | ⟨_, _, due⟩
    · exact unreported
    · exact absurd (place.1.symm.trans due) undue

theorem Unhandled.poll {s : EventLoop Tid F} {wakeup : Bool} (unhandled : Unhandled s)
    (place : s.At .polling) (readable : wakeup = true → 0 < s.counter) :
    Unhandled (s.poll wakeup) := by
  refine ⟨unhandled.handled, unhandled.woken, ?_⟩
  have unreported : s.history.reports = 0 := by
    rcases unhandled.reported with unreported | ⟨_, _, due⟩
    · exact unreported
    · exact absurd (place.1.symm.trans due) (by simp)
  cases wakeup with
  | false => exact .inl unreported
  | true =>
      exact .inr ⟨by simp [EventLoop.poll, unreported], unhandled.woken (readable rfl), rfl⟩

theorem Unhandled.wakeup {s : EventLoop Tid F} (unhandled : Unhandled s) :
    Unhandled s.wakeup := by
  refine ⟨unhandled.handled, fun _ => Nat.succ_pos _, ?_⟩
  rcases unhandled.reported with unreported | ⟨one, _, due⟩
  · exact .inl unreported
  · exact .inr ⟨one, Nat.succ_pos _, due⟩

theorem Unhandled.call {s t : EventLoop Tid F} (unhandled : Unhandled s)
    (pc : t.pc = s.pc) (counter : t.counter = s.counter)
    (handled : t.history.handled = s.history.handled)
    (wakeups : t.history.wakeups = s.history.wakeups)
    (reports : t.history.reports = s.history.reports) : Unhandled t := by
  refine ⟨handled.trans unhandled.handled, ?_, ?_⟩
  · rw [counter, wakeups]
    exact unhandled.woken
  · rw [reports, wakeups, pc]
    exact unhandled.reported

/-- Handling a report never consumes anything. -/
theorem handelwakeupRead_unconsumed (s : EventLoop Tid F) :
    ¬ WakeupsConsumed s.handelwakeupRead := by
  intro consumed
  have positive : 0 < s.handelwakeupRead.counter := eventfdWrite_pos s.counter
  have bounded := consumed.counter (Nat.succ_pos _)
  exact absurd (Nat.lt_of_lt_of_le positive bounded) (Nat.lt_irrefl 0)

variable [DecidableEq Tid]

theorem Unhandled.step {s t : EventLoop Tid F} {action : Action Tid F} (unhandled : Unhandled s)
    (leaves : action ≠ .handelwakeupRead) (stepped : s.step action = some t) : Unhandled t := by
  cases action with
  | loop | resetQuit | testQuit | beginPendFunc | swap | stop =>
      simp only [EventLoop.step, Option.ite_none_right_eq_some, Option.some.injEq] at stepped
      obtain ⟨place, rfl⟩ := stepped
      exact unhandled.move place (by simp) rfl rfl rfl rfl
  | epoll wakeup =>
      simp only [EventLoop.step, Option.ite_none_right_eq_some, Option.some.injEq] at stepped
      obtain ⟨⟨place, readable⟩, rfl⟩ := stepped
      exact unhandled.poll place readable
  | handelwakeupRead => exact absurd rfl leaves
  | runNext =>
      simp only [EventLoop.step, Option.ite_none_right_eq_some, Option.map_eq_some_iff] at stepped
      obtain ⟨place, task, _, rfl⟩ := stepped
      exact unhandled.move place (by simp) rfl rfl rfl rfl
  | endPendFunc =>
      simp only [EventLoop.step, Option.ite_none_right_eq_some, Option.some.injEq] at stepped
      obtain ⟨⟨place, _⟩, rfl⟩ := stepped
      exact unhandled.move place (by simp) rfl rfl rfl rfl
  | queueinLoop caller functor | quit caller =>
      simp only [EventLoop.step, Option.ite_none_right_eq_some, Option.some.injEq] at stepped
      obtain ⟨_, rfl⟩ := stepped
      exact unhandled.call rfl rfl rfl rfl rfl
  | runinLoop caller functor =>
      simp only [EventLoop.step, Option.ite_none_right_eq_some] at stepped
      obtain ⟨_, chosen⟩ := stepped
      split at chosen <;> cases chosen <;> exact unhandled.call rfl rfl rfl rfl rfl
  | push caller =>
      simp only [EventLoop.step] at stepped
      split at stepped <;> cases stepped
      exact unhandled.call rfl rfl rfl rfl rfl
  | notify caller | quitNotify caller =>
      simp only [EventLoop.step] at stepped
      split at stepped <;> cases stepped
      have returned : Unhandled (s.setCallPc caller .idle) := unhandled.call rfl rfl rfl rfl rfl
      split
      · exact returned.wakeup
      · exact returned
  | wakeup caller =>
      simp only [EventLoop.step, Option.ite_none_right_eq_some, Option.some.injEq] at stepped
      obtain ⟨_, rfl⟩ := stepped
      exact unhandled.wakeup

/-- Wake-ups stay consumed throughout a run exactly when the run handles no
report of `wakeupFd_`. -/
theorem wakeups_consumed_iff_unhandled (actions : List (Action Tid F)) :
    interleaving.Always WakeupsConsumed make actions ↔
      interleaving.Guarded (fun _ action => action ≠ .handelwakeupRead) make actions := by
  refine Machine.always_iff_guarded Unhandled
    (fun _ _ _ unhandled leaves stepped => unhandled.step leaves stepped)
    (fun _ unhandled => unhandled.consumed) ?_ make_unhandled
  rintro s action t - stepped consumed rfl
  simp only [interleaving, EventLoop.step, Option.ite_none_right_eq_some, Option.some.injEq]
    at stepped
  obtain ⟨_, rfl⟩ := stepped
  exact s.handelwakeupRead_unconsumed consumed

/-- One wake-up, and two iterations of the loop. -/
def oneWakeup : List (Action Nat Nat) :=
  [.wakeup (some 1), .loop, .resetQuit, .testQuit, .epoll true, .handelwakeupRead,
    .beginPendFunc, .swap, .endPendFunc, .testQuit, .epoll true]

/-- After the only wake-up has been handled the counter is 2, and `epoll_wait`
reports `wakeupFd_` again. -/
theorem one_wakeup_reported_twice :
    (∃ s, interleaving.exec make (oneWakeup.take 6) = some s ∧ s.history.handled = 1 ∧
      s.history.wakeupsSinceHandled = 0 ∧ s.counter = 2) ∧
    (∃ s, interleaving.exec make oneWakeup = some s ∧
      s.history.wakeups = 1 ∧ s.history.reports = 2) ∧
    ¬ interleaving.Always WakeupsConsumed make oneWakeup :=
  ⟨⟨_, rfl, rfl, rfl, rfl⟩, ⟨_, rfl, rfl, rfl⟩, by decide⟩

end EventLoop

end Lucky
