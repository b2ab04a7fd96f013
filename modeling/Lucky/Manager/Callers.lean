import Lucky.EventLoop.TaskOrder
import Lucky.Manager.Thread

/-!
# The callers of a loop

What one step of a loop adds to its history, and which callers it moves.
-/

namespace Lucky.EventLoop

variable {Tid F : Type}

/-- The functors a step puts into `pendFuncs_`. -/
def pushed (s : EventLoop Tid F) : Action Tid F → List (Task Tid F)
  | .push caller => (s.callPc caller).inFlight.map (Task.mk caller)
  | _ => []

/-- The functors a step runs from the queue. -/
def ran (s : EventLoop Tid F) : Action Tid F → List (Task Tid F)
  | .runNext => s.queue.next?.toList
  | _ => []

variable [DecidableEq Tid] {s t : EventLoop Tid F} {action : Action Tid F}

theorem step_grows (stepped : s.step action = some t) :
    t.history.enqueued = s.history.enqueued ++ s.pushed action ∧
      t.history.executed = s.history.executed ++ s.ran action := by
  cases action with
  | loop | resetQuit | testQuit | epoll wakeup | handelwakeupRead | beginPendFunc | swap
  | endPendFunc | stop | queueinLoop caller functor | quit caller | wakeup caller =>
      simp only [step, Option.ite_none_right_eq_some, Option.some.injEq] at stepped
      obtain ⟨_, rfl⟩ := stepped
      exact ⟨(List.append_nil _).symm, (List.append_nil _).symm⟩
  | runNext =>
      simp only [step, Option.ite_none_right_eq_some, Option.map_eq_some_iff] at stepped
      obtain ⟨_, task, found, rfl⟩ := stepped
      simp [EventLoop.run, pushed, ran, found]
  | runinLoop caller functor =>
      simp only [step, Option.ite_none_right_eq_some] at stepped
      obtain ⟨_, chosen⟩ := stepped
      split at chosen <;> cases chosen <;>
        exact ⟨(List.append_nil _).symm, (List.append_nil _).symm⟩
  | push caller =>
      simp only [step] at stepped
      split at stepped <;> cases stepped
      next place => simp [EventLoop.push, pushed, ran, place, CallPc.inFlight]
  | notify caller | quitNotify caller =>
      simp only [step] at stepped
      split at stepped <;> cases stepped
      split <;> exact ⟨(List.append_nil _).symm, (List.append_nil _).symm⟩

/-- What leaves the queue has been run, and what enters it has been pushed. -/
theorem QueueConserved.countP_contents (conserved : QueueConserved s)
    (stepped : s.step action = some t) (counted : Task Tid F → Bool) :
    t.queue.contents.countP counted + (s.ran action).countP counted =
      s.queue.contents.countP counted + (s.pushed action).countP counted := by
  have before := congrArg (List.countP counted) conserved.order
  have after := congrArg (List.countP counted) (conserved.step stepped).order
  obtain ⟨enqueued, executed⟩ := step_grows stepped
  rw [enqueued, executed] at after
  simp only [List.countP_append] at before after
  omega

/-- The step goes on with a call its caller is in. -/
def Action.continues : Action Tid F → Option (Option Tid)
  | .push caller | .notify caller | .quitNotify caller => some caller
  | _ => none

omit [DecidableEq Tid] in
theorem Action.caller_of_continues {action : Action Tid F} {caller : Option Tid}
    (continues : action.continues = some caller) : action.caller? = some caller := by
  cases action with
  | push | notify | quitNotify => exact continues
  | _ => cases continues

/-- A caller that is in a call can go on with it. -/
theorem call_goes_on (s : EventLoop Tid F) {caller : Option Tid}
    (inside : ¬ (s.callPc caller).isIdle = true) :
    ∃ action : Action Tid F, action.continues = some caller ∧
      (s.step action).isSome = true := by
  cases place : s.callPc caller with
  | idle => simp [place] at inside
  | queueing functor => exact ⟨.push caller, rfl, by simp [step, place]⟩
  | pushed ticket => exact ⟨.notify caller, rfl, by simp [step, place]⟩
  | quitting => exact ⟨.quitNotify caller, rfl, by simp [step, place]⟩

/-- The loop thread can go on, with a call it is in or in `loop()`. -/
theorem thread_goes_on (s : EventLoop Tid F) :
    ∃ action : Action Tid F, (action.caller? = none ∨ action.continues = some none) ∧
      (s.step action).isSome = true := by
  by_cases idle : (s.callPc none).isIdle = true
  · cases place : s.pc with
    | outside => exact ⟨.loop, .inl rfl, by simp [step, At, place, idle]⟩
    | entered => exact ⟨.resetQuit, .inl rfl, by simp [step, At, place, idle]⟩
    | test => exact ⟨.testQuit, .inl rfl, by simp [step, At, place, idle]⟩
    | polling => exact ⟨.epoll false, .inl rfl, by simp [step, At, place, idle]⟩
    | handling wakeup =>
        cases wakeup with
        | true => exact ⟨.handelwakeupRead, .inl rfl, by simp [step, At, place, idle]⟩
        | false => exact ⟨.beginPendFunc, .inl rfl, by simp [step, At, place, idle]⟩
    | flagged => exact ⟨.swap, .inl rfl, by simp [step, At, place, idle]⟩
    | running =>
        cases first : s.queue.next? with
        | some task => exact ⟨.runNext, .inl rfl, by simp [step, At, place, idle, first]⟩
        | none => exact ⟨.endPendFunc, .inl rfl, by simp [step, At, place, idle, first]⟩
    | stopping => exact ⟨.stop, .inl rfl, by simp [step, At, place, idle]⟩
  · obtain ⟨action, continues, enabled⟩ := s.call_goes_on idle
    exact ⟨action, .inr continues, enabled⟩

/-- A step moves no caller but its own. -/
theorem step_callPc_of_ne (stepped : s.step action = some t) {caller : Option Tid}
    (other : action.caller? ≠ some caller) : t.callPc caller = s.callPc caller := by
  have elsewhere (called : Option Tid) (place : CallPc F)
      (different : some called ≠ some caller) :
      (s.setCallPc called place).callPc caller = s.callPc caller := by
    have apart : caller ≠ called := fun same => different (congrArg some same.symm)
    exact Function.update_of_ne apart place s.callPc
  cases action with
  | loop | resetQuit | testQuit | epoll | handelwakeupRead | beginPendFunc | swap | endPendFunc
  | stop | wakeup =>
      simp only [step, Option.ite_none_right_eq_some, Option.some.injEq] at stepped
      obtain ⟨_, rfl⟩ := stepped
      rfl
  | runNext =>
      simp only [step, Option.ite_none_right_eq_some, Option.map_eq_some_iff] at stepped
      obtain ⟨_, task, _, rfl⟩ := stepped
      rfl
  | queueinLoop called functor =>
      simp only [step, Option.ite_none_right_eq_some, Option.some.injEq] at stepped
      obtain ⟨_, rfl⟩ := stepped
      exact elsewhere called (.queueing functor) other
  | runinLoop called functor =>
      simp only [step, Option.ite_none_right_eq_some] at stepped
      obtain ⟨_, chosen⟩ := stepped
      split at chosen <;> cases chosen
      · rfl
      · exact elsewhere called (.queueing functor) other
  | quit called =>
      simp only [step, Option.ite_none_right_eq_some, Option.some.injEq] at stepped
      obtain ⟨_, rfl⟩ := stepped
      exact elsewhere called .quitting other
  | push called =>
      simp only [step] at stepped
      split at stepped <;> cases stepped
      exact elsewhere called (.pushed s.history.enqueued.length) other
  | notify called | quitNotify called =>
      simp only [step] at stepped
      split at stepped <;> cases stepped
      split <;> exact elsewhere called .idle other

/-- Who is about to push a functor: whoever was, up to the push, and whoever calls for it. -/
theorem step_queueing_iff (stepped : s.step action = some t) {caller : Option Tid}
    {functor : F} :
    t.callPc caller = .queueing functor ↔
      s.callPc caller = .queueing functor ∧ action ≠ .push caller ∨
      action = .queueinLoop caller functor ∨
      action = .runinLoop caller functor ∧ caller.isSome = true := by
  have stuck (before : s.callPc caller = .queueing functor) (other : action ≠ .push caller) :
      action.caller? ≠ some caller := by
    intro called
    cases action with
    | loop | resetQuit | testQuit | epoll | handelwakeupRead | beginPendFunc | swap | runNext
    | endPendFunc | stop => cases called
    | push => exact other (congrArg Action.push (Option.some.inj called))
    | queueinLoop | runinLoop | quit | wakeup =>
        cases Option.some.inj called
        simp [step, MayCall, before] at stepped
    | notify | quitNotify =>
        cases Option.some.inj called
        simp [step, before] at stepped
  constructor
  · intro place
    rcases step_queueing stepped place with before | queueing | running
    · refine .inl ⟨before, ?_⟩
      rintro rfl
      simp only [step, before, Option.some.injEq] at stepped
      subst stepped
      simp [EventLoop.push, callPc_setCallPc] at place
    · exact .inr (.inl queueing)
    · refine .inr (.inr ⟨running, ?_⟩)
      subst running
      simp only [step, Option.ite_none_right_eq_some] at stepped
      obtain ⟨⟨idle, _⟩, chosen⟩ := stepped
      cases caller with
      | none =>
          cases chosen
          rw [CallPc.isIdle_iff] at idle
          cases idle.symm.trans place
      | some => rfl
  · rintro (⟨before, other⟩ | rfl | ⟨rfl, called⟩)
    · by_cases called : action.caller? = some caller
      · exact absurd called (stuck before other)
      · rw [step_callPc_of_ne stepped called, before]
    · simp only [step, Option.ite_none_right_eq_some, Option.some.injEq] at stepped
      obtain ⟨_, rfl⟩ := stepped
      simp [submit, callPc_setCallPc]
    · simp only [step, Option.ite_none_right_eq_some] at stepped
      obtain ⟨_, chosen⟩ := stepped
      rw [if_neg (by simp [Option.isSome_iff_ne_none.mp called])] at chosen
      cases chosen
      simp [submit, callPc_setCallPc]

end Lucky.EventLoop
