import Lucky.EventLoop.Loop

/-!
# Conservation and order of queued functors

In every interleaving a functor that has been queued is in exactly one place:
executed, in the rest of the batch, or in `pendFuncs_`; and the three together
keep the order in which `mutex_` was taken.
-/

namespace Lucky

open Systems

def CallPc.inFlight {F : Type} : CallPc F → List F
  | .queueing functor => [functor]
  | .idle | .pushed _ | .quitting => []

namespace EventLoop

variable {Tid F : Type}

/-- The queue and its history: between batches nothing of a batch is left, and a
running batch is what the last swap took. -/
structure QueueConserved (s : EventLoop Tid F) : Prop where
  order : s.history.enqueued = s.history.executed ++ s.queue.contents
  between : s.pc ≠ .running → s.queue.remaining = []
  batch : s.pc = .running → s.history.executed ++ s.queue.remaining = s.history.swapped

theorem make_queueConserved : QueueConserved (make : EventLoop Tid F) :=
  ⟨rfl, fun _ => rfl, fun running => by simp [make] at running⟩

/-- Steps that keep the queue and its history, and start or end no batch. -/
theorem QueueConserved.congr {s t : EventLoop Tid F} (conserved : QueueConserved s)
    (queue : t.queue = s.queue) (enqueued : t.history.enqueued = s.history.enqueued)
    (executed : t.history.executed = s.history.executed)
    (swapped : t.history.swapped = s.history.swapped)
    (batch : t.pc = .running ↔ s.pc = .running) : QueueConserved t := by
  refine ⟨?_, fun outside => ?_, fun running => ?_⟩
  · rw [enqueued, executed, queue]
    exact conserved.order
  · rw [queue]
    exact conserved.between (fun running => outside (batch.mpr running))
  · rw [executed, queue, swapped]
    exact conserved.batch (batch.mp running)

theorem QueueConserved.swap {s : EventLoop Tid F} (conserved : QueueConserved s)
    (flagged : s.pc = .flagged) : QueueConserved s.swap := by
  have finished : s.queue.remaining = [] := conserved.between (by simp [flagged])
  refine ⟨?_, fun outside => absurd rfl outside, fun _ => ?_⟩
  · simp only [EventLoop.swap, TaskQueue.contents_swap finished, conserved.order]
  · simp only [EventLoop.swap, TaskQueue.remaining_swap, conserved.order, TaskQueue.contents,
      finished, List.nil_append]

theorem QueueConserved.run {s : EventLoop Tid F} (conserved : QueueConserved s)
    (running : s.pc = .running) {task : Task Tid F} (found : s.queue.next? = some task) :
    QueueConserved (s.run task) := by
  refine ⟨?_, fun outside => absurd running outside, fun _ => ?_⟩
  · simp only [EventLoop.run, conserved.order, TaskQueue.contents_of_next found,
      List.append_assoc, List.singleton_append]
  · have batch := conserved.batch running
    rw [TaskQueue.remaining_of_next found] at batch
    simpa only [EventLoop.run, List.append_assoc, List.singleton_append] using batch

variable [DecidableEq Tid]

theorem QueueConserved.push {s : EventLoop Tid F} (conserved : QueueConserved s)
    (caller : Option Tid) (functor : F) : QueueConserved (s.push caller functor) := by
  refine ⟨?_, conserved.between, conserved.batch⟩
  simp only [EventLoop.push, setCallPc, TaskQueue.contents_push, conserved.order,
    List.append_assoc]

theorem QueueConserved.step {s t : EventLoop Tid F} {action : Action Tid F}
    (conserved : QueueConserved s) (stepped : s.step action = some t) : QueueConserved t := by
  cases action with
  | loop | resetQuit | epoll wakeup | handelwakeupRead | beginPendFunc | stop =>
      simp only [EventLoop.step, Option.ite_none_right_eq_some, Option.some.injEq] at stepped
      obtain ⟨place, rfl⟩ := stepped
      refine conserved.congr rfl rfl rfl rfl ?_
      simp [EventLoop.handelwakeupRead, poll, writeOne, At] at place ⊢
      simp [place]
  | testQuit =>
      simp only [EventLoop.step, Option.ite_none_right_eq_some, Option.some.injEq] at stepped
      obtain ⟨⟨place, _⟩, rfl⟩ := stepped
      refine conserved.congr rfl rfl rfl rfl ?_
      cases s.quit <;> simp [place]
  | swap =>
      simp only [EventLoop.step, Option.ite_none_right_eq_some, Option.some.injEq] at stepped
      obtain ⟨⟨place, _⟩, rfl⟩ := stepped
      exact conserved.swap place
  | runNext =>
      simp only [EventLoop.step, Option.ite_none_right_eq_some, Option.map_eq_some_iff] at stepped
      obtain ⟨⟨place, _⟩, task, found, rfl⟩ := stepped
      exact conserved.run place found
  | endPendFunc =>
      simp only [EventLoop.step, Option.ite_none_right_eq_some, Option.some.injEq] at stepped
      obtain ⟨⟨_, exhausted⟩, rfl⟩ := stepped
      have finished : s.queue.remaining = [] :=
        TaskQueue.remaining_eq_nil_iff.mpr (Option.isNone_iff_eq_none.mp exhausted)
      refine ⟨?_, fun _ => rfl, fun running => by simp at running⟩
      simp only [TaskQueue.contents_finish finished, conserved.order]
  | queueinLoop caller functor | quit caller | wakeup caller =>
      simp only [EventLoop.step, Option.ite_none_right_eq_some, Option.some.injEq] at stepped
      obtain ⟨_, rfl⟩ := stepped
      exact conserved.congr rfl rfl rfl rfl Iff.rfl
  | runinLoop caller functor =>
      simp only [EventLoop.step, Option.ite_none_right_eq_some] at stepped
      obtain ⟨_, chosen⟩ := stepped
      split at chosen <;> cases chosen <;> exact conserved.congr rfl rfl rfl rfl Iff.rfl
  | push caller =>
      simp only [EventLoop.step] at stepped
      split at stepped <;> cases stepped
      exact conserved.push caller _
  | notify caller | quitNotify caller =>
      simp only [EventLoop.step] at stepped
      split at stepped <;> cases stepped
      split <;> exact conserved.congr rfl rfl rfl rfl Iff.rfl

/-- A functor in the queue was there before, or its caller was about to push it. -/
theorem step_contents {s t : EventLoop Tid F} {action : Action Tid F}
    (stepped : s.step action = some t) {task : Task Tid F} (queued : task ∈ t.queue.contents) :
    task ∈ s.queue.contents ∨ s.callPc task.source = .queueing task.functor := by
  cases action with
  | loop | resetQuit | testQuit | epoll wakeup | handelwakeupRead | beginPendFunc | stop
  | queueinLoop caller functor | quit caller | wakeup caller =>
      simp only [EventLoop.step, Option.ite_none_right_eq_some, Option.some.injEq] at stepped
      obtain ⟨_, rfl⟩ := stepped
      exact .inl queued
  | swap =>
      simp only [EventLoop.step, Option.ite_none_right_eq_some, Option.some.injEq] at stepped
      obtain ⟨_, rfl⟩ := stepped
      exact .inl (TaskQueue.mem_of_mem_swap queued)
  | runNext =>
      simp only [EventLoop.step, Option.ite_none_right_eq_some, Option.map_eq_some_iff] at stepped
      obtain ⟨_, first, found, rfl⟩ := stepped
      exact .inl (TaskQueue.mem_of_mem_advance found queued)
  | endPendFunc =>
      simp only [EventLoop.step, Option.ite_none_right_eq_some, Option.some.injEq] at stepped
      obtain ⟨_, rfl⟩ := stepped
      exact .inl (TaskQueue.mem_of_mem_finish queued)
  | runinLoop caller functor =>
      simp only [EventLoop.step, Option.ite_none_right_eq_some] at stepped
      obtain ⟨_, chosen⟩ := stepped
      split at chosen <;> cases chosen <;> exact .inl queued
  | push caller =>
      simp only [EventLoop.step] at stepped
      split at stepped <;> cases stepped
      next functor place =>
        rw [EventLoop.push, TaskQueue.contents_push, List.mem_append, List.mem_singleton] at queued
        rcases queued with before | rfl
        · exact .inl before
        · exact .inr place
  | notify caller | quitNotify caller =>
      simp only [EventLoop.step] at stepped
      split at stepped <;> cases stepped
      split at queued <;> exact .inl queued

theorem callPc_setCallPc {s : EventLoop Tid F} {caller other : Option Tid} {place : CallPc F} :
    (s.setCallPc caller place).callPc other = if other = caller then place else s.callPc other := by
  by_cases same : other = caller <;> simp [setCallPc, same]

/-- A caller about to push a functor was so before, or has just called for it. -/
theorem step_queueing {s t : EventLoop Tid F} {action : Action Tid F}
    (stepped : s.step action = some t) {caller : Option Tid} {functor : F}
    (place : t.callPc caller = .queueing functor) :
    s.callPc caller = .queueing functor ∨ action = .queueinLoop caller functor ∨
      action = .runinLoop caller functor := by
  cases action with
  | loop | resetQuit | testQuit | epoll wakeup | handelwakeupRead | beginPendFunc | swap
  | endPendFunc | stop | wakeup other =>
      simp only [EventLoop.step, Option.ite_none_right_eq_some, Option.some.injEq] at stepped
      obtain ⟨_, rfl⟩ := stepped
      exact .inl place
  | runNext =>
      simp only [EventLoop.step, Option.ite_none_right_eq_some, Option.map_eq_some_iff] at stepped
      obtain ⟨_, task, _, rfl⟩ := stepped
      exact .inl place
  | queueinLoop other called | quit other =>
      simp only [EventLoop.step, Option.ite_none_right_eq_some, Option.some.injEq] at stepped
      obtain ⟨_, rfl⟩ := stepped
      simp only [submit, callPc_setCallPc] at place
      split at place
      next same => simp_all
      next => exact .inl place
  | runinLoop other called =>
      simp only [EventLoop.step, Option.ite_none_right_eq_some] at stepped
      obtain ⟨_, chosen⟩ := stepped
      split at chosen <;> cases chosen
      · exact .inl place
      · simp only [submit, callPc_setCallPc] at place
        split at place
        next same => simp_all
        next => exact .inl place
  | push other =>
      simp only [EventLoop.step] at stepped
      split at stepped <;> cases stepped
      simp only [EventLoop.push, callPc_setCallPc] at place
      split at place
      next => cases place
      next => exact .inl place
  | notify other | quitNotify other =>
      simp only [EventLoop.step] at stepped
      split at stepped <;> cases stepped
      have before : (s.setCallPc other .idle).callPc caller = .queueing functor := by
        split at place <;> exact place
      rw [callPc_setCallPc] at before
      split at before
      next => cases before
      next => exact .inl before

def queuedBy (caller : Option Tid) (tasks : List (Task Tid F)) : List F :=
  (tasks.filter (·.source = caller)).map (·.functor)

@[simp]
theorem queuedBy_append (caller : Option Tid) (first second : List (Task Tid F)) :
    queuedBy caller (first ++ second) = queuedBy caller first ++ queuedBy caller second := by
  simp [queuedBy]

theorem queuedBy_singleton (caller source : Option Tid) (functor : F) :
    queuedBy caller [⟨source, functor⟩] = if source = caller then [functor] else [] := by
  by_cases same : source = caller <;> simp [queuedBy, same]

/-- What each caller submitted is what it pushed and what it is about to push. -/
def CallsConserved (s : EventLoop Tid F) : Prop :=
  ∀ caller, s.history.submitted caller =
    queuedBy caller s.history.enqueued ++ (s.callPc caller).inFlight

theorem CallsConserved.congr {s t : EventLoop Tid F} (conserved : CallsConserved s)
    (submitted : t.history.submitted = s.history.submitted)
    (enqueued : t.history.enqueued = s.history.enqueued)
    (inFlight : ∀ caller, (t.callPc caller).inFlight = (s.callPc caller).inFlight) :
    CallsConserved t := by
  intro caller
  rw [submitted, enqueued, inFlight]
  exact conserved caller

theorem CallsConserved.setIdle {s : EventLoop Tid F} (conserved : CallsConserved s)
    {caller : Option Tid} (done : (s.callPc caller).inFlight = []) (place : CallPc F)
    (nothing : place.inFlight = []) : CallsConserved (s.setCallPc caller place) := by
  refine conserved.congr rfl rfl ?_
  intro other
  by_cases same : other = caller
  · subst same
    simp [setCallPc, nothing, done]
  · simp [setCallPc, same]

theorem CallsConserved.submit {s : EventLoop Tid F} (conserved : CallsConserved s)
    {caller : Option Tid} (idle : s.callPc caller = .idle) (functor : F) :
    CallsConserved (s.submit caller functor) := by
  intro other
  have before := conserved other
  by_cases same : other = caller
  · subst same
    rw [idle] at before
    simp only [CallPc.inFlight, List.append_nil] at before
    simp [EventLoop.submit, setCallPc, CallPc.inFlight, before]
  · simpa [EventLoop.submit, setCallPc, same] using before

theorem CallsConserved.push {s : EventLoop Tid F} (conserved : CallsConserved s)
    {caller : Option Tid} {functor : F} (queueing : s.callPc caller = .queueing functor) :
    CallsConserved (s.push caller functor) := by
  intro other
  have before := conserved other
  by_cases same : other = caller
  · subst same
    rw [queueing] at before
    simp [EventLoop.push, setCallPc, before, queuedBy_singleton, CallPc.inFlight]
  · have apart : caller ≠ other := fun equal => same equal.symm
    simpa [EventLoop.push, setCallPc, same, queuedBy_singleton, apart] using before

theorem CallsConserved.step {s t : EventLoop Tid F} {action : Action Tid F}
    (conserved : CallsConserved s) (stepped : s.step action = some t) : CallsConserved t := by
  cases action with
  | loop | resetQuit | testQuit | epoll wakeup | handelwakeupRead | beginPendFunc | swap
  | endPendFunc | stop | wakeup caller =>
      simp only [EventLoop.step, Option.ite_none_right_eq_some, Option.some.injEq] at stepped
      obtain ⟨_, rfl⟩ := stepped
      exact conserved
  | runNext =>
      simp only [EventLoop.step, Option.ite_none_right_eq_some, Option.map_eq_some_iff] at stepped
      obtain ⟨_, task, _, rfl⟩ := stepped
      exact conserved
  | queueinLoop caller functor =>
      simp only [EventLoop.step, Option.ite_none_right_eq_some, Option.some.injEq] at stepped
      obtain ⟨may, rfl⟩ := stepped
      exact conserved.submit (CallPc.isIdle_iff.mp may.1) functor
  | runinLoop caller functor =>
      simp only [EventLoop.step, Option.ite_none_right_eq_some] at stepped
      obtain ⟨may, chosen⟩ := stepped
      split at chosen <;> cases chosen
      · exact conserved
      · exact conserved.submit (CallPc.isIdle_iff.mp may.1) functor
  | quit caller =>
      simp only [EventLoop.step, Option.ite_none_right_eq_some, Option.some.injEq] at stepped
      obtain ⟨may, rfl⟩ := stepped
      exact conserved.setIdle (by rw [CallPc.isIdle_iff.mp may.1]; rfl) .quitting rfl
  | push caller =>
      simp only [EventLoop.step] at stepped
      split at stepped <;> cases stepped
      next queueing => exact conserved.push queueing
  | notify caller | quitNotify caller =>
      simp only [EventLoop.step] at stepped
      split at stepped <;> cases stepped
      next done =>
        have returned : CallsConserved (s.setCallPc caller .idle) :=
          conserved.setIdle (by rw [done]; rfl) .idle rfl
        split <;> exact returned

/-- `runNext` takes the first functor of the rest of the batch. -/
theorem step_runNext {s t : EventLoop Tid F} (stepped : s.step .runNext = some t) :
    ∃ task, s.queue.remaining = task :: t.queue.remaining ∧
      t.history.executed = s.history.executed ++ [task] ∧
      t.queue.pendFuncs = s.queue.pendFuncs := by
  simp only [EventLoop.step, Option.ite_none_right_eq_some, Option.map_eq_some_iff] at stepped
  obtain ⟨_, task, found, rfl⟩ := stepped
  exact ⟨task, TaskQueue.remaining_of_next found, rfl, rfl⟩

def Action.isRunNext : Action Tid F → Bool
  | .runNext => true
  | _ => false

/-- A step inside a batch executes its next functor or leaves the batch alone. -/
theorem step_running {s t : EventLoop Tid F} {action : Action Tid F} (running : s.pc = .running)
    (inside : action ≠ .endPendFunc) (stepped : s.step action = some t) :
    t.pc = .running ∧ t.history.swapped = s.history.swapped ∧
    ∃ done, done.length = action.isRunNext.toNat ∧
      t.history.executed = s.history.executed ++ done ∧
      s.queue.remaining = done ++ t.queue.remaining := by
  cases action with
  | loop | resetQuit | testQuit | epoll | handelwakeupRead | beginPendFunc | swap | stop =>
      simp only [EventLoop.step, Option.ite_none_right_eq_some] at stepped
      simp [At, running] at stepped
  | endPendFunc => exact absurd rfl inside
  | runNext =>
      obtain ⟨task, batch, executed, _⟩ := step_runNext stepped
      have place := (step_quit_pc stepped).2
      simp only [EventLoop.step, Option.ite_none_right_eq_some, Option.map_eq_some_iff] at stepped
      obtain ⟨_, first, _, rfl⟩ := stepped
      exact ⟨place.trans running, rfl, [task], rfl, executed, batch⟩
  | queueinLoop caller functor | quit caller | wakeup caller =>
      simp only [EventLoop.step, Option.ite_none_right_eq_some, Option.some.injEq] at stepped
      obtain ⟨_, rfl⟩ := stepped
      exact ⟨running, rfl, [], rfl, (List.append_nil _).symm, rfl⟩
  | runinLoop caller functor =>
      simp only [EventLoop.step, Option.ite_none_right_eq_some] at stepped
      obtain ⟨_, chosen⟩ := stepped
      split at chosen <;> cases chosen <;>
        exact ⟨running, rfl, [], rfl, (List.append_nil _).symm, rfl⟩
  | push caller =>
      simp only [EventLoop.step] at stepped
      split at stepped <;> cases stepped
      exact ⟨running, rfl, [], rfl, (List.append_nil _).symm, rfl⟩
  | notify caller | quitNotify caller =>
      simp only [EventLoop.step] at stepped
      split at stepped <;> cases stepped
      split <;> exact ⟨running, rfl, [], rfl, (List.append_nil _).symm, rfl⟩

/-- As long as `doPendFunc` does not return, its batch is the one it swapped out, and each
`runNext` has executed the next functor of it. -/
theorem exec_running {s t : EventLoop Tid F} {actions : List (Action Tid F)}
    (running : s.pc = .running) (inside : .endPendFunc ∉ actions)
    (run : interleaving.exec s actions = some t) :
    t.pc = .running ∧ t.history.swapped = s.history.swapped ∧
    ∃ done, done.length = actions.countP Action.isRunNext ∧
      t.history.executed = s.history.executed ++ done ∧
      s.queue.remaining = done ++ t.queue.remaining := by
  induction actions generalizing s with
  | nil =>
      cases run
      exact ⟨running, rfl, [], rfl, (List.append_nil _).symm, rfl⟩
  | cons action rest inductionHypothesis =>
      have others := List.not_mem_of_not_mem_cons inside
      obtain ⟨next, stepped, restRun⟩ := interleaving.exec_cons_eq_some.mp run
      obtain ⟨place, same, started, one, executed, batch⟩ :=
        step_running running (List.ne_of_not_mem_cons inside).symm stepped
      obtain ⟨last, swapped, done, count, later, left⟩ :=
        inductionHypothesis place others restRun
      refine ⟨last, swapped.trans same, started ++ done, ?_, ?_, ?_⟩
      · rw [List.length_append, one, count, List.countP_cons, Nat.add_comm]
        cases action.isRunNext <;> rfl
      · rw [later, executed, List.append_assoc]
      · rw [batch, left, List.append_assoc]

/-- From inside a batch the loop thread can execute what is left of it and return. -/
theorem exec_batch {s : EventLoop Tid F} (place : s.At .running) :
    interleaving.exec s (List.replicate s.queue.remaining.length .runNext ++ [.endPendFunc]) =
      some { s with
        isCallPendFunc := false
        queue := s.queue.finish
        pc := .test
        history := { s.history with executed := s.history.executed ++ s.queue.remaining } } := by
  generalize batch : s.queue.remaining = tasks
  induction tasks generalizing s with
  | nil =>
      have exhausted : s.queue.next? = none := TaskQueue.remaining_eq_nil_iff.mp batch
      simp [interleaving, Machine.exec, EventLoop.step, place, exhausted]
  | cons task rest inductionHypothesis =>
      have found : s.queue.next? = some task := by
        rw [TaskQueue.next?, ← List.head?_drop]
        exact congrArg List.head? batch
      have left : (s.run task).queue.remaining = rest :=
        (List.cons.inj ((TaskQueue.remaining_of_next found).symm.trans batch)).2
      have stepped : interleaving.step s .runNext = some (s.run task) := by
        simp [interleaving, EventLoop.step, place, found]
      rw [List.length_cons, List.replicate_succ, List.cons_append, Machine.exec, stepped,
        Option.bind_some, inductionHypothesis (s := s.run task) place left]
      simp [EventLoop.run, TaskQueue.advance, TaskQueue.finish]

/-- What is left of the call that the loop thread is in. -/
def returning : CallPc F → List (Action Tid F)
  | .idle => []
  | .queueing _ => [.push none, .notify none]
  | .pushed _ => [.notify none]
  | .quitting => [.quitNotify none]

theorem exec_notify {s : EventLoop Tid F} (running : s.pc = .running) {position : Nat}
    (place : s.callPc none = .pushed position) :
    ∃ t, interleaving.exec s [.notify none] = some t ∧ t.At .running ∧
      t.history.executed = s.history.executed ∧ t.queue = s.queue := by
  have stepped : interleaving.step s (.notify none) = s.step (.notify none) := rfl
  have idle : ((s.setCallPc none .idle).callPc none).isIdle = true := by simp [callPc_setCallPc]
  rw [Machine.exec_cons, stepped]
  simp only [EventLoop.step, place]
  split
  · exact ⟨_, rfl, ⟨running, idle⟩, rfl, rfl⟩
  · exact ⟨_, rfl, ⟨running, idle⟩, rfl, rfl⟩

/-- A functor in a call of its loop returns from it, with what it queues in `pendFuncs_`. -/
theorem exec_returning {s : EventLoop Tid F} (running : s.pc = .running) :
    ∃ t, interleaving.exec s (returning (s.callPc none)) = some t ∧ t.At .running ∧
      t.history.executed = s.history.executed ∧ t.queue.remaining = s.queue.remaining ∧
      t.queue.pendFuncs = s.queue.pendFuncs ++ (s.callPc none).inFlight.map (Task.mk none) := by
  cases place : s.callPc none with
  | idle =>
      refine ⟨s, rfl, ⟨running, CallPc.isIdle_iff.mpr place⟩, rfl, rfl, ?_⟩
      simp [CallPc.inFlight]
  | queueing functor =>
      have pushed : s.step (.push none) = some (s.push none functor) := by
        simp [EventLoop.step, place]
      have called : (s.push none functor).callPc none = .pushed s.history.enqueued.length := by
        simp [EventLoop.push, callPc_setCallPc]
      obtain ⟨t, notified, idle, executed, queue⟩ :=
        exec_notify (s := s.push none functor) running called
      refine ⟨t, ?_, idle, executed, ?_, ?_⟩
      · exact interleaving.exec_cons_eq_some.mpr ⟨_, pushed, notified⟩
      · rw [queue]
        rfl
      · rw [queue]
        rfl
  | pushed position =>
      obtain ⟨t, notified, idle, executed, queue⟩ := exec_notify running place
      refine ⟨t, notified, idle, executed, ?_, ?_⟩
      · rw [queue]
      · rw [queue, CallPc.inFlight, List.map_nil, List.append_nil]
  | quitting =>
      refine ⟨s.setCallPc none .idle, ?_, ⟨running, ?_⟩, rfl, rfl, ?_⟩
      · simp [returning, interleaving, Machine.exec, EventLoop.step, place]
      · simp [setCallPc]
      · rw [CallPc.inFlight, List.map_nil, List.append_nil]
        rfl

omit [DecidableEq Tid] in
theorem QueueConserved.exhausted {s : EventLoop Tid F} (conserved : QueueConserved s)
    (running : s.pc = .running) (exhausted : s.queue.next? = none) :
    s.history.executed = s.history.swapped := by
  have batch := conserved.batch running
  rwa [TaskQueue.remaining_eq_nil_iff.mpr exhausted, List.append_nil] at batch

/-- `doPendFunc` returns when all it swapped out has been executed. -/
theorem QueueConserved.endPendFunc {s t : EventLoop Tid F} (conserved : QueueConserved s)
    (ends : s.step .endPendFunc = some t) : t.history.executed = s.history.swapped := by
  simp only [EventLoop.step, Option.ite_none_right_eq_some, Option.some.injEq] at ends
  obtain ⟨⟨place, exhausted⟩, rfl⟩ := ends
  exact conserved.exhausted place.1 (Option.isNone_iff_eq_none.mp exhausted)

/-- From anywhere in a batch the loop thread can finish the functor it is in, execute the
rest and return. -/
theorem QueueConserved.finishes {s : EventLoop Tid F} (conserved : QueueConserved s)
    (running : s.pc = .running) :
    ∃ t, interleaving.exec s (returning (s.callPc none) ++
        (List.replicate s.queue.remaining.length .runNext ++ [.endPendFunc])) = some t ∧
      t.pc = .test ∧ t.history.executed = s.history.swapped ∧
      t.queue.pendFuncs =
        s.queue.pendFuncs ++ (s.callPc none).inFlight.map (Task.mk none) := by
  obtain ⟨t, returned, place, executed, remaining, pendFuncs⟩ := exec_returning running
  have goes : interleaving.exec s (returning (s.callPc none) ++
      (List.replicate s.queue.remaining.length .runNext ++ [.endPendFunc])) =
        interleaving.exec t
          (List.replicate t.queue.remaining.length .runNext ++ [.endPendFunc]) := by
    rw [interleaving.exec_append, returned, remaining]
    rfl
  refine ⟨_, goes.trans (exec_batch place), rfl, ?_, pendFuncs⟩
  calc t.history.executed ++ t.queue.remaining
      = s.history.executed ++ s.queue.remaining := by rw [executed, remaining]
    _ = s.history.swapped := conserved.batch running

/-- In every reachable state the queued functors are those executed, then the rest of the
batch, then `pendFuncs_`.  So each is executed at most once and in its place, and those of
another thread in the order it submitted them.  What is queued while a batch runs stays in
`pendFuncs_`: until `doPendFunc` returns, each of its steps executes the next functor of what
it swapped out, and from anywhere in it the loop thread can finish the functor it is in,
execute the rest and return. -/
theorem queue_conserved {s : EventLoop Tid F} (reached : interleaving.Reachable make s) :
    s.history.enqueued = s.history.executed ++ s.queue.remaining ++ s.queue.pendFuncs ∧
    (∀ thread : Tid, queuedBy (some thread) s.history.executed <+:
      s.history.submitted (some thread)) ∧
    (s.pc = .running →
      s.history.executed ++ s.queue.remaining = s.history.swapped ∧
      s.history.enqueued = s.history.swapped ++ s.queue.pendFuncs ∧
      (s.queue.next? = none → s.history.executed = s.history.swapped)) ∧
    (∀ t, s.step .runNext = some t → ∃ task, s.queue.remaining = task :: t.queue.remaining ∧
      t.history.executed = s.history.executed ++ [task] ∧
      t.queue.pendFuncs = s.queue.pendFuncs) ∧
    (∀ t, s.step .endPendFunc = some t → t.history.executed = s.history.swapped) ∧
    (∀ actions t, s.pc = .running → .endPendFunc ∉ actions →
      interleaving.exec s actions = some t →
      t.pc = .running ∧ t.history.swapped = s.history.swapped ∧
      ∃ done, done.length = actions.countP Action.isRunNext ∧
        t.history.executed = s.history.executed ++ done ∧
        s.queue.remaining = done ++ t.queue.remaining) ∧
    (s.pc = .running → ∃ t,
      interleaving.exec s (returning (s.callPc none) ++
        (List.replicate s.queue.remaining.length .runNext ++ [.endPendFunc])) = some t ∧
      t.pc = .test ∧ t.history.executed = s.history.swapped ∧
      t.queue.pendFuncs =
        s.queue.pendFuncs ++ (s.callPc none).inFlight.map (Task.mk none)) := by
  have queue : QueueConserved s := reached.invariant
    (fun _ _ _ conserved stepped => conserved.step stepped) make_queueConserved
  have calls : CallsConserved s := reached.invariant
    (fun _ _ _ conserved stepped => conserved.step stepped) (fun _ => rfl)
  have order : s.history.enqueued =
      s.history.executed ++ s.queue.remaining ++ s.queue.pendFuncs := by
    rw [queue.order, TaskQueue.contents, List.append_assoc]
  refine ⟨order, fun thread => ?_,
    fun running => ⟨queue.batch running, ?_, queue.exhausted running⟩,
    fun _ => step_runNext, fun _ => queue.endPendFunc, fun _ _ => exec_running, queue.finishes⟩
  · refine ⟨queuedBy (some thread) s.queue.contents ++ (s.callPc (some thread)).inFlight, ?_⟩
    rw [calls, queue.order, queuedBy_append, List.append_assoc]
  · rw [← queue.batch running]
    exact order

/-- Two threads queue functors before a batch and during it; functor 7 queues
itself again. -/
def requeueing : List (Action Nat Nat) :=
  [.queueinLoop (some 1) 7, .push (some 1), .loop, .resetQuit, .testQuit, .epoll false,
    .queueinLoop (some 2) 8, .push (some 2), .beginPendFunc, .swap, .runNext,
    .queueinLoop none 7, .push none, .notify none, .notify (some 1), .runinLoop (some 1) 9,
    .push (some 1)]

theorem queue_conserved_requeueing :
    ∃ s, interleaving.exec make requeueing = some s ∧
      s.history.enqueued = s.history.executed ++ s.queue.remaining ++ s.queue.pendFuncs ∧
      ∃ t, interleaving.exec s [.runNext, .endPendFunc] = some t ∧
        t.history.executed = s.history.swapped ∧
        t.queue.pendFuncs = [⟨none, 7⟩, ⟨some 1, 9⟩] := by
  have conserved := queue_conserved (s := _) ⟨requeueing, rfl⟩
  obtain ⟨order, _, _, _, _, _, completes⟩ := conserved
  obtain ⟨t, ends, _, executed, kept⟩ := completes rfl
  exact ⟨_, rfl, order, t, ends, executed, kept⟩

end EventLoop

end Lucky
