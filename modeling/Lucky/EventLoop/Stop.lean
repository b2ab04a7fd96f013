import Lucky.EventLoop.Wakeup

/-!
# Stopping a loop

`quit()` stores `quit_`, which `loop()` tests only between two iterations.  A
functor queued before the request is executed when the iteration has still to
swap the queue; one that waits in `pendFuncs_` behind the last swap is left there
when `loop()` returns.
-/

namespace Lucky

open Systems

/-- In `loop()`, past its `quit_ = false`. -/
def LoopPc.underWay : LoopPc → Bool
  | .test | .polling | .handling _ | .flagged | .running | .stopping => true
  | .outside | .entered => false

/-- The swap of the iteration is still to come. -/
def LoopPc.willSwap : LoopPc → Bool
  | .polling | .handling _ | .flagged => true
  | .outside | .entered | .test | .running | .stopping => false

namespace EventLoop

variable {Tid F : Type}

/-- The functor with this number has been queued and its `queueinLoop` has returned. -/
structure Accepted (s : EventLoop Tid F) (ticket : Nat) : Prop where
  queued : ticket < s.history.enqueued.length
  returned : ∀ caller, s.callPc caller ≠ .pushed ticket

/-- The functor with this number, queued in the state `s`, has been executed in `t`. -/
def Executed (s t : EventLoop Tid F) (ticket : Nat) : Prop :=
  t.history.executed[ticket]? = s.history.enqueued[ticket]?

instance [DecidableEq Tid] [DecidableEq F] (s t : EventLoop Tid F) (ticket : Nat) :
    Decidable (s.Executed t ticket) :=
  inferInstanceAs (Decidable (_ = _))

/-- With a request stored, what is left for the functors with a number below `count`. -/
structure Served (count : Nat) (s : EventLoop Tid F) : Prop extends QueueConserved s where
  quit : s.quit = true
  underWay : s.pc.underWay = true
  grown : count ≤ s.history.enqueued.length
  taken : s.pc = .running → count ≤ s.history.swapped.length
  done : s.pc = .test ∨ s.pc = .stopping → count ≤ s.history.executed.length

/-- With a request stored and the swap over, only `count` functors will have been
executed. -/
structure Ending (count : Nat) (s : EventLoop Tid F) : Prop extends QueueConserved s where
  quit : s.quit = true
  place : s.pc = .running ∨ s.pc = .test ∨ s.pc = .stopping
  last : s.history.executed.length + s.queue.remaining.length = count

variable [DecidableEq Tid]

/-- What a step does to the history of the queue: functors are added to both ends, and
only a swap takes new ones. -/
theorem step_history {s t : EventLoop Tid F} {action : Action Tid F}
    (stepped : s.step action = some t) :
    s.history.enqueued <+: t.history.enqueued ∧ s.history.executed <+: t.history.executed ∧
    t.history.swapped = (match action with
      | .swap => s.history.enqueued
      | _ => s.history.swapped) ∧
    (action ≠ .swap → t.history.executed.length + t.queue.remaining.length =
      s.history.executed.length + s.queue.remaining.length) := by
  cases action with
  | loop | resetQuit | testQuit | epoll wakeup | handelwakeupRead | beginPendFunc | stop
  | queueinLoop caller functor | quit caller | wakeup caller =>
      simp only [step, Option.ite_none_right_eq_some, Option.some.injEq] at stepped
      obtain ⟨_, rfl⟩ := stepped
      exact ⟨List.prefix_rfl, List.prefix_rfl, rfl, fun _ => rfl⟩
  | swap =>
      simp only [step, Option.ite_none_right_eq_some, Option.some.injEq] at stepped
      obtain ⟨_, rfl⟩ := stepped
      exact ⟨List.prefix_rfl, List.prefix_rfl, rfl, fun other => absurd rfl other⟩
  | runNext =>
      simp only [step, Option.ite_none_right_eq_some, Option.map_eq_some_iff] at stepped
      obtain ⟨_, task, found, rfl⟩ := stepped
      refine ⟨List.prefix_rfl, List.prefix_append _ _, rfl, fun _ => ?_⟩
      simp only [EventLoop.run, TaskQueue.remaining_of_next found, List.length_append,
        List.length_cons, List.length_nil]
      omega
  | endPendFunc =>
      simp only [step, Option.ite_none_right_eq_some, Option.some.injEq] at stepped
      obtain ⟨⟨_, exhausted⟩, rfl⟩ := stepped
      refine ⟨List.prefix_rfl, List.prefix_rfl, rfl, fun _ => ?_⟩
      rw [TaskQueue.remaining_eq_nil_iff.mpr (Option.isNone_iff_eq_none.mp exhausted)]
      rfl
  | runinLoop caller functor =>
      simp only [step, Option.ite_none_right_eq_some] at stepped
      obtain ⟨_, chosen⟩ := stepped
      split at chosen <;> cases chosen <;>
        exact ⟨List.prefix_rfl, List.prefix_rfl, rfl, fun _ => rfl⟩
  | push caller =>
      simp only [step] at stepped
      split at stepped <;> cases stepped
      exact ⟨List.prefix_append _ _, List.prefix_rfl, rfl, fun _ => rfl⟩
  | notify caller | quitNotify caller =>
      simp only [step] at stepped
      split at stepped <;> cases stepped
      split <;> exact ⟨List.prefix_rfl, List.prefix_rfl, rfl, fun _ => rfl⟩

/-- A stored request stays, and keeps the loop from another iteration. -/
theorem step_of_quit {s t : EventLoop Tid F} {action : Action Tid F} (quit : s.quit = true)
    (underWay : s.pc.underWay = true) (goesOn : action ≠ .stop)
    (stepped : s.step action = some t) : t.quit = true ∧ t.pc.underWay = true := by
  obtain ⟨sameQuit, place⟩ := step_quit_pc stepped
  cases action with
  | loop =>
      simp only [step, Option.ite_none_right_eq_some] at stepped
      simp [stepped.1.1, LoopPc.underWay] at underWay
  | resetQuit =>
      simp only [step, Option.ite_none_right_eq_some] at stepped
      simp [stepped.1.1, LoopPc.underWay] at underWay
  | testQuit => exact ⟨sameQuit.trans quit, by simp [place, quit, LoopPc.underWay]⟩
  | stop => exact absurd rfl goesOn
  | epoll | handelwakeupRead | beginPendFunc | swap | endPendFunc =>
      exact ⟨sameQuit.trans quit, by rw [place]; rfl⟩
  | quit => exact ⟨sameQuit, by rw [place]; exact underWay⟩
  | _ => exact ⟨sameQuit.trans quit, by rw [place]; exact underWay⟩

/-- With a request stored, the places before a batch, and those after it. -/
theorem place_before {s t : EventLoop Tid F} {action : Action Tid F} (quit : s.quit = true)
    (underWay : s.pc.underWay = true) (stepped : s.step action = some t) :
    (t.pc = .running → action = .swap ∨ s.pc = .running) ∧
    (t.pc = .test ∨ t.pc = .stopping →
      action ≠ .swap ∧ (s.pc = .running ∨ s.pc = .test ∨ s.pc = .stopping)) := by
  have place := (step_quit_pc stepped).2
  cases action with
  | resetQuit =>
      simp only [step, Option.ite_none_right_eq_some] at stepped
      simp [stepped.1.1, LoopPc.underWay] at underWay
  | testQuit =>
      simp only [step, Option.ite_none_right_eq_some] at stepped
      simp [place, quit, stepped.1.1]
  | endPendFunc =>
      simp only [step, Option.ite_none_right_eq_some] at stepped
      simp [place, stepped.1.1.1]
  | loop | epoll | handelwakeupRead | beginPendFunc | swap | stop => simp [place]
  | _ =>
      have same : t.pc = s.pc := place
      rw [same]
      exact ⟨.inr, fun past => ⟨by simp, .inr past⟩⟩

theorem Served.step {count : Nat} {s t : EventLoop Tid F} {action : Action Tid F}
    (served : Served count s) (goesOn : action ≠ .stop) (stepped : s.step action = some t) :
    Served count t := by
  obtain ⟨quit, underWay⟩ := step_of_quit served.quit served.underWay goesOn stepped
  obtain ⟨enqueued, executed, swapped, sum⟩ := step_history stepped
  obtain ⟨batch, past⟩ := place_before served.quit served.underWay stepped
  have conserved := served.toQueueConserved.step stepped
  refine ⟨conserved, quit, underWay, Nat.le_trans served.grown enqueued.length_le, ?_, ?_⟩
  · intro running
    by_cases swaps : action = .swap
    · subst swaps
      rw [swapped]
      exact served.grown
    · have same : t.history.swapped = s.history.swapped := by
        cases action with
        | swap => exact absurd rfl swaps
        | _ => exact swapped
      rw [same]
      exact served.taken ((batch running).resolve_left swaps)
  · intro later
    obtain ⟨noSwap, before⟩ := past later
    rcases before with running | earlier
    · have left : t.pc ≠ .running := by
        rcases later with place | place <;> simp [place]
      have whole := congrArg List.length (served.batch running)
      rw [List.length_append, ← sum noSwap, conserved.between left] at whole
      exact Nat.le_trans (served.taken running) (Nat.le_of_eq whole.symm)
    · exact Nat.le_trans (served.done earlier) executed.length_le

theorem Ending.step {count : Nat} {s t : EventLoop Tid F} {action : Action Tid F}
    (ending : Ending count s) (goesOn : action ≠ .stop) (stepped : s.step action = some t) :
    Ending count t := by
  have underWay : s.pc.underWay = true := by
    rcases ending.place with place | place | place <;> rw [place] <;> rfl
  obtain ⟨quit, _⟩ := step_of_quit ending.quit underWay goesOn stepped
  have place := (step_quit_pc stepped).2
  have came {pc : LoopPc} (here : s.At pc) : pc = .running ∨ pc = .test ∨ pc = .stopping := by
    rw [← here.1]
    exact ending.place
  have moved : action ≠ .swap ∧ (t.pc = .running ∨ t.pc = .test ∨ t.pc = .stopping) := by
    cases action with
    | testQuit => exact ⟨by simp, .inr (.inr (by simp [place, ending.quit]))⟩
    | endPendFunc => exact ⟨by simp, .inr (.inl place)⟩
    | stop => exact absurd rfl goesOn
    | loop | resetQuit | handelwakeupRead | beginPendFunc | swap =>
        simp only [EventLoop.step, Option.ite_none_right_eq_some] at stepped
        simpa using came stepped.1
    | epoll =>
        simp only [EventLoop.step, Option.ite_none_right_eq_some] at stepped
        simpa using came stepped.1.1
    | _ =>
        have same : t.pc = s.pc := place
        exact ⟨by simp, same ▸ ending.place⟩
  refine ⟨ending.toQueueConserved.step stepped, quit, moved.2, ?_⟩
  exact ((step_history stepped).2.2.2 moved.1).trans ending.last

omit [DecidableEq Tid] in
/-- What is executed in `t` of what was queued in `s`, as a number. -/
theorem executed_iff {s t : EventLoop Tid F} (conserved : QueueConserved t)
    (grown : s.history.enqueued <+: t.history.enqueued) {ticket : Nat}
    (queued : ticket < s.history.enqueued.length) :
    s.Executed t ticket ↔ ticket < t.history.executed.length := by
  have done : t.history.executed <+: t.history.enqueued :=
    ⟨t.queue.contents, conserved.order.symm⟩
  constructor
  · intro executed
    rw [Executed, List.getElem?_eq_getElem queued] at executed
    exact (List.getElem?_eq_some_iff.mp executed).1
  · intro inside
    rw [Executed, List.getElem?_eq_getElem inside, List.getElem?_eq_getElem queued,
      done.getElem, grown.getElem queued]

theorem exec_enqueued {s t : EventLoop Tid F} {actions : List (Action Tid F)}
    (run : interleaving.exec s actions = some t) :
    s.history.enqueued <+: t.history.enqueued := by
  apply Machine.exec_guarded_invariant (fun u => s.history.enqueued <+: u.history.enqueued)
    ?_ List.prefix_rfl (Machine.guarded_true s actions) run
  exact fun _ _ _ grown _ stepped => grown.trans (step_history stepped).1

/-- From a stored request to the end of `loop()`: everything queued before is executed
when the swap was still to come, and else nothing is swapped any more. -/
theorem stopped_history {s t u v : EventLoop Tid F} {caller : Option Tid}
    {actions : List (Action Tid F)} (conserved : QueueConserved s)
    (underWay : s.pc.underWay = true) (quits : s.step (.quit caller) = some t)
    (run : interleaving.exec t actions = some u) (goesOn : .stop ∉ actions)
    (stops : u.step .stop = some v) :
    QueueConserved v ∧ s.history.enqueued <+: v.history.enqueued ∧
    (s.pc.willSwap = true → s.history.enqueued.length ≤ v.history.executed.length) ∧
    (s.pc.willSwap = false → v.history.executed.length + s.queue.pendFuncs.length =
      s.history.enqueued.length) := by
  have guarded : interleaving.Guarded (fun _ action => action ≠ .stop) t actions :=
    Machine.guarded_of_mem (fun _ membership _ => ne_of_mem_of_not_mem membership goesOn) t
  have requested := conserved.step quits
  simp only [EventLoop.step, Option.ite_none_right_eq_some, Option.some.injEq] at quits stops
  obtain ⟨_, same⟩ := quits
  obtain ⟨⟨stopping, _⟩, rfl⟩ := stops
  have quit : t.quit = true := by rw [← same]
  have pc : t.pc = s.pc := by rw [← same]; rfl
  have queue : t.queue = s.queue := by rw [← same]; rfl
  have history : t.history = s.history := by rw [← same]; rfl
  have conservedLast : QueueConserved u :=
    Machine.exec_invariant (fun _ _ _ kept stepped => kept.step stepped) requested run
  have unchanged : QueueConserved { u with looping := false, pc := .outside } :=
    conservedLast.congr rfl rfl rfl rfl (by simp [stopping])
  have grown := exec_enqueued run
  rw [history] at grown
  refine ⟨unchanged, grown, ?_, ?_⟩
  · intro willSwap
    have served : Served s.history.enqueued.length t := by
      refine ⟨requested, quit, pc ▸ underWay, by rw [history], ?_, ?_⟩
      · intro running
        rw [← pc, running] at willSwap
        cases willSwap
      · rintro (place | place) <;>
          · rw [← pc, place] at willSwap
            cases willSwap
    have last := Machine.exec_guarded_invariant (Served s.history.enqueued.length)
      (fun _ _ _ kept goesOn stepped => kept.step goesOn stepped) served guarded run
    exact last.done (.inr stopping)
  · intro late
    have ending : Ending (s.history.executed.length + s.queue.remaining.length) t := by
      refine ⟨requested, quit, ?_, by rw [history, queue]⟩
      rw [pc]
      cases place : s.pc <;> simp_all [LoopPc.willSwap, LoopPc.underWay]
    have last := Machine.exec_guarded_invariant
      (Ending (s.history.executed.length + s.queue.remaining.length))
      (fun _ _ _ kept goesOn stepped => kept.step goesOn stepped) ending guarded run
    have order := congrArg List.length conserved.order
    have nothing := conservedLast.between (by simp [stopping])
    have sum := last.last
    rw [nothing] at sum
    simp only [TaskQueue.contents, List.length_append, List.length_nil] at order sum ⊢
    omega

/-- A thread calls `quit()` on a loop that is under way, and `loop()` returns.  Every
functor whose `queueinLoop` had returned before has been executed then exactly when the
loop was still to swap its queue in that iteration, or no such functor was waiting in
`pendFuncs_`. -/
theorem stop_executes_accepted_iff {s t u v : EventLoop Tid F} {caller : Option Tid}
    {actions : List (Action Tid F)} (reached : interleaving.Reachable make s)
    (underWay : s.pc.underWay = true) (quits : interleaving.step s (.quit caller) = some t)
    (run : interleaving.exec t actions = some u) (goesOn : .stop ∉ actions)
    (stops : interleaving.step u .stop = some v) :
    (∀ ticket, s.Accepted ticket → s.Executed v ticket) ↔
      (s.pc.willSwap = true ∨ ∀ ticket, s.Accepted ticket → ¬ s.Waiting ticket) := by
  have conserved : QueueConserved s := reached.invariant
    (fun _ _ _ kept stepped => kept.step stepped) make_queueConserved
  obtain ⟨after, grown, served, ended⟩ :=
    stopped_history conserved underWay quits run goesOn stops
  have counted : (∀ ticket, s.Accepted ticket → s.Executed v ticket) ↔
      ∀ ticket, s.Accepted ticket → ticket < v.history.executed.length :=
    forall₂_congr fun ticket accepted => executed_iff after grown accepted.queued
  rw [counted]
  cases willSwap : s.pc.willSwap with
  | true =>
      refine iff_of_true (fun ticket accepted => ?_) (.inl rfl)
      exact Nat.lt_of_lt_of_le accepted.queued (served willSwap)
  | false =>
      have last := ended willSwap
      simp only [Bool.false_eq_true, false_or]
      apply forall₂_congr
      intro ticket accepted
      have queued := accepted.queued
      rw [Waiting]
      omega

/-- Thread 1 queues functor 7 while a batch runs, and thread 2 stops the loop. -/
def queuedDuringBatch : List (Action Nat Nat) :=
  [.loop, .resetQuit, .testQuit, .epoll false, .beginPendFunc, .swap, .queueinLoop (some 1) 7,
    .push (some 1), .notify (some 1)]

def restOfBatch : List (Action Nat Nat) := [.quitNotify (some 2), .endPendFunc, .testQuit]

/-- `loop()` returns and functor 7, accepted before the request, has not been executed. -/
theorem stop_loses_accepted_functor :
    ∃ s t u v : EventLoop Nat Nat, interleaving.exec make queuedDuringBatch = some s ∧
      s.pc.underWay = true ∧ s.Accepted 0 ∧ interleaving.step s (.quit (some 2)) = some t ∧
      interleaving.exec t restOfBatch = some u ∧ .stop ∉ restOfBatch ∧
      interleaving.step u .stop = some v ∧
      v.history.enqueued = [⟨some 1, 7⟩] ∧ v.history.executed = [] ∧ ¬ s.Executed v 0 := by
  refine ⟨_, _, _, _, rfl, rfl, ⟨by decide, ?_⟩, rfl, rfl, by decide, rfl, rfl, rfl,
    by decide⟩
  intro caller
  simp [setCallPc, submit, push, EventLoop.swap, poll, EventLoop.wakeup, writeOne, make]

/-- Functor 7 is queued before the swap of the iteration in which the loop is stopped. -/
def queuedBeforeSwap : List (Action Nat Nat) :=
  [.loop, .resetQuit, .testQuit, .queueinLoop (some 1) 7, .push (some 1), .notify (some 1)]

def restOfIteration : List (Action Nat Nat) :=
  [.quitNotify (some 2), .epoll true, .handelwakeupRead, .beginPendFunc, .swap, .runNext,
    .endPendFunc, .testQuit]

theorem stop_executes_accepted_iff_beforeSwap :
    ∃ s t u v : EventLoop Nat Nat, interleaving.exec make queuedBeforeSwap = some s ∧
      interleaving.step s (.quit (some 2)) = some t ∧
      interleaving.exec t restOfIteration = some u ∧ interleaving.step u .stop = some v ∧
      ∀ ticket, s.Accepted ticket → s.Executed v ticket := by
  obtain ⟨s, t, u, v, before, quits, run, stops, place⟩ : ∃ s t u v : EventLoop Nat Nat,
      interleaving.exec make queuedBeforeSwap = some s ∧
      interleaving.step s (.quit (some 2)) = some t ∧
      interleaving.exec t restOfIteration = some u ∧ interleaving.step u .stop = some v ∧
      s.pc = .polling := ⟨_, _, _, _, rfl, rfl, rfl, rfl, rfl⟩
  have served := stop_executes_accepted_iff ⟨_, before⟩ (by rw [place]; rfl) quits run
    (by decide) stops
  exact ⟨s, t, u, v, before, quits, run, stops, served.mpr (.inl (by rw [place]; rfl))⟩

end EventLoop

end Lucky
