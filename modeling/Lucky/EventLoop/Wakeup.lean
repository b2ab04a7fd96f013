import Lucky.EventLoop.TaskOrder

/-!
# No lost wake-up

`wakeup()` writes to `wakeupFd_` so that `epoll_wait` returns.  Before every
`epoll_wait` each functor in `pendFuncs_` has its wake-up in the counter or
coming.  A functor the loop thread queues from a handler needs none: the swap of
the same iteration takes it.
-/

namespace Lucky

open Systems

def CallPc.queues {F : Type} : CallPc F → Bool
  | .queueing _ | .pushed _ => true
  | .idle | .quitting => false

/-- Between `epoll_wait` and the swap of the same iteration. -/
def LoopPc.beforeSwap : LoopPc → Bool
  | .handling _ | .flagged => true
  | .outside | .entered | .test | .polling | .running | .stopping => false

namespace EventLoop

variable {Tid F : Type}

/-- The functor with this number is in `pendFuncs_`. -/
def Waiting (s : EventLoop Tid F) (ticket : Nat) : Prop :=
  ticket < s.history.enqueued.length ∧
    s.history.enqueued.length ≤ ticket + s.queue.pendFuncs.length

/-- The loop thread queues functors only inside `loop()`. -/
def QueuesInside (s : EventLoop Tid F) : Action Tid F → Prop
  | .queueinLoop none _ => s.pc ≠ .outside
  | _ => True

instance (s : EventLoop Tid F) : DecidablePred s.QueuesInside
  | .queueinLoop none _ => inferInstanceAs (Decidable (_ ≠ _))
  | .queueinLoop (some _) _ | .loop | .resetQuit | .testQuit | .epoll _ | .handelwakeupRead
  | .beginPendFunc | .swap | .runNext | .endPendFunc | .stop | .runinLoop _ _ | .push _
  | .notify _ | .quit _ | .quitNotify _ | .wakeup _ => isTrue trivial

/-- What the place of the loop thread says about its flag and its own calls. -/
structure Placed (s : EventLoop Tid F) : Prop where
  flag : s.pc = .flagged ∨ s.pc = .running → s.isCallPendFunc = true
  user : (s.callPc none).isIdle = false → s.pc.runsUserCode = true
  inside : (s.callPc none).queues = true → s.pc ≠ .outside

/-- Outside the stretch before a swap, a functor in `pendFuncs_` has its wake-up
in the counter, or its caller is about to send it. -/
structure Awake (s : EventLoop Tid F) : Prop extends Placed s where
  awake : s.pc.beforeSwap = false → ∀ ticket, s.Waiting ticket →
    0 < s.counter ∨ ∃ caller, s.callPc caller = .pushed ticket

theorem make_awake : Awake (make : EventLoop Tid F) := by
  refine ⟨⟨by simp [make], by simp [make, CallPc.isIdle], by simp [make, CallPc.queues]⟩,
    ?_⟩
  rintro - ticket ⟨started, _⟩
  simp [make] at started

theorem Placed.move {s t : EventLoop Tid F} {pc : LoopPc} (place : s.At pc)
    (flag : t.pc = .flagged ∨ t.pc = .running → t.isCallPendFunc = true)
    (callPc : t.callPc = s.callPc) : Placed t := by
  have idle := CallPc.isIdle_iff.mp place.2
  exact ⟨flag, by simp [callPc, idle, CallPc.isIdle], by simp [callPc, idle, CallPc.queues]⟩

/-- Steps of the loop thread that leave `pendFuncs_` and the counter, or lead
before a swap. -/
theorem Awake.move {s t : EventLoop Tid F} {pc : LoopPc} (awake : Awake s) (place : s.At pc)
    (flag : t.pc = .flagged ∨ t.pc = .running → t.isCallPendFunc = true)
    (callPc : t.callPc = s.callPc)
    (swapped : t.pc.beforeSwap = false → pc.beforeSwap = false ∧ t.counter = s.counter ∧
      t.history.enqueued = s.history.enqueued ∧ t.queue.pendFuncs = s.queue.pendFuncs) :
    Awake t := by
  refine ⟨.move place flag callPc, ?_⟩
  intro afterwards ticket waiting
  obtain ⟨before, counter, enqueued, pendFuncs⟩ := swapped afterwards
  rw [Waiting, enqueued, pendFuncs] at waiting
  rw [counter, callPc]
  exact awake.awake (by rw [place.1]; exact before) ticket waiting

theorem Placed.wakeup {s : EventLoop Tid F} (placed : Placed s) : Awake s.wakeup :=
  ⟨⟨placed.flag, placed.user, placed.inside⟩,
    fun _ _ _ => .inl (eventfdWrite_pos s.counter)⟩

theorem Awake.swap {s : EventLoop Tid F} (place : s.At .flagged)
    (flag : s.isCallPendFunc = true) : Awake s.swap := by
  refine ⟨.move place (fun _ => flag) rfl, ?_⟩
  rintro - ticket ⟨started, queued⟩
  simp only [EventLoop.swap, TaskQueue.pendFuncs_swap, List.length_nil] at started queued
  omega

variable [DecidableEq Tid]

theorem Placed.setCallPc {s : EventLoop Tid F} (placed : Placed s) {caller : Option Tid}
    {place : CallPc F} (user : caller = none → place.isIdle = false → s.pc.runsUserCode = true)
    (inside : caller = none → place.queues = true → s.pc ≠ .outside) :
    Placed (s.setCallPc caller place) := by
  by_cases own : caller = none
  · subst own
    exact ⟨placed.flag, by simpa [EventLoop.setCallPc] using user,
      by simpa [EventLoop.setCallPc] using inside⟩
  · have other : (s.setCallPc caller place).callPc none = s.callPc none :=
      Function.update_of_ne (fun equal => own equal.symm) _ _
    exact ⟨placed.flag, by rw [other]; exact placed.user, by rw [other]; exact placed.inside⟩

theorem Awake.setCallPc {s : EventLoop Tid F} (awake : Awake s) {caller : Option Tid}
    {place : CallPc F} (unpushed : ∀ ticket, s.callPc caller ≠ .pushed ticket)
    (user : caller = none → place.isIdle = false → s.pc.runsUserCode = true)
    (inside : caller = none → place.queues = true → s.pc ≠ .outside) :
    Awake (s.setCallPc caller place) := by
  refine ⟨awake.toPlaced.setCallPc user inside, ?_⟩
  intro afterwards ticket waiting
  rcases awake.awake afterwards ticket waiting with positive | ⟨other, pushed⟩
  · exact .inl positive
  · have apart : other ≠ caller := fun same => unpushed ticket (same ▸ pushed)
    exact .inr ⟨other, by simpa [EventLoop.setCallPc, apart] using pushed⟩

theorem Awake.push {s : EventLoop Tid F} (awake : Awake s) {caller : Option Tid} {functor : F}
    (queueing : s.callPc caller = .queueing functor) : Awake (s.push caller functor) := by
  have placed : Placed (s.setCallPc caller (.pushed s.history.enqueued.length)) := by
    refine awake.toPlaced.setCallPc (fun own _ => awake.user ?_) (fun own _ => awake.inside ?_)
    · rw [← own, queueing]
      rfl
    · rw [← own, queueing]
      rfl
  refine ⟨⟨placed.flag, placed.user, placed.inside⟩, ?_⟩
  rintro afterwards ticket ⟨started, queued⟩
  simp only [EventLoop.push, TaskQueue.push, List.length_append, List.length_singleton]
    at started queued
  by_cases last : ticket = s.history.enqueued.length
  · exact .inr ⟨caller, by simp [EventLoop.push, EventLoop.setCallPc, last]⟩
  · rcases awake.awake afterwards ticket ⟨by omega, by omega⟩ with
      positive | ⟨other, pushed⟩
    · exact .inl positive
    · have apart : other ≠ caller := by
        rintro rfl
        rw [queueing] at pushed
        cases pushed
      exact .inr ⟨other, by simpa [EventLoop.push, EventLoop.setCallPc, apart] using pushed⟩

/-- The end of `queueinLoop` wakes the loop up unless the loop thread queued the
functor from a handler, before the swap of this iteration. -/
theorem Awake.notify {s t : EventLoop Tid F} (awake : Awake s) {caller : Option Tid}
    (stepped : s.step (.notify caller) = some t) : Awake t := by
  simp only [EventLoop.step] at stepped
  split at stepped <;> cases stepped
  next ticket pushed =>
    have placed : Placed (s.setCallPc caller .idle) :=
      awake.toPlaced.setCallPc (by simp [CallPc.isIdle]) (by simp [CallPc.queues])
    split
    next wakes => exact placed.wakeup
    next silent =>
      simp only [Bool.or_eq_true, not_or, Bool.not_eq_true, Option.isSome_eq_false_iff,
        Option.isNone_iff_eq_none] at silent
      obtain ⟨rfl, unflagged⟩ := silent
      refine ⟨placed, ?_⟩
      have user : s.pc.runsUserCode = true := awake.user (by rw [pushed]; rfl)
      have inside : s.pc ≠ .outside := awake.inside (by rw [pushed]; rfl)
      have idle : s.pc ≠ .running := by
        intro running
        simp [awake.flag (.inr running)] at unflagged
      change s.pc.beforeSwap = false → _
      cases place : s.pc <;> simp_all [LoopPc.runsUserCode, LoopPc.beforeSwap]

theorem Awake.quitNotify {s t : EventLoop Tid F} (awake : Awake s) {caller : Option Tid}
    (stepped : s.step (.quitNotify caller) = some t) : Awake t := by
  simp only [EventLoop.step] at stepped
  split at stepped <;> cases stepped
  next quitting =>
    have returned : Awake (s.setCallPc caller .idle) :=
      awake.setCallPc (by simp [quitting]) (by simp [CallPc.isIdle]) (by simp [CallPc.queues])
    split
    · exact returned.toPlaced.wakeup
    · exact returned

theorem Awake.submit {s : EventLoop Tid F} (awake : Awake s) {caller : Option Tid}
    (may : s.MayCall caller) (inside : caller = none → s.pc ≠ .outside) (functor : F) :
    Awake (s.submit caller functor) := by
  have idle := CallPc.isIdle_iff.mp may.1
  have called : Awake (s.setCallPc caller (.queueing functor)) :=
    awake.setCallPc (by simp [idle]) (fun own _ => may.2 (by simp [own])) (fun own _ => inside own)
  exact ⟨⟨called.flag, called.user, called.inside⟩, called.awake⟩

theorem Awake.step {s t : EventLoop Tid F} {action : Action Tid F} (awake : Awake s)
    (inside : s.QueuesInside action) (stepped : s.step action = some t) : Awake t := by
  cases action with
  | loop | resetQuit | stop | endPendFunc =>
      simp only [EventLoop.step, Option.ite_none_right_eq_some, Option.some.injEq] at stepped
      obtain ⟨place, rfl⟩ := stepped
      first
      | exact awake.move place (by simp) rfl fun _ => ⟨rfl, rfl, rfl, rfl⟩
      | exact awake.move place.1 (by simp) rfl fun _ => ⟨rfl, rfl, rfl, rfl⟩
  | testQuit =>
      simp only [EventLoop.step, Option.ite_none_right_eq_some, Option.some.injEq] at stepped
      obtain ⟨place, rfl⟩ := stepped
      refine awake.move place ?_ rfl fun _ => ⟨rfl, rfl, rfl, rfl⟩
      cases s.quit <;> simp
  | epoll wakeup =>
      simp only [EventLoop.step, Option.ite_none_right_eq_some, Option.some.injEq] at stepped
      obtain ⟨⟨place, _⟩, rfl⟩ := stepped
      exact awake.move place (by simp [poll]) rfl (by simp [poll, LoopPc.beforeSwap])
  | handelwakeupRead =>
      simp only [EventLoop.step, Option.ite_none_right_eq_some, Option.some.injEq] at stepped
      obtain ⟨place, rfl⟩ := stepped
      exact awake.move place (by simp [EventLoop.handelwakeupRead]) rfl
        (by simp [EventLoop.handelwakeupRead, LoopPc.beforeSwap])
  | beginPendFunc =>
      simp only [EventLoop.step, Option.ite_none_right_eq_some, Option.some.injEq] at stepped
      obtain ⟨place, rfl⟩ := stepped
      exact awake.move place (by simp) rfl (by simp [LoopPc.beforeSwap])
  | swap =>
      simp only [EventLoop.step, Option.ite_none_right_eq_some, Option.some.injEq] at stepped
      obtain ⟨place, rfl⟩ := stepped
      exact .swap place (awake.flag (.inl place.1))
  | runNext =>
      simp only [EventLoop.step, Option.ite_none_right_eq_some, Option.map_eq_some_iff] at stepped
      obtain ⟨place, task, _, rfl⟩ := stepped
      exact awake.move place awake.flag rfl fun _ => ⟨rfl, rfl, rfl, rfl⟩
  | queueinLoop caller functor =>
      simp only [EventLoop.step, Option.ite_none_right_eq_some, Option.some.injEq] at stepped
      obtain ⟨may, rfl⟩ := stepped
      refine awake.submit may ?_ functor
      rintro rfl
      exact inside
  | runinLoop caller functor =>
      simp only [EventLoop.step, Option.ite_none_right_eq_some] at stepped
      obtain ⟨may, chosen⟩ := stepped
      split at chosen <;> cases chosen
      next own => exact ⟨⟨awake.flag, awake.user, awake.inside⟩, awake.awake⟩
      next other =>
        refine awake.submit may ?_ functor
        rintro rfl
        exact absurd rfl other
  | push caller =>
      simp only [EventLoop.step] at stepped
      split at stepped <;> cases stepped
      next queueing => exact awake.push queueing
  | notify caller => exact awake.notify stepped
  | quit caller =>
      simp only [EventLoop.step, Option.ite_none_right_eq_some, Option.some.injEq] at stepped
      obtain ⟨may, rfl⟩ := stepped
      have called : Awake (s.setCallPc caller .quitting) :=
        awake.setCallPc (by simp [CallPc.isIdle_iff.mp may.1])
          (fun own _ => may.2 (by simp [own])) (by simp [CallPc.queues])
      exact ⟨⟨called.flag, called.user, called.inside⟩, called.awake⟩
  | quitNotify caller => exact awake.quitNotify stepped
  | wakeup caller =>
      simp only [EventLoop.step, Option.ite_none_right_eq_some, Option.some.injEq] at stepped
      obtain ⟨_, rfl⟩ := stepped
      exact awake.toPlaced.wakeup

/-- Where the loop thread is about to block in `epoll_wait`, every functor in
`pendFuncs_` has its wake-up in the counter, unless the thread that pushed it
has still to send it. -/
theorem no_lost_wakeup {actions : List (Action Tid F)} {s : EventLoop Tid F}
    (inside : interleaving.Guarded QueuesInside make actions)
    (run : interleaving.exec make actions = some s) (polling : s.pc = .polling) :
    (s.queue.pendFuncs ≠ [] →
      0 < s.counter ∨ ∃ thread ticket, s.callPc (some thread) = .pushed ticket) ∧
    ∀ ticket, s.Waiting ticket →
      0 < s.counter ∨ ∃ thread, s.callPc (some thread) = .pushed ticket := by
  have awake : Awake s := Machine.exec_guarded_invariant Awake
    (fun _ _ _ awake inside stepped => awake.step inside stepped) make_awake inside run
  have conserved : QueueConserved s := Machine.exec_invariant
    (fun _ _ _ conserved stepped => conserved.step stepped) make_queueConserved run
  have coming : ∀ ticket, s.Waiting ticket →
      0 < s.counter ∨ ∃ thread, s.callPc (some thread) = .pushed ticket := by
    intro ticket waiting
    rcases awake.awake (by simp [polling, LoopPc.beforeSwap]) ticket waiting with
      positive | ⟨caller, pushed⟩
    · exact .inl positive
    · cases caller with
      | none =>
          have own := awake.user (by simp [pushed, CallPc.isIdle])
          simp [polling, LoopPc.runsUserCode] at own
      | some thread => exact .inr ⟨thread, pushed⟩
  refine ⟨fun pending => ?_, coming⟩
  have queued : 0 < s.queue.pendFuncs.length := List.length_pos_iff.mpr pending
  have within : s.queue.pendFuncs.length ≤ s.history.enqueued.length := by
    rw [conserved.order, TaskQueue.contents]
    simp only [List.length_append]
    omega
  rcases coming (s.history.enqueued.length - 1) ⟨by omega, by omega⟩ with
    positive | ⟨thread, pushed⟩
  · exact .inl positive
  · exact .inr ⟨thread, _, pushed⟩

/-- Thread 1 pushes before the first `epoll_wait` and sends its wake-up after it
has begun; a functor queues another from inside its batch. -/
def lateWakeup : List (Action Nat Nat) :=
  [.queueinLoop (some 2) 6, .push (some 2), .notify (some 2), .loop, .resetQuit, .testQuit,
    .epoll true, .handelwakeupRead, .beginPendFunc, .swap, .runNext, .queueinLoop none 8,
    .push none, .notify none, .endPendFunc, .queueinLoop (some 1) 7, .push (some 1), .testQuit]

theorem no_lost_wakeup_lateWakeup :
    ∃ s : EventLoop Nat Nat, interleaving.exec make lateWakeup = some s ∧
      s.queue.pendFuncs ≠ [] ∧
      (0 < s.counter ∨ ∃ thread ticket, s.callPc (some thread) = .pushed ticket) :=
  ⟨_, rfl, by decide,
    (no_lost_wakeup (by decide : interleaving.Guarded QueuesInside make lateWakeup) rfl rfl).1
      (by decide)⟩

end EventLoop

end Lucky
