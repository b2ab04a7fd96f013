import Lucky.EventLoop.TaskQueue
import Lucky.Linux
import Lucky.Systems.Machine

/-!
# `EventLoop`

The loop thread and any number of other threads that call `queueinLoop`,
`runinLoop`, `wakeup` and `quit`.  One action is one access to shared data: the
flags, the queue under `mutex_`, the eventfd counter of `wakeupFd_`.  A caller is
`none` for the loop thread, the one `isLoopThread()` recognises, and `some` for
any other.

The loop thread makes its calls before `loop()`, from event handlers and from
functors; what a functor does is the calls made between its start and the next
action of `doPendFunc`.
-/

namespace Lucky

open Systems

/-- The place of the loop thread in `loop()` and `doPendFunc()`. -/
inductive LoopPc where
  /-- Before `loop()` or after it. -/
  | outside
  /-- Before `quit_ = false`. -/
  | entered
  | test
  | polling
  /-- Among the handlers; the flag says that the one of `wakeupFd_` is due. -/
  | handling (wakeup : Bool)
  /-- Before the swap. -/
  | flagged
  | running
  | stopping
  deriving DecidableEq, Repr

/-- Whether the loop thread runs user code there, which may call the loop. -/
def LoopPc.runsUserCode : LoopPc → Bool
  | .outside | .handling _ | .running => true
  | .entered | .test | .polling | .flagged | .stopping => false

/-- The place of a caller in `queueinLoop` or `quit`. -/
inductive CallPc (F : Type) where
  | idle
  | queueing (functor : F)
  /-- Before the wake-up; the functor is the one with this number. -/
  | pushed (ticket : Nat)
  /-- Between the store to `quit_` and the wake-up. -/
  | quitting
  deriving DecidableEq, Repr

def CallPc.isIdle {F : Type} : CallPc F → Bool
  | .idle => true
  | .queueing _ | .pushed _ | .quitting => false

@[simp]
theorem CallPc.isIdle_iff {F : Type} {place : CallPc F} :
    place.isIdle = true ↔ place = .idle := by
  cases place <;> simp [isIdle]

/-- A functor in the queue, with the thread that queued it. -/
structure Task (Tid F : Type) where
  source : Option Tid
  functor : F
  deriving DecidableEq, Repr

/-- What has happened in a run so far. -/
structure History (Tid F : Type) where
  submitted : Option Tid → List F
  enqueued : List (Task Tid F)
  executed : List (Task Tid F)
  /-- Functors `runinLoop` ran on the spot. -/
  direct : List F
  /-- `enqueued` at the last swap. -/
  swapped : List (Task Tid F)
  wakeups : Nat
  /-- Number of times `epoll_wait` reported `wakeupFd_`. -/
  reports : Nat
  handled : Nat
  /-- Number of `wakeup()` calls since the last report was handled. -/
  wakeupsSinceHandled : Nat

structure EventLoop (Tid F : Type) where
  looping : Bool
  quit : Bool
  isCallPendFunc : Bool
  /-- The eventfd counter of `wakeupFd_`. -/
  counter : Nat
  queue : TaskQueue (Task Tid F)
  pc : LoopPc
  callPc : Option Tid → CallPc F
  history : History Tid F

namespace EventLoop

variable {Tid F : Type}

def make : EventLoop Tid F where
  looping := false
  quit := false
  isCallPendFunc := false
  counter := 0
  queue := .empty
  pc := .outside
  callPc _ := .idle
  history := ⟨fun _ => [], [], [], [], [], 0, 0, 0, 0⟩

inductive Action (Tid F : Type) where
  /-- `loop()` up to `looping_ = true`. -/
  | loop
  | resetQuit
  | testQuit
  /-- `epoll_wait` returns, and has reported `wakeupFd_` or not. -/
  | epoll (wakeup : Bool)
  | handelwakeupRead
  /-- `isCallPendFunc_ = true`. -/
  | beginPendFunc
  | swap
  | runNext
  /-- `isCallPendFunc_ = false`. -/
  | endPendFunc
  | stop
  | queueinLoop (caller : Option Tid) (functor : F)
  | runinLoop (caller : Option Tid) (functor : F)
  | push (caller : Option Tid)
  /-- The end of `queueinLoop`, with its wake-up. -/
  | notify (caller : Option Tid)
  | quit (caller : Option Tid)
  /-- The end of `quit`, with its wake-up. -/
  | quitNotify (caller : Option Tid)
  | wakeup (caller : Option Tid)
  deriving DecidableEq, Repr

/-- The loop thread is at `pc` and in no call of its own. -/
def At (s : EventLoop Tid F) (pc : LoopPc) : Prop := s.pc = pc ∧ (s.callPc none).isIdle

instance (s : EventLoop Tid F) (pc : LoopPc) : Decidable (s.At pc) :=
  inferInstanceAs (Decidable (_ ∧ _))

def MayCall (s : EventLoop Tid F) (caller : Option Tid) : Prop :=
  (s.callPc caller).isIdle ∧ (caller.isNone → s.pc.runsUserCode)

instance (s : EventLoop Tid F) (caller : Option Tid) : Decidable (s.MayCall caller) :=
  inferInstanceAs (Decidable (_ ∧ _))

/-- `write` of the value 1 to `wakeupFd_`. -/
def writeOne (s : EventLoop Tid F) : EventLoop Tid F :=
  { s with counter := eventfdWrite s.counter }

def wakeup (s : EventLoop Tid F) : EventLoop Tid F :=
  { s.writeOne with history := { s.history with
      wakeups := s.history.wakeups + 1
      wakeupsSinceHandled := s.history.wakeupsSinceHandled + 1 } }

/-- The read callback of `wakeupFiled_`: it writes. -/
def handelwakeupRead (s : EventLoop Tid F) : EventLoop Tid F :=
  { s.writeOne with
    pc := .handling false
    history := { s.history with handled := s.history.handled + 1, wakeupsSinceHandled := 0 } }

def poll (s : EventLoop Tid F) (wakeup : Bool) : EventLoop Tid F :=
  { s with
    pc := .handling wakeup
    history := { s.history with reports := s.history.reports + if wakeup then 1 else 0 } }

def swap (s : EventLoop Tid F) : EventLoop Tid F :=
  { s with
    pc := .running
    queue := s.queue.swap
    history := { s.history with swapped := s.history.enqueued } }

def run (s : EventLoop Tid F) (task : Task Tid F) : EventLoop Tid F :=
  { s with
    queue := s.queue.advance
    history := { s.history with executed := s.history.executed ++ [task] } }

variable [DecidableEq Tid]

def setCallPc (s : EventLoop Tid F) (caller : Option Tid) (place : CallPc F) : EventLoop Tid F :=
  { s with callPc := Function.update s.callPc caller place }

/-- `queueinLoop` up to the lock. -/
def submit (s : EventLoop Tid F) (caller : Option Tid) (functor : F) : EventLoop Tid F :=
  { s.setCallPc caller (.queueing functor) with history := { s.history with
      submitted := Function.update s.history.submitted caller
        (s.history.submitted caller ++ [functor]) } }

/-- `pendFuncs_.emplace_back(cb)` under `mutex_`. -/
def push (s : EventLoop Tid F) (caller : Option Tid) (functor : F) : EventLoop Tid F :=
  { s.setCallPc caller (.pushed s.history.enqueued.length) with
    queue := s.queue.push ⟨caller, functor⟩
    history := { s.history with enqueued := s.history.enqueued ++ [⟨caller, functor⟩] } }

def step (s : EventLoop Tid F) : Action Tid F → Option (EventLoop Tid F)
  | .loop => if s.At .outside then some { s with looping := true, pc := .entered } else none
  | .resetQuit => if s.At .entered then some { s with quit := false, pc := .test } else none
  | .testQuit =>
      if s.At .test then some { s with pc := if s.quit then .stopping else .polling } else none
  | .epoll wakeup =>
      if s.At .polling ∧ (wakeup → 0 < s.counter) then some (s.poll wakeup) else none
  | .handelwakeupRead => if s.At (.handling true) then some s.handelwakeupRead else none
  | .beginPendFunc =>
      if s.At (.handling false) then some { s with isCallPendFunc := true, pc := .flagged }
      else none
  | .swap => if s.At .flagged then some s.swap else none
  | .runNext => if s.At .running then s.queue.next?.map s.run else none
  | .endPendFunc =>
      if s.At .running ∧ s.queue.next?.isNone then
        some { s with isCallPendFunc := false, queue := s.queue.finish, pc := .test }
      else none
  | .stop => if s.At .stopping then some { s with looping := false, pc := .outside } else none
  | .queueinLoop caller functor =>
      if s.MayCall caller then some (s.submit caller functor) else none
  | .runinLoop caller functor =>
      if s.MayCall caller then
        if caller.isNone then
          some { s with history := { s.history with direct := s.history.direct ++ [functor] } }
        else
          some (s.submit caller functor)
      else none
  | .push caller =>
      match s.callPc caller with
      | .queueing functor => some (s.push caller functor)
      | .idle | .pushed _ | .quitting => none
  | .notify caller =>
      match s.callPc caller with
      | .pushed _ =>
          let returned := s.setCallPc caller .idle
          some (if caller.isSome || s.isCallPendFunc then returned.wakeup else returned)
      | .idle | .queueing _ | .quitting => none
  | .quit caller =>
      if s.MayCall caller then some { s.setCallPc caller .quitting with quit := true } else none
  | .quitNotify caller =>
      match s.callPc caller with
      | .quitting =>
          let returned := s.setCallPc caller .idle
          some (if caller.isSome then returned.wakeup else returned)
      | .idle | .queueing _ | .pushed _ => none
  | .wakeup caller => if s.MayCall caller then some s.wakeup else none

/-- Every interleaving of the loop thread with its callers. -/
def interleaving : Machine (EventLoop Tid F) (Action Tid F) := ⟨step⟩

/-- What a step does to `quit_` and to the place of the loop thread: only `quit()`
and the beginning of `loop()` write the one, and calls leave the other. -/
theorem step_quit_pc {s t : EventLoop Tid F} {action : Action Tid F}
    (stepped : s.step action = some t) :
    t.quit = (match action with
      | .quit _ => true
      | .resetQuit => false
      | _ => s.quit) ∧
    t.pc = match action with
      | .loop => .entered
      | .resetQuit | .endPendFunc => .test
      | .testQuit => if s.quit then .stopping else .polling
      | .epoll wakeup => .handling wakeup
      | .handelwakeupRead => .handling false
      | .beginPendFunc => .flagged
      | .swap => .running
      | .stop => .outside
      | _ => s.pc := by
  cases action with
  | loop | resetQuit | testQuit | epoll wakeup | handelwakeupRead | beginPendFunc | swap
  | endPendFunc | stop | queueinLoop caller functor | quit caller | wakeup caller =>
      simp only [step, Option.ite_none_right_eq_some, Option.some.injEq] at stepped
      obtain ⟨_, rfl⟩ := stepped
      exact ⟨rfl, rfl⟩
  | runNext =>
      simp only [step, Option.ite_none_right_eq_some, Option.map_eq_some_iff] at stepped
      obtain ⟨_, task, _, rfl⟩ := stepped
      exact ⟨rfl, rfl⟩
  | runinLoop caller functor =>
      simp only [step, Option.ite_none_right_eq_some] at stepped
      obtain ⟨_, chosen⟩ := stepped
      split at chosen <;> cases chosen <;> exact ⟨rfl, rfl⟩
  | push caller =>
      simp only [step] at stepped
      split at stepped <;> cases stepped
      exact ⟨rfl, rfl⟩
  | notify caller | quitNotify caller =>
      simp only [step] at stepped
      split at stepped <;> cases stepped
      split <;> exact ⟨rfl, rfl⟩

end EventLoop

end Lucky
