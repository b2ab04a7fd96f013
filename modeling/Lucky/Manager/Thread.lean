import Lucky.EventLoop.Loop

/-!
# `Manager`

A `Manager` owns a thread that runs one `EventLoop`.  The owner's thread calls
`startLoop` and later `~Manager`; the new thread runs `threadFunc`; any thread
may call the loop while it exists.  Every read and write of the pointer `loop_`
is a step of its own, and so is every access of `~Manager` to the loop.
-/

namespace Lucky

open Systems

/-- The place of the new thread in `threadFunc`. -/
inductive ThreadPc where
  | unstarted
  /-- Before `EventLoop loop`. -/
  | started
  | callback
  /-- Before `loop.loop()`. -/
  | published
  | looping
  /-- Before `loop_ = nullptr`. -/
  | returned
  /-- Before `~EventLoop`. -/
  | cleared
  | finished
  deriving DecidableEq, Repr

/-- The place of the owner's thread in `startLoop` and `~Manager`. -/
inductive OwnerPc where
  | constructed
  | waiting
  | running
  /-- After the test of `loop_` in `~Manager`. -/
  | tested
  /-- With the pointer read for the call of `quit`. -/
  | calling
  /-- Between the store to `quit_` and the wake-up. -/
  | quitting
  | joining
  | destroyed
  /-- Undefined behaviour: a null or a dangling pointer was used. -/
  | crashed
  deriving DecidableEq, Repr

def ThreadPc.alive : ThreadPc → Bool
  | .callback | .published | .looping | .returned | .cleared => true
  | .unstarted | .started | .finished => false

/-- The caller of an action that is a call, or a part of one. -/
def EventLoop.Action.caller? {Tid F : Type} : EventLoop.Action Tid F → Option (Option Tid)
  | .queueinLoop caller _ | .runinLoop caller _ | .push caller | .notify caller | .quit caller
  | .quitNotify caller | .wakeup caller => some caller
  | .loop | .resetQuit | .testQuit | .epoll _ | .handelwakeupRead | .beginPendFunc | .swap
  | .runNext | .endPendFunc | .stop => none

structure Manager (Tid F : Type) where
  /-- `loop_` is not null. -/
  published : Bool
  loop : EventLoop Tid F
  thread : ThreadPc
  owner : OwnerPc
  ownerId : Tid
  /-- Some `quit()` has stored `quit_`. -/
  quitStored : Bool
  /-- Number of iterations of `loop()` begun after that. -/
  lateIterations : Nat

namespace Manager

variable {Tid F : Type}

def make (ownerId : Tid) : Manager Tid F :=
  ⟨false, .make, .unstarted, .constructed, ownerId, false, 0⟩

inductive Action (Tid F : Type) where
  | startLoop
  | construct
  /-- `loop_ = &loop` under `mutex_`. -/
  | publish
  /-- `startLoop` finds `loop_` set and returns. -/
  | startLoopReturns
  /-- A step of the loop: of its own thread or of a caller. -/
  | event (action : EventLoop.Action Tid F)
  /-- `loop_ = nullptr` under `mutex_`. -/
  | clear
  | destruct
  | testLoop
  /-- `~Manager` reads `loop_` to call `quit`. -/
  | readLoop
  /-- `loop_->quit()` stores `quit_`. -/
  | storeQuit
  /-- `loop_->quit()` wakes the loop up. -/
  | wakeupLoop
  | join
  deriving DecidableEq, Repr

def Action.storesQuit : Action Tid F → Bool
  | .event (.quit _) | .storeQuit => true
  | _ => false

variable [DecidableEq Tid]

/-- The loop thread runs `loop()` once, after publishing the loop; it calls the loop
from the callback and from inside `loop()`, the owner while it is not in a
function of the `Manager`. -/
def permits (m : Manager Tid F) (action : EventLoop.Action Tid F) : Bool :=
  match action, action.caller? with
  | .loop, _ => m.thread == .published
  | _, none => m.thread == .looping
  | _, some none => m.thread == .callback || m.thread == .looping
  | _, some (some thread) => m.thread.alive && (thread != m.ownerId || m.owner == .running)

def advance (m : Manager Tid F) (action : EventLoop.Action Tid F) (loop : EventLoop Tid F) :
    Manager Tid F :=
  { m with
    loop := loop
    thread := match action with
      | .loop => .looping
      | .stop => .returned
      | _ => m.thread
    quitStored := m.quitStored || (Action.event action).storesQuit
    lateIterations := m.lateIterations + match action with
      | .testQuit => if m.quitStored && loop.pc == .polling then 1 else 0
      | _ => 0 }

def step (m : Manager Tid F) : Action Tid F → Option (Manager Tid F)
  | .startLoop =>
      if m.owner = .constructed then some { m with owner := .waiting, thread := .started }
      else none
  | .construct =>
      if m.thread = .started then some { m with thread := .callback, loop := .make } else none
  | .publish =>
      if m.thread = .callback ∧ (m.loop.callPc none).isIdle then
        some { m with thread := .published, published := true }
      else none
  | .startLoopReturns =>
      if m.owner = .waiting ∧ m.published then some { m with owner := .running } else none
  | .event action =>
      if m.permits action then (m.loop.step action).map (m.advance action) else none
  | .clear =>
      if m.thread = .returned then some { m with thread := .cleared, published := false } else none
  | .destruct => if m.thread = .cleared then some { m with thread := .finished } else none
  | .testLoop =>
      if (m.owner = .constructed ∨ m.owner = .running) ∧
          (m.loop.callPc (some m.ownerId)).isIdle then
        some { m with owner := if m.published then .tested else .destroyed }
      else none
  | .readLoop =>
      if m.owner = .tested then
        some { m with owner := if m.published then .calling else .crashed }
      else none
  | .storeQuit =>
      if m.owner = .calling then
        if m.thread = .finished then
          some { m with owner := .crashed }
        else
          (m.loop.step (.quit (some m.ownerId))).map fun loop =>
            { m with loop := loop, owner := .quitting, quitStored := true }
      else none
  | .wakeupLoop =>
      if m.owner = .quitting then
        if m.thread = .finished then
          some { m with owner := .crashed }
        else
          (m.loop.step (.quitNotify (some m.ownerId))).map fun loop =>
            { m with loop := loop, owner := .joining }
      else none
  | .join =>
      if m.owner = .joining ∧ m.thread = .finished then some { m with owner := .destroyed }
      else none

/-- Every interleaving of the owner, the new thread and the callers of its loop. -/
def interleaving : Machine (Manager Tid F) (Action Tid F) := ⟨step⟩

end Manager

end Lucky
