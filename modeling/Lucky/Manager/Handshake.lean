import Lucky.Manager.Callers
import Lucky.Manager.Teardown

/-!
# The handshake of `startLoop`

`startLoop` waits twice for its new thread: in `Thread::start` for the semaphore that
the thread posts once it has stored `tid_`, and then with `mutex_` and `cond_` for
`loop_`.  Here every access to the semaphore, the mutex and the condition variable is
a step of its own, and `cond_.wait` may end without a notification.
-/

namespace Lucky

open Systems

/-- Who can hold `mutex_`. -/
inductive Party where
  | owner
  | thread
  deriving DecidableEq, Repr

/-- The place of the owner's thread in `startLoop`. -/
inductive StartPc where
  | outside
  /-- Before the `sem_wait` of `Thread::start`. -/
  | starting
  /-- Before it gets `mutex_`, at first or at the end of `cond_.wait`. -/
  | locking
  /-- Before the test of `loop_`. -/
  | testing
  /-- Asleep in `cond_.wait`. -/
  | waiting
  /-- Before `loop = loop_`. -/
  | copying
  /-- Before it releases `mutex_` and returns. -/
  | unlocking
  deriving DecidableEq, Repr

/-- The place of the new thread between two of the places of `ThreadPc`. -/
inductive FuncPc where
  | outside
  /-- Before `tid_ = ThreadID::tid()`. -/
  | entered
  | posting
  /-- With `mutex_`, before `loop_ = &loop`. -/
  | storing
  | notifying
  | unlocking
  /-- With `mutex_`, before `loop_ = nullptr`. -/
  | clearing
  | releasing
  deriving DecidableEq, Repr

def StartPc.holds : StartPc → Bool
  | .testing | .copying | .unlocking => true
  | .outside | .starting | .locking | .waiting => false

def FuncPc.holds : FuncPc → Bool
  | .storing | .notifying | .unlocking | .clearing | .releasing => true
  | .outside | .entered | .posting => false

structure Handshake (Tid F : Type) where
  manager : Manager Tid F
  startPc : StartPc
  funcPc : FuncPc
  mutex : Option Party
  sem : Nat
  /-- `tid_` has been stored. -/
  tid : Bool
  /-- The local `loop` of `startLoop`, which it returns, is not null. -/
  pointer : Bool

namespace Handshake

variable {Tid F : Type}

def make (ownerId : Tid) : Handshake Tid F :=
  ⟨.make ownerId, .outside, .outside, none, 0, false, false⟩

inductive Action (Tid F : Type) where
  /-- `Thread::start` up to the creation of the thread. -/
  | startLoop
  | setTid
  | semPost
  | semWait
  | construct
  /-- `threadFunc` gets `mutex_` after its callback. -/
  | lockToStore
  | store
  | notify
  | unlockStored
  | lock
  | test
  /-- `cond_.wait` ends without a notification. -/
  | spurious
  | copy
  | unlock
  | event (action : EventLoop.Action Tid F)
  /-- `threadFunc` gets `mutex_` after its loop. -/
  | lockToClear
  | clear
  | unlockCleared
  | destruct
  | testLoop
  | readLoop
  | storeQuit
  | wakeupLoop
  | join
  deriving DecidableEq, Repr

variable [DecidableEq Tid]

/-- A step that is no part of the handshake. -/
def lift (h : Handshake Tid F) (action : Manager.Action Tid F) : Option (Handshake Tid F) :=
  (h.manager.step action).map fun manager => { h with manager := manager }

/-- Between the places of `ThreadPc` the new thread itself does nothing with its loop. -/
def permits (h : Handshake Tid F) (action : EventLoop.Action Tid F) : Bool :=
  h.funcPc == .outside || action.caller?.join.isSome

def step (h : Handshake Tid F) : Action Tid F → Option (Handshake Tid F)
  | .startLoop =>
      if h.manager.owner = .constructed then
        some { h with
          manager := { h.manager with owner := .waiting, thread := .started }
          startPc := .starting, funcPc := .entered, sem := 0 }
      else none
  | .setTid =>
      if h.funcPc = .entered then some { h with tid := true, funcPc := .posting } else none
  | .semPost =>
      if h.funcPc = .posting then some { h with sem := h.sem + 1, funcPc := .outside } else none
  | .semWait =>
      if h.startPc = .starting ∧ 0 < h.sem then
        some { h with sem := h.sem - 1, startPc := .locking }
      else none
  | .construct =>
      if h.funcPc = .outside ∧ h.manager.thread = .started then
        some { h with manager := { h.manager with thread := .callback, loop := .make } }
      else none
  | .lockToStore =>
      if h.funcPc = .outside ∧ h.manager.thread = .callback ∧
          (h.manager.loop.callPc none).isIdle ∧ h.mutex = none then
        some { h with mutex := some .thread, funcPc := .storing }
      else none
  | .store =>
      if h.funcPc = .storing then
        some { h with
          manager := { h.manager with thread := .published, published := true }
          funcPc := .notifying }
      else none
  | .notify =>
      if h.funcPc = .notifying then
        some { h with
          startPc := if h.startPc = .waiting then .locking else h.startPc
          funcPc := .unlocking }
      else none
  | .unlockStored =>
      if h.funcPc = .unlocking then some { h with mutex := none, funcPc := .outside } else none
  | .lock =>
      if h.startPc = .locking ∧ h.mutex = none then
        some { h with mutex := some .owner, startPc := .testing }
      else none
  | .test =>
      if h.startPc = .testing then
        if h.manager.published then some { h with startPc := .copying }
        else some { h with mutex := none, startPc := .waiting }
      else none
  | .spurious => if h.startPc = .waiting then some { h with startPc := .locking } else none
  | .copy =>
      if h.startPc = .copying then
        some { h with pointer := h.manager.published, startPc := .unlocking }
      else none
  | .unlock =>
      if h.startPc = .unlocking then
        some { h with
          manager := { h.manager with owner := .running }
          mutex := none, startPc := .outside }
      else none
  | .event action => if h.permits action then h.lift (.event action) else none
  | .lockToClear =>
      if h.funcPc = .outside ∧ h.manager.thread = .returned ∧ h.mutex = none then
        some { h with mutex := some .thread, funcPc := .clearing }
      else none
  | .clear =>
      if h.funcPc = .clearing then
        some { h with
          manager := { h.manager with thread := .cleared, published := false }
          funcPc := .releasing }
      else none
  | .unlockCleared =>
      if h.funcPc = .releasing then some { h with mutex := none, funcPc := .outside } else none
  | .destruct => if h.funcPc = .outside then h.lift .destruct else none
  | .testLoop => h.lift .testLoop
  | .readLoop => h.lift .readLoop
  | .storeQuit => h.lift .storeQuit
  | .wakeupLoop => h.lift .wakeupLoop
  | .join => h.lift .join

def interleaving : Machine (Handshake Tid F) (Action Tid F) := ⟨step⟩

end Handshake

/-! ## What the other steps leave alone -/

namespace Manager

variable {Tid F : Type} [DecidableEq Tid]

/-- A step of the loop, seen from the handshake. -/
structure LoopMove (m n : Manager Tid F) (action : EventLoop.Action Tid F) : Prop where
  owner : n.owner = m.owner
  published : n.published = m.published
  alive : m.thread.alive = true
  thread : n.thread = m.thread ∨ m.thread = .published ∧ n.thread = .looping ∨
    m.thread = .looping ∧ n.thread = .returned
  elsewhere : action.caller?.join.isSome = true →
    n.thread = m.thread ∧ n.loop.callPc none = m.loop.callPc none

theorem loopMove {m n : Manager Tid F} {action : EventLoop.Action Tid F}
    (stepped : m.step (.event action) = some n) : LoopMove m n action := by
  simp only [Manager.step, Option.ite_none_right_eq_some, Option.map_eq_some_iff] at stepped
  obtain ⟨permitted, loop, moved, rfl⟩ := stepped
  refine ⟨rfl, rfl, permits_alive permitted, ?_, ?_⟩
  · cases action with
    | loop => exact .inr (.inl ⟨by simpa [permits] using permitted, rfl⟩)
    | stop =>
        exact .inr (.inr ⟨by simpa [permits, EventLoop.Action.caller?] using permitted, rfl⟩)
    | _ => exact .inl rfl
  · intro other
    obtain ⟨caller, called⟩ := Option.isSome_iff_exists.mp other
    refine ⟨?_, EventLoop.step_callPc_of_ne moved (by simp [Option.join_eq_some_iff.mp called])⟩
    cases action with
    | loop | stop => cases called
    | _ => rfl

/-- The steps of `~Manager`. -/
def Action.tearsDown : Action Tid F → Bool
  | .testLoop | .readLoop | .storeQuit | .wakeupLoop | .join => true
  | .startLoop | .construct | .publish | .startLoopReturns | .event _ | .clear | .destruct =>
      false

/-- A step of `~Manager`, seen from the handshake. -/
structure OwnerMove (m n : Manager Tid F) : Prop where
  thread : n.thread = m.thread
  published : n.published = m.published
  callPc : n.loop.callPc none = m.loop.callPc none
  before : m.owner ≠ .waiting
  after : n.owner ≠ .waiting ∧ n.owner ≠ .constructed
  knows : n.owner.knowsLoop = true →
    m.owner.knowsLoop = true ∨ m.owner = .constructed ∧ m.published = true

theorem ownerMove {m n : Manager Tid F} {action : Action Tid F}
    (tearsDown : action.tearsDown = true) (stepped : m.step action = some n) :
    OwnerMove m n := by
  cases action with
  | startLoop | construct | publish | startLoopReturns | event | clear | destruct =>
      cases tearsDown
  | testLoop =>
      simp only [Manager.step, Option.ite_none_right_eq_some, Option.some.injEq] at stepped
      obtain ⟨⟨constructed | running, _⟩, rfl⟩ := stepped
      · refine ⟨rfl, rfl, rfl, by simp [constructed], ?_, ?_⟩
        · cases m.published <;> simp
        · cases m.published <;> simp [constructed, OwnerPc.knowsLoop]
      · refine ⟨rfl, rfl, rfl, by simp [running], ?_, fun _ => .inl (by rw [running]; rfl)⟩
        cases m.published <;> simp
  | readLoop =>
      simp only [Manager.step, Option.ite_none_right_eq_some, Option.some.injEq] at stepped
      obtain ⟨tested, rfl⟩ := stepped
      refine ⟨rfl, rfl, rfl, by simp [tested], ?_, fun _ => .inl (by rw [tested]; rfl)⟩
      cases m.published <;> simp
  | storeQuit | wakeupLoop =>
      simp only [Manager.step, Option.ite_none_right_eq_some] at stepped
      obtain ⟨owner, used⟩ := stepped
      split at used
      · cases used
        exact ⟨rfl, rfl, rfl, by simp [owner], by simp, by simp [OwnerPc.knowsLoop]⟩
      · obtain ⟨loop, moved, rfl⟩ := Option.map_eq_some_iff.mp used
        have callPc : loop.callPc none = m.loop.callPc none :=
          EventLoop.step_callPc_of_ne moved (by simp [EventLoop.Action.caller?])
        exact ⟨rfl, rfl, callPc, by simp [owner], by simp,
          by simp [owner, OwnerPc.knowsLoop]⟩
  | join =>
      simp only [Manager.step, Option.ite_none_right_eq_some, Option.some.injEq] at stepped
      obtain ⟨⟨owner, _⟩, rfl⟩ := stepped
      exact ⟨rfl, rfl, rfl, by simp [owner], by simp, by simp [OwnerPc.knowsLoop]⟩

end Manager

end Lucky
