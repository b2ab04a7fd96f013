import Lucky.Connection.Session
import Lucky.EventLoop.TaskQueue
import Lucky.Systems.Machine

/-!
# Functors that bind a raw connection

The functors `send` and `shutdown` queue from another thread bind `this`; all others
bind a `ConnectionPtr`.  One connection on a loop of the pool is followed from the
functor of `connectEstablished` on, with its owners: the entry of `connections_`,
the pointers other threads keep, the guard of `handleEvent`, and the functors that
bind a pointer, which a batch holds until it is over.

A functor is one step, so whether the connection has an owner is asked where it
starts: a pointer that another thread drops in the middle of `sendinLoop` counts as
dropped before it or after it.
-/

namespace Lucky.Server

open Systems

/-- A functor on the loop of the connection. -/
inductive LoopWork where
  | connectEstablished
  | connectDestroyed
  /-- `writeCompleteCallback_` or `highWaterMarkCallback_`. -/
  | userCallback
  | sendinLoop
  | shutdownInLoop
  deriving DecidableEq, Repr

/-- The functor binds a `ConnectionPtr`. -/
def LoopWork.binds : LoopWork → Bool
  | .connectEstablished | .connectDestroyed | .userCallback => true
  | .sendinLoop | .shutdownInLoop => false

/-- A functor on the main loop; it binds a `ConnectionPtr`. -/
inductive MainWork where
  | removeConnectionInLoop
  deriving DecidableEq, Repr

inductive HandlerPc where
  | outside
  /-- In `handleEvent`, which holds its guard. -/
  | handling
  /-- In `handleClose`, between its store and `closeCallback_`. -/
  | closing
  deriving DecidableEq, Repr

/-- The place of another thread in `send` or `shutdown`. -/
inductive UserPc where
  | idle
  /-- In `shutdown`, between its test and its store. -/
  | storing
  /-- Before `runinLoop`, with the functor it will queue. -/
  | queueing (work : LoopWork)
  deriving DecidableEq, Repr

structure RawCalls (Tid : Type) where
  state : StateE
  /-- `connections_` has its entry. -/
  mapped : Bool
  /-- The threads that keep a `ConnectionPtr`, once for each pointer. -/
  users : List Tid
  userPc : Tid → UserPc
  handlerPc : HandlerPc
  queue : TaskQueue LoopWork
  mainQueue : TaskQueue MainWork
  /-- A functor has been run on the connection when it had no owner. -/
  orphaned : Bool

namespace RawCalls

variable {Tid : Type}

/-- `newConnection` has queued `connectEstablished`. -/
def make : RawCalls Tid where
  state := .kConnecting
  mapped := true
  users := []
  userPc _ := .idle
  handlerPc := .outside
  queue := TaskQueue.empty.push .connectEstablished
  mainQueue := .empty
  orphaned := false

inductive Action (Tid : Type) where
  /-- The thread keeps a pointer handed to a callback that is running. -/
  | keep (thread : Tid)
  /-- The thread copies the pointer of another. -/
  | copy (source thread : Tid)
  | testSend (thread : Tid)
  | testShutdown (thread : Tid)
  | storeState (thread : Tid)
  /-- The `runinLoop` of `send` or `shutdown`. -/
  | queueinLoop (thread : Tid)
  /-- The thread drops a pointer. -/
  | release (thread : Tid)
  | handleEvent
  /-- The store of `handleClose`. -/
  | handleClose
  /-- `closeCallback_`, which queues `removeConnectionInLoop` on the main loop. -/
  | closeCallback
  | handled
  /-- Code of the connection that runs on its loop queues one of the user's callbacks. -/
  | queueCallback
  | swap
  | runNext
  | finish
  | mainSwap
  | mainRunNext
  | mainFinish

def Owned (s : RawCalls Tid) : Prop :=
  s.mapped = true ∨ s.users ≠ [] ∨ s.handlerPc ≠ .outside ∨
    (∃ work ∈ s.queue.functors ++ s.queue.pendFuncs, work.binds = true) ∨
    s.mainQueue.functors ++ s.mainQueue.pendFuncs ≠ []

instance (s : RawCalls Tid) : Decidable s.Owned :=
  have : Decidable (s.users ≠ []) := decidable_of_iff (s.users.isEmpty = false) (by simp)
  inferInstanceAs (Decidable (_ ∨ _ ∨ _ ∨ _ ∨ _))

/-- The functor of the batch that has been started last. -/
def running? (s : RawCalls Tid) : Option LoopWork :=
  if s.queue.position = 0 then none else s.queue.functors[s.queue.position - 1]?

/-- The loop thread runs code of the connection under a `ConnectionPtr`. -/
def InCallback (s : RawCalls Tid) : Prop :=
  s.handlerPc ≠ .outside ∨ ∃ work ∈ s.running?, work.binds = true

instance (s : RawCalls Tid) : Decidable s.InCallback := inferInstanceAs (Decidable (_ ∨ _))

/-- Run a functor of the loop, from its start to its end. -/
def run (s : RawCalls Tid) : LoopWork → RawCalls Tid
  | .connectEstablished => { s with state := .kConnected }
  | .connectDestroyed =>
      if s.state = .kConnected then { s with state := .kDisconnected } else s
  | .userCallback => s
  | .sendinLoop | .shutdownInLoop => { s with orphaned := s.orphaned || !decide s.Owned }

def queueinLoop (s : RawCalls Tid) (work : LoopWork) : RawCalls Tid :=
  { s with queue := s.queue.push work }

section Step

variable [DecidableEq Tid]

def setUserPc (s : RawCalls Tid) (thread : Tid) (place : UserPc) : RawCalls Tid :=
  { s with userPc := Function.update s.userPc thread place }

/-- A batch is destroyed as a whole, and the next swap comes after that. -/
def step (s : RawCalls Tid) : Action Tid → Option (RawCalls Tid)
  | .keep thread => if s.InCallback then some { s with users := thread :: s.users } else none
  | .copy source thread =>
      if source ∈ s.users then some { s with users := thread :: s.users } else none
  | .testSend thread =>
      if thread ∈ s.users ∧ s.userPc thread = .idle then
        some (if s.state = .kConnected then s.setUserPc thread (.queueing .sendinLoop) else s)
      else none
  | .testShutdown thread =>
      if thread ∈ s.users ∧ s.userPc thread = .idle then
        some (if s.state = .kConnected then s.setUserPc thread .storing else s)
      else none
  | .storeState thread =>
      match s.userPc thread with
      | .storing =>
          some { s.setUserPc thread (.queueing .shutdownInLoop) with state := .kDisconnecting }
      | .idle | .queueing _ => none
  | .queueinLoop thread =>
      match s.userPc thread with
      | .queueing work => some ((s.setUserPc thread .idle).queueinLoop work)
      | .idle | .storing => none
  | .release thread =>
      if thread ∈ s.users ∧ s.userPc thread = .idle then
        some { s with users := s.users.erase thread }
      else none
  | .handleEvent =>
      if s.handlerPc = .outside ∧ s.queue.functors = [] ∧ s.Owned then
        some { s with handlerPc := .handling }
      else none
  | .handleClose =>
      if s.handlerPc = .handling then
        some { s with handlerPc := .closing, state := .kDisconnected }
      else none
  | .closeCallback =>
      if s.handlerPc = .closing then
        some { s with
          handlerPc := .handling
          mainQueue := s.mainQueue.push .removeConnectionInLoop }
      else none
  | .handled => if s.handlerPc = .handling then some { s with handlerPc := .outside } else none
  | .queueCallback =>
      if s.Owned ∧ (s.handlerPc ≠ .outside ∨ s.running?.isSome) then
        some (s.queueinLoop .userCallback)
      else none
  | .swap =>
      if s.handlerPc = .outside ∧ s.queue.functors = [] then
        some { s with queue := s.queue.swap }
      else none
  | .runNext =>
      s.queue.next?.map fun work => { s.run work with queue := s.queue.advance }
  | .finish =>
      if s.queue.next?.isNone then some { s with queue := s.queue.finish } else none
  | .mainSwap =>
      if s.mainQueue.functors = [] then some { s with mainQueue := s.mainQueue.swap } else none
  | .mainRunNext =>
      s.mainQueue.next?.map fun _ =>
        { s.queueinLoop .connectDestroyed with mapped := false, mainQueue := s.mainQueue.advance }
  | .mainFinish =>
      if s.mainQueue.next?.isNone then some { s with mainQueue := s.mainQueue.finish } else none

/-- Every interleaving of the two loops with the other threads. -/
def interleaving : Machine (RawCalls Tid) (Action Tid) := ⟨step⟩

end Step

/-- The pointers of the removal outlast every raw functor that is waiting: the entry or
the removal is still to come, or a functor that binds a pointer is in the same batch
or a later one. -/
def Covered (s : RawCalls Tid) : Prop :=
  s.mapped = true ∨ s.mainQueue.contents ≠ [] ∨
    ((∃ work ∈ s.queue.pendFuncs, work.binds = false) →
      ∃ work ∈ s.queue.pendFuncs, work.binds = true) ∧
    ((∃ work ∈ s.queue.remaining, work.binds = false) →
      ∃ work ∈ s.queue.functors ++ s.queue.pendFuncs, work.binds = true)

instance (s : RawCalls Tid) : Decidable s.Covered :=
  inferInstanceAs (Decidable (_ ∨ _ ∨ (_ → _) ∧ (_ → _)))

/-- A functor that binds a pointer covers everything queued before it. -/
theorem covered_of_push {s : RawCalls Tid} {queue : TaskQueue LoopWork} {work : LoopWork}
    (pushed : s.queue = queue.push work) (binds : work.binds = true) : s.Covered := by
  have last : work ∈ s.queue.pendFuncs := by simp [pushed, TaskQueue.push]
  exact .inr (.inr ⟨fun _ => ⟨work, last, binds⟩,
    fun _ => ⟨work, List.mem_append_right _ last, binds⟩⟩)

/-- The batch takes the functor that covers it along. -/
theorem Covered.swap {s : RawCalls Tid} (covered : s.Covered) :
    Covered { s with queue := s.queue.swap } := by
  rcases covered with mapped | removing | ⟨waiting, _⟩
  · exact .inl mapped
  · exact .inr (.inl removing)
  · refine .inr (.inr ⟨by simp, fun raw => ?_⟩)
    obtain ⟨work, membership, binds⟩ := waiting raw
    exact ⟨work, List.mem_append_left _ membership, binds⟩

/-- The batch keeps the functor until it is over. -/
theorem Covered.advance {s t : RawCalls Tid} {work : LoopWork} (covered : s.Covered)
    (found : s.queue.next? = some work) (mapped : t.mapped = s.mapped)
    (mainQueue : t.mainQueue = s.mainQueue) (queue : t.queue = s.queue.advance) : t.Covered := by
  unfold Covered at *
  rw [mapped, mainQueue, queue]
  refine covered.imp_right (Or.imp_right ?_)
  rintro ⟨waiting, batch⟩
  refine ⟨waiting, fun ⟨raw, membership, unbound⟩ => batch ⟨raw, ?_, unbound⟩⟩
  rw [TaskQueue.remaining_of_next found]
  exact List.mem_cons_of_mem _ membership

theorem Covered.finish {s : RawCalls Tid} (covered : s.Covered) :
    Covered { s with queue := s.queue.finish } := by
  refine covered.imp_right (Or.imp_right ?_)
  exact fun ⟨waiting, _⟩ => ⟨waiting, by simp⟩

/-- The main loop loses no removal between its batches. -/
theorem Covered.main {s : RawCalls Tid} {mainQueue : TaskQueue MainWork} (covered : s.Covered)
    (contents : mainQueue.contents = s.mainQueue.contents) :
    Covered { s with mainQueue := mainQueue } := by
  refine covered.imp_right (Or.imp_left ?_)
  exact fun removing => contents ▸ removing

/-! ## Runs in which the last pointer is dropped in time -/

/-- A thread in a call keeps a pointer, and the raw functors are covered by a thread's
pointer or by the removal. -/
structure Safe (s : RawCalls Tid) : Prop where
  owned : s.orphaned = false
  calling : ∀ thread, s.userPc thread ≠ .idle → thread ∈ s.users
  covered : s.users ≠ [] ∨ s.Covered

theorem make_safe : Safe (make : RawCalls Tid) :=
  ⟨rfl, fun _ busy => absurd rfl busy, .inr (.inl rfl)⟩

/-- A raw functor that is about to run is run on a connection with an owner. -/
theorem Safe.owned_of_next {s : RawCalls Tid} (safe : Safe s) {work : LoopWork}
    (found : s.queue.next? = some work) (raw : work.binds = false) : s.Owned := by
  have waiting := TaskQueue.mem_remaining_of_next found
  rcases safe.covered with kept | mapped | removing | ⟨_, batch⟩
  · exact .inr (.inl kept)
  · exact .inl mapped
  · refine .inr (.inr (.inr (.inr ?_)))
    intro empty
    rw [List.append_eq_nil_iff] at empty
    apply removing
    simp [TaskQueue.contents, TaskQueue.remaining, empty]
  · exact .inr (.inr (.inr (.inl (batch ⟨work, waiting, raw⟩))))

theorem run_frame (s : RawCalls Tid) (work : LoopWork) :
    (s.run work).mapped = s.mapped ∧ (s.run work).users = s.users ∧
      (s.run work).userPc = s.userPc ∧ (s.run work).mainQueue = s.mainQueue ∧
      (s.run work).orphaned = (s.orphaned || !(work.binds || decide s.Owned)) := by
  cases work with
  | connectDestroyed =>
      rw [run]
      split <;> simp [LoopWork.binds]
  | connectEstablished | userCallback | sendinLoop | shutdownInLoop =>
      simp [run, LoopWork.binds]

/-- Steps that leave the threads alone. -/
theorem Safe.move {s t : RawCalls Tid} (safe : Safe s) (owned : t.orphaned = false)
    (userPc : t.userPc = s.userPc) (users : t.users = s.users) (covered : s.Covered → t.Covered) :
    Safe t := by
  refine ⟨owned, ?_, ?_⟩
  · rw [userPc, users]
    exact safe.calling
  · rw [users]
    exact safe.covered.imp_right covered

variable [DecidableEq Tid]

/-- The last pointer another thread keeps is dropped only while the removal covers the
raw functors. -/
def ReleasesCovered (s : RawCalls Tid) : Action Tid → Prop
  | .release thread => s.users.erase thread = [] → s.Covered
  | _ => True

instance (s : RawCalls Tid) : DecidablePred s.ReleasesCovered
  | .release thread =>
      have : Decidable (s.users.erase thread = []) :=
        decidable_of_iff ((s.users.erase thread).isEmpty = true) List.isEmpty_iff
      inferInstanceAs (Decidable (_ → _))
  | .keep _ | .copy _ _ | .testSend _ | .testShutdown _ | .storeState _ | .queueinLoop _
  | .handleEvent | .handleClose | .closeCallback | .handled | .queueCallback | .swap | .runNext
  | .finish | .mainSwap | .mainRunNext | .mainFinish => isTrue trivial

/-- Steps of a thread that keeps a pointer. -/
theorem Safe.call {s : RawCalls Tid} (safe : Safe s) {thread : Tid} (keeps : thread ∈ s.users)
    (place : UserPc) : Safe (s.setUserPc thread place) := by
  refine ⟨safe.owned, ?_, safe.covered⟩
  intro other busy
  by_cases same : other = thread
  · exact same ▸ keeps
  · exact safe.calling other (by simpa [setUserPc, same] using busy)

theorem Safe.step {s t : RawCalls Tid} {action : Action Tid} (safe : Safe s)
    (releases : s.ReleasesCovered action) (stepped : s.step action = some t) : Safe t := by
  cases action with
  | keep thread | copy source thread =>
      simp only [RawCalls.step, Option.ite_none_right_eq_some, Option.some.injEq] at stepped
      obtain ⟨_, rfl⟩ := stepped
      exact ⟨safe.owned, fun other busy => List.mem_cons_of_mem _ (safe.calling other busy),
        .inl (List.cons_ne_nil _ _)⟩
  | testSend thread | testShutdown thread =>
      simp only [RawCalls.step, Option.ite_none_right_eq_some, Option.some.injEq] at stepped
      obtain ⟨⟨keeps, _⟩, rfl⟩ := stepped
      split
      · exact safe.call keeps _
      · exact safe
  | storeState thread =>
      simp only [RawCalls.step] at stepped
      split at stepped <;> cases stepped
      next place =>
        have called := safe.call (safe.calling thread (by simp [place])) (.queueing .shutdownInLoop)
        exact ⟨called.owned, called.calling, called.covered⟩
  | queueinLoop thread =>
      simp only [RawCalls.step] at stepped
      split at stepped <;> cases stepped
      next work place =>
        have keeps := safe.calling thread (by simp [place])
        have called := safe.call keeps .idle
        exact ⟨called.owned, called.calling, .inl (List.ne_nil_of_mem keeps)⟩
  | release thread =>
      simp only [RawCalls.step, Option.ite_none_right_eq_some, Option.some.injEq] at stepped
      obtain ⟨⟨_, idle⟩, rfl⟩ := stepped
      refine ⟨safe.owned, fun other busy => ?_, ?_⟩
      · have apart : other ≠ thread := fun same => busy (same ▸ idle)
        exact (List.mem_erase_of_ne apart).mpr (safe.calling other busy)
      · by_cases last : s.users.erase thread = []
        · exact .inr (releases last)
        · exact .inl last
  | handleEvent | handleClose | handled =>
      simp only [RawCalls.step, Option.ite_none_right_eq_some, Option.some.injEq] at stepped
      obtain ⟨_, rfl⟩ := stepped
      exact safe.move safe.owned rfl rfl id
  | closeCallback =>
      simp only [RawCalls.step, Option.ite_none_right_eq_some, Option.some.injEq] at stepped
      obtain ⟨_, rfl⟩ := stepped
      refine safe.move safe.owned rfl rfl (fun _ => .inr (.inl ?_))
      simp
  | queueCallback =>
      simp only [RawCalls.step, Option.ite_none_right_eq_some, Option.some.injEq] at stepped
      obtain ⟨_, rfl⟩ := stepped
      exact safe.move safe.owned rfl rfl (fun _ => covered_of_push rfl rfl)
  | swap =>
      simp only [RawCalls.step, Option.ite_none_right_eq_some, Option.some.injEq] at stepped
      obtain ⟨_, rfl⟩ := stepped
      exact safe.move safe.owned rfl rfl (·.swap)
  | runNext =>
      obtain ⟨work, found, rfl⟩ := Option.map_eq_some_iff.mp stepped
      obtain ⟨mapped, users, userPc, mainQueue, orphaned⟩ := s.run_frame work
      refine safe.move ?_ userPc users (fun covered => covered.advance found mapped mainQueue rfl)
      rw [orphaned, safe.owned, Bool.false_or]
      cases binds : work.binds with
      | true => rfl
      | false => simpa using safe.owned_of_next found binds
  | finish =>
      simp only [RawCalls.step, Option.ite_none_right_eq_some, Option.some.injEq] at stepped
      obtain ⟨_, rfl⟩ := stepped
      exact safe.move safe.owned rfl rfl (·.finish)
  | mainSwap =>
      simp only [RawCalls.step, Option.ite_none_right_eq_some, Option.some.injEq] at stepped
      obtain ⟨empty, rfl⟩ := stepped
      refine safe.move safe.owned rfl rfl (·.main (TaskQueue.contents_swap ?_))
      simp [TaskQueue.remaining, empty]
  | mainRunNext =>
      obtain ⟨_, _, rfl⟩ := Option.map_eq_some_iff.mp stepped
      exact safe.move safe.owned rfl rfl
        (fun _ => covered_of_push rfl rfl)
  | mainFinish =>
      simp only [RawCalls.step, Option.ite_none_right_eq_some, Option.some.injEq] at stepped
      obtain ⟨finished, rfl⟩ := stepped
      refine safe.move safe.owned rfl rfl (·.main (TaskQueue.contents_finish ?_))
      exact TaskQueue.remaining_eq_nil_iff.mpr (Option.isNone_iff_eq_none.mp finished)

/-- In every run in which the last pointer of another thread is dropped only while the
removal covers the waiting raw functors, each of them is run on a connection with an
owner. -/
theorem raw_functors_run_owned (actions : List (Action Tid))
    (releases : interleaving.Guarded ReleasesCovered make actions) :
    interleaving.Always (fun s => s.orphaned = false) make actions :=
  Machine.always_of_guarded
    (fun _ _ _ safe releases stepped => Safe.step safe releases stepped)
    (fun _ safe => Safe.owned safe) make_safe releases

/-! ## A send that is queued late -/

/-- Thread 1 keeps the pointer it was given in the first callback, and has tested
`state_` when the connection is closed and removed. -/
def removedDuringSend : List (Action Nat) :=
  [.swap, .runNext, .keep 1, .finish, .testSend 1, .handleEvent, .handleClose, .closeCallback,
    .handled, .mainSwap, .mainRunNext, .mainFinish, .swap, .runNext, .finish]

/-- It queues `sendinLoop` when `connectDestroyed` has been run, and drops its pointer
before the functor runs. -/
theorem late_send_runs_without_owner :
    ¬ interleaving.Always (fun s => s.orphaned = false) make
      (removedDuringSend ++ [.queueinLoop 1, .release 1, .swap, .runNext]) := by
  decide

/-- It queues `sendinLoop` before `connectDestroyed` is swapped, or keeps its pointer
until the functor has run. -/
theorem raw_functors_run_owned_covered :
    interleaving.Always (fun s => s.orphaned = false) (make : RawCalls Nat)
      [.swap, .runNext, .keep 1, .finish, .testSend 1, .handleEvent, .handleClose,
        .closeCallback, .handled, .queueinLoop 1, .release 1, .mainSwap, .mainRunNext,
        .mainFinish, .swap, .runNext, .runNext, .finish] ∧
    interleaving.Always (fun s => s.orphaned = false) make
      (removedDuringSend ++ [.queueinLoop 1, .swap, .runNext, .release 1]) :=
  ⟨raw_functors_run_owned _ (by decide), raw_functors_run_owned _ (by decide)⟩

end RawCalls

end Lucky.Server
