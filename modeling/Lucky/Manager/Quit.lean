import Lucky.Manager.Thread

/-!
# Quit requests

`~Manager` stores `quit_` and then waits in `join()` for the loop to stop.
`startLoop` returns as soon as the loop is published, but `loop()` begins with
`quit_ = false`: a request stored before that is forgotten, one stored after it
is not.
-/

namespace Lucky

open Systems

/-- The thread has passed the `quit_ = false` of its `loop()`. -/
def ThreadPc.pastReset : ThreadPc → LoopPc → Bool
  | .looping, pc => pc != .entered
  | .returned, _ | .cleared, _ | .finished, _ => true
  | .unstarted, _ | .started, _ | .callback, _ | .published, _ => false

/-- In the body of `loop()`, or before the test that begins it. -/
def LoopPc.iterating : LoopPc → Bool
  | .test | .polling | .handling _ | .flagged | .running => true
  | .outside | .entered | .stopping => false

namespace Manager

variable {Tid F : Type}

/-- No iteration has begun after a `quit()` stored `quit_`, and `~Manager` is not
waiting for a loop that goes on. -/
structure QuitRemembered (m : Manager Tid F) : Prop where
  iterations : m.lateIterations = 0
  joining : ¬ (m.owner = .joining ∧ m.thread = .looping ∧ m.loop.pc.iterating = true ∧
    m.loop.quit = false)

instance (m : Manager Tid F) : Decidable (QuitRemembered m) :=
  decidable_of_iff
    (m.lateIterations = 0 ∧ ¬ (m.owner = .joining ∧ m.thread = .looping ∧
      m.loop.pc.iterating = true ∧ m.loop.quit = false))
    ⟨fun holds => ⟨holds.1, holds.2⟩, fun remembered => ⟨remembered.1, remembered.2⟩⟩

/-- `quit_` is stored only after `loop()` has reset it. -/
def StoresAfterReset (m : Manager Tid F) (action : Action Tid F) : Prop :=
  action.storesQuit = true → m.thread.pastReset m.loop.pc = true

instance (m : Manager Tid F) (action : Action Tid F) : Decidable (m.StoresAfterReset action) :=
  inferInstanceAs (Decidable (_ → _))

/-- A stored request stays in `quit_`, and `~Manager` waits only after its own. -/
structure Heeded (m : Manager Tid F) : Prop where
  iterations : m.lateIterations = 0
  stored : m.quitStored = true → m.thread.pastReset m.loop.pc = true ∧ m.loop.quit = true
  waits : m.owner = .quitting ∨ m.owner = .joining → m.quitStored = true
  begun : m.owner = .constructed → m.thread = .unstarted

theorem make_heeded (ownerId : Tid) : Heeded (make ownerId : Manager Tid F) :=
  ⟨rfl, by simp [make], by simp [make], fun _ => rfl⟩

theorem Heeded.remembered {m : Manager Tid F} (heeded : Heeded m) : QuitRemembered m := by
  refine ⟨heeded.iterations, ?_⟩
  rintro ⟨joining, -, -, forgotten⟩
  have stored := (heeded.stored (heeded.waits (.inr joining))).2
  simp [stored] at forgotten

variable [DecidableEq Tid]

/-- A step of the loop: once `quit_` is stored it stays, since the reset is past. -/
theorem Heeded.event {m : Manager Tid F} (heeded : Heeded m)
    {action : EventLoop.Action Tid F} (afterReset : m.StoresAfterReset (.event action))
    (permitted : m.permits action = true) {loop : EventLoop Tid F}
    (stepped : m.loop.step action = some loop) : Heeded (m.advance action loop) := by
  obtain ⟨quit, pc⟩ := EventLoop.step_quit_pc stepped
  refine ⟨?_, ?_, fun waiting => by simp [advance, heeded.waits waiting], ?_⟩
  · simp only [advance, heeded.iterations, Nat.zero_add]
    split
    next =>
      cases stored : m.quitStored with
      | false => rfl
      | true => simp [pc, (heeded.stored stored).2]
    next => rfl
  · intro stored
    cases action with
    | quit caller => exact ⟨by simpa [advance, pc] using afterReset rfl, quit⟩
    | loop =>
        have earlier := heeded.stored (by simpa [advance, Action.storesQuit] using stored)
        have published : m.thread = .published := by
          simpa [permits] using permitted
        simp [published, ThreadPc.pastReset] at earlier
    | resetQuit =>
        have earlier := heeded.stored (by simpa [advance, Action.storesQuit] using stored)
        have looping : m.thread = .looping := by
          simpa [permits, EventLoop.Action.caller?] using permitted
        simp only [EventLoop.step, Option.ite_none_right_eq_some] at stepped
        simp [looping, ThreadPc.pastReset, stepped.1.1] at earlier
    | stop =>
        have earlier := heeded.stored (by simpa [advance, Action.storesQuit] using stored)
        exact ⟨rfl, quit.trans earlier.2⟩
    | testQuit | epoll wakeup | handelwakeupRead | beginPendFunc | swap | endPendFunc =>
        have earlier := heeded.stored (by simpa [advance, Action.storesQuit] using stored)
        have looping : m.thread = .looping := by
          simpa [permits, EventLoop.Action.caller?] using permitted
        refine ⟨?_, quit.trans earlier.2⟩
        simp [advance, looping, ThreadPc.pastReset, pc, earlier.2]
    | runNext | queueinLoop caller functor | runinLoop caller functor | push caller
    | notify caller | quitNotify caller | wakeup caller =>
        have earlier := heeded.stored (by simpa [advance, Action.storesQuit] using stored)
        exact ⟨by simpa [advance, pc] using earlier.1, quit.trans earlier.2⟩
  · intro constructed
    have unstarted := heeded.begun constructed
    cases action with
    | loop | stop => simp [permits, EventLoop.Action.caller?, unstarted] at permitted
    | _ => exact unstarted

theorem Heeded.step {m n : Manager Tid F} {action : Action Tid F} (heeded : Heeded m)
    (afterReset : m.StoresAfterReset action) (stepped : m.step action = some n) : Heeded n := by
  cases action with
  | startLoop =>
      simp only [Manager.step, Option.ite_none_right_eq_some, Option.some.injEq] at stepped
      obtain ⟨constructed, rfl⟩ := stepped
      have unstored : ¬ m.quitStored = true := fun stored => by
        simpa [heeded.begun constructed, ThreadPc.pastReset] using heeded.stored stored
      exact ⟨heeded.iterations, fun stored => absurd stored unstored, by simp, by simp⟩
  | construct | publish =>
      simp only [Manager.step, Option.ite_none_right_eq_some, Option.some.injEq] at stepped
      obtain ⟨place, rfl⟩ := stepped
      have unstored : ¬ m.quitStored = true := fun stored => by
        simpa [place, ThreadPc.pastReset] using heeded.stored stored
      refine ⟨heeded.iterations, fun stored => absurd stored unstored, heeded.waits, ?_⟩
      intro constructed
      simp [heeded.begun constructed] at place
  | clear | destruct =>
      simp only [Manager.step, Option.ite_none_right_eq_some, Option.some.injEq] at stepped
      obtain ⟨place, rfl⟩ := stepped
      refine ⟨heeded.iterations, fun stored => ⟨rfl, (heeded.stored stored).2⟩,
        heeded.waits, ?_⟩
      intro constructed
      simp [heeded.begun constructed] at place
  | startLoopReturns | testLoop | readLoop | join =>
      simp only [Manager.step, Option.ite_none_right_eq_some, Option.some.injEq] at stepped
      obtain ⟨_, rfl⟩ := stepped
      refine ⟨heeded.iterations, heeded.stored, ?_, ?_⟩ <;> cases m.published <;> simp
  | event action =>
      simp only [Manager.step, Option.ite_none_right_eq_some, Option.map_eq_some_iff] at stepped
      obtain ⟨permitted, loop, moved, rfl⟩ := stepped
      exact heeded.event afterReset permitted moved
  | storeQuit =>
      simp only [Manager.step, Option.ite_none_right_eq_some] at stepped
      obtain ⟨_, stored⟩ := stepped
      split at stored
      · cases stored
        exact ⟨heeded.iterations, heeded.stored, by simp, by simp⟩
      · obtain ⟨loop, moved, rfl⟩ := Option.map_eq_some_iff.mp stored
        obtain ⟨quit, pc⟩ := EventLoop.step_quit_pc moved
        refine ⟨heeded.iterations, fun _ => ⟨?_, quit⟩, fun _ => rfl, by simp⟩
        rw [pc]
        exact afterReset rfl
  | wakeupLoop =>
      simp only [Manager.step, Option.ite_none_right_eq_some] at stepped
      obtain ⟨quitting, woken⟩ := stepped
      split at woken
      · cases woken
        exact ⟨heeded.iterations, heeded.stored, by simp, by simp⟩
      · obtain ⟨loop, moved, rfl⟩ := Option.map_eq_some_iff.mp woken
        obtain ⟨quit, pc⟩ := EventLoop.step_quit_pc moved
        have requested := heeded.stored (heeded.waits (.inl quitting))
        refine ⟨heeded.iterations, fun _ => ⟨?_, quit.trans requested.2⟩,
          fun _ => heeded.waits (.inl quitting), by simp⟩
        rw [pc]
        exact requested.1

/-- In every run in which `quit_` is stored only after `loop()` has reset it, no
iteration begins after a request and `~Manager` never waits for a loop that goes
on. -/
theorem quit_remembered_of_stores_after_reset {ownerId : Tid} {actions : List (Action Tid F)}
    (afterReset : interleaving.Guarded StoresAfterReset (make ownerId) actions) :
    interleaving.Always QuitRemembered (make ownerId) actions :=
  Machine.always_of_guarded
    (fun _ _ _ heeded afterReset stepped => heeded.step afterReset stepped)
    (fun _ heeded => heeded.remembered) (make_heeded ownerId) afterReset

/-- The owner destroys the `Manager` as soon as `startLoop` has returned. -/
def earlyDestruction : List (Action Nat Nat) :=
  [.startLoop, .construct, .publish, .startLoopReturns, .testLoop, .readLoop, .storeQuit,
    .wakeupLoop, .event .loop, .event .resetQuit, .event .testQuit]

/-- The request is stored before the reset: `~Manager` waits in `join()` for a loop
that has begun an iteration with `quit_ = false`. -/
theorem early_destruction_forgets_quit :
    (∃ m, interleaving.exec (make 0) earlyDestruction = some m ∧ m.owner = .joining ∧
      m.thread = .looping ∧ m.loop.pc = .polling ∧ m.loop.quit = false ∧
      m.lateIterations = 1) ∧
    ¬ interleaving.Always QuitRemembered (make 0) earlyDestruction :=
  ⟨⟨_, rfl, rfl, rfl, rfl, rfl, rfl⟩, by decide⟩

/-- The same teardown after the reset ends with the thread joined. -/
theorem quit_remembered_of_stores_after_reset_joined :
    interleaving.Always QuitRemembered (make 0)
      [.startLoop, .construct, .publish, .startLoopReturns, .event .loop,
        .event (.resetQuit : EventLoop.Action Nat Nat), .event .testQuit, .testLoop, .readLoop,
        .storeQuit, .wakeupLoop, .event (.epoll true), .event .handelwakeupRead,
        .event .beginPendFunc, .event .swap, .event .endPendFunc, .event .testQuit, .event .stop,
        .clear, .destruct, .join] :=
  quit_remembered_of_stores_after_reset (by decide)

end Manager

end Lucky
