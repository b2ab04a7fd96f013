import Lucky.Server.Launch

/-!
# The server is started once

However many threads call `start`, in whatever order, the pool is started once and
`Acceptor::listen` called once, after the pool is complete.  So `getNextLoop` never
reads a `loops_` that still grows.  Until the server listens somebody can take the
next step towards it, unless a thread of the pool has been stopped and has cleared
`loop_` before `startLoop` has seen it: then `start` never returns.
-/

namespace Lucky.Startup

open Systems

variable {Tid F : Type} [DecidableEq Tid] {config : Config Tid} {sys next : Startup Tid F}
  {place : Place Tid} {thread : Tid}

/-- The pool once the server listens. -/
structure Complete (config : Config Tid) (sys : Startup Tid F) : Prop where
  loops : sys.loops = List.range config.poolSize
  length : sys.threads.length = config.poolSize
  names : sys.names = (List.range config.poolSize).map fun i =>
    config.name.takeWhile (· != '\x00') ++ decimal i
  distinct : sys.names.Nodup
  running : ∀ manager ∈ sys.threads, manager.owner = .running ∧
    manager.thread.hasPublished = true ∧
    ∃ ownerId, Manager.interleaving.Reachable (.make ownerId) manager

/-- The thread that takes the step in `start`. -/
def Action.starting : Action Tid F → Option Tid
  | .create thread | .startLoopReturns thread | .callbackReturns thread | .listen thread =>
      some thread
  | .start _ | .base _ | .pool _ _ | .accept => none

/-- The step takes a thread of the pool to its `loop_`; user code in its callback may be
in a call of the loop. -/
def towardsLoop : Manager.Action Tid F → Bool
  | .construct | .publish => true
  | .event action => action.continues == some none
  | _ => false

/-- The steps towards `Acceptor::listen`. -/
inductive Due (config : Config Tid) (sys : Startup Tid F) : Action Tid F → Prop where
  | starting {action : Action Tid F} {thread : Tid} (inside : sys.startPc thread ≠ .outside)
      (own : action.starting = some thread) : Due config sys action
  /-- `startLoop` waits for a thread of the pool. -/
  | awaited {thread : Tid} {i position : Nat} {action : Manager.Action Tid F}
      (awaiting : sys.startPc thread = .awaiting i position)
      (towards : towardsLoop action = true) : Due config sys (.pool position action)
  /-- User code in `cb(baseLoop_)` is in a call of the base loop. -/
  | calling {thread : Tid} {action : EventLoop.Action Tid (BaseTask F)}
      (initialising : sys.startPc thread = .initialising)
      (continues : action.continues = some (config.caller thread)) : Due config sys (.base action)
  /-- The thread is in `queueinLoop`. -/
  | posting {thread : Tid} (calls : sys.baseLoop.callPc (some thread) = .queueing .listen) :
      Due config sys (.base (.push (some thread)))
  /-- The base loop has it in its queue, and its thread goes on. -/
  | queued {task : Task Tid (BaseTask F)} {action : EventLoop.Action Tid (BaseTask F)}
      (listed : task ∈ sys.baseLoop.queue.contents) (listens : task.functor = .listen)
      (own : action.caller? = none ∨ action.continues = some none) :
      Due config sys (.base action)

/-- The thread waits in `startLoop` for a thread of the pool that has cleared `loop_`. -/
def Missed (sys : Startup Tid F) (thread : Tid) : Prop :=
  ∃ i position manager, sys.startPc thread = .awaiting i position ∧
    sys.threads[position]? = some manager ∧ manager.Cleared

/-- Who takes the next step towards `Acceptor::listen`, as long as it is to come. -/
inductive Underway (config : Config Tid) (sys : Startup Tid F) : Prop where
  | goesOn (action : Action Tid F) (due : sys.Due config action)
      (enabled : (sys.step config action).isSome = true)
  | missed (thread : Tid) (missed : sys.Missed thread)
  | done (listening : sys.isListen = true)

theorem Launched.complete (launched : Launched config sys place)
    (listening : sys.isListen = true) :
    Complete config sys ∧ ∀ thread, sys.startPc thread = .outside := by
  obtain rfl := launched.place_listening listening
  obtain ⟨length, built⟩ := launched.stands
  have names : sys.names = (List.range config.poolSize).map fun i =>
      config.name.takeWhile (· != '\x00') ++ decimal i := by
    rw [built.names, length]
    refine List.map_congr_left fun i listed => ?_
    have small := Nat.lt_of_lt_of_le (List.mem_range.mp listed) config.poolSize_le
    exact config.threadName_eq small
  constructor
  · refine ⟨built.loops, length, names, ?_, fun manager listed => ?_⟩
    · rw [names]
      refine List.nodup_range.map fun first second same => ?_
      exact decimal_injective (List.append_cancel_left same)
    · obtain ⟨position, found⟩ := List.mem_iff_getElem?.mp listed
      have inside : position < config.poolSize := length ▸ (List.getElem?_eq_some_iff.mp found).1
      have running := built.running position inside manager found
      obtain ⟨reached, ordered⟩ := launched.pool manager listed
      exact ⟨running, ordered.past (by rw [running]; rfl), reached⟩
  · exact launched.nobody (by simp)

/-! ## Who goes on -/

/-- What the base loop may do, it does in the server. -/
theorem base_goes_on {action : EventLoop.Action Tid (BaseTask F)}
    (permitted : sys.permitsBase config action = true)
    (enabled : (sys.baseLoop.step action).isSome = true) :
    (sys.step config (.base action)).isSome = true := by
  simpa [Startup.step, permitted] using enabled

omit [DecidableEq Tid] in
theorem not_callsListen {action : EventLoop.Action Tid (BaseTask F)}
    (own : action.caller? = none ∨ ∃ caller, action.continues = some caller) :
    callsListen action = false := by
  cases action with
  | queueinLoop | runinLoop =>
      rcases own with own | ⟨caller, own⟩ <;> cases own
  | _ => rfl

/-- The callback of a thread in `start` goes on with its call of the base loop. -/
theorem permitsBase_calling {action : EventLoop.Action Tid (BaseTask F)}
    (initialising : sys.startPc thread = .initialising)
    (continues : action.continues = some (config.caller thread)) :
    sys.permitsBase config action = true := by
  rw [permitsBase, not_callsListen (.inr ⟨_, continues⟩),
    EventLoop.Action.caller_of_continues continues]
  by_cases main : thread = config.mainId
  · subst main
    simp [initialising, StartingPc.runsUserCode]
  · simp [Config.caller_of_ne main, main, initialising, StartingPc.runsUserCode]

/-- Where nobody is in `start`, the thread of the base loop goes on. -/
theorem permitsBase_main {action : EventLoop.Action Tid (BaseTask F)}
    (outside : sys.startPc config.mainId = .outside)
    (own : action.caller? = none ∨ action.continues = some none) :
    sys.permitsBase config action = true := by
  rw [permitsBase, not_callsListen (own.imp_right fun continues => ⟨none, continues⟩)]
  rcases own with own | continues
  · simp [own, outside]
  · simp [EventLoop.Action.caller_of_continues continues, outside, StartingPc.runsUserCode]

/-- A thread of the pool that `startLoop` waits for goes on towards its loop, or `startLoop`
returns it, or has missed it. -/
theorem Launched.awaiting (launched : Launched config sys place) {i position : Nat}
    (awaiting : sys.startPc thread = .awaiting i position) : Underway config sys := by
  obtain ⟨_, _, length, rfl, waiting, _⟩ := launched.at_place awaiting (by simp)
  have inside : position < sys.threads.length := by omega
  have found := List.getElem?_eq_getElem inside
  generalize sys.threads[position] = manager at found
  have owner := waiting manager found
  obtain ⟨⟨_, reached⟩, ordered⟩ := launched.pool manager (List.mem_of_getElem? found)
  have pointer := ordered.pointer
  have returns (published : manager.published = true) : Underway config sys :=
    .goesOn (.startLoopReturns thread) (.starting (by simp [awaiting]) rfl)
      (by simp [Startup.step, awaiting, found, Manager.step, owner, published])
  have missed (ended : manager.thread = .cleared ∨ manager.thread = .finished)
      (unpublished : manager.published = false) : Underway config sys :=
    .missed thread ⟨position, position, manager, awaiting, found, unpublished, ended⟩
  cases pc : manager.thread with
  | unstarted => exact absurd pc (Manager.begun_of_reachable reached owner)
  | started =>
      exact .goesOn (.pool position .construct) (.awaited awaiting rfl)
        (by simp [Startup.step, permitsPool, found, Manager.step, pc])
  | callback =>
      by_cases idle : (manager.loop.callPc none).isIdle = true
      · exact .goesOn (.pool position .publish) (.awaited awaiting rfl)
          (by simp [Startup.step, permitsPool, found, Manager.step, pc, idle])
      · obtain ⟨action, continues, enabled⟩ := manager.loop.call_goes_on idle
        have called := EventLoop.Action.caller_of_continues continues
        have permitted : manager.permits action = true := by
          cases action with
          | push | notify | quitNotify => simp [Manager.permits, called, pc]
          | _ => cases continues
        exact .goesOn (.pool position (.event action))
          (.awaited awaiting (by simp [towardsLoop, continues]))
          (by simpa [Startup.step, permitsPool, called, found, Manager.step, permitted]
            using enabled)
  | published | looping | returned => exact returns (by rw [pointer, pc]; rfl)
  | cleared => exact missed (.inl pc) (by rw [pointer, pc]; rfl)
  | finished => exact missed (.inr pc) (by rw [pointer, pc]; rfl)

theorem Launched.inside_goes_on (launched : Launched config sys (.inside thread)) :
    Underway config sys := by
  have inside : sys.startPc thread ≠ .outside := (launched.inside thread).mpr rfl
  have idle := launched.idle thread
  cases pc : sys.startPc thread with
  | outside => exact absurd pc inside
  | creating i =>
      refine .goesOn (.create thread) (.starting inside rfl) ?_
      simp only [pc, Startup.step]
      split
      next => simp [Manager.step, Manager.make]
      next => rfl
  | awaiting i position => exact launched.awaiting pc
  | initialising =>
      by_cases returned : (sys.baseLoop.callPc (config.caller thread)).isIdle = true
      · exact .goesOn (.callbackReturns thread) (.starting inside rfl)
          (by simp [Startup.step, pc, returned])
      · obtain ⟨action, continues, enabled⟩ := sys.baseLoop.call_goes_on returned
        exact .goesOn (.base action) (.calling pc continues)
          (base_goes_on (permitsBase_calling pc continues) enabled)
  | listening =>
      have mayCall : sys.baseLoop.MayCall (config.caller thread) := by
        refine ⟨idle (by rw [pc]; rfl), fun main => ?_⟩
        by_cases same : thread = config.mainId
        · exact launched.main (same ▸ inside)
        · simp [Config.caller_of_ne same] at main
      refine .goesOn (.listen thread) (.starting inside rfl) ?_
      simp only [pc, Startup.step, EventLoop.step, mayCall, if_true, Option.isSome_map]
      split <;> rfl

theorem Launched.underway (launched : Launched config sys place) (begun : 0 < sys.starts) :
    Underway config sys := by
  cases place with
  | before => exact absurd (launched.starts.mp rfl) (Nat.ne_of_gt begun)
  | inside thread => exact launched.inside_goes_on
  | posting thread =>
      have calls := (launched.posting thread).mpr rfl
      have other := launched.posts thread rfl
      have outside := launched.nobody (by simp) thread
      refine .goesOn (.base (.push (some thread))) (.posting calls) (base_goes_on ?_ ?_)
      · simp [permitsBase, callsListen, EventLoop.Action.caller?, other, outside,
          StartingPc.runsUserCode]
      · simp [EventLoop.step, calls]
  | queued =>
      have waits : 0 < sys.baseLoop.queue.contents.countP isListenTask := by
        rw [launched.queued]
        exact Nat.one_pos
      obtain ⟨task, listed, listens⟩ := List.countP_pos_iff.mp waits
      obtain ⟨action, own, enabled⟩ := sys.baseLoop.thread_goes_on
      have outside := launched.nobody (by simp) config.mainId
      exact .goesOn (.base action) (.queued listed (BaseTask.isListen_iff.mp listens) own)
        (base_goes_on (permitsBase_main outside own) enabled)
  | listening => exact .done launched.listening

/-! ## A loop that is missed -/

theorem Missed.step {action : Action Tid F} (missed : sys.Missed thread)
    (stepped : sys.step config action = some next) :
    next.startPc thread = sys.startPc thread ∧ next.Missed thread := by
  obtain ⟨i, position, manager, awaiting, found, cleared⟩ := missed
  have inside : position < sys.threads.length := (List.getElem?_eq_some_iff.mp found).1
  -- what is left to show of the next state
  have waits {after : Startup Tid F} {member : Manager Tid F}
      (same : after.startPc thread = sys.startPc thread)
      (listed : after.threads[position]? = some member) (missing : member.Cleared) :
      after.startPc thread = sys.startPc thread ∧ after.Missed thread :=
    ⟨same, i, position, member, same.trans awaiting, listed, missing⟩
  -- another thread moves in `start`
  have elsewhere {other : Tid} {pc : StartingPc}
      (different : sys.startPc other ≠ .awaiting i position) :
      (sys.setStartPc other pc).startPc thread = sys.startPc thread := by
    rw [startPc_setStartPc, if_neg]
    rintro rfl
    exact different awaiting
  cases action with
  | start other =>
      simp only [Startup.step, Option.ite_none_right_eq_some] at stepped
      obtain ⟨⟨outside, _⟩, chosen⟩ := stepped
      split at chosen <;> cases chosen
      · exact waits (elsewhere (by simp [outside])) found cleared
      · exact waits rfl found cleared
  | create other =>
      simp only [Startup.step] at stepped
      split at stepped
      next j creating =>
        have different : sys.startPc other ≠ .awaiting i position := by simp [creating]
        split at stepped
        · obtain ⟨new, _, rfl⟩ := Option.map_eq_some_iff.mp stepped
          refine waits (elsewhere different) ?_ cleared
          exact (List.getElem?_append_left inside).trans found
        · cases stepped
          exact waits (elsewhere different) found cleared
      next => cases stepped
  | startLoopReturns other =>
      simp only [Startup.step] at stepped
      split at stepped
      next j awaited place =>
        obtain ⟨returned, moved, rfl⟩ := Option.map_eq_some_iff.mp stepped
        obtain ⟨before, foundBefore, returns⟩ := Option.bind_eq_some_iff.mp moved
        simp only [Manager.step, Option.ite_none_right_eq_some] at returns
        have apart : awaited ≠ position := by
          rintro rfl
          cases found.symm.trans foundBefore
          simp [cleared.published] at returns
        refine waits (elsewhere ?_) ?_ cleared
        · simp [place, apart]
        · exact (List.getElem?_set_ne apart).trans found
      next => cases stepped
  | callbackReturns other =>
      simp only [Startup.step, Option.ite_none_right_eq_some, Option.some.injEq] at stepped
      obtain ⟨⟨initialising, _⟩, rfl⟩ := stepped
      exact waits (elsewhere (by simp [initialising])) found cleared
  | listen other =>
      simp only [Startup.step, Option.ite_none_right_eq_some, Option.map_eq_some_iff] at stepped
      obtain ⟨listening, loop, _, rfl⟩ := stepped
      have same : (sys.setStartPc other .outside).startPc thread = sys.startPc thread :=
        elsewhere (by simp [listening])
      split <;> exact waits same found cleared
  | base action =>
      simp only [Startup.step, Option.ite_none_right_eq_some, Option.map_eq_some_iff] at stepped
      obtain ⟨_, loop, _, rfl⟩ := stepped
      split <;> exact waits rfl found cleared
  | pool other action =>
      simp only [Startup.step, Option.ite_none_right_eq_some, Option.map_eq_some_iff,
        Option.bind_eq_some_iff] at stepped
      obtain ⟨permitted, after, ⟨before, foundBefore, moved⟩, rfl⟩ := stepped
      by_cases here : other = position
      · subst here
        cases found.symm.trans foundBefore
        exact waits rfl (List.getElem?_set_self inside)
          (cleared.step (byThread_of_permits permitted) moved)
      · exact waits rfl ((List.getElem?_set_ne here).trans found) cleared
  | accept =>
      simp only [Startup.step, Option.ite_none_right_eq_some, Option.some.injEq] at stepped
      obtain ⟨_, rfl⟩ := stepped
      exact waits rfl found cleared

/-- A thread that has missed the loop stays where it is. -/
theorem Missed.exec {final : Startup Tid F} {actions : List (Action Tid F)}
    (missed : sys.Missed thread) (run : (interleaving config).exec sys actions = some final) :
    final.startPc thread = sys.startPc thread := by
  have stays (state : Startup Tid F) (action : Action Tid F) (next : Startup Tid F)
      (before : state.startPc thread = sys.startPc thread ∧ state.Missed thread)
      (stepped : state.step config action = some next) :
      next.startPc thread = sys.startPc thread ∧ next.Missed thread := by
    obtain ⟨same, after⟩ := before.2.step stepped
    exact ⟨same.trans before.1, after⟩
  exact ((interleaving config).exec_invariant stays ⟨rfl, missed⟩ run).1

/-- Up to 2^32 calls of `start`: one thread at a time is past the test, and
`Acceptor::listen` runs at most once, with the pool complete and nobody in `start`; the
loops are dealt in turn.  Until then somebody can take the next step, or a thread in
`start` has missed the loop of a thread of the pool, and waits for ever. -/
theorem started_once (reached : (interleaving config).Reachable make sys)
    (few : sys.starts ≤ 2 ^ 32) :
    (∀ first second, sys.startPc first ≠ .outside → sys.startPc second ≠ .outside →
      first = second) ∧
    sys.listens ≤ 1 ∧
    (0 < sys.starts → Underway config sys) ∧
    (∀ thread, sys.Missed thread → ∀ actions final,
      (interleaving config).exec sys actions = some final →
      final.startPc thread = sys.startPc thread) ∧
    (sys.isListen = true → Complete config sys ∧ ∀ thread, sys.startPc thread = .outside) ∧
    sys.dealt = (List.range sys.dealt.length).map config.turn := by
  obtain ⟨place, launched⟩ := reachable_launched reached few
  refine ⟨?_, ?_, launched.underway, fun _ missed _ _ => missed.exec, launched.complete,
    launched.dealt⟩
  · intro first second firstInside secondInside
    obtain rfl := launched.thread_inside firstInside
    cases launched.thread_inside secondInside
    rfl
  · rw [launched.once]
    exact Bool.toNat_le _

/-- Two threads, and two calls of `start`. -/
def pair : Config Nat := ⟨['s'], 2, true, 0⟩

def twice : List (Action Nat Nat) :=
  [.start 1, .create 1, .start 2, .pool 0 .construct, .pool 0 .publish, .startLoopReturns 1,
    .create 1, .pool 1 .construct, .pool 1 .publish, .startLoopReturns 1, .create 1, .listen 1,
    .base (.push (some 1)), .base (.notify (some 1)), .base .loop, .base .resetQuit,
    .base .testQuit, .base (.epoll true), .base .handelwakeupRead, .base .beginPendFunc,
    .base .swap, .base .runNext, .base .endPendFunc, .base .testQuit, .base (.epoll false),
    .accept, .accept, .accept]

/-- Thread 2 stops the first loop of the pool before `startLoop` has seen it. -/
def stopped : List (Action Nat Nat) :=
  [.start 1, .create 1, .pool 0 .construct, .pool 0 .publish, .pool 0 (.event .loop),
    .pool 0 (.event .resetQuit), .pool 0 (.event (.quit (some 2))), .pool 0 (.event .testQuit),
    .pool 0 (.event .stop), .pool 0 .clear]

theorem started_once_twice :
    (∃ sys : Startup Nat Nat, (interleaving pair).exec make twice = some sys ∧
      sys.dealt.length = 3 ∧ Complete pair sys ∧
      sys.dealt = (List.range sys.dealt.length).map pair.turn) ∧
    ∃ sys : Startup Nat Nat, (interleaving pair).exec make stopped = some sys ∧
      ∀ actions final, (interleaving pair).exec sys actions = some final →
        final.startPc 1 = .awaiting 0 0 := by
  constructor
  · obtain ⟨sys, run, starts, listening, dealt⟩ : ∃ sys : Startup Nat Nat,
        (interleaving pair).exec make twice = some sys ∧ sys.starts = 2 ∧
          sys.isListen = true ∧ sys.dealt.length = 3 := ⟨_, rfl, rfl, rfl, rfl⟩
    have few : sys.starts ≤ 2 ^ 32 := by
      rw [starts]
      decide
    have once := started_once ⟨twice, run⟩ few
    exact ⟨sys, run, dealt, (once.2.2.2.2.1 listening).1, once.2.2.2.2.2⟩
  · obtain ⟨sys, run, starts, awaiting, missed⟩ : ∃ sys : Startup Nat Nat,
        (interleaving pair).exec make stopped = some sys ∧ sys.starts = 1 ∧
          sys.startPc 1 = .awaiting 0 0 ∧ sys.Missed 1 :=
      ⟨_, rfl, rfl, rfl, 0, 0, _, rfl, rfl, rfl, .inl rfl⟩
    have few : sys.starts ≤ 2 ^ 32 := by
      rw [starts]
      decide
    have once := started_once ⟨stopped, run⟩ few
    exact ⟨sys, run, fun actions final later =>
      (once.2.2.2.1 1 missed actions final later).trans awaiting⟩

end Lucky.Startup
