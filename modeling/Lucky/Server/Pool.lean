import Lucky.Manager.Handshake
import Lucky.Server.Startup

/-!
# The pool while it is started

`ManagerPool::start` creates one `Manager` after the other, each in the next position
of `threads_`, and appends its loop to `loops_` when `startLoop` returns it.
Meanwhile the threads already started go on.
-/

namespace Lucky

open Systems

namespace Manager

variable {Tid F : Type} [DecidableEq Tid]

/-- The steps of the new thread and of its loop. -/
def Action.byThread : Action Tid F → Bool
  | .construct | .publish | .event _ | .clear | .destruct => true
  | .startLoop | .startLoopReturns | .testLoop | .readLoop | .storeQuit | .wakeupLoop | .join =>
      false

theorem step_byThread {m n : Manager Tid F} {action : Action Tid F}
    (byThread : action.byThread = true) (stepped : m.step action = some n) :
    n.owner = m.owner ∧ m.MeetsLoop action := by
  cases action with
  | construct | publish | clear | destruct =>
      simp only [step, Option.ite_none_right_eq_some, Option.some.injEq] at stepped
      obtain ⟨_, rfl⟩ := stepped
      exact ⟨rfl, trivial⟩
  | event action => exact ⟨(loopMove stepped).owner, trivial⟩
  | startLoop | startLoopReturns | testLoop | readLoop | storeQuit | wakeupLoop | join =>
      cases byThread

/-- A thread `startLoop` waits for has been started. -/
def Begun (m : Manager Tid F) : Prop := m.owner = .waiting → m.thread ≠ .unstarted

theorem Begun.step {m n : Manager Tid F} {action : Action Tid F} (begun : m.Begun)
    (stepped : m.step action = some n) : n.Begun := by
  intro waiting
  cases action with
  | startLoop | construct | publish | clear | destruct =>
      simp only [Manager.step, Option.ite_none_right_eq_some, Option.some.injEq] at stepped
      obtain ⟨_, rfl⟩ := stepped
      simp
  | startLoopReturns =>
      simp only [Manager.step, Option.ite_none_right_eq_some, Option.some.injEq] at stepped
      obtain ⟨_, rfl⟩ := stepped
      cases waiting
  | event action =>
      have move := loopMove stepped
      rcases move.thread with same | ⟨_, after⟩ | ⟨_, after⟩
      · rw [same]
        exact begun (move.owner.symm.trans waiting)
      · simp [after]
      · simp [after]
  | testLoop | readLoop | storeQuit | wakeupLoop | join =>
      exact absurd waiting (ownerMove rfl stepped).after.1

theorem begun_of_reachable {m : Manager Tid F} {ownerId : Tid}
    (reached : interleaving.Reachable (make ownerId) m) : m.Begun := by
  have initially : Begun (make ownerId : Manager Tid F) := by simp [Begun, make]
  have kept (state : Manager Tid F) (action : Action Tid F) (next : Manager Tid F)
      (begun : Begun state) (stepped : state.step action = some next) : Begun next :=
    begun.step stepped
  exact reached.invariant kept initially

/-- The thread has taken `loop_` back for good. -/
structure Cleared (m : Manager Tid F) : Prop where
  published : m.published = false
  thread : m.thread = .cleared ∨ m.thread = .finished

theorem Cleared.step {m n : Manager Tid F} {action : Action Tid F} (cleared : m.Cleared)
    (byThread : action.byThread = true) (stepped : m.step action = some n) : n.Cleared := by
  have ended := cleared.thread
  cases action with
  | construct | publish | clear =>
      simp only [Manager.step, Option.ite_none_right_eq_some] at stepped
      simp [stepped.1] at ended
  | event action =>
      have move := loopMove stepped
      refine ⟨move.published.trans cleared.published, ?_⟩
      rcases move.thread with same | ⟨before, _⟩ | ⟨before, _⟩
      · exact same ▸ ended
      · simp [before] at ended
      · simp [before] at ended
  | destruct =>
      simp only [Manager.step, Option.ite_none_right_eq_some, Option.some.injEq] at stepped
      obtain ⟨_, rfl⟩ := stepped
      exact ⟨cleared.published, .inr rfl⟩
  | startLoop | startLoopReturns | testLoop | readLoop | storeQuit | wakeupLoop | join =>
      cases byThread

end Manager

namespace Startup

variable {Tid F : Type}

/-- The first threads of the pool have returned their loops. -/
structure Built (config : Config Tid) (threads : List (Manager Tid F)) (names : List (List Char))
    (loops : List Nat) (count : Nat) : Prop where
  loops : loops = List.range count
  names : names = (List.range threads.length).map config.threadName
  running : ∀ position < count, ∀ manager ∈ threads[position]?, manager.owner = .running

/-- One more thread of the pool has been started. -/
theorem Built.create {config : Config Tid} {threads : List (Manager Tid F)}
    {names : List (List Char)} {loops : List Nat} {count : Nat}
    (built : Built config threads names loops count) (length : threads.length = count)
    (manager : Manager Tid F) :
    Built config (threads ++ [manager]) (names ++ [config.threadName count]) loops count where
  loops := built.loops
  names := by
    rw [List.length_append, List.length_singleton, List.range_succ, List.map_append,
      ← built.names, length]
    rfl
  running position inside := by
    rw [List.getElem?_append_left (length ▸ inside)]
    exact built.running position inside

/-- The thread started last has returned its loop. -/
theorem Built.return {config : Config Tid} {threads : List (Manager Tid F)}
    {names : List (List Char)} {loops : List Nat} {count : Nat}
    (built : Built config threads names loops count) (length : threads.length = count + 1)
    {manager : Manager Tid F} (running : manager.owner = .running) :
    Built config (threads.set count manager) names (loops ++ [count]) (count + 1) where
  loops := by
    rw [built.loops, List.range_succ]
  names := by
    rw [List.length_set]
    exact built.names
  running position inside other found := by
    by_cases last : position = count
    · subst last
      rw [List.getElem?_set_self (length ▸ inside)] at found
      cases found
      exact running
    · rw [List.getElem?_set_ne (Ne.symm last)] at found
      exact built.running position (Nat.lt_of_le_of_ne (Nat.le_of_lt_succ inside) last) other found

/-- A thread of the pool goes on. -/
theorem Built.set {config : Config Tid} {threads : List (Manager Tid F)}
    {names : List (List Char)} {loops : List Nat} {count : Nat}
    (built : Built config threads names loops count) {position : Nat}
    {before manager : Manager Tid F} (found : threads[position]? = some before)
    (owner : manager.owner = before.owner) :
    Built config (threads.set position manager) names loops count where
  loops := built.loops
  names := by
    rw [List.length_set]
    exact built.names
  running other inside member listed := by
    by_cases same : position = other
    · subst same
      rw [List.getElem?_set_self (List.getElem?_eq_some_iff.mp found).1] at listed
      cases listed
      rw [owner]
      exact built.running position inside before found
    · rw [List.getElem?_set_ne same] at listed
      exact built.running other inside member listed

/-- The pool at a stage of `ManagerPool::start`. -/
def Stands (config : Config Tid) (threads : List (Manager Tid F)) (names : List (List Char))
    (loops : List Nat) : StartingPc → Prop
  | .outside => False
  | .creating i =>
      i ≤ config.poolSize ∧ threads.length = i ∧ Built config threads names loops i
  | .awaiting i position =>
      i < config.poolSize ∧ threads.length = i + 1 ∧ position = i ∧
        (∀ manager ∈ threads[position]?, manager.owner = .waiting) ∧
        Built config threads names loops i
  | .initialising | .listening =>
      threads.length = config.poolSize ∧ Built config threads names loops config.poolSize

theorem Stands.set {config : Config Tid} {threads : List (Manager Tid F)}
    {names : List (List Char)} {loops : List Nat} {pc : StartingPc}
    (stands : Stands config threads names loops pc) {position : Nat}
    {before manager : Manager Tid F} (found : threads[position]? = some before)
    (owner : manager.owner = before.owner) :
    Stands config (threads.set position manager) names loops pc := by
  have length : (threads.set position manager).length = threads.length := List.length_set
  cases pc with
  | outside => exact stands
  | creating i => exact ⟨stands.1, length.trans stands.2.1, stands.2.2.set found owner⟩
  | awaiting i awaited =>
      obtain ⟨bounded, count, rfl, waiting, built⟩ := stands
      refine ⟨bounded, length.trans count, rfl, ?_, built.set found owner⟩
      intro member listed
      by_cases same : position = awaited
      · subst same
        rw [List.getElem?_set_self (List.getElem?_eq_some_iff.mp found).1] at listed
        cases listed
        exact owner.trans (waiting before found)
      · rw [List.getElem?_set_ne same] at listed
        exact waiting member listed
  | initialising | listening => exact ⟨length.trans stands.1, stands.2.set found owner⟩

/-- The loop that a connection gets in its turn. -/
def Config.turn (config : Config Tid) (turn : Nat) : Option Nat :=
  if config.poolSize = 0 then none else some (turn % config.poolSize)

/-- `getNextLoop` has gone round the pool since the server listens. -/
structure InTurn (config : Config Tid) (sys : Startup Tid F) : Prop where
  dealt : sys.dealt = (List.range sys.dealt.length).map config.turn
  next : 0 < config.poolSize → sys.nextLoop = sys.dealt.length % config.poolSize
  listens : sys.dealt ≠ [] → sys.isListen = true

theorem InTurn.getNextLoop {config : Config Tid} {sys : Startup Tid F}
    (inTurn : InTurn config sys) (loops : sys.loops = List.range config.poolSize) :
    sys.getNextLoop.1 = config.turn sys.dealt.length ∧
      (0 < config.poolSize →
        sys.getNextLoop.2 = (sys.dealt.length + 1) % config.poolSize) := by
  rw [Startup.getNextLoop, loops, List.length_range]
  by_cases empty : config.poolSize = 0
  · simp [empty, Config.turn]
  · have pooled := Nat.pos_of_ne_zero empty
    have inside := Nat.mod_lt sys.dealt.length pooled
    rw [inTurn.next pooled, Config.turn, if_neg empty]
    simp [empty, inside, Systems.RoundRobin.advance_mod pooled]

end Startup

end Lucky
