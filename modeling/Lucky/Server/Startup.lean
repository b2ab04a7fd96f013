import Lucky.Manager.Thread
import Lucky.Server.Names
import Lucky.Systems.RoundRobin

/-!
# Starting the server

Any thread may call `Server::start`, also from a callback of the base loop.  A call
that finds `started_` zero has `ManagerPool::start` create the threads of the pool,
one after the other, and then hands `Acceptor::listen` to the base loop; from then on
the base loop may accept.  Here the base loop is an `EventLoop`, every element of
`threads_` a `Manager`, and all of them take their steps in any order.
-/

namespace Lucky

open Systems

/-- What a functor of the base loop does. -/
inductive BaseTask (F : Type) where
  | listen
  | other (functor : F)
  deriving DecidableEq, Repr

def BaseTask.isListen {F : Type} : BaseTask F → Bool
  | .listen => true
  | .other _ => false

theorem BaseTask.isListen_iff {F : Type} {functor : BaseTask F} :
    functor.isListen = true ↔ functor = .listen := by
  cases functor <;> simp [isListen]

/-- The place of a thread in `Server::start`. -/
inductive StartingPc where
  | outside
  /-- Before the test `i < threads_num_`. -/
  | creating (i : Nat)
  /-- In `startLoop` of the `Manager` at `position` in `threads_`. -/
  | awaiting (i position : Nat)
  /-- In `cb(baseLoop_)`. -/
  | initialising
  /-- Before `loop_->runinLoop`. -/
  | listening
  deriving DecidableEq, Repr

/-- Whether the thread runs user code there, which may call a loop. -/
def StartingPc.runsUserCode : StartingPc → Bool
  | .outside | .initialising => true
  | .creating _ | .awaiting _ _ | .listening => false

structure Startup (Tid F : Type) where
  baseLoop : EventLoop Tid (BaseTask F)
  /-- The `atomic_int`. -/
  started : BitVec 32
  startPc : Tid → StartingPc
  isStart : Bool
  threads : List (Manager Tid F)
  /-- The names of `threads`. -/
  names : List (List Char)
  /-- A pointer in `loops_` is the position in `threads` of its owner. -/
  loops : List Nat
  nextLoop : Nat
  isListen : Bool
  /-- Number of calls of `start`. -/
  starts : Nat
  /-- Number of calls of `Acceptor::listen`. -/
  listens : Nat
  /-- What `getNextLoop` has returned so far; `none` is the base loop. -/
  dealt : List (Option Nat)

namespace Startup

variable {Tid F : Type}

structure Config (Tid : Type) where
  name : List Char
  threadsNum : BitVec 32
  /-- `threadInitCallback_` is set. -/
  initCallback : Bool
  /-- The thread of the base loop. -/
  mainId : Tid

/-- How often the loop of `ManagerPool::start` goes round. -/
def Config.poolSize (config : Config Tid) : Nat := config.threadsNum.toInt.toNat

/-- `snprintf(buf, name_.size() + 32, "%s%d", name_.c_str(), i)`; a zero byte ends `%s`. -/
def Config.threadName (config : Config Tid) (i : Nat) : List Char :=
  snprintf (config.name.length + 32) (config.name.takeWhile (· != '\x00') ++ decimal i)

theorem Config.poolSize_le (config : Config Tid) : config.poolSize ≤ 2 ^ 31 :=
  Int.toNat_le.mpr (Int.le_of_lt BitVec.toInt_lt)

/-- The buffer of a thread's name is never too short. -/
theorem Config.threadName_eq (config : Config Tid) {i : Nat} (small : i < 2 ^ 31) :
    config.threadName i = config.name.takeWhile (· != '\x00') ++ decimal i := by
  have digits : (decimal i).length ≤ 10 :=
    length_decimal_le (by decide) (Nat.lt_trans small (by decide))
  have text : (config.name.takeWhile (· != '\x00')).length ≤ config.name.length :=
    (List.takeWhile_prefix _).length_le
  rw [Config.threadName, snprintf, List.take_of_length_le]
  rw [List.length_append]
  omega

def make : Startup Tid F where
  baseLoop := .make
  started := 0
  startPc _ := .outside
  isStart := false
  threads := []
  names := []
  loops := []
  nextLoop := 0
  isListen := false
  starts := 0
  listens := 0
  dealt := []

inductive Action (Tid F : Type) where
  /-- `started_++ == 0`, and `is_start_ = true` if so. -/
  | start (thread : Tid)
  /-- The loop of `ManagerPool::start` goes round, up to the wait in `startLoop`, or
  ends. -/
  | create (thread : Tid)
  | startLoopReturns (thread : Tid)
  | callbackReturns (thread : Tid)
  /-- `loop_->runinLoop` with `Acceptor::listen`. -/
  | listen (thread : Tid)
  /-- A step of the base loop: of its own thread or of a caller. -/
  | base (action : EventLoop.Action Tid (BaseTask F))
  /-- A step of the thread of a `Manager`, or of a caller of its loop. -/
  | pool (position : Nat) (action : Manager.Action Tid F)
  /-- The accept field has been reported: up to the `getNextLoop` of `newConnection`. -/
  | accept
  deriving DecidableEq, Repr

/-- The functor of a call is `Acceptor::listen`, which only `start` passes. -/
def callsListen : EventLoop.Action Tid (BaseTask F) → Bool
  | .queueinLoop _ functor | .runinLoop _ functor => functor.isListen
  | _ => false

/-- The step runs `Acceptor::listen`. -/
def runsListen (loop : EventLoop Tid (BaseTask F)) :
    EventLoop.Action Tid (BaseTask F) → Bool
  | .runNext => loop.queue.next?.any (·.functor.isListen)
  | _ => false

/-- `Acceptor::listen`. -/
def acceptorListen (sys : Startup Tid F) : Startup Tid F :=
  { sys with isListen := true, listens := sys.listens + 1 }

/-- `ManagerPool::getNextLoop`. -/
def getNextLoop (sys : Startup Tid F) : Option Nat × Nat :=
  if sys.loops.isEmpty then (none, sys.nextLoop)
  else (sys.loops[sys.nextLoop]?, RoundRobin.advance sys.loops.length sys.nextLoop)

/-- The main thread is among the handlers of the base loop. -/
def handles (sys : Startup Tid F) : Prop :=
  sys.baseLoop.At (.handling true) ∨ sys.baseLoop.At (.handling false)

instance (sys : Startup Tid F) : Decidable sys.handles :=
  inferInstanceAs (Decidable (_ ∨ _))

variable [DecidableEq Tid]

/-- Who the thread is for the base loop. -/
def Config.caller (config : Config Tid) (thread : Tid) : Option Tid :=
  if thread = config.mainId then none else some thread

@[simp]
theorem Config.caller_mainId (config : Config Tid) : config.caller config.mainId = none :=
  if_pos rfl

theorem Config.caller_of_ne {config : Config Tid} {thread : Tid}
    (other : thread ≠ config.mainId) : config.caller thread = some thread := if_neg other

/-- A thread makes calls of its own only in user code, and the main thread goes on in
`loop()` only outside `start`. -/
def permitsBase (config : Config Tid) (sys : Startup Tid F)
    (action : EventLoop.Action Tid (BaseTask F)) : Bool :=
  !callsListen action && match action.caller? with
    | none => sys.startPc config.mainId == .outside
    | some none => (sys.startPc config.mainId).runsUserCode
    | some (some thread) => thread != config.mainId && (sys.startPc thread).runsUserCode

/-- The steps of a `Manager` that belong neither to `startLoop` nor to `~Manager`. -/
def permitsPool (sys : Startup Tid F) : Manager.Action Tid F → Bool
  | .construct | .publish | .clear | .destruct => true
  | .event action => action.caller?.join.all fun thread => (sys.startPc thread).runsUserCode
  | .startLoop | .startLoopReturns | .testLoop | .readLoop | .storeQuit | .wakeupLoop
  | .join => false

def setStartPc (sys : Startup Tid F) (thread : Tid) (place : StartingPc) : Startup Tid F :=
  { sys with startPc := Function.update sys.startPc thread place }

theorem startPc_setStartPc {sys : Startup Tid F} {thread other : Tid} {place : StartingPc} :
    (sys.setStartPc thread place).startPc other =
      if other = thread then place else sys.startPc other := Function.update_apply _ _ _ _

def step (config : Config Tid) (sys : Startup Tid F) : Action Tid F → Option (Startup Tid F)
  | .start thread =>
      if sys.startPc thread = .outside ∧ sys.baseLoop.MayCall (config.caller thread) then
        let counted := { sys with started := sys.started + 1, starts := sys.starts + 1 }
        if sys.started = 0 then
          some { counted.setStartPc thread (.creating 0) with isStart := true }
        else some counted
      else none
  | .create thread =>
      match sys.startPc thread with
      | .creating i =>
          if i < config.threadsNum.toInt then
            ((Manager.make thread).step .startLoop).map fun manager =>
              { sys.setStartPc thread (.awaiting i sys.threads.length) with
                threads := sys.threads ++ [manager]
                names := sys.names ++ [config.threadName i] }
          else
            some (sys.setStartPc thread
              (if config.threadsNum = 0 ∧ config.initCallback then .initialising else .listening))
      | _ => none
  | .startLoopReturns thread =>
      match sys.startPc thread with
      | .awaiting i position =>
          (sys.threads[position]?.bind fun manager => manager.step .startLoopReturns).map
            fun manager =>
              { sys.setStartPc thread (.creating (i + 1)) with
                threads := sys.threads.set position manager
                loops := sys.loops ++ [position] }
      | _ => none
  | .callbackReturns thread =>
      if sys.startPc thread = .initialising ∧
          (sys.baseLoop.callPc (config.caller thread)).isIdle then
        some (sys.setStartPc thread .listening)
      else none
  | .listen thread =>
      if sys.startPc thread = .listening then
        (sys.baseLoop.step (.runinLoop (config.caller thread) .listen)).map fun loop =>
          let returned := { sys.setStartPc thread .outside with baseLoop := loop }
          if thread = config.mainId then returned.acceptorListen else returned
      else none
  | .base action =>
      if sys.permitsBase config action then
        (sys.baseLoop.step action).map fun loop =>
          let moved := { sys with baseLoop := loop }
          if runsListen sys.baseLoop action then moved.acceptorListen else moved
      else none
  | .pool position action =>
      if sys.permitsPool action then
        (sys.threads[position]?.bind fun manager => manager.step action).map fun manager =>
          { sys with threads := sys.threads.set position manager }
      else none
  | .accept =>
      if sys.isListen ∧ sys.startPc config.mainId = .outside ∧ sys.handles then
        some { sys with
          dealt := sys.dealt ++ [sys.getNextLoop.1]
          nextLoop := sys.getNextLoop.2 }
      else none

/-- Every interleaving of the threads that call `start`, of the base loop and of the
threads of the pool. -/
def interleaving (config : Config Tid) : Machine (Startup Tid F) (Action Tid F) := ⟨step config⟩

end Startup

end Lucky
