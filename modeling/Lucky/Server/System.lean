import Lucky.Connection.Closing
import Lucky.EventLoop.TaskQueue
import Lucky.Server.Names
import Lucky.Systems.Machine
import Mathlib.Data.Fintype.Option

/-!
# The server, its loops and its connections

`Server` accepts connections on the main loop and hands each to one loop for
good.  A loop's thread alternates between the handlers of the reported `Filed`s
and the functors of its queue; each piece of code is cut at the places where it
hands a connection to another loop or runs user code.

A connection is named by a number that is never used again, so that a raw
pointer to a destroyed connection cannot be mistaken for one to a later
connection.  It is destroyed, and its descriptor closed, when it has no owner
left: no entry of `connections_`, no functor that binds it, no code running
under a `shared_ptr` to it, no pointer kept by the user.

User code calls `send` and `shutdown` of a connection on the thread of its own loop
only.  Called on another thread they store `state_` there and queue functors that
bind a raw `this`: these calls are left out here and are the subject of `Finality`,
`HalfClose`, `Borrowed` and `RawCalls`.  `connectionCallback_` and `messageCallback_`
are set, since unset ones throw where they are called.
-/

namespace Lucky.Server

open Systems

abbrev ConnId := Nat

/-- The main loop, or one of the `threads` loops of the pool. -/
abbrev LoopId (threads : Nat) := Option (Fin threads)

/-- A piece of code: a functor in a queue, or what a loop's thread has still to run
of a handler or a functor.  All of it runs under a `shared_ptr` to its
connections: the guard of `handleEvent`, `connPtr` of `handleClose`, `conn` of
`newConnection` or the one bound in the functor. -/
inductive Work where
  /-- A callback of `filed_`, run by `handleEvent`. -/
  | callback (kind : Filed.Callback) (conn : ConnId)
  /-- User code: one of the user's callbacks or a functor of the user. -/
  | userCode (held : List ConnId)
  /-- `closeCallback_`, which is `Server::removeConnection`. -/
  | closeCallback (conn : ConnId)
  | removeConnectionInLoop (conn : ConnId)
  | connectEstablished (conn : ConnId)
  | connectDestroyed (conn : ConnId)
  /-- The `filed_->remove()` of `connectDestroyed`. -/
  | removeFiled (conn : ConnId)
  deriving DecidableEq, Repr

def Work.conns : Work → List ConnId
  | .callback _ conn | .closeCallback conn | .removeConnectionInLoop conn
  | .connectEstablished conn | .connectDestroyed conn | .removeFiled conn => [conn]
  | .userCode held => held

inductive LoopPhase where
  | polling
  /-- Among the handlers, with the rest of `activeFileds_` and their `revents_`. -/
  | handling (active : List (ConnId × Mask))
  /-- In `doPendFunc`. -/
  | running
  deriving DecidableEq, Repr

structure LoopState where
  epoller : Epoller ConnId
  queue : TaskQueue Work
  phase : LoopPhase
  /-- What is left of the handler or functor that is running. -/
  agenda : List Work

/-- Everything that will be run, in order. -/
def LoopState.works (loop : LoopState) : List Work := loop.agenda ++ loop.queue.contents

/-- Everything that holds `shared_ptr`s: a batch is destroyed as a whole. -/
def LoopState.held (loop : LoopState) : List Work :=
  loop.agenda ++ loop.queue.functors ++ loop.queue.pendFuncs

/-- A connection that has not been destroyed, with its `name_` and `loop_`. -/
structure Member (threads : Nat) where
  name : List Char
  connection : Connection
  loop : LoopId threads

/-- `name_` and the listening address of the server. -/
structure Config where
  name : List Char
  address : Address

structure System (threads : Nat) where
  loops : LoopId threads → LoopState
  conns : ConnId → Option (Member threads)
  connections : List (List Char × ConnId)
  nextConnId : Nat
  /-- `nextLoop_` of the pool. -/
  nextLoop : Nat
  user : List ConnId

namespace System

variable {threads : Nat}

def make : System threads where
  loops _ := ⟨.make, .empty, .polling, []⟩
  conns _ := none
  connections := []
  nextConnId := 1
  nextLoop := 0
  user := []

/-- Some `shared_ptr` to the connection exists. -/
def Owned (sys : System threads) (c : ConnId) : Prop :=
  (∃ entry ∈ sys.connections, entry.2 = c) ∨ c ∈ sys.user ∨
    ∃ loop, ∃ work ∈ (sys.loops loop).held, c ∈ work.conns

instance (sys : System threads) (c : ConnId) : Decidable (sys.Owned c) :=
  inferInstanceAs (Decidable (_ ∨ _ ∨ _))

def modifyLoop (sys : System threads) (loop : LoopId threads)
    (change : LoopState → LoopState) : System threads :=
  { sys with loops := Function.update sys.loops loop (change (sys.loops loop)) }

def queueinLoop (sys : System threads) (loop : LoopId threads) (work : Work) : System threads :=
  sys.modifyLoop loop fun state => { state with queue := state.queue.push work }

def setAgenda (sys : System threads) (loop : LoopId threads) (agenda : List Work) :
    System threads :=
  sys.modifyLoop loop fun state => { state with agenda := agenda }

/-- The connection together with the `Epoller` of its loop. -/
def session (sys : System threads) (c : ConnId) (member : Member threads) : Session ConnId :=
  ⟨c, member.connection, (sys.loops member.loop).epoller, []⟩

/-- The functors a function of the connection has queued on its loop: both run a user
callback with a `shared_ptr` to the connection. -/
def queuedFunctors (c : ConnId) (calls : List Call) : List Work :=
  calls.filterMap fun
    | .queueinLoop _ => some (.userCode [c])
    | _ => none

def commit (sys : System threads) (c : ConnId) (member : Member threads)
    (session : Session ConnId) : System threads :=
  { sys.modifyLoop member.loop fun state => { state with
      epoller := session.epoller
      queue := (queuedFunctors c session.calls).foldl .push state.queue } with
    conns := Function.update sys.conns c (some { member with connection := session.connection }) }

/-- `getNextLoop` of the pool: the loop and the new `nextLoop_`. -/
def getNextLoop (sys : System threads) : LoopId threads × Nat :=
  if inside : sys.nextLoop < threads then
    (some ⟨sys.nextLoop, inside⟩, if threads ≤ sys.nextLoop + 1 then 0 else sys.nextLoop + 1)
  else
    (none, sys.nextLoop)

/-- `newConnection`: `runinLoop` runs `connectEstablished` at once when the connection
stays on the main loop. -/
def newConnection (config : Config) (sys : System threads) (sockfd : Nat)
    (writeCompleteCallback highWaterMarkCallback : Bool) : System threads :=
  let ioLoop := sys.getNextLoop.1
  let name := connName config.name config.address.toIpPort sys.nextConnId
  let accepted := { sys with
    conns := Function.update sys.conns sys.nextConnId
      (some ⟨name, Connection.make sockfd writeCompleteCallback highWaterMarkCallback, ioLoop⟩)
    connections := (name, sys.nextConnId) :: sys.connections.filter (·.1 ≠ name)
    nextConnId := sys.nextConnId + 1
    nextLoop := sys.getNextLoop.2 }
  if ioLoop = none then
    accepted.setAgenda none [.connectEstablished sys.nextConnId]
  else
    accepted.queueinLoop ioLoop (.connectEstablished sys.nextConnId)

/-- `removeConnection`, by the thread of `loop` with `rest` still to run. -/
def removeConnection (sys : System threads) (loop : LoopId threads) (c : ConnId)
    (rest : List Work) : System threads :=
  if loop = none then
    sys.setAgenda loop (.removeConnectionInLoop c :: rest)
  else
    (sys.setAgenda loop rest).queueinLoop none (.removeConnectionInLoop c)

def removeConnectionInLoop (sys : System threads) (c : ConnId) (member : Member threads) :
    System threads :=
  { sys with connections := sys.connections.filter (·.1 ≠ member.name) }.queueinLoop
    member.loop (.connectDestroyed c)

/-- Run the first piece of the agenda, whose rest is `rest`.  After a read of 0 bytes
`handleRead` goes on to `handleClose`. -/
def perform (sys : System threads) (loop : LoopId threads) (readv : ReadvResult)
    (write : WriteResult) (rest : List Work) : Work → Option (System threads)
  | .userCode _ | .callback .error _ => some (sys.setAgenda loop rest)
  | .callback .close c =>
      (sys.conns c).bind fun member =>
        (sys.session c member).beginClose.toOption.map fun session =>
          (sys.commit c member session).setAgenda loop (.userCode [c] :: .closeCallback c :: rest)
  | .callback .read c =>
      (sys.conns c).bind fun member =>
        if readv.count = 0 then
          some (sys.setAgenda loop (.callback .close c :: rest))
        else
          ((sys.session c member).handleRead readv []).toOption.map fun session =>
            (sys.commit c member session).setAgenda loop
              (if 0 < readv.count then .userCode [c] :: rest else rest)
  | .callback .write c =>
      (sys.conns c).bind fun member =>
        ((sys.session c member).handleWrite write).toOption.map fun session =>
          (sys.commit c member session).setAgenda loop rest
  | .closeCallback c => some (sys.removeConnection loop c rest)
  | .removeConnectionInLoop c =>
      (sys.conns c).map fun member =>
        (sys.setAgenda loop rest).removeConnectionInLoop c member
  | .connectEstablished c =>
      (sys.conns c).bind fun member =>
        (sys.session c member).establish.toOption.map fun session =>
          (sys.commit c member session).setAgenda loop (.userCode [c] :: rest)
  | .connectDestroyed c =>
      (sys.conns c).bind fun member =>
        if member.connection.state = .kConnected then
          (sys.session c member).beginClose.toOption.map fun session =>
            (sys.commit c member session).setAgenda loop (.userCode [c] :: .removeFiled c :: rest)
        else
          some (sys.setAgenda loop (.removeFiled c :: rest))
  | .removeFiled c =>
      (sys.conns c).bind fun member =>
        ((sys.session c member).onFiled Filed.remove).toOption.map fun session =>
          (sys.commit c member session).setAgenda loop rest

/-- The `shared_ptr`s of the user code a loop's thread is running. -/
def running (sys : System threads) (loop : LoopId threads) : Option (List ConnId) :=
  match (sys.loops loop).agenda with
  | .userCode held :: _ => some held
  | _ => none

inductive Action (threads : Nat) where
  /-- `epoll_wait` reports some monitored descriptors. -/
  | poll (loop : LoopId threads) (reports : List (Nat × Mask))
  /-- `handleEvent` of the next active `Filed`. -/
  | handleEvent (loop : LoopId threads)
  /-- The acceptor's handler gets a new descriptor. -/
  | accept (sockfd : Nat) (writeCompleteCallback highWaterMarkCallback : Bool)
  /-- `doPendFunc` swaps the queue. -/
  | swap (loop : LoopId threads)
  | runNext (loop : LoopId threads)
  /-- The end of `doPendFunc`. -/
  | finish (loop : LoopId threads)
  /-- The loop's thread goes on with its agenda. -/
  | perform (loop : LoopId threads) (readv : ReadvResult) (write : WriteResult)
  /-- User code calls a function of a connection on the connection's own loop. -/
  | userCall (loop : LoopId threads) (c : ConnId) (call : UserCall)
  /-- User code keeps a copy of a pointer it was given. -/
  | keep (loop : LoopId threads) (c : ConnId)
  /-- The user drops a pointer. -/
  | release (c : ConnId)
  /-- The user queues a functor that binds some of the pointers kept. -/
  | queueUser (loop : LoopId threads) (held : List ConnId)
  /-- `~Connection`, which closes the descriptor. -/
  | destroy (c : ConnId)

def step (config : Config) (sys : System threads) : Action threads → Option (System threads)
  | .poll loop reports =>
      if (sys.loops loop).phase = .polling then
        some (sys.modifyLoop loop fun state => { state with
          phase := .handling (reports.filterMap fun report =>
            (state.epoller.interest report.1).map fun event => (event.ptr, report.2)) })
      else none
  | .handleEvent loop =>
      match (sys.loops loop).phase, (sys.loops loop).agenda with
      | .handling ((c, revents) :: active), [] =>
          (sys.conns c).map fun member => sys.modifyLoop loop fun state => { state with
            phase := .handling active
            agenda := ({ member.connection.filed with revents := revents }.handleEvent
              (fun _ => true) true).map (.callback · c) }
      | _, _ => none
  | .accept sockfd writeCompleteCallback highWaterMarkCallback =>
      match (sys.loops none).phase, (sys.loops none).agenda with
      | .handling _, [] =>
          if (∀ c < sys.nextConnId, ∀ member ∈ sys.conns c,
              member.connection.filed.fd ≠ sockfd) ∧ sys.nextConnId + 1 < 2 ^ 31 then
            some (sys.newConnection config sockfd writeCompleteCallback highWaterMarkCallback)
          else none
      | _, _ => none
  | .swap loop =>
      if (sys.loops loop).phase = .handling [] ∧ (sys.loops loop).agenda = [] then
        some (sys.modifyLoop loop fun state => { state with
          phase := .running, queue := state.queue.swap })
      else none
  | .runNext loop =>
      if (sys.loops loop).phase = .running ∧ (sys.loops loop).agenda = [] then
        (sys.loops loop).queue.next?.map fun work => sys.modifyLoop loop fun state => { state with
          queue := state.queue.advance, agenda := [work] }
      else none
  | .finish loop =>
      if (sys.loops loop).phase = .running ∧ (sys.loops loop).agenda = [] ∧
          (sys.loops loop).queue.next?.isNone then
        some (sys.modifyLoop loop fun state => { state with
          phase := .polling, queue := state.queue.finish })
      else none
  | .perform loop readv write =>
      match (sys.loops loop).agenda with
      | work :: rest => sys.perform loop readv write rest work
      | [] => none
  | .userCall loop c call =>
      (sys.running loop).bind fun held => (sys.conns c).bind fun member =>
        if (c ∈ held ∨ c ∈ sys.user) ∧ member.loop = loop then
          ((sys.session c member).userCall call).toOption.map (sys.commit c member)
        else none
  | .keep loop c =>
      (sys.running loop).bind fun held =>
        if c ∈ held then some { sys with user := c :: sys.user } else none
  | .release c => if c ∈ sys.user then some { sys with user := sys.user.erase c } else none
  | .queueUser loop held =>
      if ∀ c ∈ held, c ∈ sys.user then some (sys.queueinLoop loop (.userCode held)) else none
  | .destroy c =>
      (sys.conns c).bind fun member =>
        if sys.Owned c then none
        else some { sys with
          conns := Function.update sys.conns c none
          loops := fun loop => { sys.loops loop with
            epoller := { (sys.loops loop).epoller with
              interest := Function.update (sys.loops loop).epoller.interest
                member.connection.filed.fd none } } }

/-- Every interleaving of the loops' threads, the user and the kernel. -/
def interleaving (config : Config) : Machine (System threads) (Action threads) := ⟨step config⟩

end System

end Lucky.Server
