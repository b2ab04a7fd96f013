import Lucky.Server.Orphans

/-!
# What a step of the system can do

`Move` has one case for each thing a step does, with the guards under which it
does it.  A turn of a loop's thread runs one routine of the connection its work
is about and leaves new work before the rest of the agenda.
-/

namespace Lucky.Server

open Systems

def Work.isCallback : Work → Bool
  | .callback _ _ => true
  | .userCode _ | .closeCallback _ | .removeConnectionInLoop _ | .connectEstablished _
  | .connectDestroyed _ | .removeFiled _ => false

/-- The part of a connection's function that runs between two calls of user code. -/
inductive Routine where
  | nothing
  | beginClose
  | handleRead (readv : ReadvResult)
  | handleWrite (write : WriteResult)
  | establish
  | remove
  | userCall (call : UserCall)

def Routine.run (s : Session ConnId) : Routine → Except Fault (Session ConnId)
  | .nothing => pure s
  | .beginClose => s.beginClose
  | .handleRead readv => s.handleRead readv []
  | .handleWrite write => s.handleWrite write
  | .establish => s.establish
  | .remove => s.onFiled Filed.remove
  | .userCall call => s.userCall call

/-- The routine a piece of code runs and the work it leaves, for a connection in `state`
and the answers of the kernel. -/
inductive Turn (c : ConnId) (state : StateE) (readv : ReadvResult) (write : WriteResult) :
    Work → Routine → List Work → Prop where
  | error : Turn c state readv write (.callback .error c) .nothing []
  | close : Turn c state readv write (.callback .close c) .beginClose
      [.userCode [c], .closeCallback c]
  | ended (count : readv.count = 0) :
      Turn c state readv write (.callback .read c) .nothing [.callback .close c]
  | received (count : 0 < readv.count) :
      Turn c state readv write (.callback .read c) (.handleRead readv) [.userCode [c]]
  | failed (count : readv.count < 0) :
      Turn c state readv write (.callback .read c) (.handleRead readv) []
  | write : Turn c state readv write (.callback .write c) (.handleWrite write) []
  | establish : Turn c state readv write (.connectEstablished c) .establish [.userCode [c]]
  | disconnect (connected : state = .kConnected) :
      Turn c state readv write (.connectDestroyed c) .beginClose
        [.userCode [c], .removeFiled c]
  | destroy (disconnected : state ≠ .kConnected) :
      Turn c state readv write (.connectDestroyed c) .nothing [.removeFiled c]
  | remove : Turn c state readv write (.removeFiled c) .remove []

theorem Turn.subject {c : ConnId} {state : StateE} {readv : ReadvResult} {write : WriteResult}
    {done : Work} {routine : Routine} {new : List Work}
    (turn : Turn c state readv write done routine new) : done.subject = some c := by
  cases turn <;> rfl

theorem Turn.conns {c : ConnId} {state : StateE} {readv : ReadvResult} {write : WriteResult}
    {done : Work} {routine : Routine} {new : List Work}
    (turn : Turn c state readv write done routine new) : ∀ work ∈ new, work.conns = [c] := by
  cases turn <;> simp [Work.conns]

theorem Turn.callbacks {c : ConnId} {state : StateE} {readv : ReadvResult} {write : WriteResult}
    {done : Work} {routine : Routine} {new : List Work}
    (turn : Turn c state readv write done routine new) :
    ∀ work ∈ new, work.isCallback = true → done.isCallback = true := by
  cases turn <;> simp [Work.isCallback]

/-- A loop goes from one stage of `loop()` to the next without running a handler. -/
inductive Control (loop : LoopState) : LoopState → Prop where
  | poll (active : List (ConnId × Mask)) (phase : loop.phase = .polling) :
      Control loop { loop with phase := .handling active }
  | swap (phase : loop.phase = .handling []) (agenda : loop.agenda = []) :
      Control loop { loop with phase := .running, queue := loop.queue.swap }
  | runNext {work : Work} (phase : loop.phase = .running) (agenda : loop.agenda = [])
      (first : loop.queue.next? = some work) :
      Control loop { loop with queue := loop.queue.advance, agenda := [work] }
  | finish (phase : loop.phase = .running) (agenda : loop.agenda = [])
      (last : loop.queue.next? = none) :
      Control loop { loop with phase := .polling, queue := loop.queue.finish }

theorem Control.works {loop next : LoopState} (control : Control loop next)
    (settled : loop.Settled) : next.works = loop.works := by
  cases control with
  | poll => rfl
  | swap phase agenda =>
      have finished := (settled (by simp [phase])).1
      simp [LoopState.works, TaskQueue.contents_swap finished]
  | runNext phase agenda first =>
      simp [LoopState.works, agenda, TaskQueue.contents_of_next first]
  | finish phase agenda last =>
      have finished := TaskQueue.remaining_eq_nil_iff.mpr last
      simp [LoopState.works, TaskQueue.contents_finish finished]

theorem Control.held {loop next : LoopState} (control : Control loop next) {work : Work}
    (held : work ∈ next.held) : work ∈ loop.held := by
  cases control with
  | poll => exact held
  | swap phase agenda =>
      simp only [LoopState.held, TaskQueue.swap, List.append_nil, List.mem_append] at held ⊢
      exact held.imp_left .inl
  | @runNext moved phase agenda first =>
      have batch : moved ∈ loop.queue.functors := List.mem_of_getElem? first
      simp only [LoopState.held, TaskQueue.advance, List.mem_append, List.mem_singleton]
        at held ⊢
      rcases held with (rfl | old) | pending
      · exact .inl (.inr batch)
      · exact .inl (.inr old)
      · exact .inr pending
  | finish phase agenda last =>
      simp only [LoopState.held, TaskQueue.finish, List.append_nil, List.mem_append] at held ⊢
      exact held.imp_left .inl

theorem Control.epoller {loop next : LoopState} (control : Control loop next) :
    next.epoller = loop.epoller := by
  cases control <;> rfl

namespace System

variable {threads : Nat}

/-- The loop whose thread takes the step, when it is one of a certain thread. -/
def Action.thread : Action threads → Option (LoopId threads)
  | .poll loop _ | .handleEvent loop | .swap loop | .runNext loop | .finish loop
  | .perform loop _ _ | .userCall loop _ _ | .keep loop _ => some loop
  | .accept _ _ _ => some none
  | .release _ | .queueUser _ _ | .destroy _ => none

/-- The step runs the head of an agenda. -/
def Action.performs : Action threads → Bool
  | .perform _ _ _ => true
  | .poll _ _ | .handleEvent _ | .accept _ _ _ | .swap _ | .runNext _ | .finish _
  | .userCall _ _ _ | .keep _ _ | .release _ | .queueUser _ _ | .destroy _ => false

def Action.Performs (action : Action threads) (loop : LoopId threads) : Prop :=
  ∃ readv write, action = .perform loop readv write

/-- The callbacks `handleEvent` finds for a report. -/
def reportedCallbacks (c : ConnId) (member : Member threads) (revents : Mask) : List Work :=
  ({ member.connection.filed with revents := revents }.handleEvent (fun _ => true) true).map
    (.callback · c)

inductive Move (config : Config) (sys : System threads) :
    Action threads → System threads → Prop where
  | control {action : Action threads} {loop : LoopId threads} {change : LoopState → LoopState}
      (thread : action.thread = some loop) (plain : action.performs = false)
      (control : Control (sys.loops loop) (change (sys.loops loop))) :
      Move config sys action (sys.modifyLoop loop change)
  | handleEvent {loop : LoopId threads} {c : ConnId} {revents : Mask}
      {active : List (ConnId × Mask)} {member : Member threads}
      (phase : (sys.loops loop).phase = .handling ((c, revents) :: active))
      (agenda : (sys.loops loop).agenda = []) (found : sys.conns c = some member) :
      Move config sys (.handleEvent loop) (sys.modifyLoop loop fun state => { state with
        phase := .handling active
        agenda := reportedCallbacks c member revents })
  | accept {active : List (ConnId × Mask)} {sockfd : Nat}
      {writeCompleteCallback highWaterMarkCallback : Bool}
      (phase : (sys.loops none).phase = .handling active)
      (agenda : (sys.loops none).agenda = []) (small : sys.nextConnId + 1 < 2 ^ 31) :
      Move config sys (.accept sockfd writeCompleteCallback highWaterMarkCallback)
        (sys.newConnection config sockfd writeCompleteCallback highWaterMarkCallback)
  | turn {loop : LoopId threads} {readv : ReadvResult} {write : WriteResult} {done : Work}
      {rest new : List Work} {c : ConnId} {member : Member threads} {routine : Routine}
      {session : Session ConnId} (head : (sys.loops loop).agenda = done :: rest)
      (found : sys.conns c = some member)
      (turn : Turn c member.connection.state readv write done routine new)
      (returned : routine.run (sys.session c member) = .ok session) :
      Move config sys (.perform loop readv write) (sys.turned c member session loop new rest)
  | userCode {loop : LoopId threads} {readv : ReadvResult} {write : WriteResult}
      {inside : List ConnId} {rest : List Work}
      (head : (sys.loops loop).agenda = .userCode inside :: rest) :
      Move config sys (.perform loop readv write) (sys.setAgenda loop rest)
  | closeCallback {loop : LoopId threads} {readv : ReadvResult} {write : WriteResult}
      {rest : List Work} {c : ConnId} {member : Member threads}
      (head : (sys.loops loop).agenda = .closeCallback c :: rest)
      (found : sys.conns c = some member) :
      Move config sys (.perform loop readv write) (sys.removeConnection loop c rest)
  | removeConnectionInLoop {loop : LoopId threads} {readv : ReadvResult} {write : WriteResult}
      {rest : List Work} {c : ConnId} {member : Member threads}
      (head : (sys.loops loop).agenda = .removeConnectionInLoop c :: rest)
      (found : sys.conns c = some member) :
      Move config sys (.perform loop readv write)
        ((sys.setAgenda loop rest).removeConnectionInLoop c member)
  | userCall {loop : LoopId threads} {c : ConnId} {call : UserCall} {inside : List ConnId}
      {member : Member threads} {session : Session ConnId}
      (running : sys.running loop = some inside) (found : sys.conns c = some member)
      (known : c ∈ inside ∨ c ∈ sys.user) (here : member.loop = loop)
      (returned : Routine.run (sys.session c member) (.userCall call) = .ok session) :
      Move config sys (.userCall loop c call) (sys.commit c member session)
  | setUser {action : Action threads} {user : List ConnId} (plain : action.performs = false)
      (known : ∀ c ∈ user, sys.HandedOut c)
      (kept : ∀ c ∈ user, c ∈ sys.user ∨ ∃ loop, action = .keep loop c) :
      Move config sys action { sys with user := user }
  | queueUser {loop : LoopId threads} {inside : List ConnId}
      (known : ∀ c ∈ inside, c ∈ sys.user) :
      Move config sys (.queueUser loop inside) (sys.queueinLoop loop (.userCode inside))
  | destroy {c : ConnId} {member : Member threads} (found : sys.conns c = some member)
      (unowned : ¬ sys.Owned c) :
      Move config sys (.destroy c) { sys with
        conns := Function.update sys.conns c none
        loops := fun loop => { sys.loops loop with
          epoller := { (sys.loops loop).epoller with
            interest := Function.update (sys.loops loop).epoller.interest
              member.connection.filed.fd none } } }

variable {config : Config} {sys next : System threads} {loop : LoopId threads} {done : Work}
  {rest : List Work} {readv : ReadvResult} {write : WriteResult}

theorem newConnection_conns {sockfd : Nat} {writeCompleteCallback highWaterMarkCallback : Bool} :
    (sys.newConnection config sockfd writeCompleteCallback highWaterMarkCallback).conns =
      Function.update sys.conns sys.nextConnId (some
        ⟨config.connName sys.nextConnId,
          Connection.make sockfd writeCompleteCallback highWaterMarkCallback,
          sys.getNextLoop.1⟩) := by
  unfold System.newConnection
  dsimp only
  split <;> rfl

/-- `removeConnection` only passes on work. -/
theorem removeConnection_fields (sys : System threads) (loop : LoopId threads) (c : ConnId)
    (rest : List Work) :
    (sys.removeConnection loop c rest).conns = sys.conns ∧
      (sys.removeConnection loop c rest).connections = sys.connections ∧
      (sys.removeConnection loop c rest).nextConnId = sys.nextConnId ∧
      (sys.removeConnection loop c rest).user = sys.user ∧
      (sys.removeConnection loop c rest).nextLoop = sys.nextLoop := by
  unfold System.removeConnection
  split <;> exact ⟨rfl, rfl, rfl, rfl, rfl⟩

theorem newConnection_nextConnId {sockfd : Nat}
    {writeCompleteCallback highWaterMarkCallback : Bool} :
    (sys.newConnection config sockfd writeCompleteCallback highWaterMarkCallback).nextConnId =
      sys.nextConnId + 1 := by
  unfold System.newConnection
  dsimp only
  split <;> rfl

theorem newConnection_user {sockfd : Nat}
    {writeCompleteCallback highWaterMarkCallback : Bool} :
    (sys.newConnection config sockfd writeCompleteCallback highWaterMarkCallback).user =
      sys.user := by
  unfold System.newConnection
  dsimp only
  split <;> rfl

theorem newConnection_connections {sockfd : Nat}
    {writeCompleteCallback highWaterMarkCallback : Bool} :
    (sys.newConnection config sockfd writeCompleteCallback highWaterMarkCallback).connections =
      (config.connName sys.nextConnId, sys.nextConnId) ::
        sys.connections.filter (·.1 ≠ config.connName sys.nextConnId) := by
  unfold System.newConnection
  dsimp only
  split <;> rfl

/-- A task before a turn is the work of the turn, or is left by it. -/
theorem mem_tasks_of_head (head : (sys.loops loop).agenda = done :: rest)
    {other : LoopId threads} {d : ConnId} {work : Work}
    (task : work ∈ (sys.loops other).tasks d) :
    other = loop ∧ work = done ∧ done.subject = some d ∨
      work ∈ ((sys.setAgenda loop rest).loops other).tasks d := by
  rw [tasks_of_head head, List.mem_append] at task
  rcases task with first | later
  · split at first
    next here =>
      obtain ⟨same, about⟩ := List.mem_filter.mp first
      have equal := List.mem_singleton.mp same
      subst equal
      exact .inl ⟨here, rfl, of_decide_eq_true about⟩
    next => exact absurd first List.not_mem_nil
  · exact .inr later

theorem Anchored.perform_moves (anchored : Anchored config sys)
    (head : (sys.loops loop).agenda = done :: rest)
    (performed : sys.perform loop readv write rest done = some next) :
    Move config sys (.perform loop readv write) next := by
  -- a turn that leaves the connection as it is
  have stays {c : ConnId} {member : Member threads} (new : List Work)
      (found : sys.conns c = some member)
      (turn : Turn c member.connection.state readv write done .nothing new) :
      Move config sys (.perform loop readv write) (sys.setAgenda loop (new ++ rest)) := by
    rw [← turned_self found]
    exact .turn head found turn rfl
  cases done with
  | userCode inside =>
      cases performed
      exact .userCode head
  | callback kind c =>
      cases kind with
      | error =>
          cases performed
          obtain ⟨member, found⟩ := anchored.found head rfl
          exact stays [] found .error
      | close =>
          obtain ⟨member, found, closing⟩ := Option.bind_eq_some_iff.mp performed
          obtain ⟨session, returned, rfl⟩ := Option.map_eq_some_iff.mp closing
          exact .turn head found .close (toOption_eq_some.mp returned)
      | read =>
          obtain ⟨member, found, reading⟩ := Option.bind_eq_some_iff.mp performed
          split at reading
          next ended =>
            cases reading
            exact stays [.callback .close c] found (.ended ended)
          next nonzero =>
            obtain ⟨session, returned, rfl⟩ := Option.map_eq_some_iff.mp reading
            have ran := toOption_eq_some.mp returned
            split
            next received => exact .turn head found (.received received) ran
            next missing => exact .turn head found (.failed (by omega)) ran
      | write =>
          obtain ⟨member, found, writing⟩ := Option.bind_eq_some_iff.mp performed
          obtain ⟨session, returned, rfl⟩ := Option.map_eq_some_iff.mp writing
          exact .turn head found .write (toOption_eq_some.mp returned)
  | closeCallback c =>
      cases performed
      obtain ⟨member, found⟩ := anchored.found head rfl
      exact .closeCallback head found
  | removeConnectionInLoop c =>
      obtain ⟨member, found, rfl⟩ := Option.map_eq_some_iff.mp performed
      exact .removeConnectionInLoop head found
  | connectEstablished c =>
      obtain ⟨member, found, establishing⟩ := Option.bind_eq_some_iff.mp performed
      obtain ⟨session, returned, rfl⟩ := Option.map_eq_some_iff.mp establishing
      exact .turn head found .establish (toOption_eq_some.mp returned)
  | connectDestroyed c =>
      obtain ⟨member, found, destroying⟩ := Option.bind_eq_some_iff.mp performed
      split at destroying
      next connected =>
        obtain ⟨session, returned, rfl⟩ := Option.map_eq_some_iff.mp destroying
        exact .turn head found (.disconnect connected) (toOption_eq_some.mp returned)
      next disconnected =>
        cases destroying
        exact stays [.removeFiled c] found (.destroy disconnected)
  | removeFiled c =>
      obtain ⟨member, found, removing⟩ := Option.bind_eq_some_iff.mp performed
      obtain ⟨session, returned, rfl⟩ := Option.map_eq_some_iff.mp removing
      exact .turn head found .remove (toOption_eq_some.mp returned)

/-- Every step is one of the moves. -/
theorem Anchored.moves (anchored : Anchored config sys) {action : Action threads}
    (stepped : System.step config sys action = some next) : Move config sys action next := by
  cases action with
  | poll loop reports =>
      simp only [System.step, Option.ite_none_right_eq_some, Option.some.injEq] at stepped
      obtain ⟨phase, rfl⟩ := stepped
      exact .control rfl rfl (.poll _ phase)
  | handleEvent loop =>
      simp only [System.step] at stepped
      split at stepped
      next c revents active phase agenda =>
        obtain ⟨member, found, rfl⟩ := Option.map_eq_some_iff.mp stepped
        exact .handleEvent phase agenda found
      next => cases stepped
  | accept sockfd writeCompleteCallback highWaterMarkCallback =>
      simp only [System.step] at stepped
      split at stepped
      next active phase agenda =>
        simp only [Option.ite_none_right_eq_some, Option.some.injEq] at stepped
        obtain ⟨⟨_, small⟩, rfl⟩ := stepped
        exact .accept phase agenda small
      next => cases stepped
  | swap loop =>
      simp only [System.step, Option.ite_none_right_eq_some, Option.some.injEq] at stepped
      obtain ⟨⟨phase, agenda⟩, rfl⟩ := stepped
      exact .control rfl rfl (.swap phase agenda)
  | runNext loop =>
      simp only [System.step, Option.ite_none_right_eq_some] at stepped
      obtain ⟨⟨phase, agenda⟩, ran⟩ := stepped
      obtain ⟨work, first, rfl⟩ := Option.map_eq_some_iff.mp ran
      exact .control rfl rfl (.runNext phase agenda first)
  | finish loop =>
      simp only [System.step, Option.ite_none_right_eq_some, Option.some.injEq] at stepped
      obtain ⟨⟨phase, agenda, last⟩, rfl⟩ := stepped
      exact .control rfl rfl (.finish phase agenda (Option.isNone_iff_eq_none.mp last))
  | perform loop readv write =>
      simp only [System.step] at stepped
      split at stepped
      next head => exact anchored.perform_moves head stepped
      next => cases stepped
  | userCall loop c call =>
      obtain ⟨inside, running, looking⟩ := Option.bind_eq_some_iff.mp stepped
      obtain ⟨member, found, calling⟩ := Option.bind_eq_some_iff.mp looking
      simp only [Option.ite_none_right_eq_some] at calling
      obtain ⟨⟨known, here⟩, called⟩ := calling
      obtain ⟨session, returned, rfl⟩ := Option.map_eq_some_iff.mp called
      exact .userCall running found known here (toOption_eq_some.mp returned)
  | keep loop c =>
      obtain ⟨inside, running, keeping⟩ := Option.bind_eq_some_iff.mp stepped
      simp only [Option.ite_none_right_eq_some, Option.some.injEq] at keeping
      obtain ⟨given, rfl⟩ := keeping
      refine Move.setUser rfl ?_ ?_
      · intro d kept
        rcases List.mem_cons.mp kept with rfl | old
        · exact handedOut_of_running running given
        · exact .inl old
      · intro d kept
        rcases List.mem_cons.mp kept with rfl | old
        · exact .inr ⟨loop, rfl⟩
        · exact .inl old
  | release c =>
      simp only [System.step, Option.ite_none_right_eq_some, Option.some.injEq] at stepped
      obtain ⟨_, rfl⟩ := stepped
      exact .setUser rfl (fun d kept => .inl (List.mem_of_mem_erase kept))
        fun d kept => .inl (List.mem_of_mem_erase kept)
  | queueUser loop inside =>
      simp only [System.step, Option.ite_none_right_eq_some, Option.some.injEq] at stepped
      obtain ⟨known, rfl⟩ := stepped
      exact .queueUser known
  | destroy c =>
      obtain ⟨member, found, destroying⟩ := Option.bind_eq_some_iff.mp stepped
      simp only [Option.ite_none_left_eq_some, Option.some.injEq] at destroying
      obtain ⟨unowned, rfl⟩ := destroying
      exact .destroy found unowned

/-! ## New tasks -/

theorem modifyLoop_here (sys : System threads) (loop : LoopId threads)
    (change : LoopState → LoopState) :
    (sys.modifyLoop loop change).loops loop = change (sys.loops loop) :=
  Function.update_self ..

theorem modifyLoop_elsewhere {acting : LoopId threads} {change : LoopState → LoopState}
    (apart : loop ≠ acting) : (sys.modifyLoop acting change).loops loop = sys.loops loop :=
  Function.update_of_ne apart _ _

theorem tasks_modifyLoop {change : LoopState → LoopState}
    (works : (change (sys.loops loop)).works = (sys.loops loop).works) (other : LoopId threads)
    (d : ConnId) :
    ((sys.modifyLoop loop change).loops other).tasks d = (sys.loops other).tasks d := by
  apply modifyLoop_view (LoopState.tasks · d)
  simp only [LoopState.tasks, works]

/-- The tasks of a connection a step can add to a loop. -/
inductive Fresh (sys : System threads) (loop : LoopId threads) (c : ConnId) : Work → Prop where
  | reported {kind : Filed.Callback} {active : List (ConnId × Mask)} {revents : Mask}
      (phase : (sys.loops loop).phase = .handling ((c, revents) :: active)) :
      Fresh sys loop c (.callback kind c)
  | accepted (new : c = sys.nextConnId) : Fresh sys loop c (.connectEstablished c)
  | left {member : Member threads} {readv : ReadvResult} {write : WriteResult} {done work : Work}
      {routine : Routine} {rest new : List Work} (head : (sys.loops loop).agenda = done :: rest)
      (found : sys.conns c = some member)
      (turn : Turn c member.connection.state readv write done routine new)
      (inside : work ∈ new) : Fresh sys loop c work
  | unlisting {other : LoopId threads} {rest : List Work} (main : loop = none)
      (head : (sys.loops other).agenda = .closeCallback c :: rest) :
      Fresh sys loop c (.removeConnectionInLoop c)
  | destroying {other : LoopId threads} {rest : List Work}
      (head : (sys.loops other).agenda = .removeConnectionInLoop c :: rest) :
      Fresh sys loop c (.connectDestroyed c)

/-- A task after a functor has been queued is an older one, or the functor. -/
theorem mem_tasks_queueinLoop {target other : LoopId threads} {d : ConnId} {queued work : Work}
    (task : work ∈ ((sys.queueinLoop target queued).loops other).tasks d) :
    work ∈ (sys.loops other).tasks d ∨
      other = target ∧ work = queued ∧ queued.subject = some d := by
  rw [tasks_queueinLoop, List.mem_append] at task
  refine task.imp_right fun fresh => ?_
  split at fresh
  next here =>
    obtain ⟨same, about⟩ := List.mem_filter.mp fresh
    have equal := List.mem_singleton.mp same
    exact ⟨here, equal, equal ▸ of_decide_eq_true about⟩
  next => exact absurd fresh List.not_mem_nil

/-- Without the piece that has been run, the agenda has older tasks only. -/
theorem mem_tasks_of_rest (head : (sys.loops loop).agenda = done :: rest)
    {other : LoopId threads} {d : ConnId} {work : Work}
    (task : work ∈ ((sys.setAgenda loop rest).loops other).tasks d) :
    work ∈ (sys.loops other).tasks d := by
  rw [tasks_of_head head]
  exact List.mem_append_right _ task

theorem fresh_newConnection {sockfd : Nat} {writeCompleteCallback highWaterMarkCallback : Bool}
    {other : LoopId threads} {d : ConnId} {work : Work}
    (task : work ∈ ((sys.newConnection config sockfd writeCompleteCallback
      highWaterMarkCallback).loops other).tasks d) (agenda : (sys.loops none).agenda = []) :
    work ∈ (sys.loops other).tasks d ∨ Fresh sys other d work := by
  unfold System.newConnection at task
  dsimp only at task
  split at task
  next main =>
    rw [← List.append_nil [Work.connectEstablished _], tasks_setAgenda, List.mem_append] at task
    rcases task with fresh | old
    · split at fresh
      next here =>
        obtain ⟨same, about⟩ := List.mem_filter.mp fresh
        rw [List.mem_singleton.mp same] at about ⊢
        cases of_decide_eq_true about
        exact .inr (.accepted rfl)
      next => exact absurd fresh List.not_mem_nil
    · rw [setAgenda_self] at old
      · exact .inl old
      · exact agenda
  next pool =>
    rcases mem_tasks_queueinLoop task with old | ⟨_, rfl, about⟩
    · exact .inl old
    · cases about
      exact .inr (.accepted rfl)

theorem Move.fresh (anchored : Anchored config sys) {action : Action threads}
    (move : Move config sys action next) {other : LoopId threads} {d : ConnId} {work : Work}
    (task : work ∈ (next.loops other).tasks d) :
    work ∈ (sys.loops other).tasks d ∨ Fresh sys other d work := by
  cases move with
  | @control action loop change thread plain control =>
      rw [tasks_modifyLoop (control.works (anchored.settled loop))] at task
      exact .inl task
  | @handleEvent loop c revents active member phase agenda found =>
      simp only [System.modifyLoop, Function.update_apply] at task
      split at task
      next here =>
        subst here
        obtain ⟨planned, about⟩ := LoopState.mem_tasks.mp task
        rw [LoopState.works, List.mem_append] at planned
        rcases planned with callback | queued
        · obtain ⟨kind, _, rfl⟩ := List.mem_map.mp callback
          cases about
          exact .inr (.reported phase)
        · exact .inl (LoopState.mem_tasks.mpr ⟨List.mem_append_right _ queued, about⟩)
      next => exact .inl task
  | accept phase agenda small => exact fresh_newConnection task agenda
  | @turn loop readv write done rest new c member routine session head found turn returned =>
      rcases mem_tasks_of_turned head task with old | ⟨rfl, fresh⟩
      · exact .inl old
      · have about := Work.mem_conns_of_subject (LoopState.mem_tasks.mp task).2
        rw [turn.conns work fresh, List.mem_singleton] at about
        subst about
        exact .inr (.left head found turn fresh)
  | userCode head => exact .inl (mem_tasks_of_rest head task)
  | @closeCallback loop readv write rest c member head found =>
      unfold System.removeConnection at task
      split at task
      next main =>
        rw [← List.singleton_append, tasks_setAgenda, List.mem_append] at task
        rcases task with fresh | old
        · split at fresh
          next here =>
            obtain ⟨same, about⟩ := List.mem_filter.mp fresh
            rw [List.mem_singleton.mp same] at about ⊢
            cases of_decide_eq_true about
            exact .inr (.unlisting (here.trans main) head)
          next => exact absurd fresh List.not_mem_nil
        · exact .inl (mem_tasks_of_rest head old)
      next pool =>
        rcases mem_tasks_queueinLoop task with old | ⟨main, rfl, about⟩
        · exact .inl (mem_tasks_of_rest head old)
        · cases about
          exact .inr (.unlisting main head)
  | removeConnectionInLoop head found =>
      unfold System.removeConnectionInLoop at task
      rcases mem_tasks_queueinLoop task with old | ⟨_, rfl, about⟩
      · exact .inl (mem_tasks_of_rest head old)
      · cases about
        exact .inr (.destroying head)
  | userCall running found known here returned =>
      rw [tasks_commit] at task
      exact .inl task
  | setUser plain known => exact .inl task
  | queueUser known =>
      rcases mem_tasks_queueinLoop task with old | ⟨_, _, about⟩
      · exact .inl old
      · cases about
  | destroy found unowned => exact .inl task

/-! ## Changed members -/

/-- Where a connection that is there after a step comes from. -/
inductive Changed (config : Config) (sys : System threads) (action : Action threads)
    (c : ConnId) : Member threads → Prop where
  | same {member : Member threads} (found : sys.conns c = some member) :
      Changed config sys action c member
  | accepted {sockfd : Nat} {writeCompleteCallback highWaterMarkCallback : Bool}
      (accepts : action = .accept sockfd writeCompleteCallback highWaterMarkCallback)
      (new : c = sys.nextConnId) : Changed config sys action c
        ⟨config.connName c, Connection.make sockfd writeCompleteCallback highWaterMarkCallback,
          sys.getNextLoop.1⟩
  | turned {loop : LoopId threads} {member : Member threads} {readv : ReadvResult}
      {write : WriteResult} {done : Work} {rest new : List Work} {routine : Routine}
      {session : Session ConnId} (performs : action.Performs loop)
      (head : (sys.loops loop).agenda = done :: rest) (found : sys.conns c = some member)
      (turn : Turn c member.connection.state readv write done routine new)
      (returned : routine.run (sys.session c member) = .ok session) :
      Changed config sys action c { member with connection := session.connection }
  | called {loop : LoopId threads} {member : Member threads} {call : UserCall}
      {session : Session ConnId} (calls : action = .userCall loop c call)
      (found : sys.conns c = some member)
      (returned : (sys.session c member).userCall call = .ok session) :
      Changed config sys action c { member with connection := session.connection }

theorem Move.later {action : Action threads} (move : Move config sys action next) :
    sys.nextConnId ≤ next.nextConnId := by
  cases move with
  | accept => exact newConnection_nextConnId ▸ Nat.le_succ _
  | closeCallback => exact Nat.le_of_eq (removeConnection_fields sys _ _ _).2.2.1.symm
  | control | handleEvent | turn | userCode | removeConnectionInLoop | userCall | setUser
    | queueUser | destroy => exact Nat.le_refl _

theorem Move.user {action : Action threads} (move : Move config sys action next) {c : ConnId}
    (kept : c ∈ next.user) : c ∈ sys.user ∨ ∃ loop, action = .keep loop c := by
  cases move with
  | setUser plain known source => exact source c kept
  | accept => exact .inl (newConnection_user ▸ kept)
  | closeCallback => exact .inl ((removeConnection_fields sys _ _ _).2.2.2.1 ▸ kept)
  | control | handleEvent | turn | userCode | removeConnectionInLoop | userCall | queueUser
    | destroy => exact .inl kept

theorem Move.changed {action : Action threads} (move : Move config sys action next) {c : ConnId}
    {after : Member threads} (found : next.conns c = some after) :
    Changed config sys action c after := by
  cases move with
  | control | handleEvent | userCode | setUser | queueUser | removeConnectionInLoop =>
      exact .same found
  | accept phase agenda small =>
      rw [newConnection_conns, Function.update_apply] at found
      split at found
      next new =>
        cases found
        subst new
        exact .accepted rfl rfl
      next => exact .same found
  | @turn loop readv write done rest new d member routine session head foundBefore turn
      returned =>
      have stored := commit_conns_eq_some.mp found
      split at stored
      next same =>
        subst same stored
        exact .turned ⟨readv, write, rfl⟩ head foundBefore turn returned
      next => exact .same stored
  | closeCallback head foundBefore =>
      rw [(removeConnection_fields sys _ _ _).1] at found
      exact .same found
  | userCall running foundBefore known here returned =>
      have stored := commit_conns_eq_some.mp found
      split at stored
      next same =>
        subst same stored
        exact .called rfl foundBefore returned
      next => exact .same stored
  | @destroy d member foundBefore unowned =>
      by_cases same : c = d
      · simp [same] at found
      · exact .same (by simpa [same] using found)

/-- A connection that is not there after a step was not there before it, or is destroyed. -/
theorem Move.missing {action : Action threads} (move : Move config sys action next) {c : ConnId}
    (gone : next.conns c = none) :
    (sys.conns c = none ∧ (c < next.nextConnId ↔ c < sys.nextConnId)) ∨
      action = .destroy c ∧ ¬ sys.Owned c ∧ ∃ member, sys.conns c = some member := by
  cases move with
  | control | handleEvent | userCode | setUser | queueUser | removeConnectionInLoop =>
      exact .inl ⟨gone, .rfl⟩
  | accept phase agenda small =>
      rw [newConnection_conns, Function.update_apply] at gone
      split at gone
      next => cases gone
      next old =>
        refine .inl ⟨gone, ?_⟩
        rw [newConnection_nextConnId]
        exact ⟨fun known => Nat.lt_of_le_of_ne (Nat.le_of_lt_succ known) old, Nat.lt_succ_of_lt⟩
  | turn | userCall =>
      simp only [System.setAgenda, System.modifyLoop, System.commit, Function.update_apply] at gone
      split at gone
      · cases gone
      · exact .inl ⟨gone, .rfl⟩
  | closeCallback head found =>
      rw [(removeConnection_fields sys _ _ _).1] at gone
      rw [(removeConnection_fields sys _ _ _).2.2.1]
      exact .inl ⟨gone, .rfl⟩
  | @destroy d member found unowned =>
      by_cases same : c = d
      · subst same
        exact .inr ⟨rfl, unowned, member, found⟩
      · exact .inl ⟨by simpa [same] using gone, .rfl⟩

end System

end Lucky.Server
