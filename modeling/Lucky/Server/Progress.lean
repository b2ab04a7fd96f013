import Lucky.Connection.Contracts
import Lucky.Server.Moves

/-!
# No thread of the server ever gets stuck

`nextAction` is what a loop's thread does next: the rest of its agenda, or the
next stage of `loop()`.  With answers the kernel can give, it is enabled in every
reachable state: the connection a handler or functor is about exists, no `assert`
fails, no `epoll_ctl` reaches `LOG_FATAL` and no copy into a buffer leaves its vector.
The one exception is a buffer that would exceed `max_size()`.
-/

namespace Lucky.Server

open Systems

/-- The answers of the kernel a routine gets are answers it can give. -/
def Routine.Answered (s : Session ConnId) : Routine → Prop
  | .handleRead readv => readv.Valid s.connection.inputBuffer
  | .userCall call => call.Valid
  | .nothing | .beginClose | .handleWrite _ | .establish | .remove => True

theorem Routine.safe (routine : Routine) {s : Session ConnId} (healthy : s.Healthy)
    (answered : routine.Answered s) : Session.Safe (routine.run s) := by
  cases routine with
  | nothing => exact healthy
  | beginClose =>
      obtain ⟨t, returned, after⟩ := healthy.beginClose
      exact .of_ok returned after
  | handleRead readv => exact healthy.handleRead answered (by simp)
  | handleWrite write => exact healthy.handleWrite write
  | establish =>
      obtain ⟨t, returned, after⟩ := healthy.establish
      exact .of_ok returned after
  | remove => exact healthy.onFiled_ensures .remove
  | userCall call => exact healthy.userCall answered

namespace System

variable {threads : Nat} {config : Config} {sys next : System threads}
  {loop : LoopId threads} {c : ConnId} {member : Member threads}

/-- The answers of the kernel in an action are answers it can give. -/
def Answered (sys : System threads) : Action threads → Prop
  | .perform loop readv _ => ∀ c rest, (sys.loops loop).agenda = .callback .read c :: rest →
      ∀ member, sys.conns c = some member → readv.Valid member.connection.inputBuffer
  | .userCall _ _ call => call.Valid
  | .poll _ _ | .handleEvent _ | .accept _ _ _ | .swap _ | .runNext _ | .finish _ | .keep _ _
  | .release _ | .queueUser _ _ | .destroy _ => True

/-- The buffers of all connections have their layout. -/
def Buffered (sys : System threads) : Prop :=
  ∀ c member, sys.conns c = some member →
    member.connection.inputBuffer.WellFormed ∧ member.connection.outputBuffer.WellFormed

theorem make_buffered : Buffered (make : System threads) := by
  intro c member found
  cases found

theorem Anchored.healthy (anchored : Anchored config sys) (buffered : Buffered sys)
    (found : sys.conns c = some member) : (sys.session c member).Healthy :=
  ⟨anchored.wired.registered found, (buffered c member found).1, (buffered c member found).2⟩

theorem Buffered.congr (buffered : Buffered sys) (conns : next.conns = sys.conns) :
    Buffered next := by
  intro c member found
  rw [conns] at found
  exact buffered c member found

theorem Buffered.commit (buffered : Buffered sys) {session : Session ConnId}
    (healthy : session.Healthy) : Buffered (sys.commit c member session) := by
  intro d after found
  rw [commit_conns_eq_some] at found
  split at found
  · subst found
    exact ⟨healthy.input, healthy.output⟩
  · exact buffered d after found

theorem answered_of_turn {state : StateE} {readv : ReadvResult} {write : WriteResult}
    {done : Work} {routine : Routine} {rest new : List Work}
    (turn : Turn c state readv write done routine new)
    (head : (sys.loops loop).agenda = done :: rest) (found : sys.conns c = some member)
    (answered : sys.Answered (.perform loop readv write)) :
    routine.Answered (sys.session c member) := by
  cases turn with
  | received | failed => exact answered c rest head member found
  | error | close | ended | write | establish | disconnect | destroy | remove => trivial

theorem Buffered.move (anchored : Anchored config sys) (buffered : Buffered sys)
    {action : Action threads} (answered : sys.Answered action)
    (move : Move config sys action next) : Buffered next := by
  cases move with
  | control | handleEvent | userCode | setUser | queueUser => exact buffered.congr rfl
  | accept phase agenda small =>
      intro c member found
      have formed := Buffer.initial_wellFormed.1
      rw [newConnection_conns, Function.update_apply] at found
      split at found
      · cases found
        exact ⟨formed, formed⟩
      · exact buffered c member found
  | turn head found turn returned =>
      have safe := Routine.safe _ (anchored.healthy buffered found)
        (answered_of_turn turn head found answered)
      exact (buffered.commit (safe.value returned)).congr rfl
  | closeCallback head found => exact buffered.congr (removeConnection_fields sys _ _ _).1
  | removeConnectionInLoop head found => exact buffered.congr rfl
  | userCall running found known here returned =>
      have safe := Routine.safe (.userCall _) (anchored.healthy buffered found) answered
      exact buffered.commit (safe.value returned)
  | @destroy c member found unowned =>
      intro d after foundAfter
      by_cases same : d = c
      · simp [same] at foundAfter
      · exact buffered d after (by simpa [same] using foundAfter)

/-! ## The next action of a thread -/

/-- What the thread of a loop does next: it goes on with its agenda, or else from one
stage of `loop()` to the next. -/
def nextAction (sys : System threads) (loop : LoopId threads) (reports : List (Nat × Mask))
    (readv : ReadvResult) (write : WriteResult) : Action threads :=
  match (sys.loops loop).agenda, (sys.loops loop).phase with
  | _ :: _, _ => .perform loop readv write
  | [], .polling => .poll loop reports
  | [], .handling [] => .swap loop
  | [], .handling (_ :: _) => .handleEvent loop
  | [], .running => if (sys.loops loop).queue.next?.isSome then .runNext loop else .finish loop

/-- The read that would make the input buffer exceed `max_size()`. -/
def Overflows (sys : System threads) (loop : LoopId threads) (readv : ReadvResult) : Prop :=
  ∃ c rest member, (sys.loops loop).agenda = .callback .read c :: rest ∧
    sys.conns c = some member ∧ (sys.session c member).handleRead readv [] = .error .lengthError

/-- A routine of a healthy connection returns or throws `length_error`. -/
theorem Routine.returns (routine : Routine) {s : Session ConnId} (healthy : s.Healthy)
    (answered : routine.Answered s) :
    (∃ t, routine.run s = .ok t) ∨ routine.run s = .error .lengthError := by
  rcases (Routine.safe routine healthy answered).cases with
    ⟨t, returned, _⟩ | ⟨_, raised, rfl⟩
  · exact .inl ⟨t, returned⟩
  · exact .inr raised

theorem Anchored.performs (anchored : Anchored config sys) (buffered : Buffered sys)
    {done : Work} {rest : List Work} {readv : ReadvResult} {write : WriteResult}
    (head : (sys.loops loop).agenda = done :: rest)
    (answered : sys.Answered (.perform loop readv write)) :
    (∃ next, sys.perform loop readv write rest done = some next) ∨
      sys.Overflows loop readv := by
  -- a routine that returns makes the turn
  have runs {c : ConnId} {member : Member threads} {s : Session ConnId} {new : List Work}
      {computation : Except Fault (Session ConnId)} (returned : computation = .ok s) :
      ∃ next, computation.toOption.map (fun session =>
        (sys.commit c member session).setAgenda loop new) = some next := by
    rw [returned]
    exact ⟨_, rfl⟩
  cases done with
  | userCode inside => exact .inl ⟨_, rfl⟩
  | callback kind c =>
      obtain ⟨member, found⟩ := anchored.found head rfl
      have healthy := anchored.healthy buffered found
      cases kind with
      | error => exact .inl ⟨_, rfl⟩
      | close =>
          obtain ⟨session, returned, _⟩ := healthy.beginClose
          left
          simp only [System.perform, found, Option.bind_some]
          exact runs returned
      | read =>
          simp only [System.perform, found, Option.bind_some]
          split
          · exact .inl ⟨_, rfl⟩
          · rcases Routine.returns (.handleRead readv) healthy
              (answered c rest head member found) with ⟨session, returned⟩ | raised
            · exact .inl (runs returned)
            · exact .inr ⟨c, rest, member, head, found, raised⟩
      | write =>
          left
          obtain ⟨session, returned, _⟩ := (healthy.handleWrite write).returns
          simp only [System.perform, found, Option.bind_some]
          exact runs returned
  | closeCallback c => exact .inl ⟨_, rfl⟩
  | removeConnectionInLoop c =>
      obtain ⟨member, found⟩ := anchored.found head rfl
      exact .inl ⟨_, by rw [System.perform, found]; rfl⟩
  | connectEstablished c =>
      obtain ⟨member, found⟩ := anchored.found head rfl
      obtain ⟨session, returned, _⟩ := (anchored.healthy buffered found).establish
      left
      simp only [System.perform, found, Option.bind_some]
      exact runs returned
  | connectDestroyed c =>
      obtain ⟨member, found⟩ := anchored.found head rfl
      obtain ⟨session, returned, _⟩ := (anchored.healthy buffered found).beginClose
      left
      simp only [System.perform, found, Option.bind_some]
      split
      · exact runs returned
      · exact ⟨_, rfl⟩
  | removeFiled c =>
      obtain ⟨member, found⟩ := anchored.found head rfl
      obtain ⟨session, returned, _⟩ := (anchored.healthy buffered found).onFiled .remove
      left
      simp only [System.perform, found, Option.bind_some]
      exact runs returned

/-- From an anchored state every thread goes on. -/
theorem Anchored.goes_on (anchored : Anchored config sys) (buffered : Buffered sys)
    {reports : List (Nat × Mask)} {readv : ReadvResult} {write : WriteResult}
    (answered : sys.Answered (sys.nextAction loop reports readv write)) :
    (∃ next, System.step config sys (sys.nextAction loop reports readv write) = some next) ∨
      sys.Overflows loop readv := by
  unfold nextAction at answered ⊢
  cases agenda : (sys.loops loop).agenda with
  | cons done rest =>
      simp only [agenda] at answered ⊢
      rcases anchored.performs buffered agenda answered with ⟨next, performed⟩ | overflows
      · exact .inl ⟨next, by simp only [System.step, agenda, performed]⟩
      · exact .inr overflows
  | nil =>
      left
      cases phase : (sys.loops loop).phase with
      | polling => exact ⟨_, if_pos phase⟩
      | handling active =>
          cases active with
          | nil => exact ⟨_, if_pos ⟨phase, agenda⟩⟩
          | cons entry active =>
              -- what has been reported is still alive
              obtain ⟨member, found, _⟩ := anchored.reported phase entry List.mem_cons_self
              simp only [System.step, phase, agenda, found, Option.map_some]
              exact ⟨_, rfl⟩
      | running =>
          cases first : (sys.loops loop).queue.next? with
          | some work =>
              simp only [Option.isSome_some, if_true, System.step, phase, agenda, and_self,
                first, Option.map_some]
              exact ⟨_, rfl⟩
          | none =>
              simp only [Option.isSome_none, Bool.false_eq_true, if_false, System.step, phase,
                agenda, first, Option.isNone_none, and_self, if_true]
              exact ⟨_, rfl⟩

theorem run_buffered {actions : List (Action threads)}
    (run : (interleaving config).exec make actions = some sys)
    (answered : (interleaving config).Guarded Answered make actions) :
    Anchored config sys ∧ Buffered sys :=
  Machine.exec_guarded_invariant (fun sys => Anchored config sys ∧ Buffered sys)
    (fun _ _ _ kept answered stepped =>
      ⟨kept.1.step stepped, kept.2.move kept.1 answered (kept.1.moves stepped)⟩)
    ⟨make_anchored config, make_buffered⟩ answered run

/-- With both callbacks of the user set, and `send` and `shutdown` called on the
connection's own loop only: after any run in which the kernel answers what it can answer,
the next action of every loop's thread is enabled, whatever `epoll_wait` reports and
`readv` and `::write` answer, and so is every call of the user's code on a connection of
its loop.  Only a buffer that would exceed `max_size()` can throw. -/
theorem threads_never_stuck (config : Config) {sys : System threads}
    {actions : List (Action threads)} (run : (interleaving config).exec make actions = some sys)
    (answered : (interleaving config).Guarded Answered make actions) (loop : LoopId threads) :
    (∀ reports readv write, sys.Answered (sys.nextAction loop reports readv write) →
      (∃ next, step config sys (sys.nextAction loop reports readv write) = some next) ∨
        sys.Overflows loop readv) ∧
    (∀ inside c member call, sys.running loop = some inside →
      c ∈ inside ∨ c ∈ sys.user →
      sys.conns c = some member → member.loop = loop → call.Valid →
      (∃ next, step config sys (.userCall loop c call) = some next) ∨
        (sys.session c member).userCall call = .error .lengthError) := by
  obtain ⟨anchored, buffered⟩ := run_buffered run answered
  refine ⟨fun reports readv write => anchored.goes_on buffered, ?_⟩
  intro inside c member call running known found here valid
  rcases Routine.returns (.userCall call) (anchored.healthy buffered found)
    valid with ⟨session, returned⟩ | raised
  · left
    change (sys.session c member).userCall call = .ok session at returned
    rw [step, running, Option.bind_some, found, Option.bind_some, if_pos ⟨known, here⟩,
      returned]
    exact ⟨_, rfl⟩
  · exact .inr raised

/-- A connection of the main loop is established, and its descriptor reported. -/
def reported : List (Action 0) :=
  [.poll none [], .accept 7 false false, .perform none (.failed 0) ⟨-1, 0⟩,
    .perform none (.failed 0) ⟨-1, 0⟩, .swap none, .finish none, .poll none [(7, EPOLLIN)]]

theorem threads_never_stuck_reported :
    ∃ sys next, (interleaving ⟨[], ⟨fun _ => 0, 0⟩⟩).exec make reported = some sys ∧
      step ⟨[], ⟨fun _ => 0, 0⟩⟩ sys (.handleEvent none) = some next := by
  obtain ⟨sys, run, agenda, phase⟩ :
      ∃ sys, (interleaving ⟨[], ⟨fun _ => 0, 0⟩⟩).exec make reported = some sys ∧
        (sys.loops none).agenda = [] ∧ (sys.loops none).phase = .handling [(1, EPOLLIN)] :=
    ⟨_, rfl, rfl, rfl⟩
  have answered : (interleaving ⟨[], ⟨fun _ => 0, 0⟩⟩).Guarded Answered make reported := by
    apply Machine.guarded_of_mem
    simp [reported, Answered, ReadvResult.Valid]
  have handles : sys.nextAction none [] (.failed 0) ⟨-1, 0⟩ = .handleEvent none := by
    simp only [nextAction, agenda, phase]
  have goesOn := (threads_never_stuck ⟨[], ⟨fun _ => 0, 0⟩⟩ run answered none).1 []
    (.failed 0) ⟨-1, 0⟩
  rw [handles] at goesOn
  rcases goesOn trivial with ⟨next, stepped⟩ | ⟨c, rest, member, head, _⟩
  · exact ⟨sys, next, run, stepped⟩
  · rw [agenda] at head
    cases head

end System

end Lucky.Server
