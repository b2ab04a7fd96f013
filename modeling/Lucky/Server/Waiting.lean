import Lucky.Connection.Interest
import Lucky.Server.Progress
import Lucky.Server.Streams

/-!
# Waiting output

In the whole server, too, a connection waits for `EPOLLOUT` exactly while its
`outputBuffer_` holds bytes: whatever the other connections and threads do, the mask
the kernel has for the descriptor of an open connection says so.
-/

namespace Lucky

open Systems

theorem Session.Linked.establish {Ptr : Type} [DecidableEq Ptr] {s t : Session Ptr}
    (linked : s.Linked) (connecting : s.connection.state = .kConnecting)
    (returned : s.establish = .ok t) : t.Linked := by
  obtain ⟨_, calls, connection⟩ := onFiled_setEvents rfl returned
  apply linked.keep calls (by rw [connection]; rfl)
  · intro _
    rw [isWriting, connection, Filed.isWriting_enableReading]
    exact linked.interest (by simp [connecting])
  · rw [connection]
    simp [setState]

/-- Only the connection and the calls count. -/
theorem Session.Linked.congr {Ptr : Type} {s t : Session Ptr} (linked : s.Linked)
    (connection : t.connection = s.connection) (calls : t.calls = s.calls) : t.Linked := by
  apply linked.keep calls (congrArg _ connection)
  · rw [isWriting, connection]
    exact linked.interest
  · rw [connection]
    exact fun state _ => state

namespace Server

theorem Routine.linked {s t : Session ConnId} {routine : Routine} (linked : s.Linked)
    (answered : routine.Answered s)
    (connecting : routine = .establish → s.connection.state = .kConnecting)
    (returned : routine.run s = .ok t) : t.Linked := by
  cases routine with
  | nothing =>
      cases returned
      exact linked
  | beginClose => exact linked.beginClose returned
  | handleRead readv => exact linked.handleRead (by simp) returned
  | handleWrite write => exact linked.handleWrite returned
  | establish => exact linked.establish (connecting rfl) returned
  | remove => exact linked.remove returned
  | userCall call => exact linked.userCall answered returned

namespace Work

variable {work : Work} {c : ConnId} {state : StateE} {readv : ReadvResult} {write : WriteResult}

theorem answered_routine {s : Session ConnId} (about : work.subject = some c)
    (reads : work = .callback .read c → readv.Valid s.connection.inputBuffer) :
    (work.routine state readv write).Answered s := by
  cases work with
  | callback kind d =>
      cases about
      cases kind with
      | read =>
          rw [Work.routine]
          split
          · trivial
          · exact reads rfl
      | close | error | write => trivial
  | connectDestroyed d =>
      rw [Work.routine]
      split <;> trivial
  | userCode | closeCallback | removeConnectionInLoop | connectEstablished | removeFiled => trivial

theorem eq_of_establish (about : work.subject = some c)
    (establishes : work.routine state readv write = .establish) :
    work = .connectEstablished c := by
  cases work with
  | connectEstablished d =>
      cases about
      rfl
  | callback kind d =>
      cases kind with
      | read =>
          rw [Work.routine] at establishes
          split at establishes <;> cases establishes
      | close | error | write => cases establishes
  | connectDestroyed d =>
      rw [Work.routine] at establishes
      split at establishes <;> cases establishes
  | userCode | closeCallback | removeConnectionInLoop | removeFiled => cases establishes

end Work

namespace System

variable {threads : Nat} {config : Config} {sys next : System threads} {c : ConnId}
  {member : Member threads} {action : Action threads} {calls : List Call}

/-- A step runs nothing of the connection, the head of an agenda, or a call of the user. -/
inductive Runner (sys : System threads) (c : ConnId) (member : Member threads) :
    Action threads → Routine → Prop where
  | nobody {action : Action threads} : Runner sys c member action .nothing
  | thread {loop : LoopId threads} {readv : ReadvResult} {write : WriteResult} {work : Work}
      {rest : List Work} (head : (sys.loops loop).agenda = work :: rest)
      (about : work.subject = some c) : Runner sys c member (.perform loop readv write)
        (work.routine member.connection.state readv write)
  | user {loop : LoopId threads} {call : UserCall} :
      Runner sys c member (.userCall loop c call) (.userCall call)

theorem runner (sys : System threads) (c : ConnId) (member : Member threads)
    (action : Action threads) : Runner sys c member action (sys.routine c member action) := by
  cases action with
  | perform loop readv write =>
      unfold System.routine
      dsimp only
      split
      next work rest head =>
        by_cases about : work.subject = some c
        · rw [if_pos about]
          exact .thread head about
        · rw [if_neg about]
          exact .nobody
      next => exact .nobody
  | userCall loop d call =>
      by_cases same : d = c
      · rw [System.routine, if_pos same, same]
        exact .user
      · rw [System.routine, if_neg same]
        exact .nobody
  | poll | handleEvent | accept | swap | runNext | finish | keep | release | queueUser
    | destroy => exact .nobody

theorem answered_routine (found : sys.conns c = some member) (answered : sys.Answered action) :
    (sys.routine c member action).Answered (sys.session c member) := by
  have runs := sys.runner c member action
  generalize sys.routine c member action = routine at runs
  cases runs with
  | nobody => trivial
  | user => exact answered
  | @thread loop readv write work rest head about =>
      have reads := fun same =>
        answered c rest (head.trans (congrArg (· :: rest) same)) member found
      exact Work.answered_routine about reads

/-- A connection is established while it waits for that. -/
theorem Anchored.establishes (anchored : Anchored config sys) (found : sys.conns c = some member)
    (establishes : sys.routine c member action = .establish) :
    member.connection.state = .kConnecting := by
  have runs := sys.runner c member action
  generalize sys.routine c member action = routine at runs establishes
  cases runs with
  | nobody => cases establishes
  | user => cases establishes
  | thread head about =>
      have task := mem_tasks_head head about
      rw [Work.eq_of_establish about establishes] at task
      exact (((anchored.stage found).tells task).connecting rfl).1.state

/-- `calls` are the calls made for the connection so far. -/
structure Tracked (c : ConnId) (sys : System threads) (calls : List Call) : Prop where
  linked : ∀ {member}, sys.conns c = some member →
    ((sys.session c member).prepend calls).Linked
  fresh : sys.nextConnId ≤ c → calls = []

theorem make_tracked (c : ConnId) : Tracked c (make : System threads) [] :=
  ⟨nofun, fun _ => rfl⟩

/-- A connection that has just been accepted. -/
theorem linked_accepted (sys : System threads) (c : ConnId) (name : List Char)
    (loop : LoopId threads) (sockfd : Nat) (writeCompleteCallback highWaterMarkCallback : Bool) :
    ((sys.session c ⟨name, Connection.make sockfd writeCompleteCallback highWaterMarkCallback,
      loop⟩).prepend []).Linked := by
  obtain ⟨wellFormed, empty, interested⟩ := Session.constructed_idle c sockfd
    (Connection.make sockfd writeCompleteCallback highWaterMarkCallback).highWaterMark
    writeCompleteCallback highWaterMarkCallback (sys.loops loop).epoller
  exact ⟨wellFormed, fun _ => interested, empty.symm, trivial, nofun⟩

theorem Tracked.step (tracked : Tracked c sys calls) (anchored : Anchored config sys)
    (answered : sys.Answered action) (stepped : System.step config sys action = some next) :
    Tracked c next (calls ++ sys.made c action) := by
  have move := anchored.moves stepped
  cases found : sys.conns c with
  | none =>
      have idle : sys.made c action = [] := by simp only [System.made, found]
      rw [idle, List.append_nil]
      refine ⟨fun foundAfter => ?_, fun later => tracked.fresh (Nat.le_trans move.later later)⟩
      cases move.changed foundAfter with
      | accepted accepts new =>
          rw [tracked.fresh (Nat.le_of_eq new.symm)]
          exact linked_accepted ..
      | same present | turned _ _ present | called _ present =>
          cases found.symm.trans present
  | some member =>
      obtain ⟨session, returned, leaves⟩ := anchored.runs found stepped
      have ran := Routine.run_prepend (sys.routine c member action) (sys.session c member) calls
      rw [returned] at ran
      have linked := Routine.linked (tracked.linked found) (answered_routine found answered)
        (anchored.establishes found) ran
      refine ⟨fun foundAfter => linked.congr (leaves _ foundAfter) ?_, fun later => ?_⟩
      · rw [made_eq found returned]
        exact List.append_nil _
      · have known := (anchored.named found).2
        exact absurd (Nat.le_trans move.later later) (Nat.not_le_of_lt known)

/-- What is waiting makes the loop monitor the descriptor for writing. -/
theorem Tracked.monitored (tracked : Tracked c sys calls) (anchored : Anchored config sys)
    (found : sys.conns c = some member) (live : member.connection.state ≠ .kDisconnected) :
    member.connection.state = .kConnecting ∧ member.connection.outputBuffer.readableBytes = 0 ∨
      ∃ events, (sys.loops member.loop).epoller.interest member.connection.filed.fd =
        some ⟨events, c⟩ ∧ events &&& EPOLLIN ≠ 0 ∧
        (events &&& EPOLLOUT ≠ 0 ↔ 0 < member.connection.outputBuffer.readableBytes) := by
  have interest : member.connection.filed.isWriting = true ↔
      0 < member.connection.outputBuffer.readableBytes := (tracked.linked found).interest live
  rcases anchored.stage found with connecting | opened | closed
  · left
    rw [Filed.isWriting_of_none connecting.events] at interest
    exact ⟨connecting.state, Nat.eq_zero_of_not_pos fun waiting => nomatch interest.mpr waiting⟩
  · right
    refine ⟨member.connection.filed.events, ?_, ?_, ?_⟩
    · rw [(anchored.wired.registered found).monitored, opened.monitored.index]
      rfl
    · rcases opened.monitored.events with events | events <;>
        · rw [events]
          decide
    · rw [← interest, Filed.isWriting, bne_iff_ne]
      rfl
  · exact absurd closed.state live

/-- With `send` and `shutdown` called on the connection's own loop only: after any run in
which the kernel answers what it can answer, the kernel monitors every open connection,
with its loop's `Epoller`, for reading, and for writing exactly when bytes wait in
`outputBuffer_`. -/
theorem monitored_iff_waiting (config : Config) {sys : System threads}
    {actions : List (Action threads)} (run : (interleaving config).exec make actions = some sys)
    (answered : (interleaving config).Guarded Answered make actions)
    (found : sys.conns c = some member) (opened : member.connection.state = .kConnected ∨
      member.connection.state = .kDisconnecting) :
    ∃ events, (sys.loops member.loop).epoller.interest member.connection.filed.fd =
      some ⟨events, c⟩ ∧ events &&& EPOLLIN ≠ 0 ∧
      (events &&& EPOLLOUT ≠ 0 ↔ 0 < member.connection.outputBuffer.readableBytes) := by
  obtain ⟨anchored, calls, tracked⟩ :=
    Machine.exec_guarded_invariant
      (fun sys => Anchored config sys ∧ ∃ calls, Tracked c sys calls)
      (fun _ _ _ ⟨anchored, _, tracked⟩ answered stepped =>
        ⟨anchored.step stepped, _, tracked.step anchored answered stepped⟩)
      ⟨make_anchored config, [], make_tracked c⟩ answered run
  have live : member.connection.state ≠ .kDisconnected := by
    rcases opened with state | state <;> simp [state]
  rcases tracked.monitored anchored found live with ⟨connecting, _⟩ | monitored
  · rcases opened with state | state <;>
      · rw [connecting] at state
        cases state
  · exact monitored

/-- The user sends two bytes to a new connection, and the socket takes none of them. -/
def blocked : List (Action 0) :=
  [.poll none [], .accept 7 false false, .perform none (.failed 0) ⟨-1, 0⟩,
    .userCall none 1 (.send Outgoing.ab ⟨0, 0⟩)]

theorem answered_blocked :
    (interleaving ⟨[], ⟨fun _ => 0, 0⟩⟩).Guarded Answered make blocked := by
  apply Machine.guarded_of_mem
  simp [blocked, Answered, ReadvResult.Valid, UserCall.Valid, WriteResult.Valid]

theorem monitored_iff_waiting_blocked :
    ∃ sys member events,
      (interleaving ⟨[], ⟨fun _ => 0, 0⟩⟩).exec make blocked = some sys ∧
      sys.conns 1 = some member ∧
      (sys.loops member.loop).epoller.interest member.connection.filed.fd = some ⟨events, 1⟩ ∧
      events &&& EPOLLOUT ≠ 0 := by
  have waits : ((interleaving ⟨[], ⟨fun _ => 0, 0⟩⟩).exec make blocked).any (fun sys =>
      (sys.conns 1).any fun member => member.connection.state = .kConnected ∧
        0 < member.connection.outputBuffer.readableBytes) = true := by decide +kernel
  obtain ⟨sys, run, there⟩ := (Option.any_eq_true _ _).mp waits
  obtain ⟨member, found, state⟩ := (Option.any_eq_true _ _).mp there
  obtain ⟨connected, waiting⟩ := of_decide_eq_true state
  obtain ⟨events, interest, _, writes⟩ :=
    monitored_iff_waiting ⟨[], ⟨fun _ => 0, 0⟩⟩ run
    answered_blocked found (.inl connected)
  exact ⟨sys, member, events, run, found, interest, writes.mpr waiting⟩

end System

end Server

end Lucky
