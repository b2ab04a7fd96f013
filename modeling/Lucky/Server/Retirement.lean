import Lucky.Server.Confinement

/-!
# Closed connections retire

A closed connection that is still in `connections_` is on its way out: its
`closeCallback_` or `removeConnectionInLoop` is still to run.  So a connection
that no functor, no running code and no pointer of the user holds is either open,
in the table and monitored by its loop, or it is held by nothing at all and is
destroyed.
-/

namespace Lucky.Server

open Systems

/-- Work that takes the connection out of `connections_`. -/
def Work.unlists : Work → Bool
  | .closeCallback _ | .removeConnectionInLoop _ => true
  | .callback _ _ | .userCode _ | .connectEstablished _ | .connectDestroyed _
  | .removeFiled _ => false

theorem Turn.unlists {c : ConnId} {state : StateE} {readv : ReadvResult} {write : WriteResult}
    {done : Work} {routine : Routine} {new : List Work}
    (turn : Turn c state readv write done routine new) : done.unlists = false := by
  cases turn <;> rfl

/-- A routine that neither closes the connection nor reads the end of the stream. -/
def Routine.quiet : Routine → Prop
  | .handleRead readv => readv.count ≠ 0
  | .nothing | .handleWrite _ | .remove | .userCall _ => True
  | .beginClose | .establish => False

theorem Routine.state {routine : Routine} (quiet : routine.quiet) {s t : Session ConnId}
    (returned : routine.run s = .ok t) (disconnected : t.connection.state = .kDisconnected) :
    s.connection.state = .kDisconnected := by
  have of_quiet (quiet : Session.Quiet s t) : s.connection.state = .kDisconnected := by
    rcases quiet.state with same | ⟨_, closing⟩
    · exact same.symm.trans disconnected
    · rw [closing] at disconnected
      cases disconnected
  cases routine with
  | nothing =>
      cases returned
      exact disconnected
  | beginClose => exact quiet.elim
  | handleRead readv => exact of_quiet ((Session.handleRead_law returned).1 quiet)
  | handleWrite write => exact of_quiet (.handleWrite returned)
  | establish => exact quiet.elim
  | remove =>
      obtain ⟨_, _, connection⟩ := Session.onFiled_remove returned
      rw [connection] at disconnected
      exact disconnected
  | userCall call => exact of_quiet (.userCall returned)

namespace System

variable {threads : Nat} {config : Config} {sys next : System threads}
  {loop : LoopId threads} {c : ConnId} {member : Member threads}

def Retiring (sys : System threads) (c : ConnId) : Prop :=
  ∃ loop, ∃ work ∈ (sys.loops loop).tasks c, work.unlists = true

def Retired (sys : System threads) : Prop :=
  ∀ c member, sys.conns c = some member → member.connection.state = .kDisconnected →
    sys.Listed c → sys.Retiring c

theorem make_retired : Retired (make : System threads) := by
  intro c member found
  cases found

/-- A step that closes no connection, lists none and loses no work. -/
theorem Retired.advance (retired : Retired sys)
    (closes : ∀ {d after}, next.conns d = some after →
      after.connection.state = .kDisconnected → next.Retiring d ∨
      ∃ member, sys.conns d = some member ∧ member.connection.state = .kDisconnected)
    (lists : ∀ {d after}, next.conns d = some after →
      after.connection.state = .kDisconnected → next.Listed d → sys.Listed d)
    (kept : ∀ {d loop work}, next.Listed d → work ∈ (sys.loops loop).tasks d →
      work.unlists = true → next.Retiring d) : Retired next := by
  intro d after found disconnected listed
  rcases closes found disconnected with retiring | ⟨member, foundBefore, closed⟩
  · exact retiring
  · obtain ⟨loop, work, task, unlists⟩ :=
      retired d member foundBefore closed (lists found disconnected listed)
    exact kept listed task unlists

/-- A step that changes neither a member nor `connections_`. -/
theorem Retired.same (retired : Retired sys) (conns : next.conns = sys.conns)
    (connections : next.connections = sys.connections)
    (kept : ∀ {d loop work}, next.Listed d → work ∈ (sys.loops loop).tasks d →
      work.unlists = true → next.Retiring d) : Retired next := by
  refine retired.advance ?_ ?_ kept
  · intro d after found disconnected
    rw [conns] at found
    exact .inr ⟨after, found, disconnected⟩
  · intro d after _ _ listed
    rw [Listed, connections] at listed
    exact listed

/-- The tasks of every connection stay; the new one gets `connectEstablished`. -/
theorem mem_tasks_newConnection {sockfd : Nat}
    {writeCompleteCallback highWaterMarkCallback : Bool} {other : LoopId threads} {d : ConnId}
    {work : Work} (agenda : (sys.loops none).agenda = [])
    (task : work ∈ (sys.loops other).tasks d) :
    work ∈ ((sys.newConnection config sockfd writeCompleteCallback
      highWaterMarkCallback).loops other).tasks d := by
  unfold System.newConnection
  dsimp only
  split
  next main =>
    simp only [System.setAgenda, System.modifyLoop, Function.update_apply]
    split
    next here =>
      subst here
      obtain ⟨planned, about⟩ := LoopState.mem_tasks.mp task
      rw [LoopState.works, agenda, List.nil_append] at planned
      exact LoopState.mem_tasks.mpr ⟨List.mem_append_right _ planned, about⟩
    next => exact task
  next pool =>
    rw [tasks_queueinLoop]
    exact List.mem_append_left _ task

theorem Retired.newConnection (retired : Retired sys) {sockfd : Nat}
    {writeCompleteCallback highWaterMarkCallback : Bool}
    (agenda : (sys.loops none).agenda = []) :
    Retired (sys.newConnection config sockfd writeCompleteCallback highWaterMarkCallback) := by
  have older {d : ConnId} {after : Member threads}
      (found : (sys.newConnection config sockfd writeCompleteCallback
        highWaterMarkCallback).conns d = some after)
      (disconnected : after.connection.state = .kDisconnected) :
      d ≠ sys.nextConnId ∧ sys.conns d = some after := by
    rw [newConnection_conns, Function.update_apply] at found
    split at found
    · cases found
      cases disconnected
    next apart => exact ⟨apart, found⟩
  refine retired.advance ?_ ?_ ?_
  · exact fun found disconnected => .inr ⟨_, (older found disconnected).2, disconnected⟩
  · rintro d after found disconnected ⟨entry, listed, rfl⟩
    rw [newConnection_connections] at listed
    rcases List.mem_cons.mp listed with rfl | old
    · exact absurd rfl (older found disconnected).1
    · exact ⟨entry, (List.mem_filter.mp old).1, rfl⟩
  · intro d loop work _ task unlists
    exact ⟨loop, work, mem_tasks_newConnection agenda task, unlists⟩

theorem Retired.turn (anchored : Anchored config sys) (retired : Retired sys) {done : Work}
    {rest new : List Work} {routine : Routine} {readv : ReadvResult} {write : WriteResult}
    {session : Session ConnId} (head : (sys.loops loop).agenda = done :: rest)
    (found : sys.conns c = some member)
    (turn : Turn c member.connection.state readv write done routine new)
    (returned : routine.run (sys.session c member) = .ok session) :
    Retired (sys.turned c member session loop new rest) := by
  refine retired.advance ?_ (fun _ _ => id) ?_
  · intro d after foundAfter disconnected
    have stored := commit_conns_eq_some.mp foundAfter
    split at stored
    next same =>
      subst same stored
      have closed (quiet : routine.quiet) : ∃ member, sys.conns d = some member ∧
          member.connection.state = .kDisconnected :=
        ⟨member, found, Routine.state quiet returned disconnected⟩
      cases turn with
      | close =>
          exact .inl ⟨loop, .closeCallback d, mem_tasks_new (by simp) rfl, rfl⟩
      | disconnect connected =>
          have tells := (anchored.stage found).tells (mem_tasks_head head rfl)
          exact .inr ⟨member, found, (tells.closed rfl).state⟩
      | establish =>
          rw [(Session.establish_law returned).2.2.1] at disconnected
          cases disconnected
      | received count => exact .inr (closed (Int.ne_of_gt count))
      | failed count => exact .inr (closed (Int.ne_of_lt count))
      | error | ended | write | destroy | remove => exact .inr (closed trivial)
    next => exact .inr ⟨after, stored, disconnected⟩
  · intro d other work _ task unlists
    refine ⟨other, work, mem_tasks_turned head task ?_, unlists⟩
    rintro rfl
    rw [turn.unlists] at unlists
    cases unlists

theorem Retired.closeCallback (retired : Retired sys) {rest : List Work}
    (head : (sys.loops loop).agenda = .closeCallback c :: rest) :
    Retired (sys.removeConnection loop c rest) := by
  obtain ⟨conns, connections, _⟩ := removeConnection_fields sys loop c rest
  refine retired.same conns connections ?_
  intro d other work _ task unlists
  unfold System.removeConnection
  rcases mem_tasks_of_head head task with ⟨_, _, about⟩ | later
  · cases about
    split
    · refine ⟨loop, .removeConnectionInLoop c, ?_, rfl⟩
      rw [← List.singleton_append, tasks_setAgenda, if_pos rfl]
      exact List.mem_append_left _ (by simp [Work.subject])
    · refine ⟨none, .removeConnectionInLoop c, ?_, rfl⟩
      rw [tasks_queueinLoop, if_pos rfl]
      exact List.mem_append_right _ (by simp [Work.subject])
  · split
    · refine ⟨other, work, ?_, unlists⟩
      rw [← List.singleton_append, tasks_setAgenda]
      exact List.mem_append_right _ later
    · refine ⟨other, work, ?_, unlists⟩
      rw [tasks_queueinLoop]
      exact List.mem_append_left _ later

theorem Retired.removeConnectionInLoop (anchored : Anchored config sys) (retired : Retired sys)
    {rest : List Work} (head : (sys.loops loop).agenda = .removeConnectionInLoop c :: rest)
    (found : sys.conns c = some member) :
    Retired ((sys.setAgenda loop rest).removeConnectionInLoop c member) := by
  have listed {d : ConnId}
      (after : ((sys.setAgenda loop rest).removeConnectionInLoop c member).Listed d) :
      sys.Listed d ∧ d ≠ c := by
    obtain ⟨entry, kept, rfl⟩ := after
    obtain ⟨old, apart⟩ := List.mem_filter.mp kept
    refine ⟨⟨entry, old, rfl⟩, ?_⟩
    rintro rfl
    rw [anchored.entries entry old, (anchored.named found).1] at apart
    simp at apart
  refine retired.advance ?_ (fun _ _ after => (listed after).1) ?_
  · exact fun foundAfter disconnected => .inr ⟨_, foundAfter, disconnected⟩
  · intro d other work after task unlists
    refine ⟨other, work, ?_, unlists⟩
    rw [System.removeConnectionInLoop, tasks_queueinLoop]
    rcases mem_tasks_of_head head task with ⟨_, _, about⟩ | later
    · cases about
      exact absurd rfl (listed after).2
    · exact List.mem_append_left _ later

theorem Retired.move (anchored : Anchored config sys) (retired : Retired sys)
    {action : Action threads} (move : Move config sys action next) : Retired next := by
  cases move with
  | @control action loop change thread plain control =>
      refine retired.same rfl rfl ?_
      intro d other work _ task unlists
      have works := control.works (anchored.settled loop)
      exact ⟨other, work, (tasks_modifyLoop works other d).symm ▸ task, unlists⟩
  | @handleEvent loop c revents active member phase agenda found =>
      refine retired.same rfl rfl ?_
      intro d other work _ task unlists
      refine ⟨other, work, ?_, unlists⟩
      simp only [System.modifyLoop, Function.update_apply]
      split
      next here =>
        subst here
        obtain ⟨planned, about⟩ := LoopState.mem_tasks.mp task
        rw [LoopState.works, agenda, List.nil_append] at planned
        exact LoopState.mem_tasks.mpr ⟨List.mem_append_right _ planned, about⟩
      next => exact task
  | accept phase agenda small => exact retired.newConnection agenda
  | turn head found turn returned => exact retired.turn anchored head found turn returned
  | userCode head =>
      refine retired.same rfl rfl ?_
      intro d other work _ task unlists
      rcases mem_tasks_of_head head task with ⟨_, _, about⟩ | later
      · cases about
      · exact ⟨other, work, later, unlists⟩
  | closeCallback head found => exact retired.closeCallback head
  | removeConnectionInLoop head found => exact retired.removeConnectionInLoop anchored head found
  | @userCall loop c call inside member session running found known here returned =>
      refine retired.advance ?_ (fun _ _ => id) ?_
      · intro d after foundAfter disconnected
        right
        have stored := commit_conns_eq_some.mp foundAfter
        split at stored
        next same =>
          subst same stored
          have quiet : Routine.quiet (.userCall call) := trivial
          exact ⟨member, found, Routine.state quiet returned disconnected⟩
        next => exact ⟨after, stored, disconnected⟩
      · intro d other work _ task unlists
        exact ⟨other, work, (tasks_commit sys c member session other d).symm ▸ task, unlists⟩
  | setUser plain known kept =>
      exact retired.same rfl rfl fun _ task unlists => ⟨_, _, task, unlists⟩
  | queueUser known =>
      refine retired.same rfl rfl ?_
      intro d other work _ task unlists
      refine ⟨other, work, ?_, unlists⟩
      rw [tasks_queueinLoop]
      exact List.mem_append_left _ task
  | @destroy c member found unowned =>
      refine retired.advance ?_ (fun _ _ => id) fun _ task unlists => ⟨_, _, task, unlists⟩
      intro d after foundAfter disconnected
      by_cases same : d = c
      · simp [same] at foundAfter
      · exact .inr ⟨after, by simpa [same] using foundAfter, disconnected⟩

theorem reachable_retired (reached : (interleaving config).Reachable make sys) :
    Anchored config sys ∧ Retired sys := by
  obtain ⟨actions, run⟩ := reached
  exact Machine.exec_guarded_invariant (fun sys => Anchored config sys ∧ Retired sys)
    (fun _ _ _ kept _ stepped =>
      ⟨kept.1.step stepped, kept.2.move kept.1 (kept.1.moves stepped)⟩)
    ⟨make_anchored config, make_retired⟩ (Machine.guarded_true _ actions) run

/-- With `send` and `shutdown` called on the connection's own loop only: in every reachable
state, a connection that no functor, no running code and no pointer of the user holds is
either established, in `connections_` and monitored by its loop with its own events, or
owned by nothing and registered nowhere, and the only thing left to do with it is to
destroy it. -/
theorem released_open_or_destroyed (config : Config) {sys : System threads}
    (reached : (interleaving config).Reachable make sys) {c : ConnId} {member : Member threads}
    (found : sys.conns c = some member)
    (unheld : ∀ loop, ∀ work ∈ (sys.loops loop).held, c ∉ work.conns)
    (dropped : c ∉ sys.user) :
    ((member.connection.state = .kConnected ∨ member.connection.state = .kDisconnecting) ∧
      sys.Listed c ∧
      (sys.loops member.loop).epoller.interest member.connection.filed.fd =
        some ⟨member.connection.filed.events, c⟩ ∧
      member.connection.filed.events &&& Filed.kReadEvent ≠ 0) ∨
    (¬ sys.Owned c ∧
      (∀ loop, (sys.loops loop).epoller.fileds member.connection.filed.fd = none ∧
        (sys.loops loop).epoller.interest member.connection.filed.fd = none) ∧
      ∃ next, step config sys (.destroy c) = some next ∧ next.conns c = none) := by
  obtain ⟨anchored, retired⟩ := reachable_retired reached
  have idle (loop : LoopId threads) (work : Work) : work ∉ (sys.loops loop).tasks c := by
    intro task
    obtain ⟨planned, about⟩ := LoopState.mem_tasks.mp task
    exact unheld loop work (LoopState.mem_held_of_works planned)
      (Work.mem_conns_of_subject about)
  rcases anchored.stage found with connecting | opened | closed
  · have task : Work.connectEstablished c ∈ (sys.loops member.loop).tasks c := by
      rw [connecting.tasks, if_pos rfl]
      exact List.mem_singleton_self _
    exact absurd task (idle _ _)
  · refine .inl ⟨opened.state, opened.listed, ?_, ?_⟩
    · rw [(anchored.wired.registered found).monitored, opened.monitored.index]
      rfl
    · rcases opened.monitored.events with events | events <;>
        · rw [events]
          decide
  · have unlisted : ¬ sys.Listed c := by
      intro listed
      obtain ⟨loop, work, task, _⟩ := retired c member found closed.state listed
      exact idle loop work task
    have unowned : ¬ sys.Owned c := by
      rintro (listed | kept | ⟨loop, work, held, about⟩)
      · exact unlisted listed
      · exact dropped kept
      · exact unheld loop work held about
    refine .inr ⟨unowned, anchored.unregistered found unowned, ?_⟩
    have stepped : step config sys (.destroy c) = some { sys with
        conns := Function.update sys.conns c none
        loops := fun loop => { sys.loops loop with
          epoller := { (sys.loops loop).epoller with
            interest := Function.update (sys.loops loop).epoller.interest
              member.connection.filed.fd none } } } := by
      rw [step, found, Option.bind_some, if_neg unowned]
    exact ⟨_, stepped, Function.update_self ..⟩

/-- A connection that has hung up, at the end of its `connectDestroyed`. -/
theorem released_open_or_destroyed_hungUp :
    ∃ sys next : System 1,
      (interleaving ⟨[], ⟨fun _ => 0, 0⟩⟩).exec make (descriptorReuse.take 22) =
        some sys ∧
      step ⟨[], ⟨fun _ => 0, 0⟩⟩ sys (.destroy 1) = some next ∧ next.conns 1 = none := by
  obtain ⟨sys, run, member, found, disconnected, unheld, dropped⟩ :
      ∃ sys,
        (interleaving ⟨[], ⟨fun _ => 0, 0⟩⟩).exec make (descriptorReuse.take 22) =
          some sys ∧
        ∃ member, sys.conns 1 = some member ∧ member.connection.state = .kDisconnected ∧
          (∀ loop, ∀ work ∈ (sys.loops loop).held, 1 ∉ work.conns) ∧ 1 ∉ sys.user :=
    ⟨_, rfl, _, rfl, rfl, by decide, by decide⟩
  rcases released_open_or_destroyed ⟨[], ⟨fun _ => 0, 0⟩⟩
    ⟨descriptorReuse.take 22, run⟩ found
    unheld dropped with ⟨established, _⟩ | ⟨_, _, next, stepped, gone⟩
  · simp [disconnected] at established
  · exact ⟨sys, next, run, stepped, gone⟩

end System

end Lucky.Server
