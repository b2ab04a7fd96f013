import Lucky.Server.Frames

/-!
# The stages of a connection

A connection waits for `connectEstablished`, is open, or is closed.  What owns it
changes with the stage: an entry of `connections_` until it is closed, and from
then on, while its `Filed` may still be registered, a task that leads to its
removal from the `Epoller`.
-/

namespace Lucky.Server

open Systems

namespace Work

/-- Tasks that end in `filed_->remove()`. -/
def closes : Work → Bool
  | .closeCallback _ | .removeConnectionInLoop _ | .connectDestroyed _ | .removeFiled _ => true
  | .callback _ _ | .userCode _ | .connectEstablished _ => false

/-- Tasks that change the connection, besides `connectEstablished`. -/
def isLocal : Work → Bool
  | .callback _ _ | .connectDestroyed _ | .removeFiled _ => true
  | .closeCallback _ | .removeConnectionInLoop _ | .connectEstablished _ | .userCode _ => false

end Work

namespace System

variable {threads : Nat}

/-- Accepted, and not yet established: the only task is `connectEstablished`. -/
structure Connecting (sys : System threads) (c : ConnId) (member : Member threads) : Prop where
  state : member.connection.state = .kConnecting
  new : member.connection.filed.index = .kNew
  events : member.connection.filed.events = Filed.kNoneEvent
  listed : sys.Listed c
  unknown : ¬ sys.HandedOut c
  tasks : ∀ loop, (sys.loops loop).tasks c =
    if loop = member.loop then [.connectEstablished c] else []

/-- Established, and not yet closed. -/
structure Open (sys : System threads) (c : ConnId) (member : Member threads) : Prop where
  state : member.connection.state = .kConnected ∨ member.connection.state = .kDisconnecting
  monitored : member.connection.filed.Monitored
  listed : sys.Listed c
  tasks : ∀ loop, ∀ work ∈ (sys.loops loop).tasks c,
    member.loop = loop ∧ ∃ kind, work = .callback kind c

/-- Some task will remove the `Filed` of the connection. -/
def Closing (sys : System threads) (c : ConnId) : Prop :=
  ∃ loop, ∃ work ∈ (sys.loops loop).tasks c, work.closes = true

structure Closed (sys : System threads) (c : ConnId) (member : Member threads) : Prop where
  state : member.connection.state = .kDisconnected
  events : member.connection.filed.events = Filed.kNoneEvent
  removed : member.connection.filed.index = .kNew ∨ sys.Closing c
  tasks : ∀ loop, ∀ work ∈ (sys.loops loop).tasks c,
    work ≠ .connectEstablished c ∧ (work.isLocal = true → member.loop = loop)

def Stage (sys : System threads) (c : ConnId) (member : Member threads) : Prop :=
  sys.Connecting c member ∨ sys.Open c member ∨ sys.Closed c member

variable {sys next : System threads} {c d : ConnId} {member : Member threads}

theorem Frame.stage (frame : Frame d sys next) (stage : sys.Stage d member) :
    next.Stage d member := by
  have tasks (loop : LoopId threads) := (frame.loops loop).tasks
  rcases stage with connecting | opened | closed
  · refine .inl ⟨connecting.state, connecting.new, connecting.events,
      frame.listed.mpr connecting.listed, ?_, ?_⟩
    · exact fun handed => connecting.unknown (frame.handedOut handed)
    · intro loop
      rw [tasks]
      exact connecting.tasks loop
  · refine .inr (.inl ⟨opened.state, opened.monitored, frame.listed.mpr opened.listed, ?_⟩)
    intro loop work
    rw [tasks]
    exact opened.tasks loop work
  · refine .inr (.inr ⟨closed.state, closed.events, ?_, ?_⟩)
    · rcases closed.removed with new | ⟨loop, work, task, closes⟩
      · exact .inl new
      · exact .inr ⟨loop, work, tasks loop ▸ task, closes⟩
    · intro loop work
      rw [tasks]
      exact closed.tasks loop work

/-- What registers a connection also owns it. -/
theorem Stage.owned (stage : sys.Stage c member)
    (registered : member.connection.filed.index ≠ .kNew) : sys.Owned c := by
  rcases stage with connecting | opened | closed
  · exact absurd connecting.new registered
  · exact opened.listed.owned
  · rcases closed.removed with new | ⟨loop, work, task, _⟩
    · exact absurd new registered
    · obtain ⟨planned, about⟩ := LoopState.mem_tasks.mp task
      exact owned_of_works planned (Work.mem_conns_of_subject about)

theorem Stage.connecting (stage : sys.Stage c member)
    (state : member.connection.state = .kConnecting) : sys.Connecting c member := by
  rcases stage with connecting | opened | closed
  · exact connecting
  · rcases opened.state with other | other <;>
      · rw [state] at other
        cases other
  · have other := closed.state
    rw [state] at other
    cases other

theorem Stage.closed (stage : sys.Stage c member)
    (state : member.connection.state = .kDisconnected) : sys.Closed c member := by
  rcases stage with connecting | opened | closed
  · have other := connecting.state
    rw [state] at other
    cases other
  · rcases opened.state with other | other <;>
      · rw [state] at other
        cases other
  · exact closed

/-- What a task of the connection says about its stage. -/
structure Tells (sys : System threads) (c : ConnId) (member : Member threads)
    (loop : LoopId threads) (work : Work) : Prop where
  connecting : work = .connectEstablished c → sys.Connecting c member ∧ member.loop = loop
  established : work ≠ .connectEstablished c → member.connection.state ≠ .kConnecting
  closed : work.closes = true → sys.Closed c member
  here : work.isLocal = true → member.loop = loop

theorem Stage.tells (stage : sys.Stage c member) {loop : LoopId threads} {work : Work}
    (task : work ∈ (sys.loops loop).tasks c) : sys.Tells c member loop work := by
  rcases stage with connecting | opened | closed
  · have only := task
    rw [connecting.tasks] at only
    split at only
    next here =>
      rw [List.mem_singleton] at only
      subst only
      exact ⟨fun _ => ⟨connecting, here.symm⟩, fun other => absurd rfl other, nofun, nofun⟩
    next => exact absurd only List.not_mem_nil
  · obtain ⟨here, kind, rfl⟩ := opened.tasks loop work task
    refine ⟨nofun, fun _ connecting => ?_, nofun, fun _ => here⟩
    rcases opened.state with state | state <;>
      · rw [connecting] at state
        cases state
  · obtain ⟨other, here⟩ := closed.tasks loop work task
    refine ⟨fun equal => absurd equal other, fun _ connecting => ?_, fun _ => closed, here⟩
    have state := closed.state
    rw [connecting] at state
    cases state

theorem Stage.of_handedOut (stage : sys.Stage c member) (handed : sys.HandedOut c) :
    member.connection.state ≠ .kConnecting :=
  fun state => (stage.connecting state).unknown handed

theorem Stage.of_registered (stage : sys.Stage c member)
    (registered : member.connection.filed.index ≠ .kNew) :
    member.connection.state ≠ .kConnecting :=
  fun state => registered (stage.connecting state).new

/-- A function that neither establishes nor closes keeps the stage, as long as no
removal is lost and only callbacks are added. -/
theorem Stage.quiet (stage : sys.Stage c member) (next : System threads)
    (established : member.connection.state ≠ .kConnecting)
    {session : Session ConnId} (quiet : Session.Quiet (sys.session c member) session)
    (listed : sys.Listed c → next.Listed c)
    (fresh : ∀ loop, ∀ work ∈ (next.loops loop).tasks c,
      work ∈ (sys.loops loop).tasks c ∨
        member.loop = loop ∧ ∃ kind, work = .callback kind c)
    (kept : ∀ loop, ∀ work ∈ (sys.loops loop).tasks c, work.closes = true →
      work ∈ (next.loops loop).tasks c) :
    next.Stage c { member with connection := session.connection } ∧
      (member.connection.filed.index ≠ .kNew → session.connection.filed.index ≠ .kNew) := by
  rcases stage with connecting | opened | closed
  · exact absurd connecting.state established
  · have monitored : session.connection.filed.Monitored := quiet.monitored opened.monitored
    refine ⟨.inr (.inl ⟨?_, monitored, listed opened.listed, ?_⟩), ?_⟩
    · rcases quiet.state with same | ⟨_, closing⟩
      · exact same.symm ▸ opened.state
      · exact .inr closing
    · intro loop work task
      rcases fresh loop work task with old | callback
      · exact opened.tasks loop work old
      · exact callback
    · simp [monitored.index]
  · have same : session.connection.filed = member.connection.filed :=
      quiet.silenced closed.state closed.events
    refine ⟨.inr (.inr ⟨quiet.disconnected closed.state, ?_, ?_, ?_⟩), ?_⟩
    · exact same.symm ▸ closed.events
    · rcases closed.removed with new | ⟨loop, work, task, closes⟩
      · exact .inl (same.symm ▸ new)
      · exact .inr ⟨loop, work, kept loop work task closes, closes⟩
    · intro loop work task
      rcases fresh loop work task with old | ⟨here, kind, rfl⟩
      · exact closed.tasks loop work old
      · exact ⟨by simp, fun _ => here⟩
    · rw [same]
      exact id

/-- Closing and what follows it: every new task is one of the removal. -/
theorem Stage.close (stage : sys.Stage c member)
    (established : member.connection.state ≠ .kConnecting) {connection : Connection}
    (state : connection.state = .kDisconnected)
    (events : connection.filed.events = Filed.kNoneEvent)
    (removed : connection.filed.index = .kNew ∨ next.Closing c)
    (fresh : ∀ loop, ∀ work ∈ (next.loops loop).tasks c, work ∈ (sys.loops loop).tasks c ∨
      work.closes = true ∧ (work.isLocal = true → member.loop = loop)) :
    next.Stage c { member with connection := connection } := by
  refine .inr (.inr ⟨state, events, removed, ?_⟩)
  intro loop work task
  rcases fresh loop work task with old | ⟨closes, here⟩
  · have tells := stage.tells old
    exact ⟨fun equal => established (tells.connecting equal).1.state, tells.here⟩
  · refine ⟨?_, here⟩
    rintro rfl
    cases closes

end System

end Lucky.Server
