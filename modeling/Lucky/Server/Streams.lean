import Lucky.Connection.Output
import Lucky.Server.Moves

/-!
# The bytes of a connection, in the whole server

What a connection writes is watched from outside while all threads of the server
run.  A step runs at most one routine of the connection, on its own state and with
the `Epoller` of its loop, so what is known of one connection's output holds in
every interleaving.
-/

namespace Lucky.Server

open Systems

/-- The routine `perform` runs for a piece of code. -/
def Work.routine (state : StateE) (readv : ReadvResult) (write : WriteResult) : Work → Routine
  | .callback .close _ => .beginClose
  | .callback .read _ => if readv.count = 0 then .nothing else .handleRead readv
  | .callback .write _ => .handleWrite write
  | .connectEstablished _ => .establish
  | .connectDestroyed _ => if state = .kConnected then .beginClose else .nothing
  | .removeFiled _ => .remove
  | .callback .error _ | .userCode _ | .closeCallback _ | .removeConnectionInLoop _ => .nothing

theorem Turn.routine_eq {c : ConnId} {state : StateE} {readv : ReadvResult} {write : WriteResult}
    {done : Work} {routine : Routine} {new : List Work}
    (turn : Turn c state readv write done routine new) :
    done.routine state readv write = routine := by
  cases turn with
  | ended count => exact if_pos count
  | received count => exact if_neg (Int.ne_of_gt count)
  | failed count => exact if_neg (Int.ne_of_lt count)
  | disconnect connected => exact if_pos connected
  | destroy disconnected => exact if_neg disconnected
  | error | close | write | establish | remove => rfl

/-- What the user passes to a connection in `state`, with the answer to a `::write` of it. -/
def Routine.sent (state : StateE) : Routine → Option (Chunk × WriteResult)
  | .userCall (.send data answer) => if state = .kConnected then some (data, answer) else none
  | .userCall .shutdown | .userCall (.retrieve _) | .nothing | .beginClose | .handleRead _
  | .handleWrite _ | .establish | .remove => none

namespace System

variable {threads : Nat}

/-- The routine of the connection that a step runs. -/
def routine (sys : System threads) (c : ConnId) (member : Member threads) :
    Action threads → Routine
  | .perform loop readv write =>
      match (sys.loops loop).agenda with
      | work :: _ =>
          if work.subject = some c then work.routine member.connection.state readv write
          else .nothing
      | [] => .nothing
  | .userCall _ d call => if d = c then .userCall call else .nothing
  | .poll _ _ | .handleEvent _ | .accept _ _ _ | .swap _ | .runNext _ | .finish _ | .keep _ _
  | .release _ | .queueUser _ _ | .destroy _ => .nothing

/-- The calls a step makes for the connection. -/
def made (sys : System threads) (c : ConnId) (action : Action threads) : List Call :=
  match sys.conns c with
  | some member =>
      match (sys.routine c member action).run (sys.session c member) with
      | .ok session => session.calls
      | .error _ => []
  | none => []

def sent (sys : System threads) (c : ConnId) (action : Action threads) :
    Option (Chunk × WriteResult) :=
  (sys.conns c).bind fun member =>
    (sys.routine c member action).sent member.connection.state

variable {config : Config} {sys next : System threads} {c : ConnId} {member : Member threads}

/-- What a step does to a connection that is there: `routine` leaves it as `session` says. -/
def Runs (sys next : System threads) (c : ConnId) (member : Member threads)
    (routine : Routine) (session : Session ConnId) : Prop :=
  routine.run (sys.session c member) = .ok session ∧
    ∀ after, next.conns c = some after → after.connection = session.connection

theorem made_eq {action : Action threads} {session : Session ConnId}
    (found : sys.conns c = some member)
    (returned : (sys.routine c member action).run (sys.session c member) = .ok session) :
    sys.made c action = session.calls := by
  simp only [System.made, found, returned]

theorem Runs.idle (stays : ∀ after, next.conns c = some after → after = member) :
    Runs sys next c member .nothing (sys.session c member) :=
  ⟨rfl, fun after found => by rw [stays after found]; rfl⟩

theorem Runs.commit {routine : Routine} {session : Session ConnId}
    (returned : routine.run (sys.session c member) = .ok session)
    (conns : next.conns = (sys.commit c member session).conns) :
    Runs sys next c member routine session := by
  refine ⟨returned, fun after found => ?_⟩
  rw [conns, commit_conns_eq_some, if_pos rfl] at found
  rw [found]

/-- A step without work of an agenda and without a call of the user leaves every connection
as it is. -/
theorem Anchored.stays (anchored : Anchored config sys) (found : sys.conns c = some member)
    {action : Action threads} (move : Move config sys action next)
    (silent : ∀ loop, ¬ action.Performs loop)
    (free : ∀ loop call, action ≠ .userCall loop c call)
    (after : Member threads) (foundAfter : next.conns c = some after) : after = member := by
  cases move.changed foundAfter with
  | same foundBefore => exact Option.some.inj (foundBefore.symm.trans found)
  | accepted accepts new =>
      rw [new, anchored.unused.1] at found
      cases found
  | turned performs => exact absurd performs (silent _)
  | called calls => exact absurd calls (free _ _)

theorem Move.runs {loop : LoopId threads} {readv : ReadvResult} {write : WriteResult}
    (move : Move config sys (.perform loop readv write) next) (found : sys.conns c = some member) :
    ∃ session, Runs sys next c member
      (sys.routine c member (.perform loop readv write)) session := by
  cases move with
  | control thread performs | setUser performs => cases performs
  | @turn _ _ _ done rest new d other routine session head foundOther turn returned =>
      by_cases same : d = c
      · subst same
        cases found.symm.trans foundOther
        simp only [System.routine, head, if_pos turn.subject, turn.routine_eq]
        exact ⟨session, .commit returned rfl⟩
      · simp only [System.routine, head, if_neg (Work.subject_ne turn.subject (Ne.symm same))]
        refine ⟨_, .idle fun after foundAfter => ?_⟩
        have stored := commit_conns_eq_some.mp foundAfter
        rw [if_neg (Ne.symm same), found] at stored
        exact (Option.some.inj stored).symm
  | userCode head =>
      simp only [System.routine, head, Work.routine, ite_self]
      exact ⟨_, .idle fun after stored => Option.some.inj (stored.symm.trans found)⟩
  | closeCallback head foundOther =>
      simp only [System.routine, head, Work.routine, ite_self]
      refine ⟨_, .idle fun after stored => ?_⟩
      rw [(removeConnection_fields sys _ _ _).1] at stored
      exact Option.some.inj (stored.symm.trans found)
  | removeConnectionInLoop head foundOther =>
      simp only [System.routine, head, Work.routine, ite_self]
      exact ⟨_, .idle fun after stored => Option.some.inj (stored.symm.trans found)⟩

/-- A step runs the routine, and the connection is what the routine leaves. -/
theorem Anchored.runs (anchored : Anchored config sys) (found : sys.conns c = some member)
    {action : Action threads} (stepped : System.step config sys action = some next) :
    ∃ session, Runs sys next c member (sys.routine c member action) session := by
  have move := anchored.moves stepped
  cases action with
  | poll | handleEvent | accept | swap | runNext | finish | keep | release | queueUser
    | destroy =>
      refine ⟨_, .idle (anchored.stays found move ?_ ?_)⟩
      · exact fun loop performs => nomatch performs
      · exact fun loop call => nofun
  | perform loop readv write => exact move.runs found
  | userCall loop d call =>
      by_cases same : d = c
      · subst same
        obtain ⟨inside, running, looking⟩ := Option.bind_eq_some_iff.mp stepped
        obtain ⟨other, foundOther, calling⟩ := Option.bind_eq_some_iff.mp looking
        cases found.symm.trans foundOther
        simp only [Option.ite_none_right_eq_some] at calling
        obtain ⟨session, returned, rfl⟩ := Option.map_eq_some_iff.mp calling.2
        rw [System.routine, if_pos rfl]
        exact ⟨session, .commit (toOption_eq_some.mp returned) rfl⟩
      · rw [System.routine, if_neg same]
        refine ⟨_, .idle (anchored.stays found move ?_ ?_)⟩
        · exact fun loop performs => nomatch performs
        · rintro loop call calls
          cases calls
          exact same rfl

end System

/-! ## What the routines do with the output -/

namespace Routine

variable {s t : Session ConnId} {routine : Routine}

/-- A routine depends in no way on the calls made before. -/
theorem run_prepend (routine : Routine) (s : Session ConnId) (earlier : List Call) :
    routine.run (s.prepend earlier) = (routine.run s).map (·.prepend earlier) := by
  cases routine with
  | nothing => rfl
  | beginClose => exact s.beginClose_prepend earlier
  | handleRead readv => exact s.handleRead_prepend earlier readv
  | handleWrite write => exact s.handleWrite_prepend earlier write
  | establish => exact s.establish_prepend earlier
  | remove => exact s.onFiled_prepend earlier _
  | userCall call => exact s.userCall_prepend earlier call

theorem unsent (returned : routine.run s = .ok t)
    (wrote : ∀ write, routine ≠ .handleWrite write)
    (silent : routine.sent s.connection.state = none) : s.Unsent t := by
  cases routine with
  | nothing =>
      cases returned
      exact .of_same rfl rfl
  | beginClose => exact .beginClose returned
  | handleRead readv => exact .handleRead returned
  | handleWrite write => exact absurd rfl (wrote write)
  | establish => exact .establish returned
  | remove => exact .onFiled returned
  | userCall call =>
      cases call with
      | send data answer =>
          have unconnected : s.connection.state ≠ .kConnected := by
            intro connected
            simp [Routine.sent, connected] at silent
          have skipped : Except.ok s = .ok t := (if_neg unconnected).symm.trans returned
          cases skipped
          exact .of_same rfl rfl
      | shutdown =>
          cases returned
          exact .shutdown s
      | retrieve len =>
          cases returned
          exact .of_same rfl rfl

/-- Where the user passes nothing, only the front of the output is written. -/
theorem flows (wellFormed : s.connection.outputBuffer.WellFormed)
    (returned : routine.run s = .ok t) (silent : routine.sent s.connection.state = none) :
    s.Flows t := by
  by_cases writes : ∃ write, routine = .handleWrite write
  · obtain ⟨write, rfl⟩ := writes
    exact .handleWrite wellFormed returned
  · exact .unsent wellFormed (unsent returned (fun write same => writes ⟨write, same⟩) silent)

theorem sent_eq_some {state : StateE} {data : Chunk} {answer : WriteResult}
    (sends : routine.sent state = some (data, answer)) :
    routine = .userCall (.send data answer) ∧ state = .kConnected := by
  cases routine with
  | userCall call =>
      cases call with
      | send other given =>
          simp only [Routine.sent, Option.ite_none_right_eq_some, Option.some.injEq,
            Prod.mk.injEq] at sends
          obtain ⟨connected, rfl, rfl⟩ := sends
          exact ⟨rfl, connected⟩
      | shutdown | retrieve => cases sends
  | nothing | beginClose | handleRead | handleWrite | establish | remove => cases sends

end Routine

/-! ## A connection watched -/

/-- The server in a run, with the calls made for a connection and the bytes passed to it. -/
structure Watched (threads : Nat) where
  sys : System threads
  calls : List Call
  passed : List Byte

namespace Watched

variable {threads : Nat}

/-- The connection with all its calls so far. -/
def outgoing (w : Watched threads) (session : Session ConnId) : Outgoing ConnId :=
  ⟨session.prepend w.calls, w.passed⟩

/-- While the connection is there its stream is intact, and whatever has been taken by
the kernel is the front of what was passed. -/
structure Delivered (c : ConnId) (w : Watched threads) : Prop where
  stream : ∀ member ∈ w.sys.conns c, (w.outgoing (w.sys.session c member)).Intact []
  taken : accepted w.calls <+: w.passed

def KeepsTail (c : ConnId) (w : Watched threads) (action : System.Action threads) :
    Prop :=
  ∀ member ∈ w.sys.conns c, ∀ sent ∈ w.sys.sent c action,
    (w.outgoing (w.sys.session c member)).KeepsTail (.sendinLoop sent.1 sent.2)

/-- All the steps of the server in which the socket answers a send as a healthy one. -/
def watching (config : Config) (c : ConnId) :
    Machine (Watched threads) (System.Action threads) where
  step w action :=
    if ∀ sent ∈ w.sys.sent c action, KernelMay sent.2 sent.1.len then
      (System.step config w.sys action).map fun next =>
        ⟨next, w.calls ++ w.sys.made c action,
          w.passed ++ ((w.sys.sent c action).map (·.1.data)).getD []⟩
    else none

/-- What a run keeps as long as the stream is intact. -/
structure Sound (config : Config) (c : ConnId) (w : Watched threads) : Prop where
  anchored : System.Anchored config w.sys
  output : ∀ member ∈ w.sys.conns c, member.connection.outputBuffer.WellFormed
  /-- Nothing is known of a connection still to come. -/
  fresh : w.sys.nextConnId ≤ c → w.calls = [] ∧ w.passed = []
  delivered : w.Delivered c

variable {config : Config} {c : ConnId} {w next : Watched threads} {sys : System threads}
  {member : Member threads} {session : Session ConnId} {calls : List Call} {passed : List Byte}

theorem make_sound (config : Config) (c : ConnId) :
    Sound config c (⟨System.make, [], []⟩ : Watched threads) :=
  ⟨System.make_anchored config, nofun, fun _ => ⟨rfl, rfl⟩, nofun, List.prefix_rfl⟩

/-- A routine that leaves the stream intact leaves it so for the server. -/
theorem Delivered.of_left (leaves : ∀ after, sys.conns c = some after →
      after.connection = session.connection)
    (intact : Outgoing.Intact [] ⟨session.prepend calls, passed⟩) :
    Delivered c ⟨sys, calls ++ session.calls, passed⟩ := by
  refine ⟨fun after found => intact.congr ?_ (leaves after found) rfl, ?_⟩
  · exact List.append_nil _
  · exact ⟨session.connection.outputBuffer.readable, intact.stream⟩

theorem Delivered.left (delivered : Delivered c ⟨sys, calls ++ session.calls, passed⟩)
    (found : sys.conns c = some member) (leaves : member.connection = session.connection) :
    Outgoing.Intact [] ⟨session.prepend calls, passed⟩ := by
  have whole := delivered.stream member found
  exact whole.congr (List.append_nil _).symm leaves.symm rfl

/-- A step at which the connection is not there. -/
theorem Sound.missing (sound : w.Sound config c) {action : System.Action threads}
    (missing : w.sys.conns c = none)
    (stepped : System.step config w.sys action = some sys) :
    Sound config c ⟨sys, w.calls, w.passed⟩ := by
  have move := sound.anchored.moves stepped
  -- a connection that appears has just been accepted
  have begun : ∀ after, sys.conns c = some after → w.calls = [] ∧ w.passed = [] ∧
      ∃ sockfd writeComplete highWaterMark,
        after.connection = Connection.make sockfd writeComplete highWaterMark := by
    intro after found
    cases move.changed found with
    | accepted accepts new =>
        obtain ⟨calls, passed⟩ := sound.fresh (Nat.le_of_eq new.symm)
        exact ⟨calls, passed, _, _, _, rfl⟩
    | same present | turned _ _ present | called _ present =>
        cases missing.symm.trans present
  refine ⟨sound.anchored.step stepped, fun after found => ?_, fun later => ?_,
    fun after found => ?_, sound.delivered.taken⟩
  · obtain ⟨_, _, sockfd, writeComplete, highWaterMark, new⟩ := begun after found
    rw [new]
    exact Buffer.initial_wellFormed.1
  · exact sound.fresh (Nat.le_trans move.later later)
  · obtain ⟨calls, passed, sockfd, writeComplete, highWaterMark, new⟩ := begun after found
    refine ⟨?_, ?_⟩
    · simp only [outgoing, Session.prepend, System.session, new, calls, passed]
      rfl
    · simp [outgoing, Session.prepend, System.session, calls]

theorem Sound.connected (sound : w.Sound config c) (found : w.sys.conns c = some member)
    (connected : member.connection.state = .kConnected) :
    (w.outgoing (w.sys.session c member)).Sound [] :=
  ⟨connected, sound.output member found, sound.delivered.stream member found⟩

theorem Sound.known (sound : w.Sound config c) {action : System.Action threads}
    (found : w.sys.conns c = some member)
    (stepped : System.step config w.sys action = some sys) : ¬ sys.nextConnId ≤ c := by
  have known := (sound.anchored.named found).2
  exact Nat.not_le_of_lt (Nat.lt_of_lt_of_le known (sound.anchored.moves stepped).later)

/-- A step that passes nothing to a connection that is there. -/
theorem Sound.quiet (sound : w.Sound config c) {action : System.Action threads}
    (found : w.sys.conns c = some member) (silent : w.sys.sent c action = none)
    (stepped : System.step config w.sys action = some sys) :
    Sound config c ⟨sys, w.calls ++ w.sys.made c action, w.passed⟩ := by
  obtain ⟨session, returned, leaves⟩ := sound.anchored.runs found stepped
  have nothing : (w.sys.routine c member action).sent member.connection.state = none := by
    rw [System.sent, found] at silent
    exact silent
  have flows := Routine.flows (sound.output member found) returned nothing
  have intact := (sound.delivered.stream member found).flows (flows.prepend w.calls)
  rw [System.made_eq found returned]
  refine ⟨sound.anchored.step stepped, fun after foundAfter => ?_, fun later => ?_,
    .of_left leaves intact⟩
  · rw [leaves after foundAfter]
    exact flows.wellFormed
  · exact absurd later (sound.known found stepped)

/-- A step that passes something. -/
theorem Sound.passing (sound : w.Sound config c) {action : System.Action threads} {data : Chunk}
    {answer : WriteResult} (found : w.sys.conns c = some member)
    (sends : w.sys.sent c action = some (data, answer)) (may : KernelMay answer data.len)
    (stepped : System.step config w.sys action = some sys) :
    (∃ after, sys.conns c = some after) ∧
      (∀ after, sys.conns c = some after → after.connection.outputBuffer.WellFormed) ∧
      (Delivered c ⟨sys, w.calls ++ w.sys.made c action, w.passed ++ data.data⟩ ↔
        (w.outgoing (w.sys.session c member)).KeepsTail (.sendinLoop data answer)) := by
  obtain ⟨session, returned, leaves⟩ := sound.anchored.runs found stepped
  have sent : (w.sys.routine c member action).sent member.connection.state =
      some (data, answer) := by
    rw [System.sent, found] at sends
    exact sends
  obtain ⟨calls, connected⟩ := Routine.sent_eq_some sent
  -- the routine is the step of a connection on its own
  have passes : Outgoing.transmissions.step (w.outgoing (w.sys.session c member))
      (.sendinLoop data answer) = some ⟨session.prepend w.calls, w.passed ++ data.data⟩ := by
    have ran := Routine.run_prepend (.userCall (.send data answer)) (w.sys.session c member) w.calls
    rw [← calls, returned, calls] at ran
    have whole : (w.outgoing (w.sys.session c member)).session.sendinLoop data answer =
        .ok (session.prepend w.calls) := (if_pos connected).symm.trans ran
    simp only [Outgoing.transmissions, if_pos may]
    rw [whole]
    rfl
  obtain ⟨_, formed, intact⟩ := Outgoing.sendinLoop_intact_iff (sound.connected found connected)
    passes
  have present : ∃ after, sys.conns c = some after := by
    apply Option.ne_none_iff_exists'.mp
    intro gone
    rcases (sound.anchored.moves stepped).missing gone with ⟨missing, _⟩ | ⟨rfl, _⟩
    · cases missing.symm.trans found
    · cases calls
  refine ⟨present, fun after foundAfter => ?_, ?_⟩
  · rw [leaves after foundAfter]
    exact formed
  · rw [System.made_eq found returned, ← intact]
    obtain ⟨after, foundAfter⟩ := present
    exact ⟨fun delivered => delivered.left foundAfter (leaves after foundAfter),
      fun holds => .of_left leaves holds⟩

theorem Sound.step (sound : w.Sound config c) {action : System.Action threads}
    (stepped : (watching config c).step w action = some next) :
    (w.KeepsTail c action → next.Sound config c) ∧
      (next.Delivered c → w.KeepsTail c action) := by
  simp only [watching, Option.ite_none_right_eq_some] at stepped
  obtain ⟨may, moved⟩ := stepped
  obtain ⟨sys, moves, rfl⟩ := Option.map_eq_some_iff.mp moved
  cases found : w.sys.conns c with
  | none =>
      have silent : w.sys.sent c action = none := by rw [System.sent, found, Option.bind_none]
      have idle : w.sys.made c action = [] := by simp only [System.made, found]
      simp only [silent, idle, Option.map_none, Option.getD_none, List.append_nil]
      refine ⟨fun _ => sound.missing found moves, fun _ member present => ?_⟩
      cases found.symm.trans present
  | some member =>
      cases sends : w.sys.sent c action with
      | none =>
          simp only [Option.map_none, Option.getD_none, List.append_nil]
          refine ⟨fun _ => sound.quiet found sends moves, fun _ other present sent given => ?_⟩
          cases sends.symm.trans given
      | some sent =>
          obtain ⟨data, answer⟩ := sent
          obtain ⟨present, formed, iff⟩ :=
            sound.passing found sends (may _ sends) moves
          have keeps : w.KeepsTail c action ↔
              (w.outgoing (w.sys.session c member)).KeepsTail (.sendinLoop data answer) := by
            constructor
            · exact fun holds => holds member found (data, answer) sends
            · intro holds other foundOther given sentGiven
              cases found.symm.trans foundOther
              cases sends.symm.trans sentGiven
              exact holds
          simp only [Option.map_some, Option.getD_some]
          rw [keeps, ← iff]
          refine ⟨fun delivered =>
            ⟨sound.anchored.step moves, formed, fun later => ?_, delivered⟩,
            id⟩
          exact absurd later (sound.known found moves)

/-- In every run of the server, with any interleaving of its threads and with `send` and
`shutdown` called on the connection's own loop only: of each connection, from its accept to
its end, the bytes the kernel has taken and those waiting in `outputBuffer_` are the bytes
the user has sent on it while it was connected, in order, exactly when every direct write
on it keeps the tail. -/
theorem delivered_iff_keepsTail (config : Config) (c : ConnId)
    (actions : List (System.Action threads)) :
    (watching config c).Always (Delivered c) ⟨System.make, [], []⟩ actions ↔
      (watching config c).Guarded (KeepsTail c) ⟨System.make, [], []⟩ actions := by
  apply Machine.always_iff_guarded (Sound config c)
  · exact fun w action next sound keeps stepped => (sound.step stepped).1 keeps
  · exact fun w sound => sound.delivered
  · exact fun w action next sound stepped delivered => (sound.step stepped).2 delivered
  · exact make_sound config c

end Watched

end Lucky.Server
