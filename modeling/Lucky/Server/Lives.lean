import Lucky.Server.Confinement

/-!
# The life of a connection

Seen from outside, the whole server is, for each connection, one small machine:
the connection is accepted, established, closed and destroyed, in this order and
each once.  Every step of the system is a step of that machine or is not seen at
all, and each of its steps is taken by one thread only.
-/

namespace Lucky.Server

open Systems

/-- What becomes of a number that a connection may get. -/
inductive Life where
  | unborn
  | connecting
  | established
  | closed
  | gone
  deriving DecidableEq, Repr

namespace Life

inductive Event where
  | accept
  | establish
  | close
  | destroy
  deriving DecidableEq, Repr

def step : Life → Event → Option Life
  | .unborn, .accept => some .connecting
  | .connecting, .establish => some .established
  | .established, .close => some .closed
  | .closed, .destroy => some .gone
  | _, _ => none

def machine : Machine Life Event := ⟨step⟩

end Life

/-- `kDisconnecting` is a stage of an established connection. -/
def StateE.life : StateE → Life
  | .kConnecting => .connecting
  | .kConnected | .kDisconnecting => .established
  | .kDisconnected => .closed

namespace System

variable {threads : Nat} {config : Config} {sys next : System threads} {c : ConnId}

def life (sys : System threads) (c : ConnId) : Life :=
  match sys.conns c with
  | some member => StateE.life member.connection.state
  | none => if c < sys.nextConnId then .gone else .unborn

theorem life_of_found {member : Member threads} (found : sys.conns c = some member) :
    sys.life c = StateE.life member.connection.state := by
  rw [life, found]

theorem life_of_gone (gone : sys.conns c = none) (known : c < sys.nextConnId) :
    sys.life c = .gone := by
  rw [life, gone]
  exact if_pos known

/-- The steps that take a connection from one stage of its life to the next. -/
inductive Causes (sys : System threads) (c : ConnId) : Action threads → Life.Event → Prop where
  /-- The main loop accepts it. -/
  | accept {sockfd : Nat} {writeCompleteCallback highWaterMarkCallback : Bool}
      (new : c = sys.nextConnId) :
      Causes sys c (.accept sockfd writeCompleteCallback highWaterMarkCallback) .accept
  /-- The thread of its loop runs `connectEstablished`. -/
  | establish {member : Member threads} {action : Action threads} {rest : List Work}
      (found : sys.conns c = some member) (performs : action.Performs member.loop)
      (head : (sys.loops member.loop).agenda = .connectEstablished c :: rest) :
      Causes sys c action .establish
  /-- The thread of its loop runs `handleClose`. -/
  | close {member : Member threads} {action : Action threads} {rest : List Work}
      (found : sys.conns c = some member) (performs : action.Performs member.loop)
      (head : (sys.loops member.loop).agenda = .callback .close c :: rest) :
      Causes sys c action .close
  /-- Its last owner goes. -/
  | destroy (unowned : ¬ sys.Owned c) : Causes sys c (.destroy c) .destroy

theorem life_of_quiet {s t : Session ConnId} (quiet : Session.Quiet s t) :
    StateE.life t.connection.state = StateE.life s.connection.state := by
  rcases quiet.state with same | ⟨connected, closing⟩
  · rw [same]
  · rw [connected, closing]
    rfl

/-- A turn of the connection's thread leaves its life as it is, establishes or closes it. -/
theorem Anchored.turn_life (anchored : Anchored config sys) {member : Member threads}
    {loop : LoopId threads} {action : Action threads} {readv : ReadvResult} {write : WriteResult}
    {done : Work} {rest new : List Work} {routine : Routine} {session : Session ConnId}
    (performs : action.Performs loop) (head : (sys.loops loop).agenda = done :: rest)
    (found : sys.conns c = some member)
    (turn : Turn c member.connection.state readv write done routine new)
    (returned : routine.run (sys.session c member) = .ok session) :
    StateE.life session.connection.state = StateE.life member.connection.state ∨
      ∃ event, Life.step (StateE.life member.connection.state) event =
        some (StateE.life session.connection.state) ∧ sys.Causes c action event := by
  have here := anchored.turn_here head found turn
  subst here
  have tells := (anchored.stage found).tells (mem_tasks_head head turn.subject)
  cases turn with
  | error | ended | destroy =>
      cases returned
      exact .inl rfl
  | close =>
      rw [(Session.beginClose_law returned).2.2]
      cases state : member.connection.state with
      | kConnecting => exact absurd state (tells.established (by simp))
      | kConnected | kDisconnecting => exact .inr ⟨.close, rfl, .close found performs head⟩
      | kDisconnected => exact .inl rfl
  | received count =>
      exact .inl (life_of_quiet ((Session.handleRead_law returned).1 (Int.ne_of_gt count)))
  | failed count =>
      exact .inl (life_of_quiet ((Session.handleRead_law returned).1 (Int.ne_of_lt count)))
  | write => exact .inl (life_of_quiet (Session.Quiet.handleWrite returned))
  | establish =>
      right
      refine ⟨.establish, ?_, .establish found performs head⟩
      rw [(Session.establish_law returned).2.2.1, (tells.connecting rfl).1.state]
      rfl
  | disconnect connected =>
      have closed := (tells.closed rfl).state
      rw [connected] at closed
      cases closed
  | remove =>
      left
      rw [(Session.onFiled_remove returned).2.2]
      rfl

theorem Anchored.move_life (anchored : Anchored config sys) {action : Action threads}
    (move : Move config sys action next) (c : ConnId) :
    next.life c = sys.life c ∨ ∃ event, Life.step (sys.life c) event = some (next.life c) ∧
      sys.Causes c action event := by
  cases after : next.conns c with
  | none =>
      rcases move.missing after with ⟨before, known⟩ | ⟨rfl, unowned, member, found⟩
      · left
        simp only [life, after, before, known]
      · have closed : member.connection.state = .kDisconnected := by
          rcases anchored.stage found with connecting | opened | closed
          · exact absurd connecting.listed.owned unowned
          · exact absurd opened.listed.owned unowned
          · exact closed.state
        right
        refine ⟨.destroy, ?_, .destroy unowned⟩
        rw [life_of_found found, closed,
          life_of_gone after (Nat.lt_of_lt_of_le (anchored.named found).2 move.later)]
        rfl
  | some member =>
      rw [life_of_found after]
      cases move.changed after with
      | same found => exact .inl (life_of_found found).symm
      | accepted accepts new =>
          right
          refine ⟨.accept, ?_, accepts ▸ .accept new⟩
          have unborn : sys.life c = .unborn := by
            subst new
            simp [life, anchored.unused]
          rw [unborn]
          rfl
      | turned performs head found turn returned =>
          rw [life_of_found found]
          exact anchored.turn_life performs head found turn returned
      | called calls found returned =>
          rw [life_of_found found]
          exact .inl (life_of_quiet (Session.Quiet.userCall returned))

/-- Seen at one connection the server, with `send` and `shutdown` called on the
connection's own loop only, is the machine of its life: over any run from a reachable state
the connection goes on through its stages in order, none left out and none taken again, and
each step either leaves its stage alone or is the step of the one thread that may change
it. -/
theorem lives_refined (config : Config) {sys : System threads}
    (reached : (interleaving config).Reachable make sys) (c : ConnId) :
    (∀ action next, step config sys action = some next → next.life c = sys.life c ∨
      ∃ event, Life.step (sys.life c) event = some (next.life c) ∧
        sys.Causes c action event) ∧
    ∀ actions final, (interleaving config).exec sys actions = some final →
      Life.machine.Reachable (sys.life c) (final.life c) := by
  have anchored := reachable_anchored reached
  constructor
  · exact fun action next stepped => anchored.move_life (anchored.moves stepped) c
  · intro actions final run
    refine Machine.exec_simulates Life.machine (·.life c) (Anchored config)
      (fun _ _ _ kept stepped => kept.step stepped) ?_ anchored run
    intro state action next kept stepped
    rcases kept.move_life (kept.moves stepped) c with same | ⟨event, visible, _⟩
    · exact .inl same
    · exact .inr ⟨event, visible⟩

theorem lives_refined_reuse :
    ∃ final : System 1, (interleaving ⟨[], ⟨fun _ => 0, 0⟩⟩).exec make descriptorReuse =
      some final ∧ Life.machine.Reachable .unborn (final.life 1) := by
  obtain ⟨final, run⟩ : ∃ final : System 1,
      (interleaving ⟨[], ⟨fun _ => 0, 0⟩⟩).exec make descriptorReuse = some final :=
    ⟨_, rfl⟩
  exact ⟨final, run,
    (lives_refined ⟨[], ⟨fun _ => 0, 0⟩⟩ ⟨[], rfl⟩ 1).2 _ final run⟩

end System

end Lucky.Server
