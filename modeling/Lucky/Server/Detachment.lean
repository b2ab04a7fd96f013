import Lucky.Server.Confinement
import Mathlib.Algebra.BigOperators.Group.Finset.Basic
import Mathlib.Algebra.Order.BigOperators.Group.Finset

/-!
# What is left to do with a detached connection

A closed connection whose `Filed` has been removed is never reported again.  The
work that still mentions it is passed on at most a few times, and nothing new is
queued: its `load` never grows, and falls with every piece of that work.
-/

namespace Lucky.Server

open Systems

/-- How often work of this kind can still be passed on. -/
def Work.weight : Work → Nat
  | .userCode _ | .removeFiled _ => 1
  | .connectDestroyed _ => 2
  | .removeConnectionInLoop _ => 3
  | .closeCallback _ => 4
  | .callback _ _ | .connectEstablished _ => 5

/-- The weight of work that mentions the connection. -/
def Work.cost (c : ConnId) (work : Work) : Nat := if c ∈ work.conns then work.weight else 0

namespace Work

variable {c d : ConnId} {work : Work}

theorem cost_of_not_mem (apart : c ∉ work.conns) : work.cost c = 0 := if_neg apart

theorem cost_pos (about : c ∈ work.conns) : 0 < work.cost c := by
  rw [cost, if_pos about]
  cases work <;> simp [weight]

theorem cheaper {left : Work} (conns : left.conns = work.conns)
    (lighter : left.weight < work.weight) :
    left.cost c < work.cost c ∨ left.cost c = 0 ∧ work.cost c = 0 := by
  rw [cost, cost, conns]
  split
  · exact .inl lighter
  · exact .inr ⟨rfl, rfl⟩

end Work

theorem cost_eq_zero {c : ConnId} {works : List Work}
    (others : ∀ work ∈ works, c ∉ work.conns) :
    (works.map (·.cost c)).sum = 0 := by
  apply List.sum_eq_zero
  intro cost counted
  obtain ⟨work, inside, rfl⟩ := List.mem_map.mp counted
  exact Work.cost_of_not_mem (others work inside)

/-- The cost of all the work a loop will run. -/
def LoopState.load (loop : LoopState) (c : ConnId) : Nat := (loop.works.map (·.cost c)).sum

namespace System

variable {threads : Nat} {config : Config} {sys next : System threads} {loop : LoopId threads}
  {c d : ConnId} {member : Member threads} {done : Work} {rest : List Work}

def load (sys : System threads) (c : ConnId) : Nat := ∑ loop, (sys.loops loop).load c

theorem load_modifyLoop (sys : System threads) (loop : LoopId threads)
    (change : LoopState → LoopState) (c : ConnId) :
    (sys.modifyLoop loop change).load c + (sys.loops loop).load c =
      sys.load c + (change (sys.loops loop)).load c := by
  have others : ∑ other ∈ Finset.univ.erase loop,
        ((sys.modifyLoop loop change).loops other).load c =
      ∑ other ∈ Finset.univ.erase loop, (sys.loops other).load c := by
    apply Finset.sum_congr rfl
    intro other apart
    rw [modifyLoop_elsewhere (Finset.ne_of_mem_erase apart)]
  have before := Finset.add_sum_erase Finset.univ (fun other => (sys.loops other).load c)
    (Finset.mem_univ loop)
  have after := Finset.add_sum_erase Finset.univ
    (fun other => ((sys.modifyLoop loop change).loops other).load c) (Finset.mem_univ loop)
  rw [modifyLoop_here, others] at after
  simp only [load]
  omega

theorem load_queueinLoop (sys : System threads) (loop : LoopId threads) (work : Work)
    (c : ConnId) : (sys.queueinLoop loop work).load c = sys.load c + work.cost c := by
  have changed := load_modifyLoop sys loop
    (fun state => { state with queue := state.queue.push work }) c
  simp only [LoopState.load, LoopState.works, TaskQueue.contents_push, List.map_append,
    List.sum_append, List.map_cons, List.map_nil, List.sum_cons, List.sum_nil] at changed
  simp only [System.queueinLoop]
  omega

theorem load_setAgenda (head : (sys.loops loop).agenda = done :: rest) (new : List Work)
    (c : ConnId) : (sys.setAgenda loop (new ++ rest)).load c + done.cost c =
      sys.load c + (new.map (·.cost c)).sum := by
  have changed := load_modifyLoop sys loop
    (fun state => { state with agenda := new ++ rest }) c
  simp only [LoopState.load, LoopState.works, head, List.map_append, List.sum_append,
    List.map_cons, List.sum_cons] at changed
  simp only [System.setAgenda]
  omega

theorem load_commit (sys : System threads) (d : ConnId) (member : Member threads)
    (session : Session ConnId) (c : ConnId) (quiet : d = c → session.calls = []) :
    (sys.commit d member session).load c = sys.load c := by
  let change (state : LoopState) : LoopState := { state with
    epoller := session.epoller
    queue := (queuedFunctors d session.calls).foldl .push state.queue }
  have free : ((queuedFunctors d session.calls).map (·.cost c)).sum = 0 := by
    apply cost_eq_zero
    intro work queued
    rw [mem_queuedFunctors queued, Work.conns, List.mem_singleton]
    rintro rfl
    rw [quiet rfl] at queued
    cases queued
  have same : (change (sys.loops member.loop)).load c = (sys.loops member.loop).load c := by
    simp only [change, LoopState.load, LoopState.works, TaskQueue.contents_foldl_push,
      List.map_append, List.sum_append, free, Nat.add_zero]
  have changed := load_modifyLoop sys member.loop change c
  rw [same] at changed
  exact Nat.add_right_cancel changed

/-- A handler of other connections begins. -/
theorem load_began {change : LoopState → LoopState} (agenda : (sys.loops loop).agenda = [])
    (queue : (change (sys.loops loop)).queue = (sys.loops loop).queue)
    (others : ∀ work ∈ (change (sys.loops loop)).agenda, c ∉ work.conns) :
    (sys.modifyLoop loop change).load c = sys.load c := by
  have same : (change (sys.loops loop)).load c = (sys.loops loop).load c := by
    simp only [LoopState.load, LoopState.works, queue, agenda, List.map_append, List.sum_append,
      cost_eq_zero others, List.map_nil, List.sum_nil]
  have changed := load_modifyLoop sys loop change c
  rw [same] at changed
  exact Nat.add_right_cancel changed

/-- A step makes no more to do with the connection, and less when it runs work that
mentions it. -/
structure Lessens (sys : System threads) (action : Action threads) (next : System threads)
    (c : ConnId) : Prop where
  le : next.load c ≤ sys.load c
  lt : ∀ {loop work rest}, action.Performs loop → (sys.loops loop).agenda = work :: rest →
    c ∈ work.conns → next.load c < sys.load c

theorem Lessens.idle {action : Action threads} (plain : action.performs = false)
    (equal : next.load c = sys.load c) : Lessens sys action next c := by
  refine ⟨Nat.le_of_eq equal, ?_⟩
  rintro loop work rest ⟨readv, write, rfl⟩
  cases plain

/-- The head of the agenda is run, and leaves work that costs less. -/
theorem Lessens.run {readv : ReadvResult} {write : WriteResult} {left : Nat}
    (head : (sys.loops loop).agenda = done :: rest)
    (equal : next.load c + done.cost c = sys.load c + left)
    (cheaper : left < done.cost c ∨ left = 0 ∧ done.cost c = 0) :
    Lessens sys (.perform loop readv write) next c := by
  refine ⟨by omega, ?_⟩
  rintro other work after ⟨_, _, same⟩ headOther about
  cases same
  rw [head] at headOther
  cases headOther
  have positive := Work.cost_pos about
  omega

/-- Closed, with its `Filed` removed and no callback of it left. -/
structure Detached (sys : System threads) (c : ConnId) : Prop where
  known : c < sys.nextConnId
  closed : ∀ member, sys.conns c = some member →
    member.connection.state = .kDisconnected ∧ member.connection.filed.index = .kNew
  callbacks : ∀ loop kind, .callback kind c ∉ (sys.loops loop).tasks c

/-- A function of a disconnected connection queues nothing. -/
theorem Session.userCall_of_disconnected {s t : Session ConnId} {call : UserCall}
    (closed : s.connection.state = .kDisconnected) (returned : s.userCall call = .ok t) :
    t.calls = s.calls := by
  cases call with
  | send data answer =>
      rw [Session.userCall, Session.send, if_neg (by simp [closed])] at returned
      cases returned
      rfl
  | shutdown =>
      rw [Session.userCall, Session.shutdown, if_neg (by simp [closed])] at returned
      cases returned
      rfl
  | retrieve len =>
      cases returned
      rfl

namespace Detached

variable {readv : ReadvResult} {write : WriteResult} {routine : Routine} {new : List Work}
  {session : Session ConnId}

/-- The turns a detached connection still takes are parts of `connectDestroyed`. -/
theorem turn_cases (detached : sys.Detached c) (anchored : Anchored config sys)
    (head : (sys.loops loop).agenda = done :: rest) (found : sys.conns c = some member)
    (turn : Turn c member.connection.state readv write done routine new)
    (returned : routine.run (sys.session c member) = .ok session) :
    session.calls = [] ∧ session.connection.state = .kDisconnected ∧
      session.connection.filed.index = .kNew ∧
      (new.map (·.cost c)).sum < done.cost c := by
  obtain ⟨disconnected, removed⟩ := detached.closed member found
  have task := mem_tasks_head head turn.subject
  have tells := (anchored.stage found).tells task
  cases turn with
  | error | close | ended | received | failed | write =>
      exact absurd task (detached.callbacks loop _)
  | establish =>
      have connecting := (tells.connecting rfl).1.state
      rw [disconnected] at connecting
      cases connecting
  | disconnect connected =>
      rw [disconnected] at connected
      cases connected
  | destroy =>
      cases returned
      exact ⟨rfl, disconnected, removed, by simp [Work.cost, Work.conns, Work.weight]⟩
  | remove =>
      obtain ⟨_, calls, connection⟩ := Session.onFiled_remove returned
      rw [connection]
      exact ⟨calls, disconnected, rfl, by simp [Work.cost, Work.conns, Work.weight]⟩

theorem move (detached : sys.Detached c) (anchored : Anchored config sys)
    {action : Action threads} (move : Move config sys action next) : next.Detached c := by
  have callbacks : ∀ loop kind, .callback kind c ∉ (next.loops loop).tasks c := by
    intro loop kind task
    rcases move.fresh anchored task with old | fresh
    · exact detached.callbacks loop kind old
    · cases fresh with
      | reported phase =>
          -- what has been reported is registered
          obtain ⟨member, found, _, registered⟩ :=
            anchored.reported phase _ List.mem_cons_self
          exact registered (detached.closed member found).2
      | left head found turn inside =>
          have callback := turn.callbacks _ inside rfl
          have task := mem_tasks_head head turn.subject
          cases turn with
          | ended => exact detached.callbacks loop _ task
          | error | close | received | failed | write | establish | disconnect | destroy
            | remove => simp at inside
  refine ⟨Nat.lt_of_lt_of_le detached.known move.later, ?_, callbacks⟩
  intro after foundAfter
  cases move.changed foundAfter with
  | same found => exact detached.closed after found
  | accepted accepts new => exact absurd new (Nat.ne_of_lt detached.known)
  | turned performs head found turn returned =>
      obtain ⟨_, closed, removed, _⟩ := detached.turn_cases anchored head found turn returned
      exact ⟨closed, removed⟩
  | called calls found returned =>
      obtain ⟨closed, removed⟩ := detached.closed _ found
      have quiet := Session.Quiet.userCall returned
      have events := ((anchored.stage found).closed closed).events
      exact ⟨quiet.disconnected closed, (quiet.silenced closed events).symm ▸ removed⟩

/-- As long as the user has no pointer to it, there is never more to do with a detached
connection. -/
theorem lessens (detached : sys.Detached c) (anchored : Anchored config sys)
    (dropped : c ∉ sys.user) {action : Action threads} (move : Move config sys action next) :
    Lessens sys action next c := by
  cases move with
  | @control action loop change thread plain control =>
      have changed := load_modifyLoop sys loop change c
      rw [LoopState.load, LoopState.load, control.works (anchored.settled loop)] at changed
      exact .idle plain (Nat.add_right_cancel changed)
  | @handleEvent loop d revents active member phase agenda found =>
      refine .idle rfl (load_began agenda rfl ?_)
      -- what has been reported is registered
      obtain ⟨_, foundReported, _, registered⟩ := anchored.reported phase _ List.mem_cons_self
      have apart : c ≠ d := by
        rintro rfl
        exact registered (detached.closed _ foundReported).2
      intro work callback
      obtain ⟨kind, _, rfl⟩ := List.mem_map.mp callback
      simpa [Work.conns] using apart
  | accept phase agenda small =>
      have apart : c ≠ sys.nextConnId := Nat.ne_of_lt detached.known
      refine .idle rfl ?_
      unfold System.newConnection
      dsimp only
      split
      · refine load_began ?_ rfl ?_
        · exact agenda
        · simpa [Work.conns] using apart
      · rw [load_queueinLoop, Work.cost_of_not_mem (by simpa [Work.conns] using apart)]
        rfl
  | @turn loop readv write done rest new d member routine session head found turn returned =>
      have headAfter : ((sys.commit d member session).loops loop).agenda = done :: rest := by
        rw [commit_agenda, head]
      have equal := load_setAgenda headAfter new c
      by_cases same : d = c
      · subst same
        obtain ⟨calls, _, _, cheaper⟩ := detached.turn_cases anchored head found turn returned
        rw [load_commit sys d member session d fun _ => calls] at equal
        exact .run head equal (.inl cheaper)
      · have about : c ∉ [d] := by simpa using Ne.symm same
        rw [load_commit sys d member session c fun equal => absurd equal same,
          cost_eq_zero fun work fresh => turn.conns work fresh ▸ about] at equal
        refine .run head equal (.inr ⟨rfl, Work.cost_of_not_mem ?_⟩)
        rw [Work.conns_of_subject turn.subject]
        exact about
  | userCode head =>
      refine .run head (load_setAgenda head [] c) ?_
      exact (Nat.eq_zero_or_pos _).symm.imp_right fun free => ⟨rfl, free⟩
  | @closeCallback loop readv write rest d member head found =>
      have conns : (Work.removeConnectionInLoop d).conns = (Work.closeCallback d).conns := rfl
      refine .run head ?_ (Work.cheaper conns (Nat.lt_succ_self 3))
      unfold System.removeConnection
      split
      · exact load_setAgenda head [.removeConnectionInLoop d] c
      · have equal := load_setAgenda head [] c
        rw [load_queueinLoop]
        simp only [List.nil_append, List.map_nil, List.sum_nil] at equal
        omega
  | @removeConnectionInLoop loop readv write rest d member head found =>
      have conns : (Work.connectDestroyed d).conns = (Work.removeConnectionInLoop d).conns := rfl
      refine .run head ?_ (Work.cheaper conns (Nat.lt_succ_self 2))
      have equal := load_setAgenda head [] c
      simp only [List.nil_append, List.map_nil, List.sum_nil] at equal
      rw [System.removeConnectionInLoop, load_queueinLoop]
      change (sys.setAgenda loop rest).load c + _ + _ = _
      omega
  | userCall running found known here returned =>
      refine .idle rfl (load_commit _ _ _ _ _ ?_)
      rintro rfl
      exact Session.userCall_of_disconnected (detached.closed _ found).1 returned
  | setUser plain known kept => exact .idle plain rfl
  | queueUser known =>
      refine .idle rfl ?_
      rw [load_queueinLoop, Work.cost_of_not_mem, Nat.add_zero]
      exact fun bound => dropped (known c bound)
  | destroy found unowned => exact .idle rfl rfl

end Detached

end System

end Lucky.Server
