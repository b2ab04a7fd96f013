import Lucky.Server.Detachment
import Lucky.Server.Iterations

/-!
# Every closed connection is reclaimed

A closed connection is passed from its own loop to the main loop, which takes it
out of `connections_`, and back to its loop, which removes its `Filed`.  Then it
is detached, what is left of its work runs out, and with the next batches of the
loops its last `shared_ptr`s go.  No connection leaks, whatever the other
connections and the kernel do and the user does on the connections' own loops, as
long as every loop goes round.
-/

namespace Lucky.Server

open Systems

/-- What a batch or the agenda holds was held before, or is still to be run. -/
theorem LoopMove.held {performs : Prop} {before after : LoopState} {work : Work}
    (move : LoopMove performs before after) (holds : work ∈ after.held) :
    work ∈ before.held ∨ work ∈ after.works := by
  cases move with
  | grown functors epoller plain =>
      simp only [LoopState.held, TaskQueue.foldl_push, LoopState.works, TaskQueue.contents,
        List.mem_append] at holds ⊢
      rcases holds with old | pending | fresh
      · exact .inl (.inl old)
      · exact .inl (.inr pending)
      · exact .inr (.inr (.inr (.inr fresh)))
  | control control => exact .inl (control.held holds)
  | began rest new phase agenda =>
      simp only [LoopState.held, LoopState.works, List.mem_append] at holds ⊢
      rcases holds with (fresh | batch) | pending
      · exact .inr (.inl fresh)
      · exact .inl (.inl (.inr batch))
      · exact .inl (.inr pending)
  | @performed done rest new functors epoller runs head plain callbacks =>
      simp only [LoopState.held, TaskQueue.foldl_push, LoopState.works, TaskQueue.contents,
        head, List.mem_append, List.mem_cons] at holds ⊢
      rcases holds with ((fresh | later) | batch) | pending | queued
      · exact .inr (.inl (.inl fresh))
      · exact .inr (.inl (.inr later))
      · exact .inl (.inl (.inr batch))
      · exact .inl (.inr pending)
      · exact .inr (.inr (.inr (.inr queued)))

namespace System

variable {threads : Nat} {config : Config} {sys next : System threads} {c : ConnId}
  {states : Nat → System threads} {actions : Nat → Action threads} {i : Nat} {work : Work}

/-- The work is still to be run. -/
def Planned (work : Work) (sys : System threads) : Prop :=
  ∃ loop, work ∈ (sys.loops loop).works

theorem planned_setAgenda {loop : LoopId threads} {agenda : List Work} (inside : work ∈ agenda) :
    Planned work (sys.setAgenda loop agenda) := by
  refine ⟨loop, ?_⟩
  rw [System.setAgenda, modifyLoop_here]
  exact List.mem_append_left _ inside

theorem planned_queueinLoop (sys : System threads) (loop : LoopId threads) (work : Work) :
    Planned work (sys.queueinLoop loop work) := by
  refine ⟨loop, ?_⟩
  rw [System.queueinLoop, modifyLoop_here, LoopState.works, TaskQueue.contents_push]
  exact List.mem_append_right _ (List.mem_append_right _ (List.mem_singleton_self work))

theorem Planned.of_task {work : Work} {loop : LoopId threads}
    (task : work ∈ (sys.loops loop).tasks c) : Planned work sys :=
  ⟨loop, (LoopState.mem_tasks.mp task).1⟩

/-- Work that is still to be run is run. -/
theorem Lively.performed (lively : Lively config states actions)
    (planned : Planned work (states i)) :
    ∃ m loop readv write rest, i ≤ m ∧ actions m = .perform loop readv write ∧
      ((states m).loops loop).agenda = work :: rest ∧
      (states m).perform loop readv write rest work = some (states (m + 1)) := by
  obtain ⟨loop, inside⟩ := planned
  obtain ⟨m, later, ⟨readv, write, action⟩, rest, head⟩ := lively.ran inside
  refine ⟨m, loop, readv, write, rest, later, action, head, ?_⟩
  have stepped := lively.endless m
  rw [action] at stepped
  change System.step config (states m) (.perform loop readv write) = _ at stepped
  simpa only [System.step, head] using stepped

/-! ## From hanging up to `connectDestroyed` -/

/-- Closed, if it still exists, on the given loop. -/
structure Shut (loop : LoopId threads) (c : ConnId) (sys : System threads) : Prop where
  known : c < sys.nextConnId
  closed : ∀ member, sys.conns c = some member →
    member.connection.state = .kDisconnected ∧ member.loop = loop

theorem Shut.move {loop : LoopId threads} (shut : Shut loop c sys)
    (anchored : Anchored config sys) {action : Action threads}
    (move : Move config sys action next) : Shut loop c next := by
  refine ⟨Nat.lt_of_lt_of_le shut.known move.later, ?_⟩
  intro after foundAfter
  cases move.changed foundAfter with
  | same found => exact shut.closed after found
  | accepted accepts new => exact absurd new (Nat.ne_of_lt shut.known)
  | turned performs head found turn returned =>
      obtain ⟨closed, here⟩ := shut.closed _ found
      refine ⟨?_, here⟩
      have tells := (anchored.stage found).tells (mem_tasks_head head turn.subject)
      cases turn with
      | establish =>
          have connecting := (tells.connecting rfl).1.state
          rw [closed] at connecting
          cases connecting
      | close | disconnect => exact (congrArg _ (Session.beginClose_law returned).2.2).trans rfl
      | received count =>
          exact ((Session.handleRead_law returned).1 (Int.ne_of_gt count)).disconnected closed
      | failed count =>
          exact ((Session.handleRead_law returned).1 (Int.ne_of_lt count)).disconnected closed
      | write => exact (Session.Quiet.handleWrite returned).disconnected closed
      | remove => exact (congrArg _ (Session.onFiled_remove returned).2.2).trans closed
      | error | ended | destroy =>
          cases returned
          exact closed
  | called calls found returned =>
      obtain ⟨closed, here⟩ := shut.closed _ found
      exact ⟨(Session.Quiet.userCall returned).disconnected closed, here⟩

theorem Lively.shut (lively : Lively config states actions) (loop : LoopId threads)
    (c : ConnId) : Stable states (Shut loop c) :=
  fun i shut => shut.move (lively.anchored i) (lively.move i)

theorem Lively.detached (lively : Lively config states actions) (c : ConnId) :
    Stable states (·.Detached c) :=
  fun i detached => detached.move (lively.anchored i) (lively.move i)

theorem Lively.hangs_up (lively : Lively config states actions) :
    LeadsTo states (Planned (.callback .close c)) (fun sys => ∃ loop, Shut loop c sys) := by
  intro i planned
  obtain ⟨m, loop, readv, write, rest, later, _, head, performed⟩ := lively.performed planned
  obtain ⟨member, found, closing⟩ := Option.bind_eq_some_iff.mp performed
  obtain ⟨session, returned, next⟩ := Option.map_eq_some_iff.mp closing
  refine ⟨m + 1, Nat.le_succ_of_le later, member.loop, ?_, ?_⟩
  · exact Nat.lt_of_lt_of_le ((lively.anchored m).named found).2 (lively.move m).later
  · intro after foundAfter
    rw [← next] at foundAfter
    cases (commit_conns ..).symm.trans foundAfter
    have law := (Session.beginClose_law (toOption_eq_some.mp returned)).2.2
    exact ⟨by rw [law], rfl⟩

theorem Lively.unlists (lively : Lively config states actions) :
    LeadsTo states (Planned (.closeCallback c)) (Planned (.removeConnectionInLoop c)) := by
  intro i planned
  obtain ⟨m, loop, readv, write, rest, later, _, head, performed⟩ := lively.performed planned
  refine ⟨m + 1, Nat.le_succ_of_le later, ?_⟩
  rw [← Option.some.inj performed, System.removeConnection]
  split
  · exact planned_setAgenda List.mem_cons_self
  · exact planned_queueinLoop _ _ _

theorem Lively.returns (lively : Lively config states actions) :
    LeadsTo states (Planned (.removeConnectionInLoop c)) (Planned (.connectDestroyed c)) := by
  intro i planned
  obtain ⟨m, loop, readv, write, rest, later, _, head, performed⟩ := lively.performed planned
  obtain ⟨member, found, next⟩ := Option.map_eq_some_iff.mp performed
  refine ⟨m + 1, Nat.le_succ_of_le later, ?_⟩
  rw [← next]
  exact planned_queueinLoop _ _ _

theorem Lively.destroys (lively : Lively config states actions) :
    LeadsTo states (Planned (.connectDestroyed c)) (Planned (.removeFiled c)) := by
  intro i planned
  obtain ⟨m, loop, readv, write, rest, later, _, head, performed⟩ := lively.performed planned
  obtain ⟨member, found, destroying⟩ := Option.bind_eq_some_iff.mp performed
  refine ⟨m + 1, Nat.le_succ_of_le later, ?_⟩
  split at destroying
  · obtain ⟨session, returned, next⟩ := Option.map_eq_some_iff.mp destroying
    rw [← next]
    exact planned_setAgenda (List.mem_cons_of_mem _ List.mem_cons_self)
  · rw [← Option.some.inj destroying]
    exact planned_setAgenda List.mem_cons_self

/-- Removing the `Filed` detaches the connection: no handler is running then. -/
theorem Lively.removes (lively : Lively config states actions) :
    LeadsTo states (Planned (.removeFiled c)) (·.Detached c) := by
  intro i planned
  obtain ⟨m, loop, readv, write, rest, later, _, head, performed⟩ := lively.performed planned
  obtain ⟨member, found, removing⟩ := Option.bind_eq_some_iff.mp performed
  obtain ⟨session, returned, next⟩ := Option.map_eq_some_iff.mp removing
  have anchored := lively.anchored m
  have tells := (anchored.stage found).tells (mem_tasks_head head rfl)
  have law := (Session.onFiled_remove (toOption_eq_some.mp returned)).2.2
  refine ⟨m + 1, Nat.le_succ_of_le later,
    Nat.lt_of_lt_of_le (anchored.named found).2 (lively.move m).later, ?_, ?_⟩
  · intro after foundAfter
    rw [← next] at foundAfter
    cases (commit_conns ..).symm.trans foundAfter
    rw [law]
    exact ⟨(tells.closed rfl).state, rfl⟩
  · intro other kind task
    rw [← next] at task
    change _ ∈ (((states m).turned c member session loop [] rest).loops other).tasks c at task
    rcases mem_tasks_of_turned head task with old | ⟨_, fresh⟩
    · have here := ((tells.closed rfl).tasks other _ old).2 rfl
      rw [tells.here rfl] at here
      subst here
      obtain ⟨_, active, phase⟩ :=
        (lively.handled m loop).handling (LoopState.mem_tasks.mp old).1 rfl
      have kept := (anchored.settled loop (by simp [phase])).2 (.removeFiled c)
        (head ▸ List.mem_cons_self)
      cases kept
    · cases fresh

/-- A task that is to remove the `Filed` leads to that. -/
theorem Lively.closes (lively : Lively config states actions) :
    LeadsTo states (·.Closing c) (·.Detached c) := by
  have removes := lively.removes (c := c)
  have destroys := lively.destroys.trans removes
  have returns := lively.returns.trans destroys
  have unlists := lively.unlists.trans returns
  rintro i ⟨loop, work, task, closes⟩
  have planned := Planned.of_task task
  have about := (LoopState.mem_tasks.mp task).2
  cases work with
  | closeCallback d =>
      cases about
      exact unlists i planned
  | removeConnectionInLoop d =>
      cases about
      exact returns i planned
  | connectDestroyed d =>
      cases about
      exact destroys i planned
  | removeFiled d =>
      cases about
      exact removes i planned
  | callback | userCode | connectEstablished => cases closes

theorem Lively.detaches (lively : Lively config states actions) :
    LeadsTo states (fun sys => ∃ loop, Shut loop c sys) (·.Detached c) := by
  rintro i ⟨loop, shut⟩
  -- when the loop swaps its queue no callback is left
  obtain ⟨j, later, swap⟩ := lively.goesRound loop i
  have anchored := lively.anchored j
  have shutThen := (lively.shut loop c).later later shut
  have silent (other : LoopId threads) (kind : Filed.Callback) :
      .callback kind c ∉ ((states j).loops other).tasks c := by
    intro task
    obtain ⟨member, found⟩ := anchored.live
      (owned_of_works (LoopState.mem_tasks.mp task).1 (List.mem_singleton_self c))
    obtain ⟨closed, here⟩ := shutThen.closed member found
    have same := (((anchored.stage found).closed closed).tasks other _ task).2 rfl
    rw [here] at same
    subst same
    have agenda := ((lively.handled j loop).handling (LoopState.mem_tasks.mp task).1 rfl).1
    rw [(lively.swapped swap).agenda] at agenda
    exact absurd agenda List.not_mem_nil
  by_cases removed : ∀ member, (states j).conns c = some member →
      member.connection.filed.index = .kNew
  · exact ⟨j, later, shutThen.known,
      fun member found => ⟨(shutThen.closed member found).1, removed member found⟩, silent⟩
  · obtain ⟨member, found, registered⟩ : ∃ member, (states j).conns c = some member ∧
        member.connection.filed.index ≠ .kNew := by simpa using removed
    have closed := (anchored.stage found).closed (shutThen.closed member found).1
    obtain ⟨k, last, detached⟩ := lively.closes j (closed.removed.resolve_left registered)
    exact ⟨k, Nat.le_trans later last, detached⟩

/-! ## The last references -/

theorem exists_of_load {c : ConnId} (positive : 0 < sys.load c) :
    ∃ work, Planned work sys ∧ c ∈ work.conns := by
  by_contra unplanned
  refine absurd positive (Nat.not_lt.mpr (Nat.le_of_eq (Finset.sum_eq_zero ?_)))
  intro loop _
  apply cost_eq_zero
  exact fun work planned about => unplanned ⟨work, ⟨loop, planned⟩, about⟩

theorem not_mem_of_load {c : ConnId} (zero : sys.load c = 0) (planned : Planned work sys) :
    c ∉ work.conns := by
  intro about
  obtain ⟨loop, inside⟩ := planned
  have each := (Finset.sum_eq_zero_iff.mp zero) loop (Finset.mem_univ loop)
  have cost := List.sum_eq_zero_iff.mp each (work.cost c) (List.mem_map_of_mem inside)
  exact absurd (Work.cost_pos about) (Nat.not_lt.mpr (Nat.le_of_eq cost))

/-- Once the user has let go of a detached connection, its work runs out. -/
theorem Lively.runs_out (lively : Lively config states actions)
    (dropped : ∀ j, c ∉ (states j).user) :
    LeadsTo states (·.Detached c) (fun sys => sys.Detached c ∧ sys.load c = 0) := by
  refine LeadsTo.potential_zero (lively.detached c) ?_ ?_
  · intro i detached
    exact (detached.lessens (lively.anchored i) (dropped i) (lively.move i)).le
  · intro i detached positive
    obtain ⟨work, planned, about⟩ := exists_of_load positive
    obtain ⟨m, loop, readv, write, rest, later, action, head, _⟩ := lively.performed planned
    have gone := (lively.detached c).later later detached
    exact ⟨m, later, (gone.lessens (lively.anchored m) (dropped m) (lively.move m)).lt
      ⟨readv, write, action⟩ head about⟩

/-- With nothing left to run, what the loops still hold goes with their next batches. -/
theorem Lively.lets_go (lively : Lively config states actions)
    (free : ∀ j, i ≤ j → (states j).load c = 0) :
    ∃ k, ∀ j, k ≤ j →
      ∀ loop, ∀ work ∈ ((states j).loops loop).held, c ∉ work.conns := by
  apply eventually_forall
  intro loop
  obtain ⟨j, later, swap⟩ := lively.goesRound loop i
  refine ⟨j + 1, ?_⟩
  intro k last
  induction k, last using Nat.le_induction with
  | base =>
      rw [(lively.swapped swap).held]
      exact fun work planned => not_mem_of_load (free j later) ⟨loop, planned⟩
  | succ k last inductionHypothesis =>
      intro work holds
      have after : i ≤ k + 1 :=
        Nat.le_succ_of_le (Nat.le_trans later (Nat.le_of_succ_le last))
      rcases (lively.loopMove loop k).held holds with old | planned
      · exact inductionHypothesis work old
      · exact not_mem_of_load (free (k + 1) after) ⟨loop, planned⟩

/-- The connection is closed, or its hang-up has been reported. -/
def HangingUp (sys : System threads) (c : ConnId) : Prop :=
  (∃ member, sys.conns c = some member ∧ member.connection.state = .kDisconnected) ∨
    Planned (.callback .close c) sys

theorem Lively.reclaims (lively : Lively config states actions)
    (closing : (states 0).HangingUp c) (dropped : ∀ j, c ∉ (states j).user) :
    ∃ k, ∀ j, k ≤ j → ¬ (states j).Owned c ∧
      ∀ member, (states j).conns c = some member → ∀ loop,
        ((states j).loops loop).epoller.fileds member.connection.filed.fd = none ∧
        ((states j).loops loop).epoller.interest member.connection.filed.fd = none := by
  have shut : ∃ j, ∃ loop, Shut loop c (states j) := by
    rcases closing with ⟨member, found, closed⟩ | planned
    · refine ⟨0, member.loop, ((lively.anchored 0).named found).2, ?_⟩
      intro other foundOther
      rw [found] at foundOther
      cases foundOther
      exact ⟨closed, rfl⟩
    · obtain ⟨j, _, shut⟩ := lively.hangs_up 0 planned
      exact ⟨j, shut⟩
  obtain ⟨first, shut⟩ := shut
  obtain ⟨second, _, detached⟩ := lively.detaches first shut
  obtain ⟨third, _, done, zero⟩ := lively.runs_out dropped second detached
  have stays : Stable states (fun sys => sys.Detached c ∧ sys.load c = 0) := by
    rintro j ⟨detached, zero⟩
    refine ⟨lively.detached c j detached, Nat.le_zero.mp (zero ▸ ?_)⟩
    exact (detached.lessens (lively.anchored j) (dropped j) (lively.move j)).le
  obtain ⟨fourth, letGo⟩ := lively.lets_go fun j later => (stays.later later ⟨done, zero⟩).2
  refine ⟨max third fourth, ?_⟩
  intro j later
  obtain ⟨detached, zero⟩ :=
    stays.later (Nat.le_trans (Nat.le_max_left ..) later) ⟨done, zero⟩
  have anchored := lively.anchored j
  have unowned : ¬ (states j).Owned c := by
    intro owned
    obtain ⟨member, found⟩ := anchored.live owned
    rcases owned with listed | kept | ⟨loop, work, holds, about⟩
    · obtain ⟨loop, work, task, _⟩ := (reachable_retired (lively.reachable j)).2 c member found
        (detached.closed member found).1 listed
      obtain ⟨planned, about⟩ := LoopState.mem_tasks.mp task
      exact not_mem_of_load zero ⟨loop, planned⟩ (Work.mem_conns_of_subject about)
    · exact dropped j kept
    · exact letGo j (Nat.le_trans (Nat.le_max_right ..) later) loop work holds about
  exact ⟨unowned, fun member found loop => anchored.unregistered found unowned loop⟩

theorem Lively.onwards (lively : Lively config states actions) (i : Nat) :
    Lively config (fun j => states (i + j)) (fun j => actions (i + j)) := by
  refine ⟨lively.reachable i, fun j => lively.endless (i + j), ?_⟩
  intro loop j
  obtain ⟨k, later, swap⟩ := lively.goesRound loop (i + j)
  obtain ⟨rest, rfl⟩ := Nat.exists_eq_add_of_le (Nat.le_trans (Nat.le_add_right i j) later)
  exact ⟨rest, Nat.le_of_add_le_add_left later, swap⟩

/-- With `send` and `shutdown` called on the connection's own loop only: in a run in which
every loop goes round again and again, a connection that is closed, or whose hang-up has
been reported, and to which the user keeps no pointer from then on, is from some time on
owned by nothing: no entry of `connections_`, no functor, no batch and no running code
refers to it, and it is registered nowhere. -/
theorem closed_reclaimed (lively : Lively config states actions)
    (closing : (states i).HangingUp c) (dropped : ∀ j, i ≤ j → c ∉ (states j).user) :
    ∃ k, ∀ j, k ≤ j → ¬ (states j).Owned c ∧
      ∀ member, (states j).conns c = some member → ∀ loop,
        ((states j).loops loop).epoller.fileds member.connection.filed.fd = none ∧
        ((states j).loops loop).epoller.interest member.connection.filed.fd = none := by
  obtain ⟨k, reclaimed⟩ := (lively.onwards i).reclaims closing
    fun j => dropped (i + j) (Nat.le_add_right i j)
  refine ⟨i + k, ?_⟩
  intro j later
  obtain ⟨rest, rfl⟩ := Nat.exists_eq_add_of_le (Nat.le_trans (Nat.le_add_right i k) later)
  exact reclaimed rest (Nat.le_of_add_le_add_left later)

/-- A connection of the main loop hangs up. -/
def hungUp : List (Action 0) :=
  [.poll none [], .accept 7 false false, .perform none (.failed 0) ⟨-1, 0⟩,
    .perform none (.failed 0) ⟨-1, 0⟩, .swap none, .finish none,
    .poll none [(7, EPOLLHUP)], .handleEvent none]

/-- What the main loop does then. -/
def hungUpRest : List (Action 0) :=
  [.perform none (.failed 0) ⟨-1, 0⟩, .perform none (.failed 0) ⟨-1, 0⟩,
    .perform none (.failed 0) ⟨-1, 0⟩, .perform none (.failed 0) ⟨-1, 0⟩, .swap none,
    .runNext none, .perform none (.failed 0) ⟨-1, 0⟩, .perform none (.failed 0) ⟨-1, 0⟩,
    .finish none]

def idleRound : List (Action 0) := [.poll none [], .swap none, .finish none]

theorem exec_idleRound (config : Config) {sys : System 0}
    (phase : (sys.loops none).phase = .polling) (agenda : (sys.loops none).agenda = [])
    (queue : (sys.loops none).queue = .empty) :
    (interleaving config).exec sys idleRound = some sys := by
  let polled := sys.modifyLoop none fun state => { state with phase := .handling [] }
  let swapped := polled.modifyLoop none fun state =>
    { state with phase := .running, queue := state.queue.swap }
  let finished := swapped.modifyLoop none fun state =>
    { state with phase := .polling, queue := state.queue.finish }
  have poll : System.step config sys (.poll none []) = some polled := if_pos phase
  have swap : System.step config polled (.swap none) = some swapped := if_pos ⟨rfl, agenda⟩
  have last : (swapped.loops none).queue.next? = none := by
    simp [swapped, polled, System.modifyLoop, queue, TaskQueue.swap, TaskQueue.empty,
      TaskQueue.next?]
  have finish : System.step config swapped (.finish none) = some finished :=
    if_pos ⟨rfl, agenda, by rw [last]; rfl⟩
  have same : finished = sys := by
    refine eq_of_main ?_ rfl
    have empty : (sys.loops none).queue.swap.finish = (sys.loops none).queue := by
      rw [queue]
      rfl
    have ended : finished.loops none =
        { sys.loops none with phase := .polling, queue := (sys.loops none).queue } := by
      simp only [finished, swapped, polled, modifyLoop_here, empty]
    rw [ended, ← phase]
  rw [idleRound, Machine.exec_cons_eq_some]
  refine ⟨polled, poll, (Machine.exec_cons_eq_some _).mpr ⟨swapped, swap, ?_⟩⟩
  exact (Machine.exec_cons_eq_some _).mpr ⟨finished, finish, congrArg some same⟩

theorem closed_reclaimed_hungUp :
    ∃ (states : Nat → System 0) (actions : Nat → Action 0),
      Lively ⟨[], ⟨fun _ => 0, 0⟩⟩ states actions ∧ (states 0).HangingUp 1 ∧
      ∃ k, ∀ j, k ≤ j → ¬ (states j).Owned 1 := by
  obtain ⟨start, began, agenda, user⟩ : ∃ start : System 0,
      (interleaving ⟨[], ⟨fun _ => 0, 0⟩⟩).exec make hungUp = some start ∧
      (start.loops none).agenda = [.callback .close 1] ∧ start.user = [] := ⟨_, rfl, rfl, rfl⟩
  obtain ⟨middle, run, phase, agendaThen, queue⟩ : ∃ middle : System 0,
      (interleaving ⟨[], ⟨fun _ => 0, 0⟩⟩).exec make (hungUp ++ hungUpRest) =
        some middle ∧
      (middle.loops none).phase = .polling ∧ (middle.loops none).agenda = [] ∧
      (middle.loops none).queue = .empty := ⟨_, rfl, rfl, rfl, rfl⟩
  have round := exec_idleRound ⟨[], ⟨fun _ => 0, 0⟩⟩ phase agendaThen queue
  rw [Machine.exec_append, began, Option.bind_some] at run
  let idle (i : Nat) : Action 0 := idleRound.get ⟨i % 3, Nat.mod_lt i (by decide)⟩
  have idles : (interleaving ⟨[], ⟨fun _ => 0, 0⟩⟩).Endless
      ((interleaving ⟨[], ⟨fun _ => 0, 0⟩⟩).follow middle idle) idle :=
    Machine.endless_cycle round (by decide)
      fun i => List.getElem?_eq_getElem (Nat.mod_lt i (by decide))
  obtain ⟨states, actions, endless, first, _, later, source⟩ := idles.after rfl run
  have lively : Lively ⟨[], ⟨fun _ => 0, 0⟩⟩ states actions := by
    refine ⟨⟨hungUp, first ▸ began⟩, endless, ?_⟩
    intro loop i
    have only : loop = none := by
      cases loop with
      | none => rfl
      | some inside => exact inside.elim0
    refine ⟨hungUpRest.length + (3 * i + 1), by omega, ?_⟩
    have place : (3 * i + 1) % 3 = 1 := by omega
    rw [later]
    simp only [idle, place, only]
    rfl
  have keeps : ∀ i loop c, actions i ≠ .keep loop c := by
    intro i loop c
    rcases source i with inside | ⟨j, same⟩
    · simp only [hungUpRest, List.mem_cons, List.not_mem_nil, or_false] at inside
      rcases inside with same | same | same | same | same | same | same | same | same <;>
        simp [same]
    · have inside : actions i ∈ idleRound := same ▸ List.get_mem _ _
      simp only [idleRound, List.mem_cons, List.not_mem_nil, or_false] at inside
      rcases inside with same | same | same <;> simp [same]
  have dropped : ∀ i, 1 ∉ (states i).user := by
    intro i
    induction i with
    | zero => simp [first, user]
    | succ i inductionHypothesis =>
        intro kept
        rcases (lively.move i).user kept with old | ⟨loop, keep⟩
        · exact inductionHypothesis old
        · exact keeps i loop 1 keep
  have closing : (states 0).HangingUp 1 := by
    refine .inr ⟨none, ?_⟩
    rw [first, LoopState.works, agenda]
    exact List.mem_cons_self
  obtain ⟨k, reclaimed⟩ := closed_reclaimed lively closing fun j _ => dropped j
  exact ⟨states, actions, lively, closing, k, fun j last => (reclaimed j last).1⟩

end System

end Lucky.Server
