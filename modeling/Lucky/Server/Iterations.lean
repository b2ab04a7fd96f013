import Lucky.Server.Retirement
import Lucky.Systems.Liveness

/-!
# A loop that goes round runs everything

`LoopMove` is what a step does to one loop.  Work stays until the loop's thread
runs it, and work of a batch until the batch is finished; so between two swaps of
`doPendFunc` a loop has run everything that was there at the first.  In a run in
which every loop goes round again and again no work is left forever.

Two functors may be equal, so an occurrence is told by its place: in a batch by what
has been started before it, in an agenda by what is left after it.
-/

namespace Lucky.Server

open Systems

/-- What a step does to one loop; `performs` says that its thread runs the head of its
agenda. -/
inductive LoopMove (performs : Prop) (before : LoopState) : LoopState → Prop where
  /-- Functors are queued, or the `Epoller` changes. -/
  | grown (functors : List Work) (epoller : Epoller ConnId)
      (plain : ∀ work ∈ functors, work.isCallback = false) :
      LoopMove performs before { before with
        epoller := epoller, queue := functors.foldl .push before.queue }
  | control {after : LoopState} (control : Control before after) : LoopMove performs before after
  /-- A handler begins. -/
  | began {active : List (ConnId × Mask)} (rest : List (ConnId × Mask)) (new : List Work)
      (phase : before.phase = .handling active) (agenda : before.agenda = []) :
      LoopMove performs before { before with phase := .handling rest, agenda := new }
  | performed {done : Work} {rest : List Work} (new functors : List Work)
      (epoller : Epoller ConnId) (runs : performs) (head : before.agenda = done :: rest)
      (plain : ∀ work ∈ functors, work.isCallback = false)
      (callbacks : ∀ work ∈ new, work.isCallback = true → done.isCallback = true) :
      LoopMove performs before { before with
        epoller := epoller, queue := functors.foldl .push before.queue, agenda := new ++ rest }

/-- What is left of the batch and of the piece of it that is running. -/
def LoopState.batch (loop : LoopState) : List Work := loop.agenda ++ loop.queue.remaining

/-- What a swap finds, and what it leaves. -/
structure LoopState.Swapped (before after : LoopState) : Prop where
  phase : before.phase = .handling []
  agenda : before.agenda = []
  running : after.phase = .running
  batch : after.batch = before.works
  held : after.held = before.works

namespace LoopMove

variable {performs : Prop} {before after : LoopState} {work : Work}

theorem refl (performs : Prop) (loop : LoopState) : LoopMove performs loop loop :=
  .grown [] loop.epoller (by simp)

/-- Work stays until it is the one that is run. -/
theorem works (move : LoopMove performs before after) (settled : before.Settled)
    (planned : work ∈ before.works) :
    work ∈ after.works ∨ performs ∧ ∃ rest, before.agenda = work :: rest := by
  cases move with
  | grown functors epoller plain =>
      left
      rw [LoopState.works, List.mem_append] at planned ⊢
      rw [TaskQueue.contents_foldl_push, List.mem_append]
      exact planned.imp_right .inl
  | control control =>
      left
      rw [control.works settled]
      exact planned
  | began rest new phase agenda =>
      left
      rw [LoopState.works, agenda, List.nil_append] at planned
      exact List.mem_append_right _ planned
  | performed new functors epoller runs head plain callbacks =>
      rw [LoopState.works, head, List.cons_append] at planned
      rcases List.mem_cons.mp planned with rfl | later
      · exact .inr ⟨runs, _, head⟩
      · left
        rw [LoopState.works, TaskQueue.contents_foldl_push]
        exact List.mem_append.mpr ((List.mem_append.mp later).imp
          (List.mem_append_right new) (List.mem_append_left functors))

/-- Work of a batch stays in it until it is the one that is run. -/
theorem batch (move : LoopMove performs before after) (running : before.phase = .running)
    (planned : work ∈ before.batch) :
    after.phase = .running ∧ work ∈ after.batch ∨
      performs ∧ ∃ rest, before.agenda = work :: rest := by
  cases move with
  | grown functors epoller plain =>
      refine .inl ⟨running, ?_⟩
      simp only [LoopState.batch, TaskQueue.foldl_push, TaskQueue.remaining] at planned ⊢
      exact planned
  | control control =>
      cases control with
      | poll active phase | swap phase agenda =>
          rw [running] at phase
          cases phase
      | runNext phase agenda first =>
          refine .inl ⟨phase, ?_⟩
          rw [LoopState.batch, agenda, List.nil_append,
            TaskQueue.remaining_of_next first] at planned
          exact planned
      | finish phase agenda last =>
          rw [LoopState.batch, agenda, TaskQueue.remaining_eq_nil_iff.mpr last] at planned
          exact absurd planned List.not_mem_nil
  | began rest new phase agenda =>
      rw [running] at phase
      cases phase
  | performed new functors epoller runs head plain callbacks =>
      rw [LoopState.batch, head, List.cons_append] at planned
      rcases List.mem_cons.mp planned with rfl | later
      · exact .inr ⟨runs, _, head⟩
      · refine .inl ⟨running, ?_⟩
        simp only [LoopState.batch, TaskQueue.foldl_push, TaskQueue.remaining, List.mem_append]
          at later ⊢
        rcases later with agenda | rest
        · exact .inl (.inr agenda)
        · exact .inr rest

/-- A piece of an agenda keeps what is to be run after it, until it is the one that is run. -/
theorem agenda (move : LoopMove performs before after) {first rest : List Work}
    (stacked : before.agenda = first ++ work :: rest) :
    (∃ more, after.agenda = more ++ work :: rest) ∨
      performs ∧ before.agenda = work :: rest := by
  have busy : before.agenda ≠ [] := by simp [stacked]
  cases move with
  | grown functors epoller plain => exact .inl ⟨first, stacked⟩
  | control control =>
      cases control with
      | poll active phase => exact .inl ⟨first, stacked⟩
      | swap phase agenda | runNext phase agenda next | finish phase agenda last =>
          exact absurd agenda busy
  | began others new phase agenda => exact absurd agenda busy
  | @performed done others new functors epoller runs head plain callbacks =>
      cases first with
      | nil => exact .inr ⟨runs, stacked⟩
      | cons piece first =>
          obtain ⟨rfl, rfl⟩ := List.cons.inj (head.symm.trans stacked)
          exact .inl ⟨new ++ first, (List.append_assoc ..).symm⟩

end LoopMove

/-- The callbacks of a `Filed` are run from the agenda while a report is handled. -/
structure LoopState.Handled (loop : LoopState) : Prop where
  queue : ∀ work ∈ loop.queue.contents, work.isCallback = false
  agenda : ∀ work ∈ loop.agenda, work.isCallback = true →
    ∃ active, loop.phase = .handling active

theorem LoopState.Handled.handling {loop : LoopState} (handled : loop.Handled) {work : Work}
    (planned : work ∈ loop.works) (callback : work.isCallback = true) :
    work ∈ loop.agenda ∧ ∃ active, loop.phase = .handling active := by
  rcases List.mem_append.mp planned with agenda | queued
  · exact ⟨agenda, handled.agenda work agenda callback⟩
  · rw [handled.queue work queued] at callback
    cases callback

theorem LoopState.Handled.move {performs : Prop} {before after : LoopState}
    (handled : before.Handled) (move : LoopMove performs before after) : after.Handled := by
  cases move with
  | grown functors epoller plain =>
      refine ⟨?_, handled.agenda⟩
      intro work queued
      rw [TaskQueue.contents_foldl_push, List.mem_append] at queued
      exact queued.elim (handled.queue work) (plain work)
  | control control =>
      cases control with
      | poll active phase => exact ⟨handled.queue, fun _ _ _ => ⟨active, rfl⟩⟩
      | swap phase agenda =>
          refine ⟨fun work queued => handled.queue work (TaskQueue.mem_of_mem_swap queued), ?_⟩
          rw [agenda]
          exact fun _ planned => absurd planned List.not_mem_nil
      | @runNext moved phase agenda first =>
          refine ⟨fun work queued =>
            handled.queue work (TaskQueue.mem_of_mem_advance first queued), ?_⟩
          intro work planned callback
          rw [List.mem_singleton] at planned
          rw [planned, handled.queue moved (TaskQueue.mem_contents_of_next first)] at callback
          cases callback
      | finish phase agenda last =>
          refine ⟨fun work queued =>
            handled.queue work (TaskQueue.mem_of_mem_finish queued), ?_⟩
          rw [agenda]
          exact fun _ planned => absurd planned List.not_mem_nil
  | began rest new phase agenda => exact ⟨handled.queue, fun _ _ _ => ⟨rest, rfl⟩⟩
  | @performed done rest new functors epoller runs head plain callbacks =>
      refine ⟨?_, ?_⟩
      · intro work queued
        rw [TaskQueue.contents_foldl_push, List.mem_append] at queued
        exact queued.elim (handled.queue work) (plain work)
      · intro work planned callback
        rcases List.mem_append.mp planned with fresh | later
        · exact handled.agenda done (head ▸ List.mem_cons_self) (callbacks work fresh callback)
        · exact handled.agenda work (head ▸ List.mem_cons_of_mem done later) callback

namespace System

variable {threads : Nat} {config : Config} {sys next : System threads} {loop : LoopId threads}

theorem queuedFunctors_plain (c : ConnId) (calls : List Call) :
    ∀ work ∈ queuedFunctors c calls, work.isCallback = false := by
  intro work queued
  rw [mem_queuedFunctors queued]
  rfl

/-- The loop's thread runs the head of its agenda, which may queue functors on its own
loop. -/
theorem loopMove_perform {readv : ReadvResult} {write : WriteResult} {done : Work}
    {rest : List Work} (head : (sys.loops loop).agenda = done :: rest)
    (ran : ∃ (epoller : Epoller ConnId) (functors new : List Work),
      next.loops loop = { sys.loops loop with
        epoller := epoller
        queue := functors.foldl .push (sys.loops loop).queue
        agenda := new ++ rest } ∧
      (∀ work ∈ functors, work.isCallback = false) ∧
      ∀ work ∈ new, work.isCallback = true → done.isCallback = true) :
    LoopMove ((Action.perform loop readv write).Performs loop) (sys.loops loop)
      (next.loops loop) := by
  obtain ⟨epoller, functors, new, same, plain, callbacks⟩ := ran
  rw [same]
  exact .performed new functors epoller ⟨readv, write, rfl⟩ head plain callbacks

theorem loopMove_newConnection {performs : Prop} {active : List (ConnId × Mask)} {sockfd : Nat}
    {writeCompleteCallback highWaterMarkCallback : Bool}
    (phase : (sys.loops none).phase = .handling active) (agenda : (sys.loops none).agenda = []) :
    LoopMove performs (sys.loops none) ((sys.newConnection config sockfd writeCompleteCallback
      highWaterMarkCallback).loops none) := by
  unfold System.newConnection
  dsimp only
  split
  next main =>
    have began : LoopMove performs (sys.loops none) { sys.loops none with
        phase := .handling active, agenda := [.connectEstablished sys.nextConnId] } :=
      .began active _ phase agenda
    rw [System.setAgenda, modifyLoop_here]
    rwa [← phase] at began
  next pool =>
    rw [System.queueinLoop, modifyLoop_elsewhere (Ne.symm pool)]
    exact .refl performs _

theorem Anchored.loopMove (anchored : Anchored config sys) (placed : Placed sys)
    {action : Action threads} (move : Move config sys action next) (loop : LoopId threads) :
    LoopMove (action.Performs loop) (sys.loops loop) (next.loops loop) := by
  by_cases own : action.thread = some loop
  · cases move with
    | control thread plain control =>
        rw [thread] at own
        cases own
        rw [modifyLoop_here]
        exact .control control
    | handleEvent phase agenda found =>
        cases own
        rw [modifyLoop_here]
        exact .began _ _ phase agenda
    | accept phase agenda small =>
        cases own
        exact loopMove_newConnection phase agenda
    | @turn acting readv write done rest new c member routine session head found turn returned =>
        cases own
        have here := anchored.turn_here head found turn
        subst here
        refine loopMove_perform head ⟨session.epoller, queuedFunctors c session.calls, new, ?_,
          queuedFunctors_plain c _, turn.callbacks⟩
        simp [System.setAgenda, System.commit, System.modifyLoop]
    | userCode head =>
        cases own
        exact loopMove_perform head ⟨_, [], [], modifyLoop_here .., by simp, by simp⟩
    | @closeCallback acting readv write rest c member head found =>
        cases own
        unfold System.removeConnection
        split
        next main =>
          refine loopMove_perform head ⟨_, [], [.removeConnectionInLoop c],
            modifyLoop_here .., by simp, ?_⟩
          simp [Work.isCallback]
        next pool =>
          refine loopMove_perform head ⟨(sys.loops loop).epoller, [], [], ?_, by simp, by simp⟩
          rw [System.queueinLoop, modifyLoop_elsewhere pool]
          exact modifyLoop_here ..
    | @removeConnectionInLoop acting readv write rest c member head found =>
        cases own
        have main := placed _ c (mem_tasks_head head rfl)
        subst main
        by_cases here : member.loop = none
        · refine loopMove_perform head ⟨(sys.loops none).epoller, [.connectDestroyed c], [], ?_,
            by simp [Work.isCallback], by simp⟩
          rw [System.removeConnectionInLoop, System.queueinLoop, here, modifyLoop_here]
          simp [System.setAgenda, System.modifyLoop]
        · refine loopMove_perform head ⟨(sys.loops none).epoller, [], [], ?_, by simp, by simp⟩
          rw [System.removeConnectionInLoop, System.queueinLoop,
            modifyLoop_elsewhere (Ne.symm here)]
          simp [System.setAgenda, System.modifyLoop]
    | @userCall acting c call inside member session running found known here returned =>
        cases own
        subst here
        have same : (sys.commit c member session).loops member.loop =
            { sys.loops member.loop with
              epoller := session.epoller
              queue := (queuedFunctors c session.calls).foldl .push
                (sys.loops member.loop).queue } := Function.update_self ..
        rw [same]
        exact .grown _ _ (queuedFunctors_plain c _)
    | setUser plain known kept => exact .refl _ _
    | queueUser known => cases own
    | destroy found unowned => cases own
  · obtain ⟨functors, plain, same⟩ := (anchored.untouched placed own move).queued
    rw [same]
    exact .grown functors _ plain

theorem reachable_handled (reached : (interleaving config).Reachable make sys)
    (loop : LoopId threads) : (sys.loops loop).Handled := by
  obtain ⟨actions, run⟩ := reached
  have kept := Machine.exec_guarded_invariant
    (fun sys => Anchored config sys ∧ Placed sys ∧ ∀ loop, (sys.loops loop).Handled)
    (fun _ _ _ kept _ stepped => by
      have move := kept.1.moves stepped
      exact ⟨kept.1.step stepped, kept.2.1.move kept.1 move,
        fun loop => (kept.2.2 loop).move (kept.1.loopMove kept.2.1 move loop)⟩)
    ⟨make_anchored config, make_placed, fun _ => ⟨nofun, nofun⟩⟩
    (Machine.guarded_true _ actions) run
  exact kept.2.2 loop

/-! ## What a loop starts -/

/-- The functor of its batch the loop starts in this step. -/
def Action.started (action : Action threads) (loop : LoopId threads) (state : LoopState) :
    List Work :=
  match action with
  | .runNext other => if other = loop then state.queue.next?.toList else []
  | _ => []

theorem remaining_modifyLoop {change : LoopState → LoopState} {acting : LoopId threads}
    (same : (change (sys.loops acting)).queue.remaining = (sys.loops acting).queue.remaining)
    (loop : LoopId threads) :
    ((sys.modifyLoop acting change).loops loop).queue.remaining =
      (sys.loops loop).queue.remaining :=
  modifyLoop_view (fun state => state.queue.remaining) sys same loop

theorem remaining_setAgenda (acting : LoopId threads) (agenda : List Work)
    (loop : LoopId threads) :
    ((sys.setAgenda acting agenda).loops loop).queue.remaining =
      (sys.loops loop).queue.remaining :=
  remaining_modifyLoop rfl loop

theorem remaining_queueinLoop (acting : LoopId threads) (work : Work) (loop : LoopId threads) :
    ((sys.queueinLoop acting work).loops loop).queue.remaining =
      (sys.loops loop).queue.remaining :=
  remaining_modifyLoop rfl loop

theorem remaining_commit (c : ConnId) (member : Member threads) (session : Session ConnId)
    (loop : LoopId threads) :
    ((sys.commit c member session).loops loop).queue.remaining =
      (sys.loops loop).queue.remaining := by
  dsimp only [commit]
  exact remaining_modifyLoop (TaskQueue.remaining_foldl_push _ _) loop

/-- A piece of an agenda leaves the rest of every batch alone. -/
theorem Anchored.perform_remaining (anchored : Anchored config sys) {acting : LoopId threads}
    {readv : ReadvResult} {write : WriteResult} {done : Work} {rest : List Work}
    (head : (sys.loops acting).agenda = done :: rest)
    (performed : sys.perform acting readv write rest done = some next) :
    (next.loops loop).queue.remaining = (sys.loops loop).queue.remaining := by
  cases anchored.perform_moves head performed with
  | control thread plain control => cases plain
  | turn head found turn returned =>
      rw [System.turned, remaining_setAgenda, remaining_commit]
  | userCode head => exact remaining_setAgenda ..
  | closeCallback head found =>
      unfold System.removeConnection
      split
      · exact remaining_setAgenda ..
      · rw [remaining_queueinLoop, remaining_setAgenda]
  | removeConnectionInLoop head found =>
      rw [System.removeConnectionInLoop, remaining_queueinLoop]
      exact remaining_setAgenda ..
  | setUser plain known kept => cases plain

/-- Outside its swap a loop takes only what it starts from the rest of its batch. -/
theorem Anchored.remaining_step (anchored : Anchored config sys) {action : Action threads}
    (unswapped : action ≠ .swap loop) (stepped : System.step config sys action = some next) :
    (sys.loops loop).queue.remaining =
      action.started loop (sys.loops loop) ++ (next.loops loop).queue.remaining := by
  cases action with
  | poll acting reports =>
      simp only [System.step, Option.ite_none_right_eq_some, Option.some.injEq] at stepped
      obtain ⟨_, rfl⟩ := stepped
      exact (remaining_modifyLoop rfl loop).symm
  | handleEvent acting =>
      simp only [System.step] at stepped
      split at stepped
      · obtain ⟨member, _, rfl⟩ := Option.map_eq_some_iff.mp stepped
        exact (remaining_modifyLoop rfl loop).symm
      · cases stepped
  | accept sockfd writeCompleteCallback highWaterMarkCallback =>
      simp only [System.step] at stepped
      split at stepped
      · simp only [Option.ite_none_right_eq_some, Option.some.injEq] at stepped
        obtain ⟨_, rfl⟩ := stepped
        unfold System.newConnection
        dsimp only
        split
        · exact (remaining_setAgenda ..).symm
        · exact (remaining_queueinLoop ..).symm
      · cases stepped
  | swap acting =>
      simp only [System.step, Option.ite_none_right_eq_some, Option.some.injEq] at stepped
      obtain ⟨_, rfl⟩ := stepped
      have apart : loop ≠ acting := fun same => unswapped (same ▸ rfl)
      rw [modifyLoop_elsewhere apart]
      rfl
  | runNext acting =>
      simp only [System.step, Option.ite_none_right_eq_some] at stepped
      obtain ⟨_, ran⟩ := stepped
      obtain ⟨work, first, rfl⟩ := Option.map_eq_some_iff.mp ran
      by_cases here : acting = loop
      · subst here
        rw [modifyLoop_here, TaskQueue.remaining_of_next first]
        simp [Action.started, first]
      · rw [modifyLoop_elsewhere (Ne.symm here), Action.started, if_neg here]
        rfl
  | finish acting =>
      simp only [System.step, Option.ite_none_right_eq_some, Option.some.injEq] at stepped
      obtain ⟨⟨_, _, last⟩, rfl⟩ := stepped
      have finished : (sys.loops acting).queue.remaining = [] :=
        TaskQueue.remaining_eq_nil_iff.mpr (Option.isNone_iff_eq_none.mp last)
      symm
      apply remaining_modifyLoop
      exact finished.symm
  | perform acting readv write =>
      simp only [System.step] at stepped
      split at stepped
      next head => exact (anchored.perform_remaining head stepped).symm
      next => cases stepped
  | userCall acting c call =>
      obtain ⟨inside, _, looking⟩ := Option.bind_eq_some_iff.mp stepped
      obtain ⟨member, _, calling⟩ := Option.bind_eq_some_iff.mp looking
      simp only [Option.ite_none_right_eq_some] at calling
      obtain ⟨session, _, rfl⟩ := Option.map_eq_some_iff.mp calling.2
      exact (remaining_commit ..).symm
  | keep acting c =>
      obtain ⟨inside, _, keeping⟩ := Option.bind_eq_some_iff.mp stepped
      simp only [Option.ite_none_right_eq_some, Option.some.injEq] at keeping
      obtain ⟨_, rfl⟩ := keeping
      rfl
  | release c =>
      simp only [System.step, Option.ite_none_right_eq_some, Option.some.injEq] at stepped
      obtain ⟨_, rfl⟩ := stepped
      rfl
  | queueUser acting inside =>
      simp only [System.step, Option.ite_none_right_eq_some, Option.some.injEq] at stepped
      obtain ⟨_, rfl⟩ := stepped
      exact (remaining_queueinLoop ..).symm
  | destroy c =>
      obtain ⟨member, _, destroying⟩ := Option.bind_eq_some_iff.mp stepped
      simp only [Option.ite_none_left_eq_some, Option.some.injEq] at destroying
      obtain ⟨_, rfl⟩ := destroying
      rfl

/-- The functors a loop starts in some steps of a run, in order. -/
def startedFrom (states : Nat → System threads) (actions : Nat → Action threads)
    (loop : LoopId threads) (i count : Nat) : List Work :=
  (List.range count).flatMap fun n =>
    (actions (i + n)).started loop ((states (i + n)).loops loop)

theorem startedFrom_succ (states : Nat → System threads) (actions : Nat → Action threads)
    (loop : LoopId threads) (i count : Nat) :
    startedFrom states actions loop i (count + 1) = startedFrom states actions loop i count ++
      (actions (i + count)).started loop ((states (i + count)).loops loop) := by
  simp [startedFrom, List.range_succ]

/-! ## Runs without end -/

/-- A run without end from a reachable state in which every loop goes round again and
again. -/
structure Lively (config : Config) (states : Nat → System threads)
    (actions : Nat → Action threads) : Prop where
  reached : (interleaving config).Reachable make (states 0)
  endless : (interleaving config).Endless states actions
  goesRound : ∀ loop i, ∃ j, i ≤ j ∧ actions j = .swap loop

section

variable {states : Nat → System threads} {actions : Nat → Action threads} {i : Nat}
  {work : Work}

theorem Lively.reachable (lively : Lively config states actions) (i : Nat) :
    (interleaving config).Reachable make (states i) :=
  lively.endless.reachable lively.reached i

theorem Lively.anchored (lively : Lively config states actions) (i : Nat) :
    Anchored config (states i) :=
  reachable_anchored (lively.reachable i)

theorem Lively.move (lively : Lively config states actions) (i : Nat) :
    Move config (states i) (actions i) (states (i + 1)) :=
  (lively.anchored i).moves (lively.endless i)

theorem Lively.loopMove (lively : Lively config states actions) (loop : LoopId threads)
    (i : Nat) : LoopMove ((actions i).Performs loop) ((states i).loops loop)
      ((states (i + 1)).loops loop) :=
  (lively.anchored i).loopMove (reachable_placed (lively.reachable i)) (lively.move i) loop

theorem Lively.swapping (lively : Lively config states actions)
    (swap : actions i = .swap loop) :
    ((states i).loops loop).phase = .handling [] ∧ ((states i).loops loop).agenda = [] ∧
      (states (i + 1)).loops loop = { (states i).loops loop with
        phase := .running, queue := ((states i).loops loop).queue.swap } := by
  have stepped := lively.endless i
  rw [swap] at stepped
  change System.step config (states i) (.swap loop) = _ at stepped
  simp only [System.step, Option.ite_none_right_eq_some, Option.some.injEq] at stepped
  obtain ⟨⟨phase, agenda⟩, next⟩ := stepped
  exact ⟨phase, agenda, by rw [← next, modifyLoop_here]⟩

theorem Lively.swapped (lively : Lively config states actions)
    (swap : actions i = .swap loop) :
    ((states i).loops loop).Swapped ((states (i + 1)).loops loop) := by
  obtain ⟨phase, agenda, next⟩ := lively.swapping swap
  have finished := ((lively.anchored i).settled loop (by simp [phase])).1
  rw [next]
  refine ⟨phase, agenda, rfl, ?_, ?_⟩
  · simp only [LoopState.batch, LoopState.works, agenda, TaskQueue.contents, finished,
      TaskQueue.remaining_swap, List.nil_append]
  · simp only [LoopState.held, LoopState.works, agenda, TaskQueue.contents, finished,
      TaskQueue.swap, List.nil_append, List.append_nil]

/-- Nothing that was there when a loop swapped is left when it swaps again. -/
theorem Lively.ran_between (lively : Lively config states actions) {j k : Nat}
    (planned : work ∈ ((states i).loops loop).works) (later : i ≤ j)
    (swap : actions j = .swap loop) (last : j < k) (again : actions k = .swap loop) :
    ∃ m, i ≤ m ∧ m < k ∧ (actions m).Performs loop ∧
      ∃ rest, ((states m).loops loop).agenda = work :: rest := by
  by_contra never
  have unrun {m : Nat} (begun : i ≤ m) (within : m < k) : ¬ ((actions m).Performs loop ∧
      ∃ rest, ((states m).loops loop).agenda = work :: rest) :=
    fun runs => never ⟨m, begun, within, runs⟩
  have stays {m : Nat} (begun : i ≤ m) (within : m ≤ j) :
      work ∈ ((states m).loops loop).works := by
    induction m, begun using Nat.le_induction with
    | base => exact planned
    | succ m begun inductionHypothesis =>
        have settled := (lively.anchored m).settled loop
        exact ((lively.loopMove loop m).works settled
          (inductionHypothesis (Nat.le_of_succ_le within))).resolve_right
            (unrun begun (Nat.lt_trans within last))
  -- the batch of the first swap has it, and is not finished before the second
  have swapped := lively.swapped swap
  have batch {m : Nat} (begun : j + 1 ≤ m) (within : m ≤ k) :
      ((states m).loops loop).phase = .running ∧ work ∈ ((states m).loops loop).batch := by
    induction m, begun using Nat.le_induction with
    | base => exact ⟨swapped.running, swapped.batch ▸ stays later (Nat.le_refl j)⟩
    | succ m begun inductionHypothesis =>
        obtain ⟨running, inside⟩ := inductionHypothesis (Nat.le_of_succ_le within)
        exact ((lively.loopMove loop m).batch running inside).resolve_right
          (unrun (Nat.le_trans later (Nat.le_of_succ_le begun)) within)
  have phase := (lively.swapped again).phase
  rw [(batch last (Nat.le_refl k)).1] at phase
  cases phase

theorem Lively.ran (lively : Lively config states actions)
    (planned : work ∈ ((states i).loops loop).works) :
    ∃ m, i ≤ m ∧ (actions m).Performs loop ∧
      ∃ rest, ((states m).loops loop).agenda = work :: rest := by
  obtain ⟨j, later, swap⟩ := lively.goesRound loop i
  obtain ⟨k, last, again⟩ := lively.goesRound loop (j + 1)
  obtain ⟨m, begun, _, runs⟩ := lively.ran_between planned later swap last again
  exact ⟨m, begun, runs⟩

theorem Lively.handled (lively : Lively config states actions) (i : Nat) (loop : LoopId threads) :
    ((states i).loops loop).Handled :=
  reachable_handled (lively.reachable i) loop

/-- Until it swaps again, a loop has started a first part of the batch it swapped out. -/
theorem Lively.started_of_swap (lively : Lively config states actions)
    (swap : actions i = .swap loop) (count : Nat)
    (alone : ∀ n, i < n → n < i + 1 + count → actions n ≠ .swap loop) :
    ((states i).loops loop).queue.pendFuncs = startedFrom states actions loop (i + 1) count ++
      ((states (i + 1 + count)).loops loop).queue.remaining := by
  induction count with
  | zero =>
      obtain ⟨_, _, next⟩ := lively.swapping swap
      rw [Nat.add_zero, next]
      rfl
  | succ count inductionHypothesis =>
      have before := inductionHypothesis fun n later within => alone n later (by omega)
      have unswapped := alone (i + 1 + count) (by omega) (by omega)
      have moved := (lively.anchored _).remaining_step unswapped (lively.endless _)
      rw [before, moved, startedFrom_succ, List.append_assoc]
      rfl

/-- Between two swaps a loop starts exactly the batch of the first, in order. -/
theorem Lively.started_batch (lively : Lively config states actions) {j k : Nat}
    (swap : actions j = .swap loop) (later : j < k) (again : actions k = .swap loop)
    (alone : ∀ n, j < n → n < k → actions n ≠ .swap loop) :
    startedFrom states actions loop (j + 1) (k - (j + 1)) =
      ((states j).loops loop).queue.pendFuncs := by
  obtain ⟨count, rfl⟩ := Nat.exists_eq_add_of_le (Nat.succ_le_of_lt later)
  have settled := (lively.anchored (j + 1 + count)).settled loop
  have finished := (settled (by simp [(lively.swapped again).phase])).1
  rw [lively.started_of_swap swap count alone, finished, List.append_nil,
    Nat.add_sub_cancel_left]

/-- A functor that is started is all that its loop's thread has to run. -/
theorem Lively.started_agenda (lively : Lively config states actions)
    (starts : actions i = .runNext loop) :
    ∃ work, ((states i).loops loop).queue.next? = some work ∧
      ((states (i + 1)).loops loop).agenda = [work] := by
  have stepped := lively.endless i
  rw [starts] at stepped
  change System.step config (states i) (.runNext loop) = _ at stepped
  simp only [System.step, Option.ite_none_right_eq_some] at stepped
  obtain ⟨_, ran⟩ := stepped
  obtain ⟨work, first, next⟩ := Option.map_eq_some_iff.mp ran
  exact ⟨work, first, by rw [← next, modifyLoop_here]⟩

/-- A piece of an agenda stays where it is, over what is to be run after it, until the
loop's thread runs it. -/
theorem Lively.ran_piece (lively : Lively config states actions) {first rest : List Work}
    (stacked : ((states i).loops loop).agenda = first ++ work :: rest) :
    ∃ m, i ≤ m ∧ (actions m).Performs loop ∧
      ((states m).loops loop).agenda = work :: rest ∧
      ∀ n, i ≤ n → n ≤ m →
        ∃ more, ((states n).loops loop).agenda = more ++ work :: rest := by
  obtain ⟨k, later, swap⟩ := lively.goesRound loop i
  by_contra never
  have stays {m : Nat} (begun : i ≤ m) : ∀ n, i ≤ n → n ≤ m →
      ∃ more, ((states n).loops loop).agenda = more ++ work :: rest := by
    induction m, begun using Nat.le_induction with
    | base =>
        intro n after before
        rw [Nat.le_antisymm before after]
        exact ⟨first, stacked⟩
    | succ m begun inductionHypothesis =>
        intro n after before
        rcases Nat.le_or_eq_of_le_succ before with earlier | rfl
        · exact inductionHypothesis n after earlier
        · obtain ⟨more, stack⟩ := inductionHypothesis m begun (Nat.le_refl m)
          exact ((lively.loopMove loop m).agenda stack).resolve_right fun runs =>
            never ⟨m, begun, runs.1, runs.2, inductionHypothesis⟩
  -- a loop that swaps has nothing left to run
  obtain ⟨more, stack⟩ := stays later k later (Nat.le_refl k)
  rw [(lively.swapped swap).agenda] at stack
  simp at stack

/-- In a run in which every loop goes round again and again, every functor that has been
queued and every piece of a handler that has still to be run is run by its loop's
thread, and it is run before that loop swaps its queue a second time.  No occurrence is
passed over: between two swaps the loop starts exactly the batch of the first, in order,
each functor as all there is to run, and a piece of an agenda stays until it is run. -/
theorem everything_runs (lively : Lively config states actions) :
    (∀ i loop work, work ∈ ((states i).loops loop).works →
      (∃ m, i ≤ m ∧ (actions m).Performs loop ∧
        ∃ rest, ((states m).loops loop).agenda = work :: rest) ∧
      ∀ j k, i ≤ j → actions j = .swap loop → j < k → actions k = .swap loop →
        ∃ m, i ≤ m ∧ m < k ∧ (actions m).Performs loop ∧
          ∃ rest, ((states m).loops loop).agenda = work :: rest) ∧
    (∀ loop j k, actions j = .swap loop → j < k → actions k = .swap loop →
      (∀ n, j < n → n < k → actions n ≠ .swap loop) →
      startedFrom states actions loop (j + 1) (k - (j + 1)) =
        ((states j).loops loop).queue.pendFuncs) ∧
    (∀ i loop, actions i = .runNext loop →
      ∃ work, ((states i).loops loop).queue.next? = some work ∧
        ((states (i + 1)).loops loop).agenda = [work]) ∧
    ∀ i loop first work rest, ((states i).loops loop).agenda = first ++ work :: rest →
      ∃ m, i ≤ m ∧ (actions m).Performs loop ∧
        ((states m).loops loop).agenda = work :: rest ∧
        ∀ n, i ≤ n → n ≤ m →
          ∃ more, ((states n).loops loop).agenda = more ++ work :: rest := by
  refine ⟨fun i loop work planned => ⟨lively.ran planned, ?_⟩, ?_, ?_, ?_⟩
  · exact fun _ _ later swap last again => lively.ran_between planned later swap last again
  · exact fun _ _ _ swap later again alone => lively.started_batch swap later again alone
  · exact fun _ _ starts => lively.started_agenda starts
  · exact fun _ _ _ _ _ stacked => lively.ran_piece stacked

end

/-- The main loop is the only one of a server without a pool. -/
theorem eq_of_main {first second : System 0} (main : first.loops none = second.loops none)
    (others : { first with loops := second.loops } = second) : first = second := by
  have loops : first.loops = second.loops := by
    funext loop
    cases loop with
    | none => exact main
    | some inside => exact inside.elim0
  rw [← others, ← loops]

/-- A round in which the user queues a functor. -/
def queueingRound : List (Action 0) :=
  [.poll none [], .queueUser none [], .swap none, .runNext none,
    .perform none (.failed 0) ⟨-1, 0⟩, .finish none]

theorem everything_runs_queueing :
    ∃ (states : Nat → System 0) (actions : Nat → Action 0),
      Lively ⟨[], ⟨fun _ => 0, 0⟩⟩ states actions ∧ actions 1 = .queueUser none [] ∧
      ∃ m, 2 ≤ m ∧ (actions m).Performs none := by
  obtain ⟨final, run, main, others⟩ : ∃ final : System 0,
      (interleaving ⟨[], ⟨fun _ => 0, 0⟩⟩).exec make queueingRound = some final ∧
      final.loops none = make.loops none ∧ { final with loops := make.loops } = make :=
    ⟨_, rfl, rfl, rfl⟩
  rw [eq_of_main main others] at run
  let actions (i : Nat) : Action 0 := queueingRound.get ⟨i % 6, Nat.mod_lt i (by decide)⟩
  have lively : Lively ⟨[], ⟨fun _ => 0, 0⟩⟩
      ((interleaving ⟨[], ⟨fun _ => 0, 0⟩⟩).follow make actions) actions := by
    refine ⟨⟨[], rfl⟩, ?_, ?_⟩
    · apply Machine.endless_cycle run (by decide)
      exact fun i => List.getElem?_eq_getElem (Nat.mod_lt i (by decide))
    · intro loop i
      have main : loop = none := by
        cases loop with
        | none => rfl
        | some inside => exact inside.elim0
      refine ⟨6 * i + 2, by omega, ?_⟩
      have place : (6 * i + 2) % 6 = 2 := by omega
      simp only [actions, place, main]
      rfl
  have planned : Work.userCode [] ∈
      (((interleaving ⟨[], ⟨fun _ => 0, 0⟩⟩).follow make actions 2).loops none).works :=
    List.mem_singleton_self _
  obtain ⟨m, later, performs, _⟩ := ((everything_runs lively).1 2 none _ planned).1
  exact ⟨_, _, lively, rfl, m, later, performs⟩

end System

end Lucky.Server
