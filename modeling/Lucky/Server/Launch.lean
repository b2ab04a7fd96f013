import Lucky.Server.Pool

/-!
# Who has `Acceptor::listen`

It is handed on like a token: a thread in `start` has it, then the call of
`queueinLoop` that thread makes, then the queue of the base loop.  Nobody has it
twice, since `started_` is zero once in 2^32 calls, and the pool is complete before
the thread gives it away.
-/

namespace Lucky.Startup

open Systems

variable {Tid F : Type}

/-- Who has `Acceptor::listen` to call or to hand on. -/
inductive Place (Tid : Type) where
  | before
  /-- A thread past the test of `started_`. -/
  | inside (thread : Tid)
  /-- A thread in `queueinLoop`. -/
  | posting (thread : Tid)
  | queued
  | listening

def Place.isQueued : Place Tid → Bool
  | .queued => true
  | .before | .inside _ | .posting _ | .listening => false

def Place.isListening : Place Tid → Bool
  | .listening => true
  | .before | .inside _ | .posting _ | .queued => false

/-- How far the pool is. -/
def Place.stage (startPc : Tid → StartingPc) : Place Tid → StartingPc
  | .before => .creating 0
  | .inside thread => startPc thread
  | .posting _ | .queued | .listening => .listening

/-- The functor is `Acceptor::listen`. -/
def isListenTask (task : Task Tid (BaseTask F)) : Bool := task.functor.isListen

theorem countP_ran (loop : EventLoop Tid (BaseTask F))
    (action : EventLoop.Action Tid (BaseTask F)) :
    (loop.ran action).countP isListenTask = (runsListen loop action).toNat := by
  cases action with
  | runNext =>
      cases found : loop.queue.next? with
      | none => simp [EventLoop.ran, runsListen, found]
      | some task =>
          cases listens : task.functor.isListen <;>
            simp [EventLoop.ran, runsListen, found, isListenTask, listens]
  | _ => rfl

/-- A step other than the push of `Acceptor::listen` puts nothing of it into the queue. -/
theorem countP_pushed {loop : EventLoop Tid (BaseTask F)}
    {action : EventLoop.Action Tid (BaseTask F)}
    (other : ∀ caller, action = .push caller → loop.callPc caller ≠ .queueing .listen) :
    (loop.pushed action).countP isListenTask = 0 := by
  cases action with
  | push caller =>
      cases place : loop.callPc caller with
      | queueing functor =>
          have quiet : functor.isListen = false := by
            by_contra listens
            rw [Bool.not_eq_false, BaseTask.isListen_iff] at listens
            exact other caller rfl (listens ▸ place)
          simp [EventLoop.pushed, place, CallPc.inFlight, isListenTask, quiet]
      | idle | pushed | quitting => simp [EventLoop.pushed, place, CallPc.inFlight]
  | _ => rfl

/-- Whoever has it has it alone, and can be seen in the state to have it. -/
structure Token (sys : Startup Tid F) (place : Place Tid) : Prop where
  starts : place = .before ↔ sys.starts = 0
  inside : ∀ thread, sys.startPc thread ≠ .outside ↔ place = .inside thread
  posting : ∀ thread,
    sys.baseLoop.callPc (some thread) = .queueing .listen ↔ place = .posting thread
  own : sys.baseLoop.callPc none ≠ .queueing .listen
  queued : sys.baseLoop.queue.contents.countP isListenTask = place.isQueued.toNat
  listening : sys.isListen = place.isListening
  once : sys.listens = place.isListening.toNat

/-- Nobody else is about to push `Acceptor::listen`. -/
theorem Token.not_queueing {sys : Startup Tid F} {place : Place Tid} (token : Token sys place)
    {caller : Option Tid}
    (elsewhere : ∀ thread, caller = some thread → place ≠ .posting thread) :
    sys.baseLoop.callPc caller ≠ .queueing .listen := by
  cases caller with
  | none => exact token.own
  | some thread => exact fun calls => elsewhere thread rfl ((token.posting thread).mp calls)

variable [DecidableEq Tid]

/-- A `Manager` of the pool runs as it runs on its own. -/
structure Member (manager : Manager Tid F) : Prop where
  reached : ∃ ownerId, Manager.interleaving.Reachable (.make ownerId) manager
  ordered : manager.Ordered

structure Composed (sys : Startup Tid F) : Prop where
  base : EventLoop.interleaving.Reachable .make sys.baseLoop
  pool : ∀ manager ∈ sys.threads, Member manager

/-- A thread that is in `start` is in no call of the base loop, and the main thread has
come from user code. -/
structure Called (config : Config Tid) (sys : Startup Tid F) : Prop where
  idle : ∀ thread, (sys.startPc thread).runsUserCode = false →
    (sys.baseLoop.callPc (config.caller thread)).isIdle = true
  main : sys.startPc config.mainId ≠ .outside → sys.baseLoop.pc.runsUserCode = true

/-- What holds up to 2^32 calls of `start`. -/
structure Launched (config : Config Tid) (sys : Startup Tid F) (place : Place Tid) : Prop
    extends Token sys place, Composed sys, Called config sys, InTurn config sys where
  counts : sys.started = BitVec.ofNat 32 sys.starts
  posts : ∀ thread, place = .posting thread → thread ≠ config.mainId
  stands : Stands config sys.threads sys.names sys.loops (place.stage sys.startPc)

theorem make_launched (config : Config Tid) : Launched config (make : Startup Tid F) .before where
  starts := by simp [make]
  inside := by simp [make]
  posting := by simp [make, EventLoop.make]
  own := nofun
  queued := rfl
  listening := rfl
  once := rfl
  base := ⟨[], rfl⟩
  pool := by simp [make]
  idle := by simp [make, StartingPc.runsUserCode]
  main := by simp [make]
  dealt := rfl
  next _ := (Nat.zero_mod _).symm
  listens := by simp [make]
  counts := rfl
  posts := nofun
  stands := ⟨Nat.zero_le _, rfl, ⟨rfl, rfl, nofun⟩⟩

variable {config : Config Tid} {sys next : Startup Tid F} {place : Place Tid} {thread : Tid}

theorem Launched.thread_inside (launched : Launched config sys place)
    (inside : sys.startPc thread ≠ .outside) : place = .inside thread :=
  (launched.inside thread).mp inside

/-- Nobody is in `start` when `Acceptor::listen` is somewhere else. -/
theorem Launched.nobody (launched : Launched config sys place)
    (elsewhere : ∀ thread, place ≠ .inside thread) (thread : Tid) :
    sys.startPc thread = .outside := by
  by_contra inside
  exact elsewhere thread (launched.thread_inside inside)

theorem Launched.begun (launched : Launched config sys place) (later : place ≠ .before) :
    sys.starts ≠ 0 := fun zero => later (launched.starts.mpr zero)

/-- One thread moves inside `start`, or enters it, while no other is there. -/
theorem inside_setStartPc (alone : ∀ other, other ≠ thread → sys.startPc other = .outside)
    {pc : StartingPc} (inside : pc ≠ .outside) (other : Tid) :
    (sys.setStartPc thread pc).startPc other ≠ .outside ↔
      Place.inside thread = Place.inside other := by
  rw [startPc_setStartPc]
  by_cases same : other = thread
  · simp [same, inside]
  · simp [same, alone other same, Ne.symm same]

/-- No other thread is in `start`. -/
theorem Launched.alone (launched : Launched config sys (.inside thread)) {other : Tid}
    (different : other ≠ thread) : sys.startPc other = .outside := by
  by_contra inside
  cases launched.thread_inside inside
  exact different rfl

/-- A thread enters `start` or moves in it. -/
theorem Called.setStartPc (called : Called config sys) (pc : StartingPc)
    (idle : (sys.baseLoop.callPc (config.caller thread)).isIdle = true)
    (main : (config.caller thread).isNone = true → sys.baseLoop.pc.runsUserCode = true) :
    Called config (sys.setStartPc thread pc) where
  idle other inside := by
    by_cases same : other = thread
    · subst same
      exact idle
    · rw [startPc_setStartPc, if_neg same] at inside
      exact called.idle other inside
  main inside := by
    by_cases same : config.mainId = thread
    · subst same
      exact main (by simp)
    · rw [startPc_setStartPc, if_neg same] at inside
      exact called.main inside

theorem stage_setStartPc (sys : Startup Tid F) (thread : Tid) (pc : StartingPc) :
    Place.stage (sys.setStartPc thread pc).startPc (.inside thread) = pc :=
  startPc_setStartPc.trans (if_pos rfl)

theorem Launched.start (launched : Launched config sys place) (few : sys.starts < 2 ^ 32)
    (stepped : sys.step config (.start thread) = some next) :
    ∃ place, Launched config next place := by
  simp only [step, Option.ite_none_right_eq_some] at stepped
  obtain ⟨⟨outside, idle, fromUser⟩, chosen⟩ := stepped
  have counts : sys.started + 1 = BitVec.ofNat 32 (sys.starts + 1) := by
    rw [launched.counts, BitVec.ofNat_add]
    rfl
  split at chosen <;> cases chosen
  next zero =>
    have first : sys.starts = 0 := by
      have wrapped := congrArg BitVec.toNat (launched.counts.symm.trans zero)
      rwa [BitVec.toNat_ofNat, Nat.mod_eq_of_lt few] at wrapped
    obtain rfl := launched.starts.mpr first
    have nobody := launched.nobody (by simp)
    have called := launched.toCalled.setStartPc (.creating 0) idle fromUser
    have stage := stage_setStartPc sys thread (.creating 0)
    refine ⟨.inside thread, ?_⟩
    exact {
      launched with
      starts := iff_of_false (by simp) (Nat.succ_ne_zero _)
      inside := inside_setStartPc (fun other _ => nobody other) (by simp)
      posting := fun other => iff_of_false (launched.not_queueing (by simp)) (by simp)
      queued := launched.queued
      listening := launched.listening
      once := launched.once
      idle := called.idle
      main := called.main
      counts := counts
      posts := by simp
      stands := (congrArg (Stands config _ _ _) stage).mpr launched.stands }
  next later =>
    have notFirst : place ≠ .before := by
      intro before
      refine later ?_
      rw [launched.counts, launched.starts.mp before]
      rfl
    refine ⟨place, ?_⟩
    exact {
      launched with
      starts := ⟨fun before => absurd before notFirst,
        fun zero => absurd zero (Nat.succ_ne_zero _)⟩
      counts := counts
      stands := by
        cases place with
        | before => exact absurd rfl notFirst
        | inside | posting | queued | listening =>
            exact launched.stands }

theorem Called.moveOn (called : Called config sys) (pc : StartingPc)
    (inside : sys.startPc thread ≠ .outside)
    (idle : (sys.baseLoop.callPc (config.caller thread)).isIdle = true) :
    Called config (sys.setStartPc thread pc) := by
  refine called.setStartPc pc idle fun main => ?_
  by_cases same : thread = config.mainId
  · exact called.main (same ▸ inside)
  · simp [Config.caller_of_ne same] at main

/-- A thread that is past the test moves on in `start`. -/
theorem Launched.moveOn (launched : Launched config sys (.inside thread)) {pc : StartingPc}
    (called : Called config (sys.setStartPc thread pc)) (inside : pc ≠ .outside)
    (threads : ∀ manager ∈ next.threads, Member manager)
    (stands : Stands config next.threads next.names next.loops pc)
    (same : next = { sys.setStartPc thread pc with
      threads := next.threads, names := next.names, loops := next.loops }) :
    Launched config next (.inside thread) := by
  have alone (other : Tid) (different : other ≠ thread) := launched.alone different
  rw [same]
  exact {
    launched with
    inside := inside_setStartPc alone inside
    pool := threads
    idle := called.idle
    main := called.main
    stands := (congrArg (Stands config _ _ _) (stage_setStartPc sys thread pc)).mpr stands }

/-- What a thread past the test finds at its place. -/
theorem Launched.at_place (launched : Launched config sys place) {pc : StartingPc}
    (here : sys.startPc thread = pc) (inside : pc ≠ .outside) :
    place = .inside thread ∧ Stands config sys.threads sys.names sys.loops pc := by
  obtain rfl := launched.thread_inside (here.trans_ne inside)
  have stands := launched.stands
  rw [Place.stage, here] at stands
  exact ⟨rfl, stands⟩

theorem Launched.create (launched : Launched config sys place)
    (stepped : sys.step config (.create thread) = some next) :
    Launched config next place := by
  simp only [step] at stepped
  split at stepped
  next i creating =>
    have inside : sys.startPc thread ≠ .outside := by simp [creating]
    obtain ⟨rfl, bounded, length, built⟩ := launched.at_place creating (by simp)
    have called (pc : StartingPc) : Called config (sys.setStartPc thread pc) :=
      launched.toCalled.moveOn pc inside (launched.idle thread (by rw [creating]; rfl))
    split at stepped
    next more =>
      obtain ⟨manager, begun, rfl⟩ := Option.map_eq_some_iff.mp stepped
      have initial : Manager.interleaving.Reachable (.make thread)
          (.make thread : Manager Tid F) := ⟨[], rfl⟩
      have meets : (.make thread : Manager Tid F).MeetsLoop .startLoop := trivial
      have started : Manager.interleaving.step (.make thread) .startLoop = some manager := begun
      refine launched.moveOn (called (.awaiting i sys.threads.length)) (by simp) ?_ ?_ rfl
      · intro member listed
        rcases List.mem_append.mp listed with before | new
        · exact launched.pool member before
        · cases List.mem_singleton.mp new
          exact ⟨⟨thread, initial.step started⟩,
            (Manager.make_ordered thread).step meets begun⟩
      · refine ⟨Int.lt_toNat.mpr more, ?_, length, ?_, built.create length manager⟩
        · exact List.length_append.trans (congrArg (· + 1) length)
        · intro member listed
          rw [List.getElem?_concat_length] at listed
          cases listed
          cases begun
          rfl
    next done =>
      have full : i = config.poolSize :=
        Nat.le_antisymm bounded (Nat.le_of_not_lt fun more => done (Int.lt_toNat.mp more))
      subst full
      cases stepped
      split
      · exact launched.moveOn (called .initialising) (by simp) launched.pool
          ⟨length, built⟩ rfl
      · exact launched.moveOn (called .listening) (by simp) launched.pool ⟨length, built⟩ rfl
  next => cases stepped

theorem Launched.callbackReturns (launched : Launched config sys place)
    (stepped : sys.step config (.callbackReturns thread) = some next) :
    Launched config next place := by
  simp only [step, Option.ite_none_right_eq_some, Option.some.injEq] at stepped
  obtain ⟨⟨initialising, idle⟩, rfl⟩ := stepped
  have inside : sys.startPc thread ≠ .outside := by simp [initialising]
  obtain ⟨rfl, stands⟩ := launched.at_place initialising (by simp)
  have called := launched.toCalled.moveOn .listening inside idle
  exact launched.moveOn called (by simp) launched.pool stands rfl

/-- A thread of the pool takes a step of its `Manager`. -/
theorem Composed.set (composed : Composed sys) {position : Nat} {before manager : Manager Tid F}
    {action : Manager.Action Tid F} (found : sys.threads[position]? = some before)
    (stepped : before.step action = some manager) (meets : before.MeetsLoop action) :
    ∀ member ∈ sys.threads.set position manager, Member member := by
  intro member listed
  rcases List.mem_or_eq_of_mem_set listed with other | rfl
  · exact composed.pool member other
  · obtain ⟨⟨ownerId, reached⟩, ordered⟩ :=
      composed.pool before (List.mem_of_getElem? found)
    exact ⟨⟨ownerId, reached.step stepped⟩, ordered.step meets stepped⟩

theorem Launched.startLoopReturns (launched : Launched config sys place)
    (stepped : sys.step config (.startLoopReturns thread) = some next) :
    Launched config next place := by
  simp only [step] at stepped
  split at stepped
  next i position awaiting =>
    have inside : sys.startPc thread ≠ .outside := by simp [awaiting]
    obtain ⟨rfl, bounded, length, rfl, _, built⟩ := launched.at_place awaiting (by simp)
    have called := launched.toCalled.moveOn (.creating (position + 1)) inside
      (launched.idle thread (by rw [awaiting]; rfl))
    obtain ⟨manager, returned, rfl⟩ := Option.map_eq_some_iff.mp stepped
    obtain ⟨before, found, moved⟩ := Option.bind_eq_some_iff.mp returned
    have running : manager.owner = .running := by
      simp only [Manager.step, Option.ite_none_right_eq_some, Option.some.injEq] at moved
      obtain ⟨_, rfl⟩ := moved
      rfl
    have meets : before.MeetsLoop .startLoopReturns := trivial
    refine launched.moveOn called (by simp) (launched.toComposed.set found moved meets) ?_ rfl
    exact ⟨bounded, List.length_set.trans length, built.return length running⟩
  next => cases stepped

/-- Nobody is in `start`. -/
theorem Called.of_outside (outside : ∀ thread, sys.startPc thread = .outside) :
    Called config sys where
  idle thread inside := by
    rw [outside thread] at inside
    cases inside
  main inside := absurd (outside config.mainId) inside

theorem Composed.conserved (composed : Composed sys) : sys.baseLoop.QueueConserved :=
  Machine.Reachable.invariant (fun _ _ _ conserved stepped => conserved.step stepped)
    EventLoop.make_queueConserved composed.base

theorem Launched.listen (launched : Launched config sys place)
    (stepped : sys.step config (.listen thread) = some next) :
    ∃ place, Launched config next place := by
  simp only [step, Option.ite_none_right_eq_some, Option.map_eq_some_iff] at stepped
  obtain ⟨listening, loop, moved, rfl⟩ := stepped
  obtain ⟨rfl, stands⟩ := launched.at_place listening (by simp)
  have outside (other : Tid) : (sys.setStartPc thread .outside).startPc other = .outside := by
    rw [startPc_setStartPc]
    split
    next => rfl
    next different => exact launched.alone different
  have begun := launched.begun (by simp)
  have reached : EventLoop.interleaving.step sys.baseLoop
      (.runinLoop (config.caller thread) .listen) = some loop := moved
  have queued : loop.queue.contents.countP isListenTask = 0 := by
    have counted := launched.conserved.countP_contents moved isListenTask
    simpa [EventLoop.ran, EventLoop.pushed, launched.queued, Place.isQueued] using counted
  have queueing (caller : Option Tid) : loop.callPc caller = .queueing .listen ↔
      config.caller thread = caller ∧ caller.isSome = true := by
    rw [EventLoop.step_queueing_iff moved]
    simp [launched.not_queueing (by simp)]
  by_cases main : thread = config.mainId
  · rw [if_pos main]
    refine ⟨.listening, ?_⟩
    exact {
      launched with
      starts := iff_of_false (by simp) begun
      inside := fun other => iff_of_false (not_not.mpr (outside other)) (by simp)
      posting := fun other => by simp [acceptorListen, queueing, main]
      own := fun calls => by simp [acceptorListen, queueing, main] at calls
      queued := queued
      listening := rfl
      once := congrArg (· + 1) launched.once
      base := launched.base.step reached
      toCalled := .of_outside outside
      listens := fun _ => rfl
      posts := by simp
      stands := stands }
  · rw [if_neg main]
    rw [config.caller_of_ne main] at queueing
    refine ⟨.posting thread, ?_⟩
    exact {
      launched with
      starts := iff_of_false (by simp) begun
      inside := fun other => iff_of_false (not_not.mpr (outside other)) (by simp)
      posting := fun other => by simp [queueing]
      own := fun calls => by simp [queueing] at calls
      queued := queued
      listening := launched.listening
      once := launched.once
      base := launched.base.step reached
      toCalled := .of_outside outside
      posts := fun other same => by
        cases same
        exact main
      stands := stands }

/-! ## Steps of the base loop -/

theorem permitsBase_cases {action : EventLoop.Action Tid (BaseTask F)}
    (permitted : sys.permitsBase config action = true) :
    callsListen action = false ∧
      (action.caller? = none → sys.startPc config.mainId = .outside) ∧
      ∀ thread, action.caller? = some (config.caller thread) →
        (sys.startPc thread).runsUserCode = true := by
  obtain ⟨quiet, placed⟩ := (Bool.and_eq_true _ _).mp permitted
  refine ⟨by simpa using quiet, ?_, ?_⟩
  · intro own
    rw [own] at placed
    exact eq_of_beq placed
  · intro thread calls
    rw [calls] at placed
    by_cases main : thread = config.mainId
    · subst main
      rw [config.caller_mainId] at placed
      exact placed
    · rw [config.caller_of_ne main] at placed
      exact ((Bool.and_eq_true _ _).mp placed).2

/-- A step of the base loop leaves a thread in `start` where it is. -/
theorem Called.base (called : Called config sys) {action : EventLoop.Action Tid (BaseTask F)}
    {loop : EventLoop Tid (BaseTask F)} (permitted : sys.permitsBase config action = true)
    (moved : sys.baseLoop.step action = some loop) :
    Called config { sys with baseLoop := loop } where
  idle thread inside := by
    have other : action.caller? ≠ some (config.caller thread) := by
      intro calls
      rw [(permitsBase_cases permitted).2.2 thread calls] at inside
      cases inside
    rw [EventLoop.step_callPc_of_ne moved other]
    exact called.idle thread inside
  main inside := by
    have calls : action.caller? ≠ none :=
      fun own => inside ((permitsBase_cases permitted).2.1 own)
    have stays : loop.pc = sys.baseLoop.pc := by
      rw [(EventLoop.step_quit_pc moved).2]
      cases action <;> first | rfl | exact absurd rfl calls
    rw [stays]
    exact called.main inside

theorem Launched.baseStep (launched : Launched config sys place)
    {action : EventLoop.Action Tid (BaseTask F)}
    (stepped : sys.step config (.base action) = some next) :
    ∃ place, Launched config next place := by
  simp only [step, Option.ite_none_right_eq_some, Option.map_eq_some_iff] at stepped
  obtain ⟨permitted, loop, moved, rfl⟩ := stepped
  have quiet := (permitsBase_cases permitted).1
  have called := launched.toCalled.base permitted moved
  have reached : EventLoop.interleaving.step sys.baseLoop action = some loop := moved
  have counted := launched.conserved.countP_contents moved isListenTask
  rw [countP_ran, launched.queued] at counted
  have queueing (caller : Option Tid) : loop.callPc caller = .queueing .listen ↔
      sys.baseLoop.callPc caller = .queueing .listen ∧ action ≠ .push caller := by
    rw [EventLoop.step_queueing_iff moved]
    constructor
    · rintro (before | rfl | ⟨rfl, _⟩)
      · exact before
      · cases quiet
      · cases quiet
    · exact .inl
  have own : loop.callPc none ≠ .queueing .listen :=
    fun calls => launched.own ((queueing none).mp calls).1
  by_cases pushes : ∃ thread, place = .posting thread ∧ action = .push (some thread)
  · obtain ⟨thread, rfl, rfl⟩ := pushes
    refine ⟨.queued, ?_⟩
    have posting := (launched.posting thread).mpr rfl
    have nobody := launched.nobody (by simp)
    have pushed (other : Tid) : loop.callPc (some other) ≠ .queueing .listen := by
      intro calls
      obtain ⟨before, still⟩ := (queueing (some other)).mp calls
      cases (launched.posting other).mp before
      exact still rfl
    have one : loop.queue.contents.countP isListenTask = 1 := by
      simpa [runsListen, EventLoop.pushed, posting, CallPc.inFlight, isListenTask,
        BaseTask.isListen, Place.isQueued] using counted
    exact {
      launched with
      starts := iff_of_false (by simp) (launched.begun (by simp))
      inside := fun other => iff_of_false (not_not.mpr (nobody other)) (by simp)
      posting := fun other => iff_of_false (pushed other) (by simp)
      own := own
      queued := one
      listening := launched.listening
      once := launched.once
      base := launched.base.step reached
      toCalled := called
      posts := by simp
      stands := launched.stands }
  · have silent : (sys.baseLoop.pushed action).countP isListenTask = 0 := by
      refine countP_pushed fun caller pushing => ?_
      refine launched.not_queueing fun thread called posting => ?_
      exact pushes ⟨thread, posting, pushing.trans (congrArg _ called)⟩
    have posting (thread : Tid) : loop.callPc (some thread) = .queueing .listen ↔
        place = .posting thread := by
      rw [queueing, launched.posting]
      exact ⟨And.left, fun posting =>
        ⟨posting, fun pushing => pushes ⟨thread, posting, pushing⟩⟩⟩
    rw [silent] at counted
    by_cases runs : runsListen sys.baseLoop action = true
    · rw [if_pos runs]
      rw [runs] at counted
      have queued : place = .queued := by
        cases place with
        | queued => rfl
        | before | inside | posting | listening => simp [Place.isQueued] at counted
      subst queued
      have nobody := launched.nobody (by simp)
      refine ⟨.listening, ?_⟩
      exact {
        launched with
        starts := iff_of_false (by simp) (launched.begun (by simp))
        inside := fun other => iff_of_false (not_not.mpr (nobody other)) (by simp)
        posting := fun thread => iff_of_false ((posting thread).not.mpr (by simp)) (by simp)
        own := own
        queued := Nat.succ.inj counted
        listening := rfl
        once := congrArg (· + 1) launched.once
        base := launched.base.step reached
        idle := called.idle
        main := called.main
        listens := fun _ => rfl
        posts := by simp
        stands := launched.stands }
    · rw [if_neg runs]
      rw [Bool.not_eq_true] at runs
      rw [runs] at counted
      refine ⟨place, ?_⟩
      exact {
        launched with
        posting := posting
        own := own
        queued := counted
        base := launched.base.step reached
        toCalled := called
        stands := launched.stands }

omit [DecidableEq Tid] in
theorem byThread_of_permits {action : Manager.Action Tid F}
    (permitted : sys.permitsPool action = true) : action.byThread = true := by
  cases action with
  | construct | publish | event | clear | destruct => rfl
  | startLoop | startLoopReturns | testLoop | readLoop | storeQuit | wakeupLoop | join =>
      cases permitted

theorem Launched.poolStep (launched : Launched config sys place) {position : Nat}
    {action : Manager.Action Tid F}
    (stepped : sys.step config (.pool position action) = some next) :
    Launched config next place := by
  simp only [step, Option.ite_none_right_eq_some, Option.map_eq_some_iff,
    Option.bind_eq_some_iff] at stepped
  obtain ⟨permitted, manager, ⟨before, found, moved⟩, rfl⟩ := stepped
  obtain ⟨owner, meets⟩ := Manager.step_byThread (byThread_of_permits permitted) moved
  exact {
    launched with
    pool := launched.toComposed.set found moved meets
    stands := launched.stands.set found owner }

theorem Launched.place_listening (launched : Launched config sys place)
    (listening : sys.isListen = true) : place = .listening := by
  rw [launched.listening] at listening
  cases place with
  | listening => rfl
  | before | inside | posting | queued => cases listening

theorem Launched.accept (launched : Launched config sys place)
    (stepped : sys.step config .accept = some next) : Launched config next place := by
  simp only [step, Option.ite_none_right_eq_some, Option.some.injEq] at stepped
  obtain ⟨⟨listening, _⟩, rfl⟩ := stepped
  obtain rfl := launched.place_listening listening
  obtain ⟨given, moved⟩ := launched.toInTurn.getNextLoop launched.stands.2.loops
  exact {
    launched with
    dealt := by
      rw [List.length_append, List.length_singleton, List.range_succ, List.map_append,
        ← launched.dealt, given]
      rfl
    next := fun pooled => by
      rw [List.length_append, List.length_singleton]
      exact moved pooled
    listens := fun _ => listening
    stands := launched.stands }

theorem starts_le {action : Action Tid F} (stepped : sys.step config action = some next) :
    sys.starts ≤ next.starts := by
  cases action with
  | start thread =>
      simp only [step, Option.ite_none_right_eq_some] at stepped
      obtain ⟨_, chosen⟩ := stepped
      split at chosen <;> cases chosen <;> exact Nat.le_succ _
  | create thread =>
      simp only [step] at stepped
      split at stepped
      next =>
        split at stepped
        next =>
          obtain ⟨manager, _, rfl⟩ := Option.map_eq_some_iff.mp stepped
          exact Nat.le_refl _
        next =>
          cases stepped
          exact Nat.le_refl _
      next => cases stepped
  | startLoopReturns thread =>
      simp only [step] at stepped
      split at stepped
      next =>
        obtain ⟨manager, _, rfl⟩ := Option.map_eq_some_iff.mp stepped
        exact Nat.le_refl _
      next => cases stepped
  | callbackReturns thread | accept =>
      simp only [step, Option.ite_none_right_eq_some, Option.some.injEq] at stepped
      obtain ⟨_, rfl⟩ := stepped
      exact Nat.le_refl _
  | listen thread | base action =>
      simp only [step, Option.ite_none_right_eq_some, Option.map_eq_some_iff] at stepped
      obtain ⟨_, loop, _, rfl⟩ := stepped
      split <;> exact Nat.le_refl _
  | pool position action =>
      simp only [step, Option.ite_none_right_eq_some, Option.map_eq_some_iff] at stepped
      obtain ⟨_, manager, _, rfl⟩ := stepped
      exact Nat.le_refl _

theorem Launched.step (launched : Launched config sys place) {action : Action Tid F}
    (few : next.starts ≤ 2 ^ 32) (stepped : sys.step config action = some next) :
    ∃ place, Launched config next place := by
  cases action with
  | start thread =>
      refine launched.start ?_ stepped
      simp only [Startup.step, Option.ite_none_right_eq_some] at stepped
      obtain ⟨_, chosen⟩ := stepped
      split at chosen <;> cases chosen <;> exact few
  | create thread => exact ⟨place, launched.create stepped⟩
  | startLoopReturns thread => exact ⟨place, launched.startLoopReturns stepped⟩
  | callbackReturns thread => exact ⟨place, launched.callbackReturns stepped⟩
  | listen thread => exact launched.listen stepped
  | base action => exact launched.baseStep stepped
  | pool position action => exact ⟨place, launched.poolStep stepped⟩
  | accept => exact ⟨place, launched.accept stepped⟩

/-- The invariant holds up to 2^32 calls of `start`. -/
theorem reachable_launched (reached : (interleaving config).Reachable make sys)
    (few : sys.starts ≤ 2 ^ 32) : ∃ place, Launched config sys place := by
  have kept (state : Startup Tid F) (action : Action Tid F) (next : Startup Tid F)
      (holds : state.starts ≤ 2 ^ 32 → ∃ place, Launched config state place)
      (stepped : state.step config action = some next) (few : next.starts ≤ 2 ^ 32) :
      ∃ place, Launched config next place := by
    obtain ⟨place, launched⟩ := holds (Nat.le_trans (starts_le stepped) few)
    exact launched.step few stepped
  exact reached.invariant kept (fun _ => ⟨.before, make_launched config⟩) few

end Lucky.Startup
