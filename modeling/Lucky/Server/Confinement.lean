import Lucky.Server.Moves

/-!
# One thread for each loop

The code takes no lock but the one around `pendFuncs_`: with `send` and `shutdown`
called on the own loop of a connection, everything else that belongs to a loop is
used by the loop's thread only, and `connections_`, `nextConnId_` and `nextLoop_` by
the thread of the main loop.  Between two steps of its own thread a loop therefore
finds its `Epoller`, its agenda, its batch and its connections as it left them, and
its queue at most longer.
-/

namespace Lucky.Server.System

open Systems

variable {threads : Nat} {config : Config} {sys middle next : System threads}
  {loop : LoopId threads} {c : ConnId} {member : Member threads}

/-- What a loop finds after steps of other threads. -/
structure Untouched (loop : LoopId threads) (sys next : System threads) : Prop where
  queued : ∃ functors : List Work, (∀ work ∈ functors, work.isCallback = false) ∧
    next.loops loop = { sys.loops loop with queue := functors.foldl .push (sys.loops loop).queue }
  members : ∀ {c member}, sys.conns c = some member → member.loop = loop →
    c < sys.nextConnId →
    next.conns c = some member ∨ next.conns c = none
  gone : ∀ {c}, c < sys.nextConnId → sys.conns c = none → next.conns c = none
  later : sys.nextConnId ≤ next.nextConnId
  table : loop = none → next.connections = sys.connections ∧
    next.nextConnId = sys.nextConnId ∧ next.nextLoop = sys.nextLoop

theorem Untouched.refl (loop : LoopId threads) (sys : System threads) :
    Untouched loop sys sys :=
  ⟨⟨[], by simp, rfl⟩, fun found _ _ => .inl found, fun _ gone => gone, Nat.le_refl _,
    fun _ => ⟨rfl, rfl, rfl⟩⟩

theorem Untouched.trans (first : Untouched loop sys middle) (second : Untouched loop middle next) :
    Untouched loop sys next := by
  refine ⟨?_, ?_, ?_, Nat.le_trans first.later second.later, ?_⟩
  · obtain ⟨earlier, plain, before⟩ := first.queued
    obtain ⟨functors, plainAfter, after⟩ := second.queued
    refine ⟨earlier ++ functors, ?_, ?_⟩
    · intro work queued
      rcases List.mem_append.mp queued with old | fresh
      · exact plain work old
      · exact plainAfter work fresh
    · rw [after, before, List.foldl_append]
  · intro c member found here known
    have knownLater := Nat.lt_of_lt_of_le known first.later
    rcases first.members found here known with kept | gone
    · exact second.members kept here knownLater
    · exact .inr (second.gone knownLater gone)
  · intro c known gone
    exact second.gone (Nat.lt_of_lt_of_le known first.later) (first.gone known gone)
  · intro main
    obtain ⟨connections, nextConnId, nextLoop⟩ := first.table main
    obtain ⟨connectionsAfter, nextConnIdAfter, nextLoopAfter⟩ := second.table main
    exact ⟨connectionsAfter.trans connections, nextConnIdAfter.trans nextConnId,
      nextLoopAfter.trans nextLoop⟩

/-- Steps that change no member and nothing of the main loop's table. -/
theorem Untouched.of_loops (conns : next.conns = sys.conns)
    (connections : next.connections = sys.connections)
    (nextConnId : next.nextConnId = sys.nextConnId) (nextLoop : next.nextLoop = sys.nextLoop)
    (queued : ∃ functors : List Work, (∀ work ∈ functors, work.isCallback = false) ∧
      next.loops loop =
        { sys.loops loop with queue := functors.foldl .push (sys.loops loop).queue }) :
    Untouched loop sys next := by
  refine ⟨queued, ?_, ?_, Nat.le_of_eq nextConnId.symm,
    fun _ => ⟨connections, nextConnId, nextLoop⟩⟩
  · intro c member found _ _
    exact .inl (conns ▸ found)
  · intro c _ gone
    exact conns ▸ gone

theorem Untouched.modifyLoop {other : LoopId threads} {change : LoopState → LoopState}
    (apart : other ≠ loop) : Untouched loop sys (sys.modifyLoop other change) :=
  .of_loops rfl rfl rfl rfl ⟨[], by simp, Function.update_of_ne apart.symm _ _⟩

theorem Untouched.setAgenda {other : LoopId threads} {agenda : List Work}
    (apart : other ≠ loop) : Untouched loop sys (sys.setAgenda other agenda) :=
  .modifyLoop apart

theorem Untouched.queueinLoop (other : LoopId threads) {work : Work}
    (plain : work.isCallback = false) : Untouched loop sys (sys.queueinLoop other work) := by
  refine .of_loops rfl rfl rfl rfl ?_
  by_cases here : other = loop
  · refine ⟨[work], by simpa using plain, ?_⟩
    subst here
    simp [System.queueinLoop, System.modifyLoop]
  · exact ⟨[], by simp, Function.update_of_ne (Ne.symm here) _ _⟩

/-- A function of a connection touches nothing of another loop. -/
theorem Untouched.commit {session : Session ConnId} (found : sys.conns c = some member)
    (apart : member.loop ≠ loop) : Untouched loop sys (sys.commit c member session) := by
  refine ⟨⟨[], by simp, Function.update_of_ne apart.symm _ _⟩, ?_, ?_, Nat.le_refl _,
    fun _ => ⟨rfl, rfl, rfl⟩⟩
  · intro d other foundOther here _
    left
    rw [commit_conns_eq_some, if_neg]
    · exact foundOther
    · rintro rfl
      rw [found] at foundOther
      cases foundOther
      exact apart here
  · intro d _ gone
    have other : d ≠ c := by
      rintro rfl
      rw [found] at gone
      cases gone
    simp [System.commit, other, gone]

/-- The main loop takes in a connection with a new number. -/
theorem Untouched.enroll (apart : loop ≠ none) (loops : next.loops = sys.loops)
    (older : ∀ c < sys.nextConnId, next.conns c = sys.conns c)
    (later : sys.nextConnId ≤ next.nextConnId) : Untouched loop sys next := by
  refine ⟨⟨[], by simp, by rw [loops]; rfl⟩, ?_, ?_, later, fun main => absurd main apart⟩
  · intro c member found _ known
    exact .inl ((older c known).trans found)
  · intro c known gone
    exact (older c known).trans gone

theorem Untouched.newConnection {sockfd : Nat}
    {writeCompleteCallback highWaterMarkCallback : Bool} (apart : loop ≠ none) :
    Untouched loop sys
      (sys.newConnection config sockfd writeCompleteCallback highWaterMarkCallback) := by
  unfold System.newConnection
  dsimp only
  split
  · refine (Untouched.enroll apart ?_ ?_ ?_).trans (.setAgenda apart.symm)
    · rfl
    · exact fun c known => Function.update_of_ne (Nat.ne_of_lt known) _ _
    · exact Nat.le_succ _
  · refine (Untouched.enroll apart ?_ ?_ ?_).trans (.queueinLoop _ rfl)
    · rfl
    · exact fun c known => Function.update_of_ne (Nat.ne_of_lt known) _ _
    · exact Nat.le_succ _

/-! ## Steps -/

/-- `connections_` is only changed by the main loop. -/
def Placed (sys : System threads) : Prop :=
  ∀ loop c, .removeConnectionInLoop c ∈ (sys.loops loop).tasks c → loop = none

theorem make_placed : Placed (make : System threads) :=
  fun _ _ task => absurd (LoopState.mem_tasks.mp task).1 List.not_mem_nil

theorem Placed.move (anchored : Anchored config sys) (placed : Placed sys) {action : Action threads}
    (move : Move config sys action next) : Placed next := by
  intro other d task
  rcases move.fresh anchored task with old | fresh
  · exact placed other d old
  · cases fresh with
    | left head found turn inside => cases turn <;> simp at inside
    | unlisting main head => exact main

/-- A turn is taken by the thread of the connection's loop. -/
theorem Anchored.turn_here (anchored : Anchored config sys) {done : Work} {rest new : List Work}
    {routine : Routine} {readv : ReadvResult} {write : WriteResult}
    (head : (sys.loops loop).agenda = done :: rest) (found : sys.conns c = some member)
    (turn : Turn c member.connection.state readv write done routine new) :
    member.loop = loop := by
  have tells := (anchored.stage found).tells (mem_tasks_head head turn.subject)
  cases turn with
  | establish => exact (tells.connecting rfl).2
  | error | close | ended | received | failed | write | disconnect | destroy | remove =>
      exact tells.here rfl

/-- A connection without an owner is registered nowhere. -/
theorem Anchored.unreferred (anchored : Anchored config sys) (found : sys.conns c = some member)
    (unowned : ¬ sys.Owned c) (loop : LoopId threads) (d : ConnId) :
    ¬ (sys.loops loop).epoller.Refers member.connection.filed.fd d := by
  intro refers
  have new : member.connection.filed.index = .kNew :=
    Decidable.byContradiction fun registered =>
      unowned ((anchored.stage found).owned registered)
  obtain ⟨owner, foundOwner, here, sameFd⟩ := anchored.wired.referred refers
  have same := anchored.wired.distinct foundOwner found sameFd
  rw [same, found] at foundOwner
  cases foundOwner
  subst here
  exact ((anchored.wired.registered found).refers refers).2 new

theorem Anchored.unregistered (anchored : Anchored config sys)
    (found : sys.conns c = some member) (unowned : ¬ sys.Owned c) (loop : LoopId threads) :
    (sys.loops loop).epoller.fileds member.connection.filed.fd = none ∧
      (sys.loops loop).epoller.interest member.connection.filed.fd = none := by
  have unreferred := anchored.unreferred found unowned loop
  constructor
  · apply Option.eq_none_iff_forall_ne_some.mpr
    exact fun d mapped => unreferred d (.inl mapped)
  · apply Option.eq_none_iff_forall_ne_some.mpr
    exact fun event monitored => unreferred event.ptr (.inr ⟨event, monitored, rfl⟩)

theorem Anchored.untouched (anchored : Anchored config sys) (placed : Placed sys)
    {action : Action threads} (apart : action.thread ≠ some loop)
    (move : Move config sys action next) : Untouched loop sys next := by
  cases move with
  | control thread plain control =>
      apply Untouched.modifyLoop
      rintro rfl
      exact apart thread
  | handleEvent phase agenda found =>
      apply Untouched.modifyLoop
      rintro rfl
      exact apart rfl
  | accept phase agenda small =>
      apply Untouched.newConnection
      rintro rfl
      exact apart rfl
  | @turn acting readv write done rest new c member routine session head found turn returned =>
      have here := anchored.turn_here head found turn
      have other : acting ≠ loop := fun equal => apart (congrArg some equal)
      exact (Untouched.commit found (here.symm ▸ other)).trans (.setAgenda other)
  | userCode head => exact .setAgenda fun equal => apart (congrArg some equal)
  | closeCallback head found =>
      have other := fun equal => apart (congrArg some equal)
      unfold System.removeConnection
      split
      · exact .setAgenda other
      · exact (Untouched.setAgenda other).trans (.queueinLoop none rfl)
  | @removeConnectionInLoop acting readv write rest c member head found =>
      have main := placed acting c (mem_tasks_head head rfl)
      have other : acting ≠ loop := fun equal => apart (congrArg some equal)
      have left : Untouched loop sys (sys.setAgenda acting rest) := .setAgenda other
      have erased : Untouched loop (sys.setAgenda acting rest) { sys.setAgenda acting rest with
          connections := (sys.setAgenda acting rest).connections.filter
            (·.1 ≠ member.name) } :=
        ⟨⟨[], by simp, rfl⟩, fun found _ _ => .inl found, fun _ gone => gone, Nat.le_refl _,
          fun here => absurd (main.trans here.symm) other⟩
      exact (left.trans erased).trans (.queueinLoop member.loop rfl)
  | userCall running found known here returned =>
      apply Untouched.commit found
      rw [here]
      exact fun equal => apart (congrArg some equal)
  | setUser plain known kept => exact .of_loops rfl rfl rfl rfl ⟨[], by simp, rfl⟩
  | queueUser known => exact .queueinLoop _ rfl
  | @destroy c member found unowned =>
      have monitored := (anchored.unregistered found unowned loop).2
      refine ⟨⟨[], by simp, ?_⟩, ?_, ?_, Nat.le_refl _, fun _ => ⟨rfl, rfl, rfl⟩⟩
      · have same : Function.update (sys.loops loop).epoller.interest
            member.connection.filed.fd none = (sys.loops loop).epoller.interest :=
          Function.update_eq_self_iff.mpr monitored.symm
        change { sys.loops loop with epoller := { (sys.loops loop).epoller with
          interest := Function.update (sys.loops loop).epoller.interest
            member.connection.filed.fd none } } = sys.loops loop
        rw [same]
      · intro d other foundOther _ _
        by_cases same : d = c
        · exact .inr (by simp [same])
        · exact .inl (by simpa [same] using foundOther)
      · intro d _ gone
        by_cases same : d = c
        · simp [same]
        · simpa [same] using gone

/-! ## Runs -/

theorem reachable_placed (reached : (interleaving config).Reachable make sys) : Placed sys := by
  obtain ⟨actions, run⟩ := reached
  have both := Machine.exec_guarded_invariant (fun sys => Anchored config sys ∧ Placed sys)
    (fun _ _ _ kept _ stepped =>
      ⟨kept.1.step stepped, kept.2.move kept.1 (kept.1.moves stepped)⟩)
    ⟨make_anchored config, make_placed⟩ (Machine.guarded_true _ actions) run
  exact both.2

/-- With `send` and `shutdown` called on the connection's own loop only, and whatever else
the other threads and the user do between two steps of a loop's thread: its `Epoller`,
phase, agenda and batch are as before and its queue is as before with functors added at the
end; its connections are as before, or destroyed for good; and the main loop finds
`connections_`, `nextConnId_` and `nextLoop_` as before. -/
theorem undisturbed_by_others (config : Config) {sys final : System threads}
    (reached : (interleaving config).Reachable make sys) (loop : LoopId threads)
    {actions : List (Action threads)} (others : ∀ action ∈ actions, action.thread ≠ some loop)
    (run : (interleaving config).exec sys actions = some final) :
    (∃ functors : List Work, final.loops loop =
      { sys.loops loop with queue := functors.foldl .push (sys.loops loop).queue }) ∧
    (∀ c member, sys.conns c = some member → member.loop = loop →
      final.conns c = some member ∨ final.conns c = none) ∧
    (loop = none → final.connections = sys.connections ∧
      final.nextConnId = sys.nextConnId ∧ final.nextLoop = sys.nextLoop) := by
  have anchored := reachable_anchored reached
  have untouched : Untouched loop sys final := Machine.exec_guarded_related
    (fun sys => Anchored config sys ∧ Placed sys) (Untouched.refl loop)
    (fun _ _ _ => Untouched.trans)
    (fun _ _ _ kept other stepped =>
      ⟨⟨kept.1.step stepped, kept.2.move kept.1 (kept.1.moves stepped)⟩,
        kept.1.untouched kept.2 other (kept.1.moves stepped)⟩)
    ⟨anchored, reachable_placed reached⟩
    (Machine.guarded_of_mem (fun action membership _ => others action membership) sys) run
  obtain ⟨functors, _, queued⟩ := untouched.queued
  refine ⟨⟨functors, queued⟩, ?_, untouched.table⟩
  intro c member found here
  exact untouched.members found here (anchored.named found).2

/-- A loop of the pool establishes the connection the main loop has handed to it. -/
theorem undisturbed_by_others_establishing :
    ∃ sys final : System 1,
      (interleaving ⟨[], ⟨fun _ => 0, 0⟩⟩).exec make (descriptorReuse.take 2) = some sys ∧
      (interleaving ⟨[], ⟨fun _ => 0, 0⟩⟩).exec sys ((descriptorReuse.drop 2).take 6) =
        some final ∧
      final.connections = sys.connections := by
  refine ⟨_, _, rfl, rfl, ?_⟩
  have others : ∀ action ∈ (descriptorReuse.drop 2).take 6,
      action.thread ≠ some (none : LoopId 1) := by
    intro action membership
    simp only [descriptorReuse, List.drop, List.take, List.mem_cons, List.not_mem_nil,
      or_false] at membership
    rcases membership with rfl | rfl | rfl | rfl | rfl | rfl <;> simp [Action.thread]
  have undisturbed := undisturbed_by_others ⟨[], ⟨fun _ => 0, 0⟩⟩
    ⟨descriptorReuse.take 2, rfl⟩
    none others rfl
  exact (undisturbed.2.2 rfl).1

end Lucky.Server.System
