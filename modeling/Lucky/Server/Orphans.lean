import Lucky.Server.Performing

/-!
# No registered connection is orphaned

Every step keeps the system anchored, so that in every reachable state whatever
`fileds_`, the kernel or `activeFileds_` refers to is a live connection with an
owner, and a descriptor is registered for one connection only.
-/

namespace Lucky.Server.System

open Systems

variable {threads : Nat} {config : Config} {sys next : System threads} {loop : LoopId threads}
  {c : ConnId} {member : Member threads}

/-! ## The phases of a loop -/

/-- Steps of a loop that only move functors through its queue. -/
theorem Anchored.modifyLoop (anchored : Anchored config sys) {change : LoopState → LoopState}
    (works : (change (sys.loops loop)).works = (sys.loops loop).works)
    (held : ∀ work ∈ (change (sys.loops loop)).held, work ∈ (sys.loops loop).held)
    (epoller : (change (sys.loops loop)).epoller = (sys.loops loop).epoller)
    (settled : (change (sys.loops loop)).Settled)
    (reported : ∀ active, (change (sys.loops loop)).phase = .handling active →
      ∀ entry ∈ active, sys.Reported loop entry.1) :
    Anchored config (sys.modifyLoop loop change) := by
  refine anchored.spared (fun d => .modifyLoop (.of_works works held))
    (anchored.wired.modifyLoop epoller) (settled_modifyLoop anchored.settled settled) rfl rfl ?_
  intro other active phase
  by_cases here : other = loop
  · subst here
    exact reported active (by simpa [System.modifyLoop] using phase)
  · exact anchored.reported (by simpa [System.modifyLoop, here] using phase)

theorem Anchored.poll (anchored : Anchored config sys) {reports : List (Nat × Mask)}
    (stepped : step config sys (.poll loop reports) = some next) : Anchored config next := by
  simp only [step] at stepped
  split at stepped
  next polling =>
    cases stepped
    refine anchored.modifyLoop rfl (fun _ => id) rfl (fun _ => ?_) ?_
    · exact anchored.settled loop (by simp [polling])
    · intro active phase entry reported
      cases phase
      obtain ⟨report, _, monitored⟩ := List.mem_filterMap.mp reported
      obtain ⟨event, interest, rfl⟩ := Option.map_eq_some_iff.mp monitored
      have refers : (sys.loops loop).epoller.Refers report.1 event.ptr :=
        .inr ⟨event, interest, rfl⟩
      obtain ⟨member, found, here, fd⟩ := anchored.wired.referred refers
      subst here
      rw [← fd] at refers
      exact ⟨member, found, rfl, ((anchored.wired.registered found).refers refers).2⟩
  next => cases stepped

theorem Anchored.swap (anchored : Anchored config sys)
    (stepped : step config sys (.swap loop) = some next) : Anchored config next := by
  simp only [step] at stepped
  split at stepped
  next ready =>
    cases stepped
    have finished := (anchored.settled loop (by simp [ready.1])).1
    refine anchored.modifyLoop ?_ ?_ rfl (fun running => absurd rfl running) nofun
    · simp [LoopState.works, TaskQueue.contents_swap finished]
    · intro work held
      simp only [LoopState.held, TaskQueue.swap, List.append_nil, List.mem_append] at held ⊢
      exact held.imp_left .inl
  next => cases stepped

theorem Anchored.runNext (anchored : Anchored config sys)
    (stepped : step config sys (.runNext loop) = some next) : Anchored config next := by
  simp only [step] at stepped
  split at stepped
  next ready =>
    obtain ⟨work, first, rfl⟩ := Option.map_eq_some_iff.mp stepped
    refine anchored.modifyLoop ?_ ?_ rfl (fun running => absurd ready.1 running) ?_
    · simp [LoopState.works, ready.2, TaskQueue.contents_of_next first]
    · intro other held
      have batch : work ∈ (sys.loops loop).queue.functors := List.mem_of_getElem? first
      simp only [LoopState.held, TaskQueue.advance, List.mem_append, List.mem_singleton]
        at held ⊢
      rcases held with (rfl | old) | pending
      · exact .inl (.inr batch)
      · exact .inl (.inr old)
      · exact .inr pending
    · intro active phase
      rw [ready.1] at phase
      cases phase
  next => cases stepped

theorem Anchored.finish (anchored : Anchored config sys)
    (stepped : step config sys (.finish loop) = some next) : Anchored config next := by
  simp only [step] at stepped
  split at stepped
  next ready =>
    cases stepped
    have finished : (sys.loops loop).queue.remaining = [] :=
      TaskQueue.remaining_eq_nil_iff.mpr (Option.isNone_iff_eq_none.mp ready.2.2)
    refine anchored.modifyLoop ?_ ?_ rfl ?_ nofun
    · simp [LoopState.works, TaskQueue.contents_finish finished]
    · intro work held
      simp only [LoopState.held, TaskQueue.finish, List.append_nil, List.mem_append] at held ⊢
      exact held.imp_left .inl
    · refine fun _ => ⟨rfl, ?_⟩
      rw [ready.2.1]
      exact fun _ listed => absurd listed List.not_mem_nil
  next => cases stepped

/-- The guard of `handleEvent` and the callbacks are owned by the agenda. -/
theorem Anchored.handleEvent (anchored : Anchored config sys)
    (stepped : step config sys (.handleEvent loop) = some next) : Anchored config next := by
  simp only [step] at stepped
  split at stepped
  next c revents active phase agenda =>
    obtain ⟨member, found, rfl⟩ := Option.map_eq_some_iff.mp stepped
    rcases anchored.reported phase (c, revents) List.mem_cons_self with
      ⟨same, foundSame, here, registered⟩
    rw [found] at foundSame
    cases foundSame
    generalize callbacks : ({ member.connection.filed with revents := revents }.handleEvent
      (fun _ => true) true).map (Work.callback · c) = new
    have about (work : Work) (fresh : work ∈ new) : ∃ kind, work = .callback kind c := by
      rw [← callbacks] at fresh
      obtain ⟨kind, _, rfl⟩ := List.mem_map.mp fresh
      exact ⟨kind, rfl⟩
    have stage := anchored.stage found
    have tasks (other : LoopId threads) : ((sys.modifyLoop loop fun state => { state with
        phase := .handling active, agenda := new }).loops other).tasks c =
        (if other = loop then new else []) ++ (sys.loops other).tasks c := by
      simp only [System.modifyLoop, Function.update_apply]
      split
      next same =>
        subst same
        have all : new.filter (fun work => decide (work.subject = some c)) = new := by
          rw [List.filter_eq_self]
          intro work fresh
          obtain ⟨kind, rfl⟩ := about work fresh
          simp [Work.subject]
        simp [LoopState.tasks, LoopState.works, agenda, all]
      next => rfl
    have staged := stage.quiet
      (sys.modifyLoop loop fun state => { state with
        phase := .handling active, agenda := new })
      (stage.of_registered registered) (.refl _) id ?_ ?_
    refine anchored.turn found ?_ (anchored.wired.modifyLoop rfl)
      (settled_modifyLoop anchored.settled ?_) (fun _ listed => listed) rfl ?_ found
      staged.1 fun _ => id
    · intro d apart
      have spares : (sys.loops loop).Spares d { sys.loops loop with agenda := new ++ [] } :=
        .agenda [] new agenda (by simp) ?_
      · rw [List.append_nil] at spares
        exact .modifyLoop ⟨spares.tasks, spares.works, spares.held⟩
      · intro work fresh
        obtain ⟨kind, rfl⟩ := about work fresh
        simpa [Work.conns] using apart
    · refine fun _ => ⟨(anchored.settled loop (by simp [phase])).1, ?_⟩
      intro work fresh
      obtain ⟨kind, rfl⟩ := about work fresh
      rfl
    · intro other rest handling
      by_cases same : other = loop
      · subst same
        have equal : active = rest := by simpa [System.modifyLoop] using handling
        subst equal
        exact fun entry later => anchored.reported phase entry (List.mem_cons_of_mem _ later)
      · exact anchored.reported (by simpa [System.modifyLoop, same] using handling)
    · intro other work task
      rw [tasks, List.mem_append] at task
      rcases task with fresh | old
      · split at fresh
        next same => exact .inr ⟨here.trans same.symm, about work fresh⟩
        next => exact absurd fresh List.not_mem_nil
      · exact .inl old
    · intro other work old _
      rw [tasks]
      exact List.mem_append_right _ old
  next => cases stepped

/-! ## The user -/

theorem handedOut_of_running {held : List ConnId} (running : sys.running loop = some held)
    (given : c ∈ held) : sys.HandedOut c := by
  unfold System.running at running
  split at running
  next inside rest agenda =>
    cases running
    refine .inr ⟨loop, held, ?_, given⟩
    rw [LoopState.works, agenda]
    exact List.mem_append_left _ List.mem_cons_self
  next => cases running

theorem Anchored.userCall (anchored : Anchored config sys) {call : UserCall}
    (stepped : step config sys (.userCall loop c call) = some next) : Anchored config next := by
  obtain ⟨held, running, rest⟩ := Option.bind_eq_some_iff.mp stepped
  obtain ⟨member, found, calling⟩ := Option.bind_eq_some_iff.mp rest
  split at calling
  next allowed =>
    obtain ⟨session, returned, rfl⟩ := Option.map_eq_some_iff.mp calling
    have quiet := Session.Quiet.userCall (toOption_eq_some.mp returned)
    have handed : sys.HandedOut c := by
      rcases allowed.1 with given | kept
      · exact handedOut_of_running running given
      · exact .inl kept
    have stage := anchored.stage found
    have staged := stage.quiet (sys.commit c member session)
      (stage.of_handedOut handed) quiet id
      (fun other work task => .inl (by rwa [tasks_commit] at task))
      (fun other work task _ => by rwa [tasks_commit])
    exact anchored.turn found (fun d apart => .commit apart member session)
      (anchored.wired.commit found quiet.toLocal) (settled_commit anchored.settled session)
      (fun _ listed => listed) rfl (anchored.reported_of_phase (commit_phase sys c member session))
      (commit_conns ..) staged.1 fun _ => staged.2
  next => cases calling

theorem Anchored.setUser (anchored : Anchored config sys) {user : List ConnId}
    (known : ∀ c ∈ user, sys.HandedOut c) : Anchored config { sys with user := user } :=
  anchored.spared (fun d => ⟨rfl, fun _ => .refl d _, .rfl, known d⟩)
    (anchored.wired.congr rfl fun _ => rfl) anchored.settled rfl rfl
    (anchored.reported_of_phase fun _ => rfl)

theorem Anchored.keep (anchored : Anchored config sys)
    (stepped : step config sys (.keep loop c) = some next) : Anchored config next := by
  obtain ⟨held, running, keeping⟩ := Option.bind_eq_some_iff.mp stepped
  split at keeping
  next given =>
    cases keeping
    apply anchored.setUser
    intro d kept
    rcases List.mem_cons.mp kept with rfl | old
    · exact handedOut_of_running running given
    · exact .inl old
  next => cases keeping

theorem Anchored.release (anchored : Anchored config sys)
    (stepped : step config sys (.release c) = some next) : Anchored config next := by
  simp only [step] at stepped
  split at stepped
  · cases stepped
    exact anchored.setUser fun d kept => .inl (List.mem_of_mem_erase kept)
  · cases stepped

/-- The pointers a functor of the user binds were known to the user before. -/
theorem Anchored.queueUser (anchored : Anchored config sys) {held : List ConnId}
    (stepped : step config sys (.queueUser loop held) = some next) : Anchored config next := by
  simp only [step] at stepped
  split at stepped
  next known =>
    cases stepped
    refine anchored.advance (anchored.wired.queueinLoop loop _)
      (settled_queueinLoop anchored.settled _) anchored.bound (Nat.le_refl _) anchored.entries
      (anchored.reported_of_phase (sys.queueinLoop_phase loop · _)) ?_
    intro d
    by_cases given : d ∈ held
    · have handed : sys.HandedOut d := .inl (known d given)
      obtain ⟨member, found⟩ := anchored.live handed.owned
      have stage := anchored.stage found
      have same (other : LoopId threads) : ((sys.queueinLoop loop (.userCode held)).loops
          other).tasks d = (sys.loops other).tasks d := by
        rw [tasks_queueinLoop]
        simp [Work.subject]
      have staged := stage.quiet (sys.queueinLoop loop (.userCode held))
        (stage.of_handedOut handed) (.refl _) id
        (fun other work task => .inl (same other ▸ task))
        (fun other work task _ => (same other).symm ▸ task)
      refine .placed member found (anchored.named found) staged.1 ?_
      rintro other _ ⟨old, foundOld, here, registered⟩
      rw [found] at foundOld
      cases foundOld
      exact ⟨here, registered⟩
    · exact .spared (.queueinLoop given loop)
  next => cases stepped

/-! ## Accepting and destroying -/

theorem Anchored.unused (anchored : Anchored config sys) :
    sys.conns sys.nextConnId = none ∧ ¬ sys.Owned sys.nextConnId := by
  have unused : sys.conns sys.nextConnId = none := by
    apply Option.eq_none_iff_forall_ne_some.mpr
    intro member found
    exact Nat.lt_irrefl _ (anchored.named found).2
  refine ⟨unused, fun owned => ?_⟩
  obtain ⟨member, found⟩ := anchored.live owned
  rw [unused] at found
  cases found

theorem tasks_of_unowned (unowned : ¬ sys.Owned c) (loop : LoopId threads) :
    (sys.loops loop).tasks c = [] := by
  apply List.eq_nil_iff_forall_not_mem.mpr
  intro work task
  obtain ⟨planned, about⟩ := LoopState.mem_tasks.mp task
  exact unowned (owned_of_works planned (Work.mem_conns_of_subject about))

theorem Anchored.destroy (anchored : Anchored config sys)
    (stepped : step config sys (.destroy c) = some next) : Anchored config next := by
  obtain ⟨member, found, destroying⟩ := Option.bind_eq_some_iff.mp stepped
  split at destroying
  next => cases destroying
  next unowned =>
    cases destroying
    have stage := anchored.stage found
    have new : member.connection.filed.index = .kNew :=
      Decidable.byContradiction fun registered => unowned (stage.owned registered)
    refine anchored.advance (anchored.wired.destroy found new rfl fun _ => rfl)
      anchored.settled anchored.bound (Nat.le_refl _) anchored.entries
      (anchored.reported_of_phase fun _ => rfl) ?_
    intro d
    by_cases same : d = c
    · subst same
      refine .destroyed (Function.update_self ..) unowned ?_
      rintro loop ⟨old, foundOld, _, registered⟩
      rw [found] at foundOld
      cases foundOld
      exact registered new
    · exact .spared ⟨Function.update_of_ne same _ _,
        fun _ => .of_works rfl fun _ => id, .rfl, fun kept => .inl kept⟩

/-- A connection with a new number and a free descriptor, whose only task is
`connectEstablished`. -/
theorem Anchored.enroll (anchored : Anchored config sys) (member : Member threads)
    (nextLoop : Nat) (change : LoopState → LoopState) (small : sys.nextConnId + 1 < 2 ^ 31)
    (name : member.name = config.connName sys.nextConnId)
    (state : member.connection.state = .kConnecting)
    (new : member.connection.filed.index = .kNew)
    (events : member.connection.filed.events = Filed.kNoneEvent)
    (free : ∀ {d other}, sys.conns d = some other →
      other.connection.filed.fd ≠ member.connection.filed.fd)
    (epoller : (change (sys.loops member.loop)).epoller = (sys.loops member.loop).epoller)
    (phase : (change (sys.loops member.loop)).phase = (sys.loops member.loop).phase)
    (settled : (change (sys.loops member.loop)).Settled)
    (spares : ∀ d, d ≠ sys.nextConnId →
      (sys.loops member.loop).Spares d (change (sys.loops member.loop)))
    (tasks : (change (sys.loops member.loop)).tasks sys.nextConnId =
      [.connectEstablished sys.nextConnId])
    (user : ∀ held, .userCode held ∈ (change (sys.loops member.loop)).works →
      .userCode held ∈ (sys.loops member.loop).works) :
    Anchored config ({ sys with
      conns := Function.update sys.conns sys.nextConnId (some member)
      connections := (member.name, sys.nextConnId) ::
        sys.connections.filter (·.1 ≠ member.name)
      nextConnId := sys.nextConnId + 1
      nextLoop := nextLoop }.modifyLoop member.loop change) := by
  obtain ⟨unused, unowned⟩ := anchored.unused
  generalize taken : ({ sys with
    conns := Function.update sys.conns sys.nextConnId (some member)
    connections := (member.name, sys.nextConnId) ::
      sys.connections.filter (·.1 ≠ member.name)
    nextConnId := sys.nextConnId + 1
    nextLoop := nextLoop }.modifyLoop member.loop change) = next
  have loops (other : LoopId threads) : next.loops other =
      if other = member.loop then change (sys.loops member.loop) else sys.loops other := by
    rw [← taken]
    simp [System.modifyLoop, Function.update_apply]
  have conns : next.conns = Function.update sys.conns sys.nextConnId (some member) := by
    rw [← taken]
    rfl
  have connections : next.connections = (member.name, sys.nextConnId) ::
      sys.connections.filter (·.1 ≠ member.name) := by
    rw [← taken]
    rfl
  have nextConnId : next.nextConnId = sys.nextConnId + 1 := by
    rw [← taken]
    rfl
  have sameUser : next.user = sys.user := by
    rw [← taken]
    rfl
  have epollers (other : LoopId threads) :
      (next.loops other).epoller = (sys.loops other).epoller := by
    rw [loops]
    split
    next here => rw [epoller, here]
    next => rfl
  have enrolled : Wired { sys with
      conns := Function.update sys.conns sys.nextConnId (some member) } :=
    anchored.wired.enroll unused new free rfl rfl
  refine anchored.advance (enrolled.congr conns epollers) ?_ (nextConnId ▸ small) (by omega) ?_
    (anchored.reported_of_phase ?_) ?_
  · intro other
    rw [loops]
    split
    · exact settled
    · exact anchored.settled other
  · rw [connections]
    intro entry listed
    rcases List.mem_cons.mp listed with rfl | old
    · exact name
    · exact anchored.entries entry (List.mem_filter.mp old).1
  · intro other
    rw [loops]
    split
    next here => rw [phase, here]
    next => rfl
  · intro d
    by_cases same : d = sys.nextConnId
    · subst same
      refine .placed member (by simp [conns])
        ⟨name, nextConnId ▸ Nat.lt_succ_self _⟩
        (.inl ⟨state, new, events, ?_, ?_, ?_⟩) ?_
      · exact ⟨_, connections ▸ List.mem_cons_self, rfl⟩
      · rintro (kept | ⟨other, held, planned, given⟩)
        · exact unowned (.inr (.inl (sameUser ▸ kept)))
        · rw [loops] at planned
          split at planned
          · exact unowned (owned_of_works (user held planned) given)
          · exact unowned (owned_of_works planned given)
      · intro other
        rw [loops]
        split
        · exact tasks
        · exact tasks_of_unowned unowned other
      · rintro other _ ⟨old, foundOld, _⟩
        rw [unused] at foundOld
        cases foundOld
    · refine .spared ⟨?_, ?_, ?_, fun kept => .inl (sameUser ▸ kept)⟩
      · rw [conns, Function.update_of_ne same]
      · intro other
        rw [loops]
        split
        next here => exact here ▸ spares d same
        next => exact .refl d _
      · constructor
        · rintro ⟨entry, listed, rfl⟩
          rw [connections] at listed
          rcases List.mem_cons.mp listed with rfl | old
          · exact absurd rfl same
          · exact ⟨entry, (List.mem_filter.mp old).1, rfl⟩
        · rintro ⟨entry, listed, rfl⟩
          refine ⟨entry, ?_, rfl⟩
          rw [connections]
          refine List.mem_cons_of_mem _ (List.mem_filter.mpr ⟨listed, ?_⟩)
          -- an earlier connection has another name
          have other : entry.1 ≠ member.name := by
            rw [anchored.entries entry listed, name]
            obtain ⟨_, found⟩ := anchored.live (c := entry.2) (.inl ⟨entry, listed, rfl⟩)
            have earlier := (anchored.named found).2
            exact fun equal => same (connName_injective _ _ (Nat.lt_trans earlier anchored.bound)
              anchored.bound equal)
          simpa using other

theorem Anchored.accept (anchored : Anchored config sys) {sockfd : Nat}
    {writeCompleteCallback highWaterMarkCallback : Bool}
    (stepped : step config sys (.accept sockfd writeCompleteCallback highWaterMarkCallback) =
      some next) : Anchored config next := by
  simp only [step] at stepped
  split at stepped
  next active phase agenda =>
    split at stepped
    next allowed =>
      cases stepped
      have enroll (change : LoopState → LoopState) := anchored.enroll
        ⟨config.connName sys.nextConnId,
          Connection.make sockfd writeCompleteCallback highWaterMarkCallback, sys.getNextLoop.1⟩
        sys.getNextLoop.2 change allowed.2 rfl rfl rfl rfl
        (fun found => allowed.1 _ (anchored.named found).2 _ (by simp [found]))
      have unplanned := tasks_of_unowned anchored.unused.2 sys.getNextLoop.1
      unfold newConnection
      dsimp only
      split
      next main =>
        have idle : (sys.loops sys.getNextLoop.1).agenda = [] := main ▸ agenda
        refine main ▸ enroll (fun loop => { loop with
          agenda := [.connectEstablished sys.nextConnId] }) rfl rfl ?_ ?_ ?_ ?_
        · exact fun handling => ⟨(anchored.settled _ handling).1, by simp [Work.removes]⟩
        · intro d apart
          exact .agenda [] [.connectEstablished sys.nextConnId] idle (by simp)
            (by simpa [Work.conns] using apart)
        · rw [LoopState.tasks, LoopState.works, idle] at unplanned
          rw [LoopState.tasks, LoopState.works, List.filter_append, ← List.nil_append
            (sys.loops sys.getNextLoop.1).queue.contents, unplanned]
          simp [Work.subject]
        · simp [LoopState.works, idle]
      next pool =>
        refine enroll (fun loop => { loop with
          queue := loop.queue.push (.connectEstablished sys.nextConnId) }) rfl rfl
          (anchored.settled _) ?_ ?_ ?_
        · intro d apart
          exact .queue [.connectEstablished sys.nextConnId]
            (by simpa [Work.conns] using apart) _
        · rw [LoopState.tasks, LoopState.works] at unplanned
          rw [LoopState.tasks, LoopState.works, TaskQueue.contents_push, ← List.append_assoc,
            List.filter_append, unplanned]
          simp [Work.subject]
        · simp [LoopState.works]
    next => cases stepped
  next => cases stepped

/-! ## Runs -/

theorem Anchored.step (anchored : Anchored config sys) {action : Action threads}
    (stepped : step config sys action = some next) : Anchored config next := by
  cases action with
  | poll loop reports => exact anchored.poll stepped
  | handleEvent loop => exact anchored.handleEvent stepped
  | accept sockfd writeCompleteCallback highWaterMarkCallback => exact anchored.accept stepped
  | swap loop => exact anchored.swap stepped
  | runNext loop => exact anchored.runNext stepped
  | finish loop => exact anchored.finish stepped
  | perform loop readv write =>
      simp only [System.step] at stepped
      split at stepped
      next head => exact anchored.perform head stepped
      next => cases stepped
  | userCall loop c call => exact anchored.userCall stepped
  | keep loop c => exact anchored.keep stepped
  | release c => exact anchored.release stepped
  | queueUser loop held => exact anchored.queueUser stepped
  | destroy c => exact anchored.destroy stepped

theorem reachable_anchored (reached : (interleaving config).Reachable make sys) :
    Anchored config sys :=
  reached.invariant (fun _ _ _ anchored stepped => anchored.step stepped) (make_anchored config)

/-- In every reachable state: what `fileds_` or the kernel refers to is a live
connection with an owner, of that loop and with that descriptor; so is everything
left in `activeFileds_`, which `handleEvent` therefore finds alive; and a registered
descriptor is registered with one loop for one connection, the only live one that
has the descriptor. -/
theorem registered_never_orphaned (config : Config) {sys : System threads}
    (reached : (interleaving config).Reachable make sys) :
    (∀ loop fd c, (sys.loops loop).epoller.Refers fd c → sys.Owned c ∧
      ∃ member, sys.conns c = some member ∧ member.loop = loop ∧
        member.connection.filed.fd = fd) ∧
    (∀ loop active, (sys.loops loop).phase = .handling active → ∀ entry ∈ active,
      sys.Owned entry.1 ∧ ∃ member, sys.conns entry.1 = some member ∧ member.loop = loop) ∧
    (∀ loop fd c, (sys.loops loop).epoller.Refers fd c →
      (∀ other d, (sys.loops other).epoller.Refers fd d → other = loop ∧ d = c) ∧
      ∀ d member, sys.conns d = some member → member.connection.filed.fd = fd → d = c) := by
  have anchored := reachable_anchored reached
  have registered {loop : LoopId threads} {fd : Nat} {c : ConnId}
      (refers : (sys.loops loop).epoller.Refers fd c) : ∃ member, sys.conns c = some member ∧
        member.loop = loop ∧ member.connection.filed.fd = fd ∧
        member.connection.filed.index ≠ .kNew := by
    obtain ⟨member, found, here, descriptor⟩ := anchored.wired.referred refers
    subst here
    rw [← descriptor] at refers
    exact ⟨member, found, rfl, descriptor, ((anchored.wired.registered found).refers refers).2⟩
  refine ⟨?_, ?_, ?_⟩
  · intro loop fd c refers
    obtain ⟨member, found, here, own, index⟩ := registered refers
    exact ⟨(anchored.stage found).owned index, member, found, here, own⟩
  · intro loop active phase entry reported
    obtain ⟨member, found, here, index⟩ := anchored.reported phase entry reported
    exact ⟨(anchored.stage found).owned index, member, found, here⟩
  · intro loop fd c refers
    obtain ⟨member, found, here, own, _⟩ := registered refers
    refine ⟨?_, ?_⟩
    · intro other d refersOther
      obtain ⟨another, foundOther, hereOther, ownOther, _⟩ := registered refersOther
      have same := anchored.wired.distinct foundOther found (ownOther.trans own.symm)
      subst same
      rw [found] at foundOther
      cases foundOther
      exact ⟨hereOther.symm.trans here, rfl⟩
    · intro d another foundOther ownOther
      exact anchored.wired.distinct foundOther found (ownOther.trans own.symm)

/-- The connection of descriptor 7 hangs up and is destroyed, and the next connection
gets the same descriptor and loop. -/
def descriptorReuse : List (Action 1) :=
  let turn (loop : LoopId 1) : Action 1 := .perform loop (.failed 0) ⟨-1, 0⟩
  [.poll none [], .accept 7 false false,
    .poll (some 0) [], .swap (some 0), .runNext (some 0), turn (some 0), turn (some 0),
    .finish (some 0),
    .poll (some 0) [(7, EPOLLHUP)], .handleEvent (some 0), turn (some 0), turn (some 0),
    turn (some 0),
    .swap none, .runNext none, turn none, .finish none,
    .swap (some 0), .runNext (some 0), turn (some 0), turn (some 0), .finish (some 0),
    .destroy 1,
    .poll none [], .accept 7 false false,
    .poll (some 0) [], .swap (some 0), .runNext (some 0), turn (some 0)]

theorem registered_never_orphaned_reuse :
    ∃ sys, (interleaving ⟨[], ⟨fun _ => 0, 0⟩⟩).exec make descriptorReuse = some sys ∧
      (sys.loops (some 0)).epoller.Refers 7 2 ∧ sys.Owned 2 := by
  refine ⟨_, rfl, .inl rfl, ?_⟩
  exact ((registered_never_orphaned ⟨[], ⟨fun _ => 0, 0⟩⟩
    ⟨descriptorReuse, rfl⟩).1 (some 0) 7 2
    (.inl rfl)).1

end Lucky.Server.System
