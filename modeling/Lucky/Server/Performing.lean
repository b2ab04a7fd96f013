import Lucky.Server.Turns

/-!
# Running a piece of code

The turns of each kind of work: a callback, `connectEstablished`, and the chain
`closeCallback_`, `removeConnectionInLoop`, `connectDestroyed`, `filed_->remove()`
that passes a closed connection from one owner to the next.
-/

namespace Lucky.Server.System

open Systems

variable {threads : Nat} {config : Config} {sys next : System threads} {loop : LoopId threads}
  {c : ConnId} {member : Member threads} {done : Work} {rest : List Work}

theorem Anchored.found (anchored : Anchored config sys)
    (head : (sys.loops loop).agenda = done :: rest) (about : done.subject = some c) :
    ∃ member, sys.conns c = some member := by
  have planned := (LoopState.mem_tasks.mp (mem_tasks_head head about)).1
  exact anchored.live (owned_of_works planned (Work.mem_conns_of_subject about))

/-- The removal of a closed connection is passed to another loop. -/
theorem Anchored.pass (anchored : Anchored config sys) (passed : Work)
    (found : sys.conns c = some member)
    (head : (sys.loops loop).agenda = done :: rest) (about : done.subject = some c)
    (closes : done.closes = true) (aboutPassed : passed.subject = some c)
    (closesPassed : passed.closes = true) {target : LoopId threads}
    (here : passed.isLocal = true → member.loop = target)
    {connections : List (List Char × ConnId)}
    (old : ∀ entry ∈ connections, entry ∈ sys.connections)
    (kept : ∀ entry ∈ sys.connections, entry.2 ≠ c → entry ∈ connections) :
    Anchored config
      ({ sys.setAgenda loop rest with connections := connections }.queueinLoop target
        passed) := by
  have stage := anchored.stage found
  have tells := stage.tells (mem_tasks_head head about)
  have closed := tells.closed closes
  have tasks (other : LoopId threads) := tasks_queueinLoop
    { sys.setAgenda loop rest with connections := connections } target passed other c
  refine anchored.turn found ?_ ?_ ?_ old rfl ?_ found
    (stage.close ?_ closed.state closed.events (.inr ⟨target, passed, ?_, closesPassed⟩) ?_)
    fun _ => id
  · intro d apart
    have left : Frame d sys (sys.setAgenda loop rest) :=
      .setAgenda [] head (Work.subject_ne about apart) nofun
    have unlisted : Frame d (sys.setAgenda loop rest)
        { sys.setAgenda loop rest with connections := connections } :=
      .connections old fun entry listed own => kept entry listed (own ▸ apart)
    refine (left.trans unlisted).trans (.queueinLoop ?_ target)
    rw [Work.conns_of_subject aboutPassed]
    simpa using apart
  · exact (anchored.wired.setAgenda loop rest).congr rfl fun other =>
      modifyLoop_view LoopState.epoller
        { sys.setAgenda loop rest with connections := connections } rfl other
  · refine settled_queueinLoop (fun other => ?_) passed
    exact settled_setAgenda [] anchored.settled head nofun other
  · refine anchored.reported_of_phase fun other => ?_
    rw [queueinLoop_phase]
    exact setAgenda_phase sys loop other rest
  · simp [closed.state]
  · rw [tasks, if_pos rfl]
    exact List.mem_append_right _ (by simp [aboutPassed])
  · intro other work task
    rw [tasks, List.mem_append] at task
    rcases task with task | task
    · left
      rw [tasks_of_head head]
      exact List.mem_append_right _ task
    · split at task
      next same =>
        have equal := List.mem_singleton.mp (List.mem_filter.mp task).1
        subst equal
        exact .inr ⟨closesPassed, fun isLocal => (here isLocal).trans same.symm⟩
      next => exact absurd task List.not_mem_nil

theorem Anchored.establish (anchored : Anchored config sys) (found : sys.conns c = some member)
    (head : (sys.loops loop).agenda = .connectEstablished c :: rest)
    {session : Session ConnId} (returned : (sys.session c member).establish = .ok session) :
    Anchored config (sys.turned c member session loop [.userCode [c]] rest) := by
  obtain ⟨within, _, state, filed⟩ := Session.establish_law returned
  have stage := anchored.stage found
  obtain ⟨connecting, here⟩ := (stage.tells (mem_tasks_head head rfl)).connecting rfl
  have monitored : session.connection.filed.Monitored := by
    rw [filed]
    exact .enableReading connecting.new connecting.events
  -- `connectEstablished` was the only task
  have untouched (other : LoopId threads) :
      ((sys.turned c member session loop [.userCode [c]] rest).loops other).tasks c = [] := by
    have before := tasks_of_head head other c
    rw [connecting.tasks, here] at before
    rw [tasks_turned]
    split
    next same => simpa [same, Work.subject] using before
    next apart => simpa [apart] using before.symm
  refine anchored.turned found head rfl within ?_ ?_ ?_ ?_
  · simp [Work.conns]
  · simp [Work.removes]
  · refine .inr (.inl ⟨.inl state, monitored, connecting.listed, ?_⟩)
    intro other work task
    rw [untouched] at task
    exact absurd task List.not_mem_nil
  · exact fun _ registered => absurd connecting.new registered

/-- Whatever piece of code a thread runs next, the system stays anchored. -/
theorem Anchored.perform (anchored : Anchored config sys)
    (head : (sys.loops loop).agenda = done :: rest) {readv : ReadvResult} {write : WriteResult}
    (performed : sys.perform loop readv write rest done = some next) :
    Anchored config next := by
  -- a piece of code that only replaces itself on the agenda
  have stays {kind : Filed.Callback} {c : ConnId} (callback : done = .callback kind c)
      (new : List Work) (follows : ∀ work ∈ new, ∃ kind, work = .callback kind c) :
      Anchored config (sys.setAgenda loop (new ++ rest)) := by
    obtain ⟨member, found⟩ := anchored.found head (c := c) (by rw [callback]; rfl)
    rw [← turned_self found]
    refine anchored.quiet new found head callback (.refl _) ?_
      (fun work fresh _ => follows work fresh) ?_
    · intro work fresh
      obtain ⟨kind, rfl⟩ := follows work fresh
      rfl
    · intro work fresh
      obtain ⟨kind, rfl⟩ := follows work fresh
      rfl
  cases done with
  | userCode held =>
      cases performed
      exact anchored.spared (fun d => .setAgenda [] head (by simp [Work.subject]) (by simp))
        (anchored.wired.setAgenda loop rest)
        (settled_setAgenda [] anchored.settled head (by simp)) rfl rfl
        (anchored.reported_of_phase fun other => setAgenda_phase sys loop other rest)
  | callback kind c =>
      cases kind with
      | error =>
          cases performed
          exact stays rfl [] (by simp)
      | close =>
          obtain ⟨member, found, closing⟩ := Option.bind_eq_some_iff.mp performed
          obtain ⟨session, returned, rfl⟩ := Option.map_eq_some_iff.mp closing
          rcases Session.beginClose_law (toOption_eq_some.mp returned) with
            ⟨within, _, connection⟩
          have tells := (anchored.stage found).tells (mem_tasks_head head rfl)
          refine anchored.close [.userCode [c], .closeCallback c] found head rfl (by simp)
            within ?_ ?_ ?_ ?_ ?_ (.inr ⟨.closeCallback c, ?_, rfl, rfl⟩) ?_
          · rw [connection]
          · rw [connection]
            rfl
          · simp [Work.conns]
          · simp [Work.subject, Work.closes, Work.isLocal]
          · simp [Work.removes]
          · simp
          · intro _ _
            rw [connection]
            exact Filed.updatedIndex_ne _
      | read =>
          obtain ⟨member, found, reading⟩ := Option.bind_eq_some_iff.mp performed
          split at reading
          next =>
            cases reading
            exact stays rfl [.callback .close c] (by simp)
          next received =>
            obtain ⟨session, returned, rfl⟩ := Option.map_eq_some_iff.mp reading
            have quiet := (Session.handleRead_law (toOption_eq_some.mp returned)).1 received
            have turned (new : List Work) (told : ∀ work ∈ new, work = .userCode [c]) :
                Anchored config (sys.turned c member session loop new rest) := by
              refine anchored.quiet new found head rfl quiet ?_ ?_ ?_ <;>
                · intro work fresh
                  rw [told work fresh]
                  simp [Work.conns, Work.subject, Work.removes]
            split
            · exact turned [.userCode [c]] (by simp)
            · exact turned [] (by simp)
      | write =>
          obtain ⟨member, found, writing⟩ := Option.bind_eq_some_iff.mp performed
          obtain ⟨session, returned, rfl⟩ := Option.map_eq_some_iff.mp writing
          have quiet := Session.Quiet.handleWrite (toOption_eq_some.mp returned)
          exact anchored.quiet [] found head rfl quiet (by simp) (by simp) (by simp)
  | closeCallback c =>
      obtain ⟨member, found⟩ := anchored.found head rfl
      have closed := ((anchored.stage found).tells (mem_tasks_head head rfl)).closed rfl
      cases performed
      rw [removeConnection]
      split
      · rw [← List.singleton_append, ← turned_self found]
        refine anchored.close [_] found head rfl (by simp) (.refl _) closed.state closed.events
          ?_ ?_ ?_
          (.inr ⟨_, List.mem_singleton_self _, rfl, rfl⟩) fun _ => id
        · simp [Work.conns]
        · simp [Work.closes, Work.isLocal]
        · simp [Work.removes]
      · exact anchored.pass (.removeConnectionInLoop c) found head rfl rfl rfl rfl
          (by simp [Work.isLocal])
          (fun _ listed => listed) fun _ listed _ => listed
  | removeConnectionInLoop c =>
      obtain ⟨member, found, rfl⟩ := Option.map_eq_some_iff.mp performed
      refine anchored.pass _ found head rfl rfl rfl rfl (fun _ => rfl) ?_ ?_
      · exact fun entry listed => (List.mem_filter.mp listed).1
      · intro entry listed apart
        refine List.mem_filter.mpr ⟨listed, ?_⟩
        -- names are different because the numbers in them are
        have other : entry.1 ≠ member.name := by
          rw [anchored.entries entry listed, (anchored.named found).1]
          obtain ⟨_, foundEntry⟩ := anchored.live (c := entry.2) (.inl ⟨entry, listed, rfl⟩)
          have small := Nat.lt_trans (anchored.named foundEntry).2 anchored.bound
          have smaller := Nat.lt_trans (anchored.named found).2 anchored.bound
          exact fun same => apart (connName_injective _ _ small smaller same)
        simpa using other
  | connectEstablished c =>
      obtain ⟨member, found, establishing⟩ := Option.bind_eq_some_iff.mp performed
      obtain ⟨session, returned, rfl⟩ := Option.map_eq_some_iff.mp establishing
      exact anchored.establish found head (toOption_eq_some.mp returned)
  | connectDestroyed c =>
      obtain ⟨member, found, destroying⟩ := Option.bind_eq_some_iff.mp performed
      have tells := (anchored.stage found).tells (mem_tasks_head head rfl)
      have closed := tells.closed rfl
      rw [if_neg (by simp [closed.state])] at destroying
      cases destroying
      rw [← List.singleton_append, ← turned_self found]
      refine anchored.close [_] found head rfl (by simp) (.refl _) closed.state closed.events
        ?_ ?_ (by simp [Work.removes])
        (.inr ⟨_, List.mem_singleton_self _, rfl, rfl⟩) fun _ => id
      · simp [Work.conns]
      · simp [Work.closes, tells.here rfl]
  | removeFiled c =>
      obtain ⟨member, found, removing⟩ := Option.bind_eq_some_iff.mp performed
      obtain ⟨session, returned, rfl⟩ := Option.map_eq_some_iff.mp removing
      obtain ⟨within, _, connection⟩ := Session.onFiled_remove (toOption_eq_some.mp returned)
      have tells := (anchored.stage found).tells (mem_tasks_head head rfl)
      have closed := tells.closed rfl
      refine anchored.close [] found head rfl (by simp) within ?_ ?_ (by simp) (by simp) (by simp)
        (.inl ?_) ?_
      · rw [connection]
        exact closed.state
      · rw [connection]
        exact closed.events
      · rw [connection]
      · intro handling
        rw [tells.here rfl] at handling
        have settled := (anchored.settled loop handling).2 (.removeFiled c)
        rw [head] at settled
        exact absurd (settled List.mem_cons_self) (by simp [Work.removes])

end Lucky.Server.System
