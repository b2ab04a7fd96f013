import Lucky.Server.Anchors

/-!
# The turns of a loop's thread

A turn runs the first piece of the agenda and puts what is left of it before the
rest.  Each function of a connection is one turn of its own loop; the functions
of the `Server` pass the connection on between the main loop and the others.
-/

namespace Lucky.Server

open Systems

namespace System

variable {threads : Nat} {config : Config} {sys : System threads} {loop : LoopId threads}
  {c d : ConnId} {member : Member threads} {done : Work} {new rest : List Work}

/-! ## Tasks and phases after a turn -/

theorem tasks_setAgenda (sys : System threads) (loop : LoopId threads) (new rest : List Work)
    (other : LoopId threads) (d : ConnId) :
    ((sys.setAgenda loop (new ++ rest)).loops other).tasks d =
      (if other = loop then new.filter (·.subject = some d) else []) ++
        ((sys.setAgenda loop rest).loops other).tasks d := by
  simp only [setAgenda, modifyLoop, Function.update_apply]
  split <;> simp [LoopState.tasks, LoopState.works]

theorem setAgenda_self {agenda : List Work} (same : (sys.loops loop).agenda = agenda) :
    sys.setAgenda loop agenda = sys := by
  subst same
  simp [setAgenda, modifyLoop]

/-- The tasks before a turn: what the turn does, and what it leaves. -/
theorem tasks_of_head (head : (sys.loops loop).agenda = done :: rest) (other : LoopId threads)
    (d : ConnId) :
    (sys.loops other).tasks d =
      (if other = loop then [done].filter (·.subject = some d) else []) ++
        ((sys.setAgenda loop rest).loops other).tasks d := by
  rw [← tasks_setAgenda sys loop [done] rest, List.singleton_append, setAgenda_self head]

theorem tasks_commit (sys : System threads) (c : ConnId) (member : Member threads)
    (session : Session ConnId) (other : LoopId threads) (d : ConnId) :
    ((sys.commit c member session).loops other).tasks d = (sys.loops other).tasks d := by
  have nothing : (queuedFunctors c session.calls).filter
      (fun work => decide (work.subject = some d)) = [] := by
    rw [List.filter_eq_nil_iff]
    intro work queued
    rw [mem_queuedFunctors queued]
    simp [Work.subject]
  simp only [commit, modifyLoop, Function.update_apply]
  split
  next here =>
    subst here
    simp [LoopState.tasks, LoopState.works, TaskQueue.foldl_push, TaskQueue.contents,
      TaskQueue.remaining, nothing]
  next => rfl

theorem tasks_queueinLoop (sys : System threads) (loop : LoopId threads) (work : Work)
    (other : LoopId threads) (d : ConnId) :
    ((sys.queueinLoop loop work).loops other).tasks d =
      (sys.loops other).tasks d ++
        if other = loop then [work].filter (·.subject = some d) else [] := by
  simp only [queueinLoop, modifyLoop, Function.update_apply]
  split
  next here =>
    subst here
    simp [LoopState.tasks, LoopState.works]
  next => simp

@[simp]
theorem setAgenda_phase (sys : System threads) (loop other : LoopId threads)
    (agenda : List Work) :
    ((sys.setAgenda loop agenda).loops other).phase = (sys.loops other).phase :=
  modifyLoop_view LoopState.phase sys rfl other

@[simp]
theorem queueinLoop_phase (sys : System threads) (loop other : LoopId threads) (work : Work) :
    ((sys.queueinLoop loop work).loops other).phase = (sys.loops other).phase :=
  modifyLoop_view LoopState.phase sys rfl other

@[simp]
theorem commit_phase (sys : System threads) (c : ConnId) (member : Member threads)
    (session : Session ConnId) (other : LoopId threads) :
    ((sys.commit c member session).loops other).phase = (sys.loops other).phase := by
  dsimp only [commit]
  apply modifyLoop_view LoopState.phase
  rfl

@[simp]
theorem commit_agenda (sys : System threads) (c : ConnId) (member : Member threads)
    (session : Session ConnId) (other : LoopId threads) :
    ((sys.commit c member session).loops other).agenda = (sys.loops other).agenda := by
  dsimp only [commit]
  apply modifyLoop_view LoopState.agenda
  rfl

theorem commit_conns (sys : System threads) (c : ConnId) (member : Member threads)
    (session : Session ConnId) :
    (sys.commit c member session).conns c =
      some { member with connection := session.connection } :=
  Function.update_self ..

theorem commit_self (found : sys.conns c = some member) :
    sys.commit c member (sys.session c member) = sys := by
  simp [commit, session, queuedFunctors, modifyLoop, ← found]

theorem Anchored.reported_of_phase {next : System threads} (anchored : Anchored config sys)
    (phase : ∀ loop, (next.loops loop).phase = (sys.loops loop).phase) (loop : LoopId threads)
    (active : List (ConnId × Mask)) (handling : (next.loops loop).phase = .handling active) :
    ∀ entry ∈ active, sys.Reported loop entry.1 :=
  anchored.reported ((phase loop).symm.trans handling)

/-! ## Settled loops -/

theorem settled_modifyLoop {change : LoopState → LoopState}
    (settled : ∀ other, (sys.loops other).Settled)
    (changed : (change (sys.loops loop)).Settled) (other : LoopId threads) :
    ((sys.modifyLoop loop change).loops other).Settled := by
  simp only [modifyLoop, Function.update_apply]
  split
  · exact changed
  · exact settled other

theorem settled_queueinLoop (settled : ∀ other, (sys.loops other).Settled) (work : Work)
    (other : LoopId threads) : ((sys.queueinLoop loop work).loops other).Settled :=
  settled_modifyLoop settled (settled loop) other

theorem settled_commit (settled : ∀ other, (sys.loops other).Settled)
    (session : Session ConnId) (other : LoopId threads) :
    ((sys.commit c member session).loops other).Settled := by
  change ((sys.modifyLoop member.loop fun state => { state with
    epoller := session.epoller
    queue := (queuedFunctors c session.calls).foldl .push state.queue }).loops other).Settled
  refine settled_modifyLoop settled ?_ other
  intro phase
  obtain ⟨finished, agenda⟩ := settled member.loop phase
  refine ⟨?_, agenda⟩
  rw [TaskQueue.foldl_push]
  exact finished

/-- Only a piece of `connectDestroyed` is followed by one. -/
theorem settled_setAgenda (new : List Work) (settled : ∀ other, (sys.loops other).Settled)
    (head : (sys.loops loop).agenda = done :: rest)
    (follows : done.removes = false → ∀ work ∈ new, work.removes = false)
    (other : LoopId threads) : ((sys.setAgenda loop (new ++ rest)).loops other).Settled := by
  refine settled_modifyLoop settled ?_ other
  intro phase
  obtain ⟨finished, agenda⟩ := settled loop phase
  rw [head] at agenda
  refine ⟨finished, ?_⟩
  intro work planned
  rcases List.mem_append.mp planned with fresh | old
  · exact follows (agenda done List.mem_cons_self) work fresh
  · exact agenda work (List.mem_cons_of_mem done old)

/-! ## Turns about one connection -/

theorem commit_setAgenda (sys : System threads) (c : ConnId) (member : Member threads)
    (session : Session ConnId) (loop : LoopId threads) (agenda : List Work) :
    (sys.commit c member session).setAgenda loop agenda =
      (sys.setAgenda loop agenda).commit c member session := by
  simp only [commit, setAgenda, modifyLoop]
  congr 1
  funext other
  simp only [Function.update_apply]
  by_cases own : member.loop = loop
  · subst own
    by_cases here : other = member.loop
    · simp [here]
    · simp [here]
  · by_cases here : other = loop
    · subst here
      simp [Ne.symm own]
    · simp [here, own]

/-- The system after a turn about `c`: the function's effect, and `new` before the rest. -/
abbrev turned (sys : System threads) (c : ConnId) (member : Member threads)
    (session : Session ConnId) (loop : LoopId threads) (new rest : List Work) :
    System threads :=
  (sys.commit c member session).setAgenda loop (new ++ rest)

theorem turned_self (found : sys.conns c = some member) (loop : LoopId threads)
    (new rest : List Work) :
    sys.turned c member (sys.session c member) loop new rest =
      sys.setAgenda loop (new ++ rest) := by
  rw [turned, commit_self found]

theorem tasks_turned (sys : System threads) (c : ConnId) (member : Member threads)
    (session : Session ConnId) (loop : LoopId threads) (new rest : List Work)
    (other : LoopId threads) (d : ConnId) :
    ((sys.turned c member session loop new rest).loops other).tasks d =
      (if other = loop then new.filter (·.subject = some d) else []) ++
        ((sys.setAgenda loop rest).loops other).tasks d := by
  rw [turned, commit_setAgenda, tasks_commit, tasks_setAgenda]

theorem mem_tasks_of_turned {session : Session ConnId} {other : LoopId threads} {work : Work}
    (head : (sys.loops loop).agenda = done :: rest)
    (task : work ∈ ((sys.turned c member session loop new rest).loops other).tasks d) :
    work ∈ (sys.loops other).tasks d ∨ other = loop ∧ work ∈ new := by
  rw [tasks_turned, List.mem_append] at task
  rcases task with fresh | old
  · split at fresh
    next here => exact .inr ⟨here, (List.mem_filter.mp fresh).1⟩
    next => exact absurd fresh List.not_mem_nil
  · left
    rw [tasks_of_head head]
    exact List.mem_append_right _ old

theorem mem_tasks_turned {session : Session ConnId} {other : LoopId threads} {work : Work}
    (head : (sys.loops loop).agenda = done :: rest)
    (task : work ∈ (sys.loops other).tasks d) (apart : work ≠ done) :
    work ∈ ((sys.turned c member session loop new rest).loops other).tasks d := by
  rw [tasks_of_head head, List.mem_append] at task
  rw [tasks_turned]
  refine List.mem_append_right _ (task.resolve_left ?_)
  intro first
  split at first
  · exact apart (List.mem_singleton.mp (List.mem_filter.mp first).1)
  · exact absurd first List.not_mem_nil

theorem mem_tasks_new {session : Session ConnId} {work : Work} (fresh : work ∈ new)
    (about : work.subject = some d) :
    work ∈ ((sys.turned c member session loop new rest).loops loop).tasks d := by
  rw [tasks_turned, if_pos rfl]
  exact List.mem_append_left _ (List.mem_filter.mpr ⟨fresh, by simpa using about⟩)

theorem mem_tasks_head (head : (sys.loops loop).agenda = done :: rest)
    (about : done.subject = some d) : done ∈ (sys.loops loop).tasks d := by
  rw [tasks_of_head head, if_pos rfl]
  exact List.mem_append_left _ (by simp [about])

theorem Anchored.turned (anchored : Anchored config sys) (found : sys.conns c = some member)
    (head : (sys.loops loop).agenda = done :: rest) (about : done.subject = some c)
    {session : Session ConnId} (within : Session.Local (sys.session c member) session)
    (owners : ∀ work ∈ new, work.conns = [c])
    (follows : done.removes = false → ∀ work ∈ new, work.removes = false)
    (stage : (sys.turned c member session loop new rest).Stage c
      { member with connection := session.connection })
    (kept : (sys.loops member.loop).phase ≠ .running →
      member.connection.filed.index ≠ .kNew → session.connection.filed.index ≠ .kNew) :
    Anchored config (sys.turned c member session loop new rest) := by
  have headAfter : ((sys.commit c member session).loops loop).agenda = done :: rest := by
    rw [commit_agenda, head]
  refine anchored.turn found ?_ ((anchored.wired.commit found within).setAgenda loop _)
    (settled_setAgenda new (settled_commit anchored.settled session) headAfter follows)
    (fun _ listed => listed) rfl (anchored.reported_of_phase fun other => by simp)
    (commit_conns ..) stage (by simpa using kept)
  intro d apart
  refine (Frame.commit apart member session).trans
    (.setAgenda new headAfter (Work.subject_ne about apart) ?_)
  intro work fresh
  rw [owners work fresh]
  simpa using apart

theorem Anchored.quiet (anchored : Anchored config sys) (new : List Work)
    (found : sys.conns c = some member)
    (head : (sys.loops loop).agenda = done :: rest) {kind : Filed.Callback}
    (callback : done = .callback kind c) {session : Session ConnId}
    (quiet : Session.Quiet (sys.session c member) session)
    (owners : ∀ work ∈ new, work.conns = [c])
    (follows : ∀ work ∈ new, work.subject = some c → ∃ kind, work = .callback kind c)
    (settles : ∀ work ∈ new, work.removes = false) :
    Anchored config (sys.turned c member session loop new rest) := by
  subst callback
  have stage := anchored.stage found
  have tells := stage.tells (mem_tasks_head head rfl)
  have result := stage.quiet (sys.turned c member session loop new rest)
    (tells.established (by simp)) quiet id
    (fun other work task => (mem_tasks_of_turned head task).imp_right fun ⟨here, fresh⟩ =>
      ⟨here ▸ tells.here rfl, follows work fresh (LoopState.mem_tasks.mp task).2⟩)
    (fun other work task closes => mem_tasks_turned head task (by rintro rfl; cases closes))
  exact anchored.turned found head rfl quiet.toLocal owners (fun _ => settles) result.1
    fun _ => result.2

/-- A turn of the closing and removal of a connection. -/
theorem Anchored.close (anchored : Anchored config sys) (new : List Work)
    (found : sys.conns c = some member)
    (head : (sys.loops loop).agenda = done :: rest) (about : done.subject = some c)
    (established : done ≠ .connectEstablished c) {session : Session ConnId}
    (within : Session.Local (sys.session c member) session)
    (state : session.connection.state = .kDisconnected)
    (events : session.connection.filed.events = Filed.kNoneEvent)
    (owners : ∀ work ∈ new, work.conns = [c])
    (follows : ∀ work ∈ new, work.subject = some c →
      work.closes = true ∧ (work.isLocal = true → member.loop = loop))
    (settles : done.removes = false → ∀ work ∈ new, work.removes = false)
    (removed : session.connection.filed.index = .kNew ∨
      ∃ work ∈ new, work.subject = some c ∧ work.closes = true)
    (kept : (sys.loops member.loop).phase ≠ .running →
      member.connection.filed.index ≠ .kNew → session.connection.filed.index ≠ .kNew) :
    Anchored config (sys.turned c member session loop new rest) := by
  have stage := anchored.stage found
  have tells := stage.tells (mem_tasks_head head about)
  refine anchored.turned found head about within owners settles ?_ kept
  refine stage.close (tells.established established) state events ?_ ?_
  · rcases removed with unregistered | ⟨work, fresh, aboutWork, closes⟩
    · exact .inl unregistered
    · exact .inr ⟨loop, work, mem_tasks_new fresh aboutWork, closes⟩
  · intro other work task
    rcases mem_tasks_of_turned head task with old | ⟨here, fresh⟩
    · exact .inl old
    · obtain ⟨closes, isHere⟩ := follows work fresh (LoopState.mem_tasks.mp task).2
      exact .inr ⟨closes, fun isLocal => (isHere isLocal).trans here.symm⟩

end System

end Lucky.Server
