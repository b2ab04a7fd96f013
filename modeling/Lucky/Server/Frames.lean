import Lucky.Server.Wiring

/-!
# What a step leaves to the other connections

The tasks of a connection are the pieces of code that are functions of it.  A
step about one connection leaves every other one its tasks, its entry of
`connections_` and its member, and hands out no pointer to it.
-/

namespace Lucky.Server

open Systems

/-- The connection a piece of code is a function of. -/
def Work.subject : Work → Option ConnId
  | .callback _ conn | .closeCallback conn | .removeConnectionInLoop conn
  | .connectEstablished conn | .connectDestroyed conn | .removeFiled conn => some conn
  | .userCode _ => none

theorem Work.mem_conns_of_subject {work : Work} {c : ConnId} (about : work.subject = some c) :
    c ∈ work.conns := by
  cases work <;> cases about <;> simp [conns]

theorem Work.subject_ne {work : Work} {c d : ConnId} (about : work.subject = some c)
    (apart : d ≠ c) : work.subject ≠ some d := by
  rw [about]
  simpa using apart.symm

namespace LoopState

/-- The functions of the connection the loop will run. -/
def tasks (loop : LoopState) (c : ConnId) : List Work :=
  loop.works.filter (·.subject = some c)

theorem mem_tasks {loop : LoopState} {c : ConnId} {work : Work} :
    work ∈ loop.tasks c ↔ work ∈ loop.works ∧ work.subject = some c := by
  simp [tasks]

theorem mem_held_of_works {loop : LoopState} {work : Work} (member : work ∈ loop.works) :
    work ∈ loop.held := by
  simp only [works, held, TaskQueue.contents, List.mem_append] at member ⊢
  rcases member with agenda | remaining | pending
  · exact .inl (.inl agenda)
  · exact .inl (.inr (List.mem_of_mem_drop remaining))
  · exact .inr pending

/-- The loop goes on, and the connection keeps its tasks and gets no new owner. -/
structure Spares (d : ConnId) (before after : LoopState) : Prop where
  tasks : after.tasks d = before.tasks d
  works : ∀ work ∈ after.works, d ∈ work.conns → work ∈ before.works
  held : ∀ work ∈ after.held, d ∈ work.conns → work ∈ before.held

variable {d : ConnId} {loop first second third : LoopState}

theorem Spares.refl (d : ConnId) (loop : LoopState) : Spares d loop loop :=
  ⟨rfl, fun _ member _ => member, fun _ member _ => member⟩

theorem Spares.trans (left : Spares d first second) (right : Spares d second third) :
    Spares d first third :=
  ⟨right.tasks.trans left.tasks,
    fun work member about => left.works work (right.works work member about) about,
    fun work member about => left.held work (right.held work member about) about⟩

theorem Spares.of_works (works : second.works = first.works)
    (held : ∀ work ∈ second.held, work ∈ first.held) : Spares d first second :=
  ⟨by rw [LoopState.tasks, LoopState.tasks, works], fun _ member _ => works ▸ member,
    fun work member _ => held work member⟩

theorem Spares.queue (functors : List Work) (others : ∀ work ∈ functors, d ∉ work.conns)
    (epoller : Epoller ConnId) :
    Spares d loop { loop with
      epoller := epoller
      queue := functors.foldl .push loop.queue } := by
  have nothing : functors.filter (fun work => decide (work.subject = some d)) = [] := by
    rw [List.filter_eq_nil_iff]
    intro work member
    simpa using fun about => others work member (Work.mem_conns_of_subject about)
  have works : LoopState.works { loop with
      epoller := epoller
      queue := functors.foldl .push loop.queue } = loop.works ++ functors := by
    simp [LoopState.works, TaskQueue.foldl_push, TaskQueue.contents, TaskQueue.remaining]
  refine ⟨?_, ?_, ?_⟩
  · rw [LoopState.tasks, works, List.filter_append, nothing, List.append_nil, LoopState.tasks]
  · intro work member about
    rw [works, List.mem_append] at member
    exact member.resolve_right fun queued => others work queued about
  · intro work member about
    simp only [LoopState.held, TaskQueue.foldl_push, List.mem_append] at member ⊢
    rcases member with old | pending | queued
    · exact .inl old
    · exact .inr pending
    · exact absurd about (others work queued)

theorem Spares.agenda (old new : List Work) {rest : List Work} (head : loop.agenda = old ++ rest)
    (other : ∀ work ∈ old, work.subject ≠ some d)
    (others : ∀ work ∈ new, d ∉ work.conns) :
    Spares d loop { loop with agenda := new ++ rest } := by
  have gone : old.filter (fun work => decide (work.subject = some d)) = [] := by
    rw [List.filter_eq_nil_iff]
    simpa using other
  have nothing : new.filter (fun work => decide (work.subject = some d)) = [] := by
    rw [List.filter_eq_nil_iff]
    intro work member
    simpa using fun about => others work member (Work.mem_conns_of_subject about)
  refine ⟨?_, ?_, ?_⟩
  · simp [LoopState.tasks, LoopState.works, head, gone, nothing]
  · intro work member about
    simp only [LoopState.works, head, List.mem_append] at member ⊢
    rcases member with (fresh | left) | queued
    · exact absurd about (others work fresh)
    · exact .inl (.inr left)
    · exact .inr queued
  · intro work member about
    simp only [LoopState.held, head, List.mem_append] at member ⊢
    rcases member with ((fresh | left) | batch) | queued
    · exact absurd about (others work fresh)
    · exact .inl (.inl (.inr left))
    · exact .inl (.inr batch)
    · exact .inr queued

end LoopState

namespace System

variable {threads : Nat}

/-- An entry of `connections_` owns the connection. -/
def Listed (sys : System threads) (c : ConnId) : Prop :=
  ∃ entry ∈ sys.connections, entry.2 = c

/-- The user has a pointer to the connection, or will be given one. -/
def HandedOut (sys : System threads) (c : ConnId) : Prop :=
  c ∈ sys.user ∨ ∃ loop held, .userCode held ∈ (sys.loops loop).works ∧ c ∈ held

theorem Listed.owned {sys : System threads} {c : ConnId} (listed : sys.Listed c) :
    sys.Owned c :=
  .inl listed

theorem owned_of_works {sys : System threads} {c : ConnId} {loop : LoopId threads}
    {work : Work} (member : work ∈ (sys.loops loop).works) (about : c ∈ work.conns) :
    sys.Owned c :=
  .inr (.inr ⟨loop, work, LoopState.mem_held_of_works member, about⟩)

theorem HandedOut.owned {sys : System threads} {c : ConnId} (handed : sys.HandedOut c) :
    sys.Owned c := by
  rcases handed with kept | ⟨loop, held, member, about⟩
  · exact .inr (.inl kept)
  · exact owned_of_works member about

/-- The step is about other connections. -/
structure Frame (d : ConnId) (sys next : System threads) : Prop where
  member : next.conns d = sys.conns d
  loops : ∀ loop, (sys.loops loop).Spares d (next.loops loop)
  listed : next.Listed d ↔ sys.Listed d
  user : d ∈ next.user → sys.HandedOut d

variable {d : ConnId} {sys middle next : System threads}

theorem Frame.handedOut (frame : Frame d sys next) (handed : next.HandedOut d) :
    sys.HandedOut d := by
  rcases handed with kept | ⟨loop, held, member, about⟩
  · exact frame.user kept
  · exact .inr ⟨loop, held, (frame.loops loop).works _ member about, about⟩

theorem Frame.owned (frame : Frame d sys next) (owned : next.Owned d) : sys.Owned d := by
  rcases owned with listed | kept | ⟨loop, work, member, about⟩
  · exact (frame.listed.mp listed).owned
  · exact (frame.user kept).owned
  · exact .inr (.inr ⟨loop, work, (frame.loops loop).held work member about, about⟩)

theorem Frame.trans (first : Frame d sys middle) (second : Frame d middle next) :
    Frame d sys next :=
  ⟨second.member.trans first.member,
    fun loop => (first.loops loop).trans (second.loops loop),
    second.listed.trans first.listed,
    fun kept => first.handedOut (second.user kept)⟩

theorem Frame.modifyLoop {loop : LoopId threads} {change : LoopState → LoopState}
    (spares : (sys.loops loop).Spares d (change (sys.loops loop))) :
    Frame d sys (sys.modifyLoop loop change) := by
  refine ⟨rfl, ?_, .rfl, fun kept => .inl kept⟩
  intro other
  rw [System.modifyLoop]
  by_cases here : other = loop
  · subst here
    simpa using spares
  · simpa [here] using LoopState.Spares.refl d (sys.loops other)

theorem Frame.queueinLoop {work : Work} (other : d ∉ work.conns) (loop : LoopId threads) :
    Frame d sys (sys.queueinLoop loop work) :=
  .modifyLoop (.queue [work] (by simpa using other) _)

theorem Frame.setAgenda (new : List Work) {loop : LoopId threads} {done : Work}
    {rest : List Work} (head : (sys.loops loop).agenda = done :: rest)
    (other : done.subject ≠ some d)
    (others : ∀ work ∈ new, d ∉ work.conns) :
    Frame d sys (sys.setAgenda loop (new ++ rest)) :=
  .modifyLoop (.agenda [done] new head (by simpa using other) others)

theorem Frame.connections {d : ConnId} {connections : List (List Char × ConnId)}
    (old : ∀ entry ∈ connections, entry ∈ sys.connections)
    (kept : ∀ entry ∈ sys.connections, entry.2 = d → entry ∈ connections) :
    Frame d sys { sys with connections := connections } := by
  refine ⟨rfl, fun loop => .refl d _, ⟨?_, ?_⟩, fun kept => .inl kept⟩
  · rintro ⟨entry, listed, about⟩
    exact ⟨entry, old entry listed, about⟩
  · rintro ⟨entry, listed, about⟩
    exact ⟨entry, kept entry listed about, about⟩

theorem mem_queuedFunctors {c : ConnId} {calls : List Call} {work : Work}
    (member : work ∈ queuedFunctors c calls) : work = .userCode [c] := by
  obtain ⟨call, _, queued⟩ := List.mem_filterMap.mp member
  cases call <;> cases queued
  rfl

theorem Frame.commit {c : ConnId} (apart : d ≠ c) (member : Member threads)
    (session : Session ConnId) : Frame d sys (sys.commit c member session) := by
  have spares : (sys.loops member.loop).Spares d { sys.loops member.loop with
      epoller := session.epoller
      queue := (queuedFunctors c session.calls).foldl .push (sys.loops member.loop).queue } := by
    refine .queue _ ?_ _
    intro work queued
    rw [mem_queuedFunctors queued]
    simpa [Work.conns] using apart
  have loops : Frame d sys (sys.modifyLoop member.loop fun state => { state with
      epoller := session.epoller
      queue := (queuedFunctors c session.calls).foldl .push state.queue }) :=
    .modifyLoop spares
  exact ⟨Function.update_of_ne apart _ _, loops.loops, .rfl, loops.user⟩

end System

end Lucky.Server
