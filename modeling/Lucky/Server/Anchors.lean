import Lucky.Server.Stages

/-!
# Every registered connection is anchored

`Anchored` collects what holds of the whole system.  A step leaves a connection
alone, moves it to another stage, or destroys it when nothing owns it.
-/

namespace Lucky.Server

open Systems

/-- Parts of `connectDestroyed`, which runs as a functor only. -/
def Work.removes : Work → Bool
  | .connectDestroyed _ | .removeFiled _ => true
  | .callback _ _ | .userCode _ | .closeCallback _ | .removeConnectionInLoop _
  | .connectEstablished _ => false

theorem Work.conns_of_subject {work : Work} {c : ConnId} (about : work.subject = some c) :
    work.conns = [c] := by
  cases work <;> cases about <;> rfl

/-- Outside `doPendFunc` no batch is left, and nothing is removed from the `Epoller`. -/
def LoopState.Settled (loop : LoopState) : Prop :=
  loop.phase ≠ .running →
    loop.queue.remaining = [] ∧ ∀ work ∈ loop.agenda, work.removes = false

/-- The name `newConnection` gives to a connection. -/
def Config.connName (config : Config) (c : ConnId) : List Char :=
  Lucky.connName config.name config.address.toIpPort c

namespace System

variable {threads : Nat}

/-- The connection is registered with the loop, so that its `Filed` may be in
`activeFileds_`. -/
def Reported (sys : System threads) (loop : LoopId threads) (c : ConnId) : Prop :=
  ∃ member, sys.conns c = some member ∧ member.loop = loop ∧
    member.connection.filed.index ≠ .kNew

structure Anchored (config : Config) (sys : System threads) : Prop where
  wired : Wired sys
  settled : ∀ loop, (sys.loops loop).Settled
  bound : sys.nextConnId < 2 ^ 31
  entries : ∀ entry ∈ sys.connections, entry.1 = config.connName entry.2
  named : ∀ {c member}, sys.conns c = some member →
    member.name = config.connName c ∧ c < sys.nextConnId
  live : ∀ {c}, sys.Owned c → ∃ member, sys.conns c = some member
  stage : ∀ {c member}, sys.conns c = some member → sys.Stage c member
  reported : ∀ {loop active}, (sys.loops loop).phase = .handling active →
    ∀ entry ∈ active, sys.Reported loop entry.1

theorem make_anchored (config : Config) : Anchored config (make : System threads) := by
  refine ⟨make_wired, ?_, by simp [make], ?_, ?_, ?_, ?_, ?_⟩
  · exact fun _ _ => ⟨rfl, nofun⟩
  · exact fun entry member => nomatch member
  · intro c member found
    cases found
  · rintro c (⟨entry, member, _⟩ | kept | ⟨loop, work, member, _⟩)
    · cases member
    · cases kept
    · cases member
  · intro c member found
    cases found
  · intro loop active phase
    cases phase

variable {config : Config} {sys next : System threads}

/-- What a step does to one connection. -/
inductive Outcome (config : Config) (sys next : System threads) (d : ConnId) : Prop where
  | spared (frame : Frame d sys next)
  | placed (member : Member threads) (found : next.conns d = some member)
      (named : member.name = config.connName d ∧ d < next.nextConnId)
      (stage : next.Stage d member)
      (kept : ∀ loop, (next.loops loop).phase ≠ .running → sys.Reported loop d →
        member.loop = loop ∧ member.connection.filed.index ≠ .kNew)
  | destroyed (gone : next.conns d = none) (unowned : ¬ next.Owned d)
      (unreported : ∀ loop, ¬ sys.Reported loop d)

theorem Anchored.advance (anchored : Anchored config sys) (wired : Wired next)
    (settled : ∀ loop, (next.loops loop).Settled) (bound : next.nextConnId < 2 ^ 31)
    (later : sys.nextConnId ≤ next.nextConnId)
    (entries : ∀ entry ∈ next.connections, entry.1 = config.connName entry.2)
    (reported : ∀ loop active, (next.loops loop).phase = .handling active →
      ∀ entry ∈ active, sys.Reported loop entry.1)
    (outcome : ∀ d, Outcome config sys next d) : Anchored config next := by
  refine ⟨wired, settled, bound, entries, ?_, ?_, ?_, ?_⟩
  · intro c member found
    rcases outcome c with frame | ⟨other, foundOther, named, _, _⟩ | ⟨gone, _, _⟩
    · rw [frame.member] at found
      have named := anchored.named found
      exact ⟨named.1, Nat.lt_of_lt_of_le named.2 later⟩
    · rw [foundOther] at found
      cases found
      exact named
    · rw [gone] at found
      cases found
  · intro c owned
    rcases outcome c with frame | ⟨other, foundOther, _, _, _⟩ | ⟨_, unowned, _⟩
    · rw [frame.member]
      exact anchored.live (frame.owned owned)
    · exact ⟨other, foundOther⟩
    · exact absurd owned unowned
  · intro c member found
    rcases outcome c with frame | ⟨other, foundOther, _, stage, _⟩ | ⟨gone, _, _⟩
    · rw [frame.member] at found
      exact frame.stage (anchored.stage found)
    · rw [foundOther] at found
      cases found
      exact stage
    · rw [gone] at found
      cases found
  · intro loop active phase entry member
    have before := reported loop active phase entry member
    have handling : (next.loops loop).phase ≠ .running := by simp [phase]
    rcases outcome entry.1 with frame | ⟨other, foundOther, _, _, kept⟩ | ⟨_, _, unreported⟩
    · rw [Reported, frame.member]
      exact before
    · exact ⟨other, foundOther, kept loop handling before⟩
    · exact absurd before (unreported loop)

/-- Steps after which every connection is as before. -/
theorem Anchored.spared (anchored : Anchored config sys) (frames : ∀ d, Frame d sys next)
    (wired : Wired next) (settled : ∀ loop, (next.loops loop).Settled)
    (connections : next.connections = sys.connections)
    (nextConnId : next.nextConnId = sys.nextConnId)
    (reported : ∀ loop active, (next.loops loop).phase = .handling active →
      ∀ entry ∈ active, sys.Reported loop entry.1) : Anchored config next := by
  refine anchored.advance wired settled ?_ (Nat.le_of_eq nextConnId.symm) ?_ reported
    fun d => .spared (frames d)
  · rw [nextConnId]
    exact anchored.bound
  · rw [connections]
    exact anchored.entries

/-- Steps of one connection. -/
theorem Anchored.turn (anchored : Anchored config sys) {c : ConnId} {member : Member threads}
    {connection : Connection} (found : sys.conns c = some member)
    (frames : ∀ d, d ≠ c → Frame d sys next) (wired : Wired next)
    (settled : ∀ loop, (next.loops loop).Settled)
    (connections : ∀ entry ∈ next.connections, entry ∈ sys.connections)
    (nextConnId : next.nextConnId = sys.nextConnId)
    (reported : ∀ loop active, (next.loops loop).phase = .handling active →
      ∀ entry ∈ active, sys.Reported loop entry.1)
    (after : next.conns c = some { member with connection := connection })
    (stage : next.Stage c { member with connection := connection })
    (kept : (next.loops member.loop).phase ≠ .running →
      member.connection.filed.index ≠ .kNew → connection.filed.index ≠ .kNew) :
    Anchored config next := by
  refine anchored.advance wired settled ?_ (Nat.le_of_eq nextConnId.symm)
    (fun entry listed => anchored.entries entry (connections entry listed)) reported ?_
  · rw [nextConnId]
    exact anchored.bound
  · intro d
    by_cases same : d = c
    · subst same
      refine .placed _ after ?_ stage ?_
      · rw [nextConnId]
        exact ⟨(anchored.named found).1, (anchored.named found).2⟩
      · rintro loop handling ⟨other, foundOther, here, registered⟩
        rw [found] at foundOther
        cases foundOther
        subst here
        exact ⟨rfl, kept handling registered⟩
    · exact .spared (frames d same)

end System

end Lucky.Server
