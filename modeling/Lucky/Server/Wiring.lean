import Lucky.Server.System

/-!
# Connections and the `Epoller`s they are registered with

Every live connection has a descriptor of its own and is registered, as its
`index_` says, with the `Epoller` of its loop; no `Epoller` refers to anything
else.  A function of a connection keeps this, and so do a new connection and the
destruction of one that is registered nowhere.
-/

namespace Lucky

/-- `fileds_` or the kernel holds the pointer for the descriptor. -/
def Epoller.Refers {Ptr : Type} (epoller : Epoller Ptr) (fd : Nat) (ptr : Ptr) : Prop :=
  epoller.fileds fd = some ptr ∨ ∃ event, epoller.interest fd = some event ∧ event.ptr = ptr

theorem Registered.refers {Ptr : Type} {epoller : Epoller Ptr} {ptr other : Ptr} {fd : Nat}
    {index : Index} {mask : Mask} (registered : Registered epoller ptr fd index mask)
    (refers : epoller.Refers fd other) : other = ptr ∧ index ≠ .kNew := by
  rcases refers with mapped | ⟨event, monitored, rfl⟩
  · rw [registered.mapped] at mapped
    split at mapped
    · cases mapped
    · exact ⟨(Option.some.inj mapped).symm, ‹_›⟩
  · rw [registered.monitored] at monitored
    split at monitored
    next added =>
      cases monitored
      exact ⟨rfl, by simp [added]⟩
    next => cases monitored

theorem AgreeOff.refers {Ptr : Type} {before after : Epoller Ptr} {ptr : Ptr} {fd other : Nat}
    (agree : AgreeOff fd before after) (apart : other ≠ fd) (refers : after.Refers other ptr) :
    before.Refers other ptr := by
  rw [Epoller.Refers, agree.fileds other apart, agree.interest other apart] at refers
  exact refers

namespace Server.System

variable {threads : Nat} {sys next : System threads}

structure Wired (sys : System threads) : Prop where
  distinct : ∀ {c d member other}, sys.conns c = some member → sys.conns d = some other →
    member.connection.filed.fd = other.connection.filed.fd → c = d
  registered : ∀ {c member}, sys.conns c = some member →
    Registered (sys.loops member.loop).epoller c member.connection.filed.fd
      member.connection.filed.index member.connection.filed.events
  referred : ∀ {loop fd c}, (sys.loops loop).epoller.Refers fd c →
    ∃ member, sys.conns c = some member ∧ member.loop = loop ∧ member.connection.filed.fd = fd

theorem make_wired : Wired (make : System threads) := by
  refine ⟨?_, ?_, ?_⟩
  · intro c d member other found
    cases found
  · intro c member found
    cases found
  · rintro loop fd c (mapped | ⟨event, monitored, _⟩)
    · cases mapped
    · cases monitored

/-- Steps that touch neither a connection nor an `Epoller`. -/
theorem Wired.congr (wired : Wired sys) (conns : next.conns = sys.conns)
    (epollers : ∀ loop, (next.loops loop).epoller = (sys.loops loop).epoller) :
    Wired next := by
  refine ⟨?_, ?_, ?_⟩
  · rw [conns]
    exact wired.distinct
  · intro c member found
    rw [conns] at found
    rw [epollers]
    exact wired.registered found
  · intro loop fd c refers
    rw [epollers] at refers
    rw [conns]
    exact wired.referred refers

/-- What a change of one loop leaves as it is, it leaves so in all of them. -/
theorem modifyLoop_view {View : Type} (view : LoopState → View) (sys : System threads)
    {loop : LoopId threads} {change : LoopState → LoopState}
    (same : view (change (sys.loops loop)) = view (sys.loops loop)) (other : LoopId threads) :
    view ((sys.modifyLoop loop change).loops other) = view (sys.loops other) := by
  rw [modifyLoop]
  by_cases here : other = loop
  · subst here
    simpa using same
  · simp [here]

theorem Wired.modifyLoop (wired : Wired sys) {loop : LoopId threads}
    {change : LoopState → LoopState}
    (same : (change (sys.loops loop)).epoller = (sys.loops loop).epoller) :
    Wired (sys.modifyLoop loop change) :=
  wired.congr rfl (modifyLoop_view LoopState.epoller sys same)

theorem Wired.setAgenda (wired : Wired sys) (loop : LoopId threads) (agenda : List Work) :
    Wired (sys.setAgenda loop agenda) :=
  wired.modifyLoop rfl

theorem Wired.queueinLoop (wired : Wired sys) (loop : LoopId threads) (work : Work) :
    Wired (sys.queueinLoop loop work) :=
  wired.modifyLoop rfl

section

variable {c : ConnId} {member : Member threads}

theorem commit_epoller (sys : System threads) (c : ConnId) (member : Member threads)
    (session : Session ConnId) (loop : LoopId threads) :
    ((sys.commit c member session).loops loop).epoller =
      if loop = member.loop then session.epoller else (sys.loops loop).epoller := by
  simp only [commit, modifyLoop, Function.update_apply]
  split <;> rfl

theorem commit_conns_eq_some {session : Session ConnId} {d : ConnId} {other : Member threads} :
    (sys.commit c member session).conns d = some other ↔
      if d = c then other = { member with connection := session.connection }
      else sys.conns d = some other := by
  simp only [commit, Function.update_apply]
  split
  · rw [Option.some.injEq, eq_comm]
  · rfl

/-- A function of one connection keeps every connection wired. -/
theorem Wired.commit (wired : Wired sys) (found : sys.conns c = some member)
    {session : Session ConnId} (frame : Session.Local (sys.session c member) session) :
    Wired (sys.commit c member session) := by
  obtain ⟨registered, agree⟩ := frame.sound (wired.registered found)
  have ptr : session.ptr = c := frame.ptr
  have fd : session.connection.filed.fd = member.connection.filed.fd := frame.fd
  -- the member of `c` changes, but neither its descriptor nor its loop
  have before {d : ConnId} {other : Member threads}
      (after : (sys.commit c member session).conns d = some other) :
      ∃ old, sys.conns d = some old ∧
        other.connection.filed.fd = old.connection.filed.fd ∧ other.loop = old.loop := by
    rw [commit_conns_eq_some] at after
    split at after
    next same =>
      subst same after
      exact ⟨member, found, fd, rfl⟩
    next => exact ⟨other, after, rfl, rfl⟩
  refine ⟨?_, ?_, ?_⟩
  · intro d e other another foundOther foundAnother same
    obtain ⟨old, foundOld, fdOld, _⟩ := before foundOther
    obtain ⟨older, foundOlder, fdOlder, _⟩ := before foundAnother
    exact wired.distinct foundOld foundOlder (fdOld.symm.trans (same.trans fdOlder))
  · intro d other after
    rw [commit_epoller]
    rw [commit_conns_eq_some] at after
    split at after
    next same =>
      subst same after
      rw [if_pos rfl, ← ptr]
      exact registered
    next apart =>
      have kept := wired.registered after
      split
      next sameLoop =>
        rw [sameLoop] at kept
        exact kept.congr agree fun equal => apart (wired.distinct after found equal)
      next => exact kept
  · intro loop descriptor d refers
    have old : ∃ old, sys.conns d = some old ∧ old.loop = loop ∧
        old.connection.filed.fd = descriptor := by
      rw [commit_epoller] at refers
      split at refers
      next here =>
        by_cases own : descriptor = member.connection.filed.fd
        · rw [own, ← fd] at refers
          rw [(registered.refers refers).1, ptr]
          exact ⟨member, found, here.symm, own.symm⟩
        · rw [here]
          exact wired.referred (agree.refers own refers)
      next => exact wired.referred refers
    obtain ⟨old, foundOld, loopOld, fdOld⟩ := old
    by_cases same : d = c
    · subst same
      rw [found] at foundOld
      cases foundOld
      refine ⟨{ member with connection := session.connection }, commit_conns_eq_some.mpr ?_,
        loopOld, fd.trans fdOld⟩
      rw [if_pos rfl]
    · refine ⟨old, commit_conns_eq_some.mpr ?_, loopOld, fdOld⟩
      rw [if_neg same]
      exact foundOld

/-- The connection of a descriptor no live connection has is wired before it is
established. -/
theorem Wired.enroll (wired : Wired sys) (unused : sys.conns c = none)
    (new : member.connection.filed.index = .kNew)
    (free : ∀ {d other}, sys.conns d = some other →
      other.connection.filed.fd ≠ member.connection.filed.fd)
    (conns : next.conns = Function.update sys.conns c (some member))
    (loops : next.loops = sys.loops) : Wired next := by
  have after {d : ConnId} {other : Member threads} : next.conns d = some other ↔
      if d = c then other = member else sys.conns d = some other := by
    rw [conns, Function.update_apply]
    split
    · rw [Option.some.injEq, eq_comm]
    · rfl
  refine ⟨?_, ?_, ?_⟩
  · intro d e other another foundOther foundAnother same
    rw [after] at foundOther foundAnother
    split at foundOther <;> split at foundAnother
    · rename_i first second
      exact first.trans second.symm
    · subst foundOther
      exact absurd same.symm (free foundAnother)
    · subst foundAnother
      exact absurd same (free foundOther)
    · exact wired.distinct foundOther foundAnother same
  · intro d other foundOther
    rw [after] at foundOther
    split at foundOther
    next =>
      subst foundOther
      have absent {ptr : ConnId} : ¬ (sys.loops other.loop).epoller.Refers
          other.connection.filed.fd ptr := by
        intro refers
        obtain ⟨owner, foundOwner, _, sameFd⟩ := wired.referred refers
        exact free foundOwner sameFd
      rw [loops, new]
      refine ⟨?_, ?_⟩
      · exact Option.eq_none_iff_forall_ne_some.mpr fun ptr mapped => absent (.inl mapped)
      · exact Option.eq_none_iff_forall_ne_some.mpr fun event monitored =>
          absent (.inr ⟨event, monitored, rfl⟩)
    next =>
      rw [loops]
      exact wired.registered foundOther
  · intro loop fd d refers
    rw [loops] at refers
    obtain ⟨owner, foundOwner, rest⟩ := wired.referred refers
    refine ⟨owner, after.mpr ?_, rest⟩
    rw [if_neg]
    · exact foundOwner
    · rintro rfl
      rw [unused] at foundOwner
      cases foundOwner

/-- The kernel forgets the descriptor of a destroyed connection. -/
theorem Wired.destroy (wired : Wired sys) (found : sys.conns c = some member)
    (new : member.connection.filed.index = .kNew)
    (conns : next.conns = Function.update sys.conns c none)
    (epollers : ∀ loop, (next.loops loop).epoller = { (sys.loops loop).epoller with
      interest := Function.update (sys.loops loop).epoller.interest
        member.connection.filed.fd none }) : Wired next := by
  have after {d : ConnId} {other : Member threads} : next.conns d = some other ↔
      d ≠ c ∧ sys.conns d = some other := by
    rw [conns, Function.update_apply]
    split
    next same => simp [same]
    next apart => simp [apart]
  refine ⟨?_, ?_, ?_⟩
  · intro d e other another foundOther foundAnother same
    exact wired.distinct (after.mp foundOther).2 (after.mp foundAnother).2 same
  · intro d other foundOther
    obtain ⟨apart, foundOld⟩ := after.mp foundOther
    have registered := wired.registered foundOld
    rw [epollers]
    refine ⟨registered.mapped, ?_⟩
    dsimp only
    rw [Function.update_of_ne fun equal => apart (wired.distinct foundOld found equal)]
    exact registered.monitored
  · intro loop fd d refers
    have refersOld : (sys.loops loop).epoller.Refers fd d := by
      rw [epollers] at refers
      rcases refers with mapped | ⟨event, monitored, ptr⟩
      · exact .inl mapped
      · refine .inr ⟨event, ?_, ptr⟩
        simp only [Function.update_apply] at monitored
        split at monitored
        · cases monitored
        · exact monitored
    obtain ⟨owner, foundOwner, loopOwner, fdOwner⟩ := wired.referred refersOld
    refine ⟨owner, after.mpr ⟨?_, foundOwner⟩, loopOwner, fdOwner⟩
    rintro rfl
    rw [found] at foundOwner
    cases foundOwner
    subst loopOwner fdOwner
    exact (Registered.refers (wired.registered found) refersOld).2 new

end

end Server.System

end Lucky
