import Lucky.Manager.Handshake

/-!
# The handshake refines `Manager`

`Manager` takes the publication of `loop_`, its clearing and the return of
`startLoop` for single steps.  The invariant that justifies this says where each of
the two threads can be while the other holds `mutex_`.
-/

namespace Lucky

open Systems

/-- The place of `ThreadPc` within which a place of the handshake is. -/
def FuncPc.threadPc : FuncPc → Option ThreadPc
  | .outside => none
  | .entered | .posting => some .started
  | .storing => some .callback
  | .notifying | .unlocking => some .published
  | .clearing => some .returned
  | .releasing => some .cleared

/-- Past the `sem_wait` of `Thread::start`. -/
def StartPc.started : StartPc → Bool
  | .locking | .testing | .waiting | .copying | .unlocking => true
  | .outside | .starting => false

namespace Handshake

variable {Tid F : Type}

/-- `mutex_` is held between its lock and its unlock. -/
structure Exclusive (h : Handshake Tid F) : Prop where
  owner : h.mutex = some .owner ↔ h.startPc.holds = true
  thread : h.mutex = some .thread ↔ h.funcPc.holds = true

/-- The handshake is at a place of the `Manager`. -/
structure Placed (h : Handshake Tid F) : Prop where
  within : ∀ place ∈ h.funcPc.threadPc, h.manager.thread = place
  waits : h.startPc ≠ .outside ↔ h.manager.owner = .waiting
  idle : h.funcPc = .storing → (h.manager.loop.callPc none).isIdle = true
  pointer : h.manager.published = h.manager.thread.publishes
  fresh : h.manager.owner = .constructed → h.manager.thread = .unstarted
  begun : h.manager.owner = .waiting → h.manager.thread ≠ .unstarted

/-- What the owner has been told: `loop_` is set when it has found it set, and it does
not sleep past the notification. -/
structure Informed (h : Handshake Tid F) : Prop where
  posted : h.startPc = .starting → h.funcPc = .entered ∨ h.funcPc = .posting ∨ 0 < h.sem
  tid : h.funcPc = .posting ∨ 0 < h.sem ∨ h.startPc.started = true ∨
    h.manager.owner.knowsLoop = true → h.tid = true
  found : h.startPc = .copying ∨ h.startPc = .unlocking → h.manager.published = true
  copied : h.startPc = .unlocking ∨ h.manager.owner.knowsLoop = true → h.pointer = true
  asleep : h.startPc = .waiting → h.manager.published = true → h.funcPc = .notifying

structure Coupled (h : Handshake Tid F) : Prop extends Exclusive h, Placed h, Informed h

theorem make_coupled (ownerId : Tid) : Coupled (make ownerId : Handshake Tid F) where
  owner := by simp [make, StartPc.holds]
  thread := by simp [make, FuncPc.holds]
  within := nofun
  waits := by simp [make, Manager.make]
  idle := nofun
  pointer := rfl
  fresh _ := rfl
  begun := nofun
  posted := nofun
  tid := by simp [make, Manager.make, StartPc.started, OwnerPc.knowsLoop]
  found := by simp [make]
  copied := by simp [make, Manager.make, OwnerPc.knowsLoop]
  asleep := nofun

/-- Before `startLoop` the new thread has no place yet. -/
theorem Coupled.unstarted {h : Handshake Tid F} (coupled : Coupled h)
    (constructed : h.manager.owner = .constructed) :
    h.startPc = .outside ∧ h.funcPc = .outside := by
  constructor
  · by_contra inside
    rw [coupled.waits.mp inside] at constructed
    cases constructed
  · have fresh := coupled.fresh constructed
    cases place : h.funcPc with
    | outside => rfl
    | entered | posting | storing | notifying | unlocking | clearing | releasing =>
        have inside := coupled.within _ (by rw [place]; rfl)
        rw [fresh] at inside
        cases inside

/-- The end of a critical section of the new thread. -/
theorem Coupled.unlockThread {h : Handshake Tid F} (coupled : Coupled h)
    (holds : h.funcPc.holds = true) (notified : h.funcPc ≠ .notifying) :
    Coupled { h with mutex := none, funcPc := .outside } := by
  have held := coupled.thread.mpr holds
  have func : h.funcPc ≠ .entered ∧ h.funcPc ≠ .posting := by
    constructor <;> rintro place <;> simp [place, FuncPc.holds] at holds
  exact {
    coupled with
    owner := by simpa [held] using coupled.owner
    thread := by simp [FuncPc.holds]
    within := nofun
    idle := nofun
    posted := by simpa [func] using coupled.posted
    tid := fun told => coupled.tid (.inr (told.resolve_left nofun))
    asleep := fun waiting published => absurd (coupled.asleep waiting published) notified }

variable [DecidableEq Tid] {h n : Handshake Tid F}

theorem lift_eq_some {action : Manager.Action Tid F} (lifted : h.lift action = some n) :
    ∃ manager, h.manager.step action = some manager ∧ n = { h with manager := manager } := by
  obtain ⟨manager, stepped, rfl⟩ := Option.map_eq_some_iff.mp lifted
  exact ⟨manager, stepped, rfl⟩

theorem Coupled.tearDown (coupled : Coupled h) {action : Manager.Action Tid F}
    (tearsDown : action.tearsDown = true) (lifted : h.lift action = some n) : Coupled n := by
  obtain ⟨manager, stepped, rfl⟩ := lift_eq_some lifted
  have move := Manager.ownerMove tearsDown stepped
  have outside : h.startPc = .outside := by
    by_contra inside
    exact move.before (coupled.waits.mp inside)
  have knows : manager.owner.knowsLoop = true → h.manager.owner.knowsLoop = true := by
    intro known
    rcases move.knows known with before | ⟨constructed, published⟩
    · exact before
    · rw [coupled.pointer, coupled.fresh constructed] at published
      cases published
  exact {
    coupled with
    within := by
      rw [move.thread]
      exact coupled.within
    waits := ⟨fun inside => absurd outside inside, fun waiting => absurd waiting move.after.1⟩
    idle := by
      rw [move.callPc]
      exact coupled.idle
    pointer := by
      rw [move.published, move.thread]
      exact coupled.pointer
    fresh := fun constructed => absurd constructed move.after.2
    begun := fun waiting => absurd waiting move.after.1
    tid := fun told => coupled.tid (told.imp_right (.imp_right (.imp_right knows)))
    found := by simp [outside]
    copied := fun told => coupled.copied (told.imp_right knows)
    asleep := by simp [outside] }

/-- The new thread is at the same place, or between two places of its loop. -/
theorem Coupled.event (coupled : Coupled h) {action : EventLoop.Action Tid F}
    (permitted : h.permits action = true) (lifted : h.lift (.event action) = some n) :
    Coupled n := by
  obtain ⟨manager, stepped, rfl⟩ := lift_eq_some lifted
  have move := Manager.loopMove stepped
  have alike : manager.thread.publishes = h.manager.thread.publishes := by
    rcases move.thread with same | ⟨before, after⟩ | ⟨before, after⟩
    · rw [same]
    · rw [before, after]
      rfl
    · rw [before, after]
      rfl
  have elsewhere (between : h.funcPc ≠ .outside) :
      manager.thread = h.manager.thread ∧
        manager.loop.callPc none = h.manager.loop.callPc none := by
    rcases (Bool.or_eq_true _ _).mp permitted with outside | other
    · exact absurd (eq_of_beq outside) between
    · exact move.elsewhere other
  exact {
    coupled with
    within := by
      intro place inside
      have between : h.funcPc ≠ .outside := by
        rintro outside
        rw [outside] at inside
        cases inside
      rw [(elsewhere between).1]
      exact coupled.within place inside
    waits := by
      rw [move.owner]
      exact coupled.waits
    idle := by
      intro storing
      change h.funcPc = .storing at storing
      change (manager.loop.callPc none).isIdle = true
      rw [(elsewhere (by simp [storing])).2]
      exact coupled.idle storing
    pointer := by
      rw [move.published, alike]
      exact coupled.pointer
    fresh := by
      intro constructed
      have alive := move.alive
      rw [coupled.fresh (move.owner.symm.trans constructed)] at alive
      cases alive
    begun := by
      rintro waiting unstarted
      change manager.thread = .unstarted at unstarted
      rcases move.thread with same | ⟨_, after⟩ | ⟨_, after⟩
      · exact coupled.begun (move.owner.symm.trans waiting) (same.symm.trans unstarted)
      · simp [after] at unstarted
      · simp [after] at unstarted
    tid := by
      rw [move.owner]
      exact coupled.tid
    found := by
      rw [move.published]
      exact coupled.found
    copied := by
      rw [move.owner]
      exact coupled.copied
    asleep := by
      rw [move.published]
      exact coupled.asleep }

theorem Coupled.startLoop (coupled : Coupled h) (stepped : h.step .startLoop = some n) :
    Coupled n := by
  simp only [Handshake.step, Option.ite_none_right_eq_some, Option.some.injEq] at stepped
  obtain ⟨constructed, rfl⟩ := stepped
  obtain ⟨start, func⟩ := coupled.unstarted constructed
  exact {
    owner := by simpa [start, StartPc.holds] using coupled.owner
    thread := by simpa [func, FuncPc.holds] using coupled.thread
    within := by simp [FuncPc.threadPc]
    waits := by simp
    idle := nofun
    pointer := by
      rw [coupled.pointer, coupled.fresh constructed]
      rfl
    fresh := nofun
    begun := by simp
    posted := by simp
    tid := by simp [StartPc.started, OwnerPc.knowsLoop]
    found := by simp
    copied := by simp [OwnerPc.knowsLoop]
    asleep := nofun }

/-- The lambda of `Thread::start`: `tid_` is stored before the post. -/
theorem Coupled.setTid (coupled : Coupled h) (stepped : h.step .setTid = some n) : Coupled n := by
  simp only [Handshake.step, Option.ite_none_right_eq_some, Option.some.injEq] at stepped
  obtain ⟨entered, rfl⟩ := stepped
  exact {
    coupled with
    thread := by simpa [entered, FuncPc.holds] using coupled.thread
    within := by simpa [entered, FuncPc.threadPc] using coupled.within
    idle := nofun
    posted := by simp
    tid := fun _ => rfl
    asleep := by simpa [entered] using coupled.asleep }

theorem Coupled.semPost (coupled : Coupled h) (stepped : h.step .semPost = some n) :
    Coupled n := by
  simp only [Handshake.step, Option.ite_none_right_eq_some, Option.some.injEq] at stepped
  obtain ⟨posting, rfl⟩ := stepped
  exact {
    coupled with
    thread := by simpa [posting, FuncPc.holds] using coupled.thread
    within := nofun
    idle := nofun
    posted := by simp
    tid := fun _ => coupled.tid (.inl posting)
    asleep := by simpa [posting] using coupled.asleep }

theorem Coupled.semWait (coupled : Coupled h) (stepped : h.step .semWait = some n) :
    Coupled n := by
  simp only [Handshake.step, Option.ite_none_right_eq_some, Option.some.injEq] at stepped
  obtain ⟨⟨starting, posted⟩, rfl⟩ := stepped
  exact {
    coupled with
    owner := by simpa [starting, StartPc.holds] using coupled.owner
    waits := by simpa [starting] using coupled.waits
    posted := nofun
    tid := fun _ => coupled.tid (.inr (.inl posted))
    found := by simp
    copied := by simpa [starting] using coupled.copied
    asleep := nofun }

theorem Coupled.construct (coupled : Coupled h) (stepped : h.step .construct = some n) :
    Coupled n := by
  simp only [Handshake.step, Option.ite_none_right_eq_some, Option.some.injEq] at stepped
  obtain ⟨⟨outside, started⟩, rfl⟩ := stepped
  exact {
    coupled with
    within := by simp [outside, FuncPc.threadPc]
    idle := by simp [outside]
    pointer := by
      rw [coupled.pointer, started]
      rfl
    fresh := by
      intro constructed
      have unstarted := coupled.fresh constructed
      rw [started] at unstarted
      cases unstarted
    begun := by simp }

theorem Coupled.lockToStore (coupled : Coupled h) (stepped : h.step .lockToStore = some n) :
    Coupled n := by
  simp only [Handshake.step, Option.ite_none_right_eq_some, Option.some.injEq] at stepped
  obtain ⟨⟨outside, callback, idle, free⟩, rfl⟩ := stepped
  exact {
    coupled with
    owner := by simpa [free] using coupled.owner
    thread := by simp [FuncPc.holds]
    within := by simp [FuncPc.threadPc, callback]
    idle := fun _ => idle
    posted := by simpa [outside] using coupled.posted
    tid := by simpa [outside] using coupled.tid
    asleep := by simpa [outside] using coupled.asleep }

/-- With `mutex_` held by the new thread, the owner is not between its test and its copy. -/
theorem Coupled.store (coupled : Coupled h) (stepped : h.step .store = some n) : Coupled n := by
  simp only [Handshake.step, Option.ite_none_right_eq_some, Option.some.injEq] at stepped
  obtain ⟨storing, rfl⟩ := stepped
  exact {
    coupled with
    thread := by simpa [storing, FuncPc.holds] using coupled.thread
    within := by simp [FuncPc.threadPc]
    idle := nofun
    pointer := rfl
    fresh := by
      intro constructed
      have unstarted := (coupled.unstarted constructed).2
      rw [storing] at unstarted
      cases unstarted
    begun := by simp
    posted := by simpa [storing] using coupled.posted
    tid := by simpa [storing] using coupled.tid
    found := fun _ => rfl
    asleep := fun _ _ => rfl }

/-- The notification ends the sleep, if the owner sleeps. -/
theorem Coupled.notify (coupled : Coupled h) (stepped : h.step .notify = some n) :
    Coupled n := by
  simp only [Handshake.step, Option.ite_none_right_eq_some, Option.some.injEq] at stepped
  obtain ⟨notifying, rfl⟩ := stepped
  have thread : h.mutex = some .thread ↔ FuncPc.unlocking.holds = true := by
    simpa [notifying, FuncPc.holds] using coupled.thread
  have within : ∀ place ∈ FuncPc.unlocking.threadPc, h.manager.thread = place := by
    simpa [notifying, FuncPc.threadPc] using coupled.within
  split
  next waiting =>
    exact {
      coupled with
      owner := by simpa [waiting, StartPc.holds] using coupled.owner
      thread := thread
      within := within
      waits := by simpa [waiting] using coupled.waits
      idle := nofun
      posted := nofun
      tid := by simpa [waiting, notifying, StartPc.started] using coupled.tid
      found := by simp
      copied := by simpa [waiting] using coupled.copied
      asleep := nofun }
  next awake =>
    exact {
      coupled with
      thread := thread
      within := within
      idle := nofun
      posted := by simpa [notifying] using coupled.posted
      tid := by simpa [notifying] using coupled.tid
      asleep := fun waiting => absurd waiting awake }

theorem Coupled.unlockStored (coupled : Coupled h) (stepped : h.step .unlockStored = some n) :
    Coupled n := by
  simp only [Handshake.step, Option.ite_none_right_eq_some, Option.some.injEq] at stepped
  obtain ⟨unlocking, rfl⟩ := stepped
  exact coupled.unlockThread (by rw [unlocking]; rfl) (by simp [unlocking])

theorem Coupled.unlockCleared (coupled : Coupled h) (stepped : h.step .unlockCleared = some n) :
    Coupled n := by
  simp only [Handshake.step, Option.ite_none_right_eq_some, Option.some.injEq] at stepped
  obtain ⟨releasing, rfl⟩ := stepped
  exact coupled.unlockThread (by rw [releasing]; rfl) (by simp [releasing])

theorem Coupled.lock (coupled : Coupled h) (stepped : h.step .lock = some n) : Coupled n := by
  simp only [Handshake.step, Option.ite_none_right_eq_some, Option.some.injEq] at stepped
  obtain ⟨⟨locking, free⟩, rfl⟩ := stepped
  exact {
    coupled with
    owner := by simp [StartPc.holds]
    thread := by simpa [free] using coupled.thread
    waits := by simpa [locking] using coupled.waits
    posted := nofun
    tid := by simpa [locking, StartPc.started] using coupled.tid
    found := by simp
    copied := by simpa [locking] using coupled.copied
    asleep := nofun }

/-- The owner falls asleep only when it has found `loop_` null with `mutex_` held. -/
theorem Coupled.test (coupled : Coupled h) (stepped : h.step .test = some n) : Coupled n := by
  simp only [Handshake.step, Option.ite_none_right_eq_some] at stepped
  obtain ⟨testing, tested⟩ := stepped
  have held := coupled.owner.mpr (by rw [testing]; rfl)
  split at tested
  next published =>
    cases tested
    exact {
      coupled with
      owner := by simp [held, StartPc.holds]
      waits := by simpa [testing] using coupled.waits
      posted := nofun
      tid := by simpa [testing, StartPc.started] using coupled.tid
      found := fun _ => published
      copied := by simpa [testing] using coupled.copied
      asleep := nofun }
  next unpublished =>
    cases tested
    exact {
      coupled with
      owner := by simp [StartPc.holds]
      thread := by simpa [held] using coupled.thread
      waits := by simpa [testing] using coupled.waits
      posted := nofun
      tid := by simpa [testing, StartPc.started] using coupled.tid
      found := by simp
      copied := by simpa [testing] using coupled.copied
      asleep := fun _ published => absurd published unpublished }

theorem Coupled.spurious (coupled : Coupled h) (stepped : h.step .spurious = some n) :
    Coupled n := by
  simp only [Handshake.step, Option.ite_none_right_eq_some, Option.some.injEq] at stepped
  obtain ⟨waiting, rfl⟩ := stepped
  exact {
    coupled with
    owner := by simpa [waiting, StartPc.holds] using coupled.owner
    waits := by simpa [waiting] using coupled.waits
    posted := nofun
    tid := by simpa [waiting, StartPc.started] using coupled.tid
    found := by simp
    copied := by simpa [waiting] using coupled.copied
    asleep := nofun }

theorem Coupled.copy (coupled : Coupled h) (stepped : h.step .copy = some n) : Coupled n := by
  simp only [Handshake.step, Option.ite_none_right_eq_some, Option.some.injEq] at stepped
  obtain ⟨copying, rfl⟩ := stepped
  have published := coupled.found (.inl copying)
  exact {
    coupled with
    owner := by simpa [copying, StartPc.holds] using coupled.owner
    waits := by simpa [copying] using coupled.waits
    posted := nofun
    tid := by simpa [copying, StartPc.started] using coupled.tid
    found := fun _ => published
    copied := fun _ => published
    asleep := nofun }

theorem Coupled.unlock (coupled : Coupled h) (stepped : h.step .unlock = some n) :
    Coupled n := by
  simp only [Handshake.step, Option.ite_none_right_eq_some, Option.some.injEq] at stepped
  obtain ⟨unlocking, rfl⟩ := stepped
  have held := coupled.owner.mpr (by rw [unlocking]; rfl)
  exact {
    coupled with
    owner := by simp [StartPc.holds]
    thread := by simpa [held] using coupled.thread
    waits := by simp
    fresh := nofun
    begun := nofun
    posted := nofun
    tid := fun _ => coupled.tid (.inr (.inr (.inl (by rw [unlocking]; rfl))))
    found := by simp
    copied := fun _ => coupled.copied (.inl unlocking)
    asleep := nofun }

theorem Coupled.lockToClear (coupled : Coupled h) (stepped : h.step .lockToClear = some n) :
    Coupled n := by
  simp only [Handshake.step, Option.ite_none_right_eq_some, Option.some.injEq] at stepped
  obtain ⟨⟨outside, returned, free⟩, rfl⟩ := stepped
  exact {
    coupled with
    owner := by simpa [free] using coupled.owner
    thread := by simp [FuncPc.holds]
    within := by simp [FuncPc.threadPc, returned]
    idle := nofun
    posted := by simpa [outside] using coupled.posted
    tid := by simpa [outside] using coupled.tid
    asleep := by simpa [outside] using coupled.asleep }

/-- The owner cannot be between its test and its return when `loop_` is cleared. -/
theorem Coupled.clear (coupled : Coupled h) (stepped : h.step .clear = some n) : Coupled n := by
  simp only [Handshake.step, Option.ite_none_right_eq_some, Option.some.injEq] at stepped
  obtain ⟨clearing, rfl⟩ := stepped
  have held := coupled.thread.mpr (by rw [clearing]; rfl)
  have apart : ¬ h.startPc.holds = true := by simpa [held] using coupled.owner
  exact {
    coupled with
    thread := by simpa [clearing, FuncPc.holds] using coupled.thread
    within := by simp [FuncPc.threadPc]
    idle := nofun
    pointer := rfl
    fresh := by
      intro constructed
      have unstarted := (coupled.unstarted constructed).2
      rw [clearing] at unstarted
      cases unstarted
    begun := by simp
    posted := by simpa [clearing] using coupled.posted
    tid := by simpa [clearing] using coupled.tid
    found := by
      rintro (copying | unlocking)
      · exact absurd (by rw [copying]; rfl) apart
      · exact absurd (by rw [unlocking]; rfl) apart
    asleep := nofun }

theorem Coupled.destruct (coupled : Coupled h) (stepped : h.step .destruct = some n) :
    Coupled n := by
  simp only [Handshake.step, Option.ite_none_right_eq_some] at stepped
  obtain ⟨outside, manager, destructed, rfl⟩ := stepped.imp_right lift_eq_some
  simp only [Manager.step, Option.ite_none_right_eq_some, Option.some.injEq] at destructed
  obtain ⟨cleared, rfl⟩ := destructed
  exact {
    coupled with
    within := by simp [outside, FuncPc.threadPc]
    idle := by simp [outside]
    pointer := by
      rw [coupled.pointer, cleared]
      rfl
    fresh := by
      intro constructed
      have unstarted := coupled.fresh constructed
      rw [cleared] at unstarted
      cases unstarted
    begun := by simp }

theorem Coupled.step {action : Action Tid F} (coupled : Coupled h)
    (stepped : h.step action = some n) : Coupled n := by
  cases action with
  | event action =>
      simp only [Handshake.step, Option.ite_none_right_eq_some] at stepped
      exact coupled.event stepped.1 stepped.2
  | testLoop | readLoop | storeQuit | wakeupLoop | join => exact coupled.tearDown rfl stepped
  | startLoop => exact coupled.startLoop stepped
  | setTid => exact coupled.setTid stepped
  | semPost => exact coupled.semPost stepped
  | semWait => exact coupled.semWait stepped
  | construct => exact coupled.construct stepped
  | lockToStore => exact coupled.lockToStore stepped
  | store => exact coupled.store stepped
  | notify => exact coupled.notify stepped
  | unlockStored => exact coupled.unlockStored stepped
  | lock => exact coupled.lock stepped
  | test => exact coupled.test stepped
  | spurious => exact coupled.spurious stepped
  | copy => exact coupled.copy stepped
  | unlock => exact coupled.unlock stepped
  | lockToClear => exact coupled.lockToClear stepped
  | clear => exact coupled.clear stepped
  | unlockCleared => exact coupled.unlockCleared stepped
  | destruct => exact coupled.destruct stepped

/-! ## The `Manager` seen in the handshake -/

/-- A step of the handshake is a step of the `Manager`, or is not seen there. -/
theorem Coupled.seen (coupled : Coupled h) {action : Action Tid F}
    (stepped : h.step action = some n) : n.manager = h.manager ∨
      ∃ seen, h.manager.step seen = some n.manager := by
  have lifted {seen : Manager.Action Tid F} (lifted : h.lift seen = some n) :
      ∃ seen, h.manager.step seen = some n.manager := by
    obtain ⟨manager, moved, rfl⟩ := lift_eq_some lifted
    exact ⟨seen, moved⟩
  cases action with
  | testLoop | readLoop | storeQuit | wakeupLoop | join => exact .inr (lifted stepped)
  | event action | destruct =>
      simp only [Handshake.step, Option.ite_none_right_eq_some] at stepped
      exact .inr (lifted stepped.2)
  | setTid | semPost | semWait | lockToStore | notify | unlockStored | lock | spurious | copy
  | lockToClear | unlockCleared =>
      simp only [Handshake.step, Option.ite_none_right_eq_some, Option.some.injEq] at stepped
      obtain ⟨_, rfl⟩ := stepped
      exact .inl rfl
  | test =>
      simp only [Handshake.step, Option.ite_none_right_eq_some] at stepped
      obtain ⟨_, tested⟩ := stepped
      split at tested <;> cases tested <;> exact .inl rfl
  | startLoop =>
      simp only [Handshake.step, Option.ite_none_right_eq_some, Option.some.injEq] at stepped
      obtain ⟨constructed, rfl⟩ := stepped
      exact .inr ⟨.startLoop, if_pos constructed⟩
  | construct =>
      simp only [Handshake.step, Option.ite_none_right_eq_some, Option.some.injEq] at stepped
      obtain ⟨⟨_, started⟩, rfl⟩ := stepped
      exact .inr ⟨.construct, if_pos started⟩
  | store =>
      simp only [Handshake.step, Option.ite_none_right_eq_some, Option.some.injEq] at stepped
      obtain ⟨storing, rfl⟩ := stepped
      have callback := coupled.within .callback (by rw [storing]; rfl)
      exact .inr ⟨.publish, if_pos ⟨callback, coupled.idle storing⟩⟩
  | unlock =>
      simp only [Handshake.step, Option.ite_none_right_eq_some, Option.some.injEq] at stepped
      obtain ⟨unlocking, rfl⟩ := stepped
      have waiting := coupled.waits.mp (by simp [unlocking])
      exact .inr ⟨.startLoopReturns, if_pos ⟨waiting, coupled.found (.inr unlocking)⟩⟩
  | clear =>
      simp only [Handshake.step, Option.ite_none_right_eq_some, Option.some.injEq] at stepped
      obtain ⟨clearing, rfl⟩ := stepped
      exact .inr ⟨.clear, if_pos (coupled.within .returned (by rw [clearing]; rfl))⟩

theorem reachable_coupled {ownerId : Tid} (reached : interleaving.Reachable (make ownerId) h) :
    Coupled h :=
  reached.invariant (fun _ _ _ coupled stepped => coupled.step stepped) (make_coupled ownerId)

/-- Along every run of the handshake the `Manager` takes steps of its own machine, and the
handshake does what it is for: the two threads never hold `mutex_` together, the owner never
sleeps on while `loop_` is set and the notification is past, and once `startLoop` has
returned, it has returned the loop, `tid_` is stored and the loop was published. -/
theorem handshake_refined {ownerId : Tid} (reached : interleaving.Reachable (make ownerId) h) :
    Manager.interleaving.Reachable (.make ownerId) h.manager ∧
      ¬ (h.startPc.holds = true ∧ h.funcPc.holds = true) ∧
      (h.startPc = .waiting → h.manager.published = true → h.funcPc = .notifying) ∧
      (h.manager.owner.knowsLoop = true → h.pointer = true ∧ h.tid = true) := by
  have coupled := reachable_coupled reached
  refine ⟨?_, ?_, coupled.asleep, fun knows => ⟨coupled.copied (.inr knows), ?_⟩⟩
  · obtain ⟨actions, run⟩ := reached
    exact Machine.exec_simulates Manager.interleaving (·.manager) Coupled
      (fun _ _ _ coupled stepped => coupled.step stepped)
      (fun _ _ _ coupled stepped => coupled.seen stepped) (make_coupled ownerId) run
  · rintro ⟨owner, thread⟩
    have both := (coupled.owner.mpr owner).symm.trans (coupled.thread.mpr thread)
    cases both
  · exact coupled.tid (.inr (.inr (.inr knows)))

/-- The owner falls asleep, is woken up without a notification, sleeps again and is notified. -/
theorem handshake_refined_notified : ∃ h : Handshake Nat Nat,
    interleaving.exec (make 0) [.startLoop, .setTid, .semPost, .semWait, .lock, .test, .construct,
      .spurious, .lock, .test, .lockToStore, .store, .notify, .unlockStored, .lock, .test, .copy,
      .unlock] = some h ∧ h.pointer = true ∧ h.tid = true := by
  obtain ⟨h, run, running⟩ : ∃ h : Handshake Nat Nat,
      interleaving.exec (make 0) [.startLoop, .setTid, .semPost, .semWait, .lock, .test,
        .construct, .spurious, .lock, .test, .lockToStore, .store, .notify, .unlockStored, .lock,
        .test, .copy, .unlock] = some h ∧ h.manager.owner = .running := ⟨_, rfl, rfl⟩
  exact ⟨h, run, (handshake_refined ⟨_, run⟩).2.2.2 (by rw [running]; rfl)⟩

end Handshake

end Lucky
