import Lucky.Manager.Thread

/-!
# Teardown of a `Manager`

`~Manager` tests `loop_`, reads it again to call `quit` and then joins the
thread; when the test finds a null pointer it does nothing.  The thread clears
`loop_` when its loop has stopped, for whatever reason, and destroys the loop
afterwards.  So the test can come too late to join, and the pointer can be null
or dangling when it is used.
-/

namespace Lucky

open Systems

/-- `loop_` points to the loop. -/
def ThreadPc.publishes : ThreadPc → Bool
  | .published | .looping | .returned => true
  | .unstarted | .started | .callback | .cleared | .finished => false

/-- Past the publication of the loop. -/
def ThreadPc.hasPublished : ThreadPc → Bool
  | .published | .looping | .returned | .cleared | .finished => true
  | .unstarted | .started | .callback => false

/-- `startLoop` has returned, and `~Manager` has not. -/
def OwnerPc.knowsLoop : OwnerPc → Bool
  | .running | .tested | .calling | .quitting | .joining => true
  | .constructed | .waiting | .destroyed | .crashed => false

theorem ThreadPc.hasPublished_of_publishes {place : ThreadPc}
    (publishes : place.publishes = true) : place.hasPublished = true := by
  cases place <;> first | rfl | exact publishes

theorem ThreadPc.gone_of_unpublished {place : ThreadPc} (past : place.hasPublished = true)
    (unpublished : ¬ place.publishes = true) : place = .cleared ∨ place = .finished := by
  cases place <;> simp_all [hasPublished, ThreadPc.publishes]

namespace Manager

variable {Tid F : Type}

/-- `~Manager` has used no null or destroyed loop, and once it has returned the thread
has finished, if it was ever started. -/
structure TornDown (m : Manager Tid F) : Prop where
  alive : m.owner ≠ .crashed
  synchronous : m.owner = .destroyed → m.thread = .finished ∨ m.thread = .unstarted

instance (m : Manager Tid F) : Decidable (TornDown m) :=
  decidable_of_iff
    (m.owner ≠ .crashed ∧
      (m.owner = .destroyed → m.thread = .finished ∨ m.thread = .unstarted))
    ⟨fun holds => ⟨holds.1, holds.2⟩, fun torn => ⟨torn.alive, torn.synchronous⟩⟩

/-- Where the thread is when `~Manager` takes a step: it has not just cleared `loop_`
at the test, has not cleared it at the read, and has not destroyed the loop at the
two accesses of `quit`. -/
def MeetsLoop (m : Manager Tid F) : Action Tid F → Prop
  | .testLoop => m.thread ≠ .cleared
  | .readLoop => m.thread ≠ .cleared ∧ m.thread ≠ .finished
  | .storeQuit | .wakeupLoop => m.thread ≠ .finished
  | _ => True

instance (m : Manager Tid F) : DecidablePred m.MeetsLoop
  | .testLoop => inferInstanceAs (Decidable (_ ≠ _))
  | .readLoop => inferInstanceAs (Decidable (_ ∧ _))
  | .storeQuit | .wakeupLoop => inferInstanceAs (Decidable (_ ≠ _))
  | .startLoop | .construct | .publish | .startLoopReturns | .event _ | .clear | .destruct
  | .join => isTrue trivial

/-- `loop_` says where the thread is, and the owner has waited for the loop. -/
structure Ordered (m : Manager Tid F) : Prop extends TornDown m where
  pointer : m.published = m.thread.publishes
  fresh : m.owner = .constructed → m.thread = .unstarted
  past : m.owner.knowsLoop = true → m.thread.hasPublished = true

theorem make_ordered (ownerId : Tid) : Ordered (make ownerId : Manager Tid F) :=
  ⟨⟨by simp [make], by simp [make]⟩, rfl, fun _ => rfl, by simp [make, OwnerPc.knowsLoop]⟩

/-- Steps of the new thread, which leave the owner where it is. -/
theorem Ordered.move {m n : Manager Tid F} (ordered : Ordered m) (owner : n.owner = m.owner)
    (pointer : n.published = n.thread.publishes)
    (begun : m.thread ≠ .unstarted) (running : m.thread ≠ .finished)
    (past : m.thread.hasPublished = true → n.thread.hasPublished = true) : Ordered n := by
  refine ⟨⟨?_, ?_⟩, pointer, ?_, ?_⟩
  · rw [owner]
    exact ordered.alive
  · rw [owner]
    intro destroyed
    rcases ordered.synchronous destroyed with finished | unstarted
    · exact absurd finished running
    · exact absurd unstarted begun
  · rw [owner]
    exact fun constructed => absurd (ordered.fresh constructed) begun
  · rw [owner]
    exact fun knows => past (ordered.past knows)

/-- Steps of the owner, which leave the thread where it is. -/
theorem Ordered.proceed {m n : Manager Tid F} (ordered : Ordered m) (torn : TornDown n)
    (thread : n.thread = m.thread) (published : n.published = m.published)
    (left : n.owner ≠ .constructed)
    (knows : n.owner.knowsLoop = true → m.thread.hasPublished = true) : Ordered n := by
  refine ⟨torn, ?_, fun constructed => absurd constructed left, ?_⟩
  · rw [published, thread]
    exact ordered.pointer
  · rw [thread]
    exact knows

variable [DecidableEq Tid]

theorem permits_alive {m : Manager Tid F} {action : EventLoop.Action Tid F}
    (permitted : m.permits action = true) : m.thread.alive = true := by
  unfold permits at permitted
  split at permitted
  next => rw [eq_of_beq permitted]; rfl
  next => rw [eq_of_beq permitted]; rfl
  next =>
    rcases (Bool.or_eq_true _ _).mp permitted with before | inside
    · rw [eq_of_beq before]
      rfl
    · rw [eq_of_beq inside]
      rfl
  next => exact ((Bool.and_eq_true _ _).mp permitted).1

/-- A step of the loop leaves the owner alone, and moves the thread into `loop()` or
out of it. -/
theorem Ordered.event {m : Manager Tid F} (ordered : Ordered m) {action : EventLoop.Action Tid F}
    (permitted : m.permits action = true) (loop : EventLoop Tid F) :
    Ordered (m.advance action loop) := by
  have alive := permits_alive permitted
  have moved : (m.advance action loop).thread.publishes = m.thread.publishes ∧
      (m.thread.hasPublished = true → (m.advance action loop).thread.hasPublished = true) := by
    cases action with
    | loop =>
        have published : m.thread = .published := by simpa [permits] using permitted
        simp [advance, published, ThreadPc.publishes, ThreadPc.hasPublished]
    | stop =>
        have looping : m.thread = .looping := by
          simpa [permits, EventLoop.Action.caller?] using permitted
        simp [advance, looping, ThreadPc.publishes, ThreadPc.hasPublished]
    | _ => exact ⟨rfl, id⟩
  refine ordered.move (n := m.advance action loop) rfl ?_ ?_ ?_ moved.2
  · rw [moved.1]
    exact ordered.pointer
  · intro unstarted
    simp [unstarted, ThreadPc.alive] at alive
  · intro finished
    simp [finished, ThreadPc.alive] at alive

theorem Ordered.step {m n : Manager Tid F} {action : Action Tid F} (ordered : Ordered m)
    (meets : m.MeetsLoop action) (stepped : m.step action = some n) : Ordered n := by
  cases action with
  | startLoop =>
      simp only [Manager.step, Option.ite_none_right_eq_some, Option.some.injEq] at stepped
      obtain ⟨constructed, rfl⟩ := stepped
      refine ⟨⟨by simp, by simp⟩, ?_, by simp, by simp [OwnerPc.knowsLoop]⟩
      rw [ordered.pointer, ordered.fresh constructed]
      rfl
  | construct =>
      simp only [Manager.step, Option.ite_none_right_eq_some, Option.some.injEq] at stepped
      obtain ⟨started, rfl⟩ := stepped
      refine ordered.move rfl ?_ (by simp [started]) (by simp [started]) ?_
      · rw [ordered.pointer, started]
        rfl
      · simp [started, ThreadPc.hasPublished]
  | publish =>
      simp only [Manager.step, Option.ite_none_right_eq_some, Option.some.injEq] at stepped
      obtain ⟨⟨callback, _⟩, rfl⟩ := stepped
      exact ordered.move rfl rfl (by simp [callback]) (by simp [callback]) fun _ => rfl
  | clear =>
      simp only [Manager.step, Option.ite_none_right_eq_some, Option.some.injEq] at stepped
      obtain ⟨returned, rfl⟩ := stepped
      exact ordered.move rfl rfl (by simp [returned]) (by simp [returned]) fun _ => rfl
  | destruct =>
      simp only [Manager.step, Option.ite_none_right_eq_some, Option.some.injEq] at stepped
      obtain ⟨cleared, rfl⟩ := stepped
      refine ordered.move rfl ?_ (by simp [cleared]) (by simp [cleared]) fun _ => rfl
      rw [ordered.pointer, cleared]
      rfl
  | event action =>
      simp only [Manager.step, Option.ite_none_right_eq_some, Option.map_eq_some_iff] at stepped
      obtain ⟨permitted, loop, _, rfl⟩ := stepped
      exact ordered.event permitted loop
  | startLoopReturns =>
      simp only [Manager.step, Option.ite_none_right_eq_some, Option.some.injEq] at stepped
      obtain ⟨⟨_, published⟩, rfl⟩ := stepped
      rw [ordered.pointer] at published
      refine ordered.proceed ⟨by simp, by simp⟩ rfl rfl (by simp) fun _ => ?_
      exact ThreadPc.hasPublished_of_publishes published
  | testLoop =>
      simp only [Manager.step, Option.ite_none_right_eq_some, Option.some.injEq] at stepped
      obtain ⟨⟨owner, _⟩, rfl⟩ := stepped
      have known : m.thread = .unstarted ∨ m.thread.hasPublished = true := by
        rcases owner with constructed | running
        · exact .inl (ordered.fresh constructed)
        · exact .inr (ordered.past (by rw [running]; rfl))
      split
      next published =>
        rw [ordered.pointer] at published
        refine ordered.proceed ⟨by simp, by simp⟩ rfl rfl (by simp) fun _ => ?_
        exact ThreadPc.hasPublished_of_publishes published
      next unpublished =>
        rw [ordered.pointer] at unpublished
        refine ordered.proceed ⟨by simp, fun _ => ?_⟩ rfl rfl (by simp)
          (by simp [OwnerPc.knowsLoop])
        rcases known with unstarted | past
        · exact .inr unstarted
        · exact .inl ((ThreadPc.gone_of_unpublished past unpublished).resolve_left meets)
  | readLoop =>
      simp only [Manager.step, Option.ite_none_right_eq_some, Option.some.injEq] at stepped
      obtain ⟨owner, rfl⟩ := stepped
      have past := ordered.past (by rw [owner]; rfl)
      have published : m.published = true := by
        rw [ordered.pointer]
        by_contra unpublished
        exact (ThreadPc.gone_of_unpublished past unpublished).elim meets.1 meets.2
      rw [if_pos published]
      exact ordered.proceed ⟨by simp, by simp⟩ rfl rfl (by simp) fun _ => past
  | storeQuit =>
      simp only [Manager.step, Option.ite_none_right_eq_some] at stepped
      obtain ⟨owner, stored⟩ := stepped
      rw [if_neg meets] at stored
      obtain ⟨loop, _, rfl⟩ := Option.map_eq_some_iff.mp stored
      exact ordered.proceed ⟨by simp, by simp⟩ rfl rfl (by simp)
        fun _ => ordered.past (by rw [owner]; rfl)
  | wakeupLoop =>
      simp only [Manager.step, Option.ite_none_right_eq_some] at stepped
      obtain ⟨owner, woken⟩ := stepped
      rw [if_neg meets] at woken
      obtain ⟨loop, _, rfl⟩ := Option.map_eq_some_iff.mp woken
      exact ordered.proceed ⟨by simp, by simp⟩ rfl rfl (by simp)
        fun _ => ordered.past (by rw [owner]; rfl)
  | join =>
      simp only [Manager.step, Option.ite_none_right_eq_some, Option.some.injEq] at stepped
      obtain ⟨⟨_, finished⟩, rfl⟩ := stepped
      exact ordered.proceed ⟨by simp, fun _ => .inl finished⟩ rfl rfl (by simp)
        (by simp [OwnerPc.knowsLoop])

/-- Where `~Manager` does not meet the loop it returns too early or uses a loop that is
gone. -/
theorem Ordered.meetsLoop {m n : Manager Tid F} {action : Action Tid F} (ordered : Ordered m)
    (stepped : m.step action = some n) (torn : TornDown n) : m.MeetsLoop action := by
  cases action with
  | testLoop =>
      simp only [Manager.step, Option.ite_none_right_eq_some, Option.some.injEq] at stepped
      obtain ⟨_, rfl⟩ := stepped
      intro cleared
      have unpublished : m.published = false := by
        rw [ordered.pointer, cleared]
        rfl
      rcases torn.synchronous (by simp [unpublished]) with finished | unstarted
      · simp [cleared] at finished
      · simp [cleared] at unstarted
  | readLoop =>
      simp only [Manager.step, Option.ite_none_right_eq_some, Option.some.injEq] at stepped
      obtain ⟨_, rfl⟩ := stepped
      have published : m.published = true := by
        by_contra unpublished
        exact torn.alive (by simp [unpublished])
      rw [ordered.pointer] at published
      constructor
      · intro cleared
        simp [cleared, ThreadPc.publishes] at published
      · intro finished
        simp [finished, ThreadPc.publishes] at published
  | storeQuit | wakeupLoop =>
      simp only [Manager.step, Option.ite_none_right_eq_some] at stepped
      obtain ⟨_, used⟩ := stepped
      intro finished
      rw [if_pos finished] at used
      cases used
      exact torn.alive rfl
  | startLoop | construct | publish | startLoopReturns | event _ | clear | destruct | join =>
      trivial

/-- In every run the teardown is synchronous and uses only a live loop exactly when,
at each step of `~Manager`, the thread has not gone further than that step can bear. -/
theorem tornDown_iff_meetsLoop (ownerId : Tid) (actions : List (Action Tid F)) :
    interleaving.Always TornDown (make ownerId) actions ↔
      interleaving.Guarded MeetsLoop (make ownerId) actions := by
  apply Machine.always_iff_guarded Ordered
  · exact fun _ _ _ ordered meets stepped => ordered.step meets stepped
  · exact fun _ ordered => ordered.toTornDown
  · exact fun _ _ _ ordered stepped torn => ordered.meetsLoop stepped torn
  · exact make_ordered ownerId

/-- The loop has stopped because another thread called `quit`. -/
def stoppedByOther : List (Action Nat Nat) :=
  [.startLoop, .construct, .publish, .startLoopReturns, .event .loop, .event .resetQuit,
    .event (.quit (some 1)), .event .testQuit, .event .stop]

/-- `~Manager` comes after the thread has cleared `loop_`, and returns while the thread
is still to destroy its loop; or the thread clears `loop_` between the test and the
read; or it also destroys the loop between the read and the call of `quit`. -/
theorem other_quit_breaks_teardown :
    (∃ m, interleaving.exec (make 0) (stoppedByOther ++ [.clear, .testLoop]) = some m ∧
      m.owner = .destroyed ∧ m.thread = .cleared) ∧
    ¬ interleaving.Always TornDown (make 0) (stoppedByOther ++ [.clear, .testLoop]) ∧
    ¬ interleaving.Always TornDown (make 0) (stoppedByOther ++ [.testLoop, .clear, .readLoop]) ∧
    ¬ interleaving.Always TornDown (make 0)
      (stoppedByOther ++ [.testLoop, .readLoop, .clear, .destruct, .storeQuit]) :=
  ⟨⟨_, rfl, rfl, rfl⟩, by decide, by decide, by decide⟩

end Manager

end Lucky
