import Lucky.Manager.Coupling
import Mathlib.Algebra.BigOperators.Ring.List

/-!
# When `startLoop` returns

The two threads have finitely many steps to take before `startLoop` returns, and one
of them can always take its next, unless the user's callback is at work or the loop
has already stopped.  In the last case `startLoop` has missed the loop, and never
returns.
-/

namespace Lucky

open Systems

/-- The steps from a place in `startLoop` to its return; from the sleep, those up to the
test are paid for by the notification. -/
def StartPc.left : StartPc → Nat
  | .outside => 0
  | .unlocking => 1
  | .copying | .waiting => 2
  | .testing => 3
  | .locking => 4
  | .starting => 5

/-- The steps of the new thread from a place of `ThreadPc` to its loop. -/
def ThreadPc.left : ThreadPc → Nat
  | .started => 7
  | .callback => 6
  | .unstarted | .published | .looping | .returned | .cleared | .finished => 0

/-- The same from a place of the handshake. -/
def FuncPc.left : FuncPc → ThreadPc → Nat
  | .outside, place => place.left
  | .entered, _ => 9
  | .posting, _ => 8
  | .storing, _ => 5
  | .notifying, _ => 4
  | .unlocking, _ => 1
  | .clearing, _ | .releasing, _ => 0

theorem StartPc.left_le (place : StartPc) : place.left ≤ 5 := by
  cases place <;> decide

theorem FuncPc.left_le (place : FuncPc) (threadPc : ThreadPc) : place.left threadPc ≤ 9 := by
  cases place <;> cases threadPc <;> decide

namespace Handshake

variable {Tid F : Type}

/-- The steps `startLoop` and the new thread take for each other. -/
def Action.hands : Action Tid F → Bool
  | .setTid | .semPost | .semWait | .construct | .lockToStore | .store | .notify | .unlockStored
  | .lock | .test | .copy | .unlock => true
  | .startLoop | .spurious | .event _ | .lockToClear | .clear | .unlockCleared | .destruct
  | .testLoop | .readLoop | .storeQuit | .wakeupLoop | .join => false

def Action.isSpurious : Action Tid F → Bool
  | .spurious => true
  | _ => false

def left (h : Handshake Tid F) : Nat := h.startPc.left + h.funcPc.left h.manager.thread

/-- The new thread clears `loop_`, or has cleared it. -/
def Clears (h : Handshake Tid F) : Prop :=
  h.funcPc = .clearing ∨ h.manager.thread = .cleared ∨ h.manager.thread = .finished

theorem left_of_start {h : Handshake Tid F} {place : StartPc} (start : h.startPc = place) :
    h.left = place.left + h.funcPc.left h.manager.thread := by
  rw [left, start]

theorem left_of_func {h : Handshake Tid F} {place : FuncPc} {threadPc : ThreadPc}
    (func : h.funcPc = place) (thread : h.manager.thread = threadPc) :
    h.left = h.startPc.left + place.left threadPc := by
  rw [left, func, thread]

theorem left_le (h : Handshake Tid F) : h.left ≤ 14 :=
  Nat.add_le_add h.startPc.left_le (h.funcPc.left_le h.manager.thread)

variable [DecidableEq Tid] {h n : Handshake Tid F}

/-- `startLoop` is called once. -/
theorem Coupled.stays_begun (coupled : Coupled h) {action : Action Tid F}
    (begun : h.manager.owner ≠ .constructed) (stepped : h.step action = some n) :
    n.manager.owner ≠ .constructed := by
  rcases coupled.seen stepped with same | ⟨seen, moved⟩
  · exact same ▸ begun
  · cases seen with
    | testLoop | readLoop | storeQuit | wakeupLoop | join =>
        exact (Manager.ownerMove rfl moved).after.2
    | event action => exact (Manager.loopMove moved).owner ▸ begun
    | construct | publish | clear | destruct =>
        simp only [Manager.step, Option.ite_none_right_eq_some, Option.some.injEq] at moved
        rw [← moved.2]
        exact begun
    | startLoop | startLoopReturns =>
        simp only [Manager.step, Option.ite_none_right_eq_some, Option.some.injEq] at moved
        rw [← moved.2]
        simp

/-- The loop runs after the handshake. -/
theorem event_left {action : EventLoop.Action Tid F}
    (stepped : h.step (.event action) = some n) : n.left ≤ h.left := by
  simp only [Handshake.step, Option.ite_none_right_eq_some] at stepped
  obtain ⟨permitted, manager, moved, rfl⟩ := stepped.imp_right lift_eq_some
  apply Nat.add_le_add_left
  have move := Manager.loopMove moved
  rcases move.thread with same | ⟨before, after⟩ | ⟨before, after⟩
  · exact Nat.le_of_eq (congrArg h.funcPc.left same)
  all_goals
    rcases (Bool.or_eq_true _ _).mp permitted with outside | other
    · rw [eq_of_beq outside, after]
      exact Nat.zero_le _
    · exact Nat.le_of_eq (congrArg h.funcPc.left (move.elsewhere other).1)

/-- A step uses up one of the steps left; only a spurious wake-up adds some. -/
theorem Coupled.paid (coupled : Coupled h) (begun : h.manager.owner ≠ .constructed)
    {action : Action Tid F} (stepped : h.step action = some n) :
    action.hands.toNat + n.left ≤ h.left + 2 * action.isSpurious.toNat := by
  cases action with
  | startLoop =>
      simp only [Handshake.step, Option.ite_none_right_eq_some] at stepped
      exact absurd stepped.1 begun
  | event action => exact (Nat.zero_add n.left).symm ▸ event_left stepped
  | testLoop | readLoop | storeQuit | wakeupLoop | join =>
      obtain ⟨manager, moved, rfl⟩ := lift_eq_some stepped
      have same := congrArg h.funcPc.left (Manager.ownerMove rfl moved).thread
      change 0 + (h.startPc.left + h.funcPc.left manager.thread) ≤ h.startPc.left + _
      rw [same]
      exact Nat.le_of_eq (Nat.zero_add _)
  | destruct =>
      simp only [Handshake.step, Option.ite_none_right_eq_some] at stepped
      obtain ⟨outside, manager, destructed, rfl⟩ := stepped.imp_right lift_eq_some
      simp only [Manager.step, Option.ite_none_right_eq_some, Option.some.injEq] at destructed
      obtain ⟨cleared, rfl⟩ := destructed
      have before := left_of_func outside cleared
      change 0 + (h.startPc.left + h.funcPc.left .finished) ≤ h.left
      rw [before, outside]
      exact Nat.le_of_eq (Nat.zero_add _)
  | setTid =>
      simp only [Handshake.step, Option.ite_none_right_eq_some, Option.some.injEq] at stepped
      obtain ⟨entered, rfl⟩ := stepped
      have before : h.left = h.startPc.left + 9 := left_of_func entered rfl
      change 1 + (h.startPc.left + 8) ≤ h.left
      omega
  | semPost =>
      simp only [Handshake.step, Option.ite_none_right_eq_some, Option.some.injEq] at stepped
      obtain ⟨posting, rfl⟩ := stepped
      have started := coupled.within .started (by rw [posting]; rfl)
      have before : h.left = h.startPc.left + 8 := left_of_func posting started
      change 1 + (h.startPc.left + h.manager.thread.left) ≤ h.left
      rw [started, before]
      change 1 + (h.startPc.left + 7) ≤ h.startPc.left + 8
      omega
  | construct =>
      simp only [Handshake.step, Option.ite_none_right_eq_some, Option.some.injEq] at stepped
      obtain ⟨⟨outside, started⟩, rfl⟩ := stepped
      have before : h.left = h.startPc.left + 7 := left_of_func outside started
      change 1 + (h.startPc.left + h.funcPc.left .callback) ≤ h.left
      rw [outside, before]
      change 1 + (h.startPc.left + 6) ≤ h.startPc.left + 7
      omega
  | lockToStore =>
      simp only [Handshake.step, Option.ite_none_right_eq_some, Option.some.injEq] at stepped
      obtain ⟨⟨outside, callback, _⟩, rfl⟩ := stepped
      have before : h.left = h.startPc.left + 6 := left_of_func outside callback
      change 1 + (h.startPc.left + 5) ≤ h.left
      omega
  | store =>
      simp only [Handshake.step, Option.ite_none_right_eq_some, Option.some.injEq] at stepped
      obtain ⟨storing, rfl⟩ := stepped
      have before : h.left = h.startPc.left + 5 := left_of_func storing rfl
      change 1 + (h.startPc.left + 4) ≤ h.left
      omega
  | notify =>
      -- a notification that ends a sleep pays for the next lock and test
      simp only [Handshake.step, Option.ite_none_right_eq_some, Option.some.injEq] at stepped
      obtain ⟨notifying, rfl⟩ := stepped
      have before : h.left = h.startPc.left + 4 := left_of_func notifying rfl
      change 1 + ((if h.startPc = .waiting then .locking else h.startPc).left + 1) ≤ h.left
      split
      next asleep =>
        rw [before, asleep]
        decide
      next => omega
  | unlockStored =>
      simp only [Handshake.step, Option.ite_none_right_eq_some, Option.some.injEq] at stepped
      obtain ⟨unlocking, rfl⟩ := stepped
      have published := coupled.within .published (by rw [unlocking]; rfl)
      have before : h.left = h.startPc.left + 1 := left_of_func unlocking published
      change 1 + (h.startPc.left + h.manager.thread.left) ≤ h.left
      rw [published, before]
      exact Nat.le_of_eq (Nat.add_comm 1 _)
  | lockToClear =>
      simp only [Handshake.step, Option.ite_none_right_eq_some, Option.some.injEq] at stepped
      obtain ⟨_, rfl⟩ := stepped
      change 0 + (h.startPc.left + 0) ≤ h.startPc.left + _
      omega
  | clear =>
      simp only [Handshake.step, Option.ite_none_right_eq_some, Option.some.injEq] at stepped
      obtain ⟨_, rfl⟩ := stepped
      change 0 + (h.startPc.left + 0) ≤ h.startPc.left + _
      omega
  | unlockCleared =>
      simp only [Handshake.step, Option.ite_none_right_eq_some, Option.some.injEq] at stepped
      obtain ⟨releasing, rfl⟩ := stepped
      have cleared := coupled.within .cleared (by rw [releasing]; rfl)
      change 0 + (h.startPc.left + h.manager.thread.left) ≤ h.startPc.left + _
      rw [cleared]
      change 0 + (h.startPc.left + 0) ≤ h.startPc.left + _
      omega
  | semWait =>
      simp only [Handshake.step, Option.ite_none_right_eq_some, Option.some.injEq] at stepped
      obtain ⟨⟨starting, _⟩, rfl⟩ := stepped
      have before : h.left = 5 + h.funcPc.left h.manager.thread := left_of_start starting
      change 1 + (4 + h.funcPc.left h.manager.thread) ≤ h.left
      omega
  | lock =>
      simp only [Handshake.step, Option.ite_none_right_eq_some, Option.some.injEq] at stepped
      obtain ⟨⟨locking, _⟩, rfl⟩ := stepped
      have before : h.left = 4 + h.funcPc.left h.manager.thread := left_of_start locking
      change 1 + (3 + h.funcPc.left h.manager.thread) ≤ h.left
      omega
  | test =>
      simp only [Handshake.step, Option.ite_none_right_eq_some] at stepped
      obtain ⟨testing, tested⟩ := stepped
      have before : h.left = 3 + h.funcPc.left h.manager.thread := left_of_start testing
      split at tested
      all_goals
        cases tested
        change 1 + (2 + h.funcPc.left h.manager.thread) ≤ h.left
        omega
  | spurious =>
      simp only [Handshake.step, Option.ite_none_right_eq_some, Option.some.injEq] at stepped
      obtain ⟨asleep, rfl⟩ := stepped
      have before : h.left = 2 + h.funcPc.left h.manager.thread := left_of_start asleep
      change 0 + (4 + h.funcPc.left h.manager.thread) ≤ h.left + 2
      omega
  | copy =>
      simp only [Handshake.step, Option.ite_none_right_eq_some, Option.some.injEq] at stepped
      obtain ⟨copying, rfl⟩ := stepped
      have before : h.left = 2 + h.funcPc.left h.manager.thread := left_of_start copying
      change 1 + (1 + h.funcPc.left h.manager.thread) ≤ h.left
      omega
  | unlock =>
      simp only [Handshake.step, Option.ite_none_right_eq_some, Option.some.injEq] at stepped
      obtain ⟨unlocking, rfl⟩ := stepped
      have before : h.left = 1 + h.funcPc.left h.manager.thread := left_of_start unlocking
      change 1 + (0 + h.funcPc.left h.manager.thread) ≤ h.left
      omega

/-- Within the handshake the new thread is never held up. -/
theorem Coupled.thread_goes_on (coupled : Coupled h) (inside : h.funcPc ≠ .outside) :
    (∃ action next, action.hands = true ∧ h.step action = some next) ∨ h.Clears := by
  cases place : h.funcPc with
  | outside => exact absurd place inside
  | entered => exact .inl ⟨.setTid, _, rfl, if_pos place⟩
  | posting => exact .inl ⟨.semPost, _, rfl, if_pos place⟩
  | storing => exact .inl ⟨.store, _, rfl, if_pos place⟩
  | notifying => exact .inl ⟨.notify, _, rfl, if_pos place⟩
  | unlocking => exact .inl ⟨.unlockStored, _, rfl, if_pos place⟩
  | clearing => exact .inr (.inl place)
  | releasing => exact .inr (.inr (.inl (coupled.within .cleared (by rw [place]; rfl))))

omit [DecidableEq Tid] in
theorem Coupled.free (coupled : Coupled h) (outside : h.funcPc = .outside)
    (apart : ¬ h.startPc.holds = true) : h.mutex = none := by
  cases held : h.mutex with
  | none => rfl
  | some party =>
      cases party with
      | owner => exact absurd (coupled.owner.mp held) apart
      | thread =>
          have holds := coupled.thread.mp held
          rw [outside] at holds
          cases holds

/-- While `startLoop` has not returned one of the two threads can go on. -/
theorem Coupled.goes_on (coupled : Coupled h) (waiting : h.manager.owner = .waiting) :
    (∃ action next, action.hands = true ∧ h.step action = some next) ∨
      (h.manager.thread = .callback ∧ ¬ (h.manager.loop.callPc none).isIdle = true) ∨
      h.Clears := by
  by_cases outside : h.funcPc = .outside
  · cases place : h.startPc with
    | outside => exact absurd place (coupled.waits.mpr waiting)
    | starting =>
        have posted : 0 < h.sem := by simpa [outside] using coupled.posted place
        exact .inl ⟨.semWait, _, rfl, if_pos ⟨place, posted⟩⟩
    | locking =>
        have free := coupled.free outside (by simp [place, StartPc.holds])
        exact .inl ⟨.lock, _, rfl, if_pos ⟨place, free⟩⟩
    | testing =>
        left
        by_cases published : h.manager.published = true
        · exact ⟨.test, _, rfl, (if_pos place).trans (if_pos published)⟩
        · exact ⟨.test, _, rfl, (if_pos place).trans (if_neg published)⟩
    | copying => exact .inl ⟨.copy, _, rfl, if_pos place⟩
    | unlocking => exact .inl ⟨.unlock, _, rfl, if_pos place⟩
    | waiting =>
        -- asleep with no notification under way: `loop_` is null
        have unpublished : ¬ h.manager.thread.publishes = true := by
          intro published
          have notifying := coupled.asleep place (coupled.pointer.trans published)
          rw [outside] at notifying
          cases notifying
        cases thread : h.manager.thread with
        | unstarted => exact absurd thread (coupled.begun waiting)
        | started => exact .inl ⟨.construct, _, rfl, if_pos ⟨outside, thread⟩⟩
        | callback =>
            by_cases idle : (h.manager.loop.callPc none).isIdle = true
            · have free := coupled.free outside (by simp [place, StartPc.holds])
              exact .inl ⟨.lockToStore, _, rfl, if_pos ⟨outside, thread, idle, free⟩⟩
            · exact .inr (.inl ⟨rfl, idle⟩)
        | published | looping | returned => exact absurd (by rw [thread]; rfl) unpublished
        | cleared => exact .inr (.inr (.inr (.inl thread)))
        | finished => exact .inr (.inr (.inr (.inr thread)))
  · rcases coupled.thread_goes_on outside with enabled | clears
    · exact .inl enabled
    · exact .inr (.inr clears)

omit [DecidableEq Tid] in
/-- The new thread has left its loop, and the owner is not about to return. -/
theorem Coupled.cleared (coupled : Coupled h) (clears : h.Clears) :
    h.startPc ≠ .unlocking ∧ (h.manager.thread = .returned ∨ h.manager.thread = .cleared ∨
      h.manager.thread = .finished) := by
  rcases clears with clearing | cleared
  · constructor
    · intro unlocking
      have thread := coupled.thread.mpr (by rw [clearing]; rfl)
      rw [coupled.owner.mpr (by rw [unlocking]; rfl)] at thread
      cases thread
    · exact .inl (coupled.within .returned (by rw [clearing]; rfl))
  · refine ⟨?_, .inr cleared⟩
    intro unlocking
    have published := coupled.found (.inr unlocking)
    rw [coupled.pointer] at published
    rcases cleared with cleared | finished
    · rw [cleared] at published
      cases published
    · rw [finished] at published
      cases published

/-- Once the new thread clears `loop_`, the owner does not find it any more. -/
theorem Coupled.missed (coupled : Coupled h) (waiting : h.manager.owner = .waiting)
    (clears : h.Clears) {action : Action Tid F} (stepped : h.step action = some n) :
    n.manager.owner = .waiting ∧ n.Clears := by
  obtain ⟨unfound, left⟩ := coupled.cleared clears
  -- places of the new thread before its loop are behind it
  have behind {place : FuncPc} {threadPc : ThreadPc} (func : h.funcPc = place)
      (within : place.threadPc = some threadPc) : h.manager.thread = threadPc :=
    coupled.within threadPc (by rw [func, within]; rfl)
  cases action with
  | testLoop | readLoop | storeQuit | wakeupLoop | join =>
      obtain ⟨manager, moved, rfl⟩ := lift_eq_some stepped
      exact absurd waiting (Manager.ownerMove rfl moved).before
  | event action =>
      simp only [Handshake.step, Option.ite_none_right_eq_some] at stepped
      obtain ⟨_, manager, moved, rfl⟩ := stepped.imp_right lift_eq_some
      have move := Manager.loopMove moved
      have same : manager.thread = h.manager.thread := by
        rcases move.thread with same | ⟨before, _⟩ | ⟨before, _⟩
        · exact same
        · simp [before] at left
        · simp [before] at left
      refine ⟨move.owner.trans waiting, ?_⟩
      rw [Clears, same]
      exact clears
  | startLoop =>
      simp only [Handshake.step, Option.ite_none_right_eq_some] at stepped
      rw [waiting] at stepped
      cases stepped.1
  | setTid | semPost | store | notify | unlockStored =>
      simp only [Handshake.step, Option.ite_none_right_eq_some] at stepped
      simp [behind stepped.1 rfl] at left
  | construct | lockToStore =>
      simp only [Handshake.step, Option.ite_none_right_eq_some] at stepped
      simp [stepped.1] at left
  | semWait | lock | spurious | copy =>
      simp only [Handshake.step, Option.ite_none_right_eq_some, Option.some.injEq] at stepped
      obtain ⟨_, rfl⟩ := stepped
      exact ⟨waiting, clears⟩
  | test =>
      simp only [Handshake.step, Option.ite_none_right_eq_some] at stepped
      obtain ⟨_, tested⟩ := stepped
      split at tested <;> cases tested <;> exact ⟨waiting, clears⟩
  | unlock =>
      simp only [Handshake.step, Option.ite_none_right_eq_some] at stepped
      exact absurd stepped.1 unfound
  | lockToClear =>
      simp only [Handshake.step, Option.ite_none_right_eq_some, Option.some.injEq] at stepped
      obtain ⟨_, rfl⟩ := stepped
      exact ⟨waiting, .inl rfl⟩
  | clear =>
      simp only [Handshake.step, Option.ite_none_right_eq_some, Option.some.injEq] at stepped
      obtain ⟨_, rfl⟩ := stepped
      exact ⟨waiting, .inr (.inl rfl)⟩
  | unlockCleared =>
      simp only [Handshake.step, Option.ite_none_right_eq_some, Option.some.injEq] at stepped
      obtain ⟨releasing, rfl⟩ := stepped
      exact ⟨waiting, .inr (.inl (behind releasing rfl))⟩
  | destruct =>
      simp only [Handshake.step, Option.ite_none_right_eq_some] at stepped
      obtain ⟨_, manager, destructed, rfl⟩ := stepped.imp_right lift_eq_some
      simp only [Manager.step, Option.ite_none_right_eq_some, Option.some.injEq] at destructed
      obtain ⟨_, rfl⟩ := destructed
      exact ⟨waiting, .inr (.inr rfl)⟩

/-- From any moment in `startLoop` on, the two threads take at most 14 steps of the
handshake in any run, and two more for each spurious wake-up; until `startLoop` has
returned one of them can take its next, unless the user's callback is in a call of the
loop or the thread is clearing `loop_`; and once it is, `startLoop` never returns. -/
theorem startLoop_returns {ownerId : Tid} (reached : interleaving.Reachable (make ownerId) h)
    (waiting : h.manager.owner = .waiting) :
    (∀ actions final, interleaving.exec h actions = some final →
      actions.countP Action.hands ≤ 14 + 2 * actions.countP Action.isSpurious) ∧
    ((∃ action next, action.hands = true ∧ h.step action = some next) ∨
      (h.manager.thread = .callback ∧ ¬ (h.manager.loop.callPc none).isIdle = true) ∨
      h.Clears) ∧
    (h.Clears → ∀ actions final, interleaving.exec h actions = some final →
      final.manager.owner = .waiting) := by
  have coupled := reachable_coupled reached
  refine ⟨?_, coupled.goes_on waiting, ?_⟩
  · intro actions final run
    have begun : h.manager.owner ≠ .constructed := by simp [waiting]
    have paid := interleaving.exec_paid
      (fun h : Handshake Tid F => Coupled h ∧ h.manager.owner ≠ .constructed) left
      (·.hands.toNat) (2 * ·.isSpurious.toNat)
      (fun _ _ _ kept stepped => ⟨kept.1.step stepped, kept.1.stays_begun kept.2 stepped⟩)
      (fun _ _ _ kept stepped => kept.1.paid kept.2 stepped) ⟨coupled, begun⟩ run
    rw [List.sum_map_mul_left, Machine.sum_map_toNat, Machine.sum_map_toNat] at paid
    calc actions.countP Action.hands
        ≤ actions.countP Action.hands + final.left := Nat.le_add_right _ _
      _ ≤ h.left + 2 * actions.countP Action.isSpurious := paid
      _ ≤ 14 + 2 * actions.countP Action.isSpurious := Nat.add_le_add_right h.left_le _
  · intro clears actions final run
    have kept : Coupled final ∧ final.manager.owner = .waiting ∧ final.Clears :=
      interleaving.exec_invariant
        (fun _ _ _ (kept : Coupled _ ∧ _ ∧ Clears _) stepped =>
          ⟨kept.1.step stepped, kept.1.missed kept.2.1 kept.2.2 stepped⟩)
        ⟨coupled, waiting, clears⟩ run
    exact kept.2.1

/-- Another thread stops the loop before the owner has been woken up to see it. -/
theorem startLoop_returns_never : ∃ h : Handshake Nat Nat,
    interleaving.exec (make 0) [.startLoop, .setTid, .semPost, .semWait, .lock, .test, .construct,
      .lockToStore, .store, .notify, .unlockStored, .event .loop, .event .resetQuit,
      .event (.quit (some 1)), .event .testQuit, .event .stop, .lockToClear] = some h ∧
    ∀ actions final, interleaving.exec h actions = some final →
      final.manager.owner = .waiting := by
  obtain ⟨h, run, waiting, clears⟩ : ∃ h : Handshake Nat Nat,
      interleaving.exec (make 0) [.startLoop, .setTid, .semPost, .semWait, .lock, .test,
        .construct, .lockToStore, .store, .notify, .unlockStored, .event .loop,
        .event .resetQuit, .event (.quit (some 1)), .event .testQuit, .event .stop,
        .lockToClear] = some h ∧ h.manager.owner = .waiting ∧ h.funcPc = .clearing :=
    ⟨_, rfl, rfl, rfl⟩
  exact ⟨h, run, (startLoop_returns ⟨_, run⟩ waiting).2.2 (.inl clears)⟩

end Handshake

end Lucky
