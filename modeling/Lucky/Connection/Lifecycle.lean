import Lucky.Connection.Closing
import Lucky.Systems.Machine

/-!
# Up and down notifications

One connection from `connectEstablished` to the end of `connectDestroyed`, under
any reports of its descriptor and any user code.  Its callbacks should announce
it up once and down once.  They do unless one report both hangs up and leads to
a read of 0 bytes, or the connection is destroyed while half closed.
-/

namespace Lucky

open Systems

inductive Phase where
  | fresh
  | established
  | destroyed
  deriving DecidableEq, Repr

/-- A connection between its construction and the end of `connectDestroyed`. -/
structure Lifecycle (Ptr : Type) where
  phase : Phase
  session : Session Ptr

namespace Lifecycle

variable {Ptr : Type}

/-- What the connection's loop thread does with the connection, with the calls the
user makes in each callback. -/
inductive Action where
  | connectEstablished (calls : List UserCall)
  | report (revents : Mask) (inputs : Session.EventInputs)
  | functor (calls : List UserCall)
  /-- `connectDestroyed`, queued by `removeConnectionInLoop` or by `~Server`. -/
  | connectDestroyed (calls : List UserCall)

def make (session : Session Ptr) : Lifecycle Ptr := ⟨.fresh, session⟩

section Step

variable [DecidableEq Ptr]

/-- A step is a function that returns; the kernel reports what it monitors. -/
def step (l : Lifecycle Ptr) : Action → Option (Lifecycle Ptr)
  | .connectEstablished calls =>
      if l.phase = .fresh then
        (l.session.connectEstablished calls).toOption.map fun s => ⟨.established, s⟩
      else none
  | .report revents inputs =>
      if l.phase = .established ∧
          (l.session.epoller.interest l.session.connection.filed.fd).isSome then
        ((l.session.setRevents revents).handleEvent true inputs).toOption.map fun s =>
          ⟨.established, s⟩
      else none
  | .functor calls =>
      if l.phase = .established then
        (l.session.userCalls calls).toOption.map fun s => ⟨.established, s⟩
      else none
  | .connectDestroyed calls =>
      if l.phase = .established then
        (l.session.connectDestroyed calls).toOption.map fun s => ⟨.destroyed, s⟩
      else none

def runs : Machine (Lifecycle Ptr) Action := ⟨step⟩

end Step

/-- The flags `isConnect()` had when `connectionCallback_` was called. -/
def announced (calls : List Call) : List Bool :=
  calls.filterMap fun
    | .connectionCallback isConnect => some isConnect
    | _ => none

/-- `connectionCallback_` has announced the connection up, then down, each at most
once, and both when the connection is destroyed; `closeCallback_` has been
called at most once. -/
structure Paired (l : Lifecycle Ptr) : Prop where
  inOrder : announced l.session.calls <+: [true, false]
  closed : l.session.calls.count .closeCallback ≤ 1
  finished : l.phase = .destroyed → announced l.session.calls = [true, false]

instance (l : Lifecycle Ptr) : Decidable (Paired l) :=
  decidable_of_iff
    (announced l.session.calls <+: [true, false] ∧ l.session.calls.count .closeCallback ≤ 1 ∧
      (l.phase = .destroyed → announced l.session.calls = [true, false]))
    ⟨fun holds => ⟨holds.1, holds.2.1, holds.2.2⟩,
      fun paired => ⟨paired.inOrder, paired.closed, paired.finished⟩⟩

/-- No report hangs up and ends the stream at once, and the connection is not
destroyed while half closed. -/
def ClosesOnce (l : Lifecycle Ptr) : Action → Prop
  | .report revents inputs => ¬ Session.ClosesTwice revents inputs
  | .connectDestroyed _ => l.session.connection.state ≠ .kDisconnecting
  | .connectEstablished _ | .functor _ => True

instance (l : Lifecycle Ptr) : DecidablePred l.ClosesOnce
  | .report _ _ => inferInstanceAs (Decidable (¬ _))
  | .connectDestroyed _ => inferInstanceAs (Decidable (_ ≠ _))
  | .connectEstablished _ | .functor _ => isTrue trivial

theorem announced_notices (calls : List Call) : announced (notices calls) = announced calls := by
  rw [announced, announced, notices, List.filterMap_filter]
  congr 1
  funext call
  cases call <;> rfl

theorem closed_notices (calls : List Call) :
    (notices calls).count .closeCallback = calls.count .closeCallback :=
  List.count_filter rfl

def Tracked (l : Lifecycle Ptr) : Prop :=
  match l.phase with
  | .fresh => l.session.Sound ∧ notices l.session.calls = [] ∧
      l.session.connection.filed.index = .kNew ∧
      l.session.connection.filed.events = Filed.kNoneEvent
  | .established => l.session.Sound ∧ (l.session.Up ∨ l.session.Down)
  | .destroyed =>
      notices l.session.calls = [.connectionCallback true, .connectionCallback false] ∨
      notices l.session.calls =
        [.connectionCallback true, .connectionCallback false, .closeCallback]

theorem Paired.of_notices {l : Lifecycle Ptr} {heard : List Call}
    (told : notices l.session.calls = heard) (announcedOnce : announced heard <+: [true, false])
    (closedOnce : heard.count .closeCallback ≤ 1)
    (finished : l.phase = .destroyed → announced heard = [true, false]) : Paired l := by
  subst told
  rw [announced_notices] at announcedOnce finished
  rw [closed_notices] at closedOnce
  exact ⟨announcedOnce, closedOnce, finished⟩

theorem Tracked.paired {l : Lifecycle Ptr} (tracked : Tracked l) : Paired l := by
  obtain ⟨phase, session⟩ := l
  cases phase with
  | fresh => exact .of_notices tracked.2.1 (by decide) (by decide) (by simp)
  | established =>
      rcases tracked with ⟨_, up | down⟩
      · exact .of_notices up.notices (by decide) (by decide) (by simp)
      · exact .of_notices down.notices (by decide) (by decide) (by simp)
  | destroyed =>
      rcases tracked with heard | heard
      · exact .of_notices heard (by decide) (by decide) (fun _ => rfl)
      · exact .of_notices heard (by decide) (by decide) (fun _ => rfl)

variable [DecidableEq Ptr]

theorem Tracked.step {l m : Lifecycle Ptr} {action : Action} (tracked : Tracked l)
    (once : l.ClosesOnce action) (stepped : l.step action = some m) : Tracked m := by
  obtain ⟨phase, session⟩ := l
  cases action with
  | connectEstablished calls =>
      simp only [Lifecycle.step, Option.ite_none_right_eq_some, Option.map_eq_some_iff,
        toOption_eq_some] at stepped
      obtain ⟨rfl, s, returned, rfl⟩ := stepped
      obtain ⟨sound, silent, index, events⟩ := tracked
      obtain ⟨established, began, quiet⟩ := Session.connectEstablished_law returned
      obtain ⟨frame, sameCalls, state, filed⟩ := Session.establish_law began
      have up : (established.record (.connectionCallback true)).Up := by
        refine ⟨?_, .inl state, ?_⟩
        · simp only [Session.record, notices_append, sameCalls, silent]
          rfl
        · rw [Session.record, filed]
          exact .enableReading index events
      exact ⟨(quiet.sound (frame.sound sound).1).1, .inl (up.quiet quiet)⟩
  | report revents inputs =>
      simp only [Lifecycle.step, Option.ite_none_right_eq_some, Option.map_eq_some_iff,
        toOption_eq_some] at stepped
      obtain ⟨⟨rfl, monitored⟩, s, returned, rfl⟩ := stepped
      rcases tracked with ⟨sound, up | down⟩
      · have reported : (session.setRevents revents).Up :=
          ⟨up.notices, up.state, ⟨up.monitored.index, up.monitored.events⟩⟩
        have frame := Session.handleEvent_local returned
        exact ⟨(frame.sound sound).1, (reported.handleEvent returned).1 once⟩
      · have unmonitored : session.epoller.interest session.connection.filed.fd = none :=
          down.unmonitored sound
        simp [unmonitored] at monitored
  | functor calls =>
      simp only [Lifecycle.step, Option.ite_none_right_eq_some, Option.map_eq_some_iff,
        toOption_eq_some] at stepped
      obtain ⟨rfl, s, returned, rfl⟩ := stepped
      have quiet := Session.Quiet.userCalls returned
      rcases tracked with ⟨sound, up | down⟩
      · exact ⟨(quiet.sound sound).1, .inl (up.quiet quiet)⟩
      · exact ⟨(quiet.sound sound).1, .inr (down.quiet quiet)⟩
  | connectDestroyed calls =>
      simp only [Lifecycle.step, Option.ite_none_right_eq_some, Option.map_eq_some_iff,
        toOption_eq_some] at stepped
      obtain ⟨rfl, s, returned, rfl⟩ := stepped
      obtain ⟨_, _, connected, other⟩ := Session.connectDestroyed_law returned
      rcases tracked with ⟨sound, up | down⟩
      · have live := up.state.resolve_right once
        exact .inl (by rw [(connected live).2, up.notices]; rfl)
      · have closed : session.connection.state = .kDisconnected := down.state
        exact .inr (by rw [(other (by simp [closed])).2, down.notices])

/-- For a connection whose descriptor is not yet known to the loop, with any callbacks
and any high-water mark: a run pairs the notifications exactly when each of its reports
closes the connection at most once and it is not destroyed while half closed. -/
theorem notifications_paired_iff_closesOnce (ptr : Ptr) (fd mark : Nat)
    (writeCompleteCallback highWaterMarkCallback : Bool) (epoller : Epoller Ptr)
    (unknown : epoller.fileds fd = none) (unmonitored : epoller.interest fd = none)
    (actions : List Action) :
    runs.Always Paired
        (make (.constructed ptr fd mark writeCompleteCallback highWaterMarkCallback epoller))
        actions ↔
      runs.Guarded ClosesOnce
        (make (.constructed ptr fd mark writeCompleteCallback highWaterMarkCallback epoller))
        actions := by
  refine Machine.always_iff_guarded Tracked
    (fun _ _ _ tracked once stepped => tracked.step once stepped)
    (fun _ tracked => tracked.paired) ?_ ⟨⟨unknown, unmonitored⟩, rfl, rfl, rfl⟩
  intro l action m tracked stepped paired
  obtain ⟨phase, session⟩ := l
  cases action with
  | connectEstablished calls | functor calls => trivial
  | report revents inputs =>
      simp only [runs, Lifecycle.step, Option.ite_none_right_eq_some, Option.map_eq_some_iff,
        toOption_eq_some] at stepped
      obtain ⟨⟨rfl, monitored⟩, s, returned, rfl⟩ := stepped
      intro twice
      rcases tracked with ⟨sound, up | down⟩
      · have reported : (session.setRevents revents).Up :=
          ⟨up.notices, up.state, ⟨up.monitored.index, up.monitored.events⟩⟩
        have heard := (reported.handleEvent returned).2 twice
        have closed := paired.closed
        rw [← closed_notices, heard] at closed
        exact absurd closed (by decide)
      · have unmonitored : session.epoller.interest session.connection.filed.fd = none :=
          down.unmonitored sound
        simp [unmonitored] at monitored
  | connectDestroyed calls =>
      simp only [runs, Lifecycle.step, Option.ite_none_right_eq_some, Option.map_eq_some_iff,
        toOption_eq_some] at stepped
      obtain ⟨rfl, s, returned, rfl⟩ := stepped
      intro halfClosed
      have halfClosed : session.connection.state = .kDisconnecting := halfClosed
      have same := ((Session.connectDestroyed_law returned).2.2.2 (by simp [halfClosed])).2
      have finished := paired.finished rfl
      rcases tracked with ⟨_, up | down⟩
      · rw [← announced_notices, same, up.notices] at finished
        exact absurd finished (by decide)
      · have closed : session.connection.state = .kDisconnected := down.state
        simp [closed] at halfClosed

/-! ## Runs that break the pairing -/

def fresh : Lifecycle Unit := make (.constructed () 5 64 false false Epoller.make)

def silent : Session.EventInputs := ⟨[], .received [], [], ⟨-1, EWOULDBLOCK⟩⟩

/-- A report with `EPOLLHUP` and `EPOLLPRI` and a read of 0 bytes announces the
connection down twice; one destroyed after `shutdown` is never announced down. -/
theorem hangup_closes_twice_and_shutdown_hides_destruction :
    ¬ runs.Always Paired fresh
        [.connectEstablished [], .report (EPOLLHUP ||| EPOLLPRI) silent] ∧
    ¬ runs.Always Paired fresh
        [.connectEstablished [], .functor [.shutdown], .connectDestroyed []] := by
  decide +kernel

/-- A report that is read and one that hangs up, and then the destruction. -/
theorem notifications_paired_iff_closesOnce_hangup :
    runs.Always Paired fresh
      [.connectEstablished [], .report EPOLLIN ⟨[], .received [1], [.shutdown], ⟨0, 0⟩⟩,
        .report EPOLLHUP silent, .connectDestroyed []] :=
  (notifications_paired_iff_closesOnce () 5 64 false false Epoller.make rfl rfl _).mpr
    (by decide +kernel)

end Lifecycle

end Lucky
