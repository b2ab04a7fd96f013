import Lucky.Connection.Closing
import Lucky.Systems.Machine

/-!
# Is `kDisconnected` final?

`shutdown()` may run on any thread: it tests `state_` and then stores
`kDisconnecting`, two separate steps.  The loop thread's functions are cut at
their accesses to `state_`, so one action is at most one access; between its own
actions the loop thread may do any other, which covers every order its events,
functors and callbacks can take.  A caller is `none` for the loop thread.
-/

namespace Lucky

open Systems

inductive ShutdownPc where
  | idle
  /-- Between the test and the store; whether `kDisconnected` has been stored since
  the test. -/
  | tested (overtaken : Bool)
  /-- Before `runinLoop`. -/
  | stored
  deriving DecidableEq, Repr

def ShutdownPc.overtake : ShutdownPc → ShutdownPc
  | .tested _ => .tested true
  | .idle => .idle
  | .stored => .stored

/-- A connection whose `state_` other threads use. -/
structure Shared (Tid Ptr : Type) where
  session : Session Ptr
  established : Bool
  callers : Option Tid → ShutdownPc
  /-- The loop thread is between the test and the store of `connectDestroyed`. -/
  destroying : Bool
  /-- Number of `shutdownInLoop` functors queued. -/
  queued : Nat
  /-- `kDisconnected` has been stored. -/
  closed : Bool

namespace Shared

variable {Tid Ptr : Type}

inductive Action (Tid : Type) where
  /-- `connectEstablished` up to its callback: a store. -/
  | establish
  /-- `handleRead` of some bytes or of an error; after 0 bytes it is `handleClose`. -/
  | handleRead (answer : ReadvResult)
  | handleWrite (answer : WriteResult)
  /-- `handleClose` up to its callbacks: a store. -/
  | beginClose
  | connectionCallback
  | closeCallback
  | sendinLoop (data : Chunk) (answer : WriteResult)
  | shutdownInLoop
  /-- The test of `connectDestroyed`. -/
  | destroyTest
  /-- Its store. -/
  | destroyStore
  /-- Its `filed_->remove()`. -/
  | destroyRemove
  /-- The test of `shutdown()`. -/
  | testState (caller : Option Tid)
  /-- Its store. -/
  | storeState (caller : Option Tid)
  /-- Its `runinLoop(shutdownInLoop)`. -/
  | post (caller : Option Tid)

def make (ptr : Ptr) (connection : Connection) (epoller : Epoller Ptr) : Shared Tid Ptr :=
  ⟨Session.make ptr connection epoller, false, fun _ => .idle, false, 0, false⟩

/-- The loop thread may start something new on the established connection. -/
def Free (s : Shared Tid Ptr) : Prop :=
  s.established = true ∧ s.callers none = .idle ∧ s.destroying = false

instance (s : Shared Tid Ptr) : Decidable s.Free := inferInstanceAs (Decidable (_ ∧ _ ∧ _))

def act (s : Shared Tid Ptr) (session : Session Ptr) : Shared Tid Ptr :=
  { s with session := session }

def close (s : Shared Tid Ptr) (session : Session Ptr) : Shared Tid Ptr :=
  { s with
    session := session
    callers := fun caller => (s.callers caller).overtake
    destroying := false
    closed := true }

section Step

variable [DecidableEq Tid] [DecidableEq Ptr]

def setCaller (s : Shared Tid Ptr) (caller : Option Tid) (place : ShutdownPc) : Shared Tid Ptr :=
  { s with callers := Function.update s.callers caller place }

def step (s : Shared Tid Ptr) : Action Tid → Option (Shared Tid Ptr)
  | .establish =>
      if s.established = false ∧ s.callers none = .idle then
        s.session.establish.toOption.map fun session => { s.act session with established := true }
      else none
  | .handleRead answer =>
      if s.Free ∧ answer.count ≠ 0 then (s.session.handleRead answer []).toOption.map s.act
      else none
  | .handleWrite answer =>
      if s.Free then (s.session.handleWrite answer).toOption.map s.act else none
  | .beginClose => if s.Free then s.session.beginClose.toOption.map s.close else none
  | .connectionCallback =>
      if s.Free then
        some (s.act (s.session.record (.connectionCallback s.session.isConnect)))
      else none
  | .closeCallback => if s.Free then some (s.act (s.session.record .closeCallback)) else none
  | .sendinLoop data answer =>
      if s.Free then (s.session.sendinLoop data answer).toOption.map s.act else none
  | .shutdownInLoop =>
      if s.Free ∧ 0 < s.queued then
        some { s.act s.session.shutdownInLoop with queued := s.queued - 1 }
      else none
  | .destroyTest =>
      if s.Free then some { s with destroying := s.session.isConnect } else none
  | .destroyStore =>
      if s.destroying = true then s.session.beginClose.toOption.map s.close else none
  | .destroyRemove =>
      if s.Free then (s.session.onFiled Filed.remove).toOption.map s.act else none
  | .testState caller =>
      if s.callers caller = .idle ∧ (caller.isNone → s.destroying = false) then
        some (if s.session.isConnect then s.setCaller caller (.tested false) else s)
      else none
  | .storeState caller =>
      match s.callers caller with
      | .tested _ => some ((s.setCaller caller .stored).act (s.session.setState .kDisconnecting))
      | .idle | .stored => none
  | .post caller =>
      match s.callers caller with
      | .stored =>
          let returned := s.setCaller caller .idle
          some (if caller.isNone then returned.act s.session.shutdownInLoop
            else { returned with queued := s.queued + 1 })
      | .idle | .tested _ => none

/-- Every interleaving of the loop thread with the callers of `shutdown()`. -/
def interleaving : Machine (Shared Tid Ptr) (Action Tid) := ⟨step⟩

end Step

/-- Once stored, `kDisconnected` is what `state_` holds, and `sendinLoop` gives up. -/
structure Final [DecidableEq Ptr] (s : Shared Tid Ptr) : Prop where
  state : s.closed = true → s.session.connection.state = .kDisconnected
  givesUp : s.closed = true → ∀ data answer, s.session.sendinLoop data answer = .ok s.session

/-- No `shutdown()` stores after a store of `kDisconnected` that followed its test. -/
def InTime (s : Shared Tid Ptr) : Action Tid → Prop
  | .storeState caller => s.callers caller ≠ .tested true
  | _ => True

/-- A test that has been overtaken, or not, says whether `kDisconnected` has been
stored. -/
structure Settled (s : Shared Tid Ptr) : Prop where
  state : s.closed = true → s.session.connection.state = .kDisconnected
  fresh : s.established = false → s.closed = false
  tested : ∀ caller overtaken, s.callers caller = .tested overtaken → s.closed = overtaken
  destroying : s.destroying = true → s.established = true

theorem Final.of_state [DecidableEq Ptr] {s : Shared Tid Ptr}
    (state : s.closed = true → s.session.connection.state = .kDisconnected) : Final s := by
  refine ⟨state, fun closed data answer => ?_⟩
  rw [Session.sendinLoop, if_pos (state closed)]
  rfl

theorem Settled.move {s t : Shared Tid Ptr} (settled : Settled s)
    (stays : s.session.connection.state = .kDisconnected →
      t.session.connection.state = .kDisconnected)
    (established : t.established = s.established) (callers : t.callers = s.callers)
    (closed : t.closed = s.closed) (destroying : t.destroying = true → s.established = true) :
    Settled t := by
  refine ⟨fun done => stays (settled.state (closed ▸ done)), fun new => ?_, ?_, ?_⟩
  · rw [closed]
    exact settled.fresh (established ▸ new)
  · rw [callers, closed]
    exact settled.tested
  · rw [established]
    exact destroying

theorem Settled.close {s : Shared Tid Ptr} {session : Session Ptr}
    (established : s.established = true) (state : session.connection.state = .kDisconnected) :
    Settled (s.close session) := by
  refine ⟨fun _ => state, fun new => ?_, ?_, fun _ => established⟩
  · rw [Shared.close, established] at new
    cases new
  · intro caller overtaken between
    simp only [Shared.close] at between ⊢
    cases place : s.callers caller <;> simp_all [ShutdownPc.overtake]

variable [DecidableEq Tid]

theorem Settled.setCaller {s : Shared Tid Ptr} (settled : Settled s) (caller : Option Tid)
    {place : ShutdownPc}
    (unclosed : ∀ overtaken, place = .tested overtaken → s.closed = overtaken) :
    Settled (s.setCaller caller place) := by
  refine ⟨settled.state, settled.fresh, ?_, settled.destroying⟩
  intro other overtaken between
  by_cases same : other = caller
  · subst same
    exact unclosed overtaken (by simpa [Shared.setCaller] using between)
  · exact settled.tested other overtaken (by simpa [Shared.setCaller, same] using between)

variable [DecidableEq Ptr]

theorem Settled.step {s t : Shared Tid Ptr} {action : Action Tid} (settled : Settled s)
    (inTime : s.InTime action) (stepped : s.step action = some t) : Settled t := by
  cases action with
  | establish =>
      simp only [Shared.step, Option.ite_none_right_eq_some, Option.map_eq_some_iff,
        toOption_eq_some] at stepped
      obtain ⟨⟨new, _⟩, session, _, rfl⟩ := stepped
      have unclosed : ¬ s.closed = true := by simp [settled.fresh new]
      exact ⟨fun closed => absurd closed unclosed, by simp, settled.tested, fun _ => rfl⟩
  | handleRead answer =>
      simp only [Shared.step, Option.ite_none_right_eq_some, Option.map_eq_some_iff,
        toOption_eq_some] at stepped
      obtain ⟨⟨_, nonzero⟩, session, returned, rfl⟩ := stepped
      have quiet := (Session.handleRead_law returned).1 nonzero
      exact settled.move quiet.disconnected rfl rfl rfl settled.destroying
  | handleWrite answer =>
      simp only [Shared.step, Option.ite_none_right_eq_some, Option.map_eq_some_iff,
        toOption_eq_some] at stepped
      obtain ⟨_, session, returned, rfl⟩ := stepped
      exact settled.move (Session.Quiet.handleWrite returned).disconnected rfl rfl rfl
        settled.destroying
  | sendinLoop data answer =>
      simp only [Shared.step, Option.ite_none_right_eq_some, Option.map_eq_some_iff,
        toOption_eq_some] at stepped
      obtain ⟨_, session, returned, rfl⟩ := stepped
      exact settled.move (Session.Quiet.sendinLoop returned).disconnected rfl rfl rfl
        settled.destroying
  | beginClose =>
      simp only [Shared.step, Option.ite_none_right_eq_some, Option.map_eq_some_iff,
        toOption_eq_some] at stepped
      obtain ⟨⟨established, _⟩, session, returned, rfl⟩ := stepped
      refine .close established ?_
      rw [(Session.beginClose_law returned).2.2]
  | destroyStore =>
      simp only [Shared.step, Option.ite_none_right_eq_some, Option.map_eq_some_iff,
        toOption_eq_some] at stepped
      obtain ⟨destroying, session, returned, rfl⟩ := stepped
      refine .close (settled.destroying destroying) ?_
      rw [(Session.beginClose_law returned).2.2]
  | connectionCallback | closeCallback =>
      simp only [Shared.step, Option.ite_none_right_eq_some, Option.some.injEq] at stepped
      obtain ⟨_, rfl⟩ := stepped
      exact settled.move id rfl rfl rfl settled.destroying
  | shutdownInLoop =>
      simp only [Shared.step, Option.ite_none_right_eq_some, Option.some.injEq] at stepped
      obtain ⟨_, rfl⟩ := stepped
      exact settled.move (Session.Quiet.shutdownInLoop s.session).disconnected rfl rfl rfl
        settled.destroying
  | destroyTest =>
      simp only [Shared.step, Option.ite_none_right_eq_some, Option.some.injEq] at stepped
      obtain ⟨free, rfl⟩ := stepped
      exact settled.move id rfl rfl rfl fun _ => free.1
  | destroyRemove =>
      simp only [Shared.step, Option.ite_none_right_eq_some, Option.map_eq_some_iff,
        toOption_eq_some] at stepped
      obtain ⟨_, session, returned, rfl⟩ := stepped
      have same := (Session.onFiled_remove returned).2.2
      refine settled.move (fun disconnected => ?_) rfl rfl rfl settled.destroying
      rw [Shared.act, same]
      exact disconnected
  | testState caller =>
      simp only [Shared.step, Option.ite_none_right_eq_some, Option.some.injEq] at stepped
      obtain ⟨_, rfl⟩ := stepped
      split
      next connected =>
        refine settled.setCaller caller ?_
        rintro overtaken same
        cases same
        cases closed : s.closed with
        | false => rfl
        | true => simp [Session.isConnect, settled.state closed] at connected
      next => exact settled
  | storeState caller =>
      simp only [Shared.step] at stepped
      split at stepped <;> cases stepped
      next overtaken between =>
        have stillOpen : s.closed = false := by
          cases overtaken with
          | true => exact absurd between inTime
          | false => exact settled.tested caller false between
        have stored : Settled (s.setCaller caller .stored) := settled.setCaller caller (by simp)
        have unclosed : ¬ s.closed = true := by simp [stillOpen]
        exact ⟨fun closed => absurd closed unclosed, stored.fresh, stored.tested,
          stored.destroying⟩
  | post caller =>
      simp only [Shared.step] at stepped
      split at stepped <;> cases stepped
      next =>
        have returned : Settled (s.setCaller caller .idle) := settled.setCaller caller (by simp)
        split
        · exact returned.move (Session.Quiet.shutdownInLoop s.session).disconnected rfl rfl rfl
            returned.destroying
        · exact returned.move id rfl rfl rfl returned.destroying

/-- Once stored, `kDisconnected` is final throughout a run exactly when no
`shutdown()` of the run stores `kDisconnecting` after a store of `kDisconnected`
that followed its test. -/
theorem disconnected_final_iff_inTime (ptr : Ptr) (connection : Connection)
    (epoller : Epoller Ptr) (actions : List (Action Tid)) :
    interleaving.Always Final (make ptr connection epoller) actions ↔
      interleaving.Guarded InTime (make ptr connection epoller) actions := by
  refine Machine.always_iff_guarded Settled
    (fun _ _ _ settled inTime stepped => settled.step inTime stepped)
    (fun _ settled => .of_state settled.state) ?_
    ⟨by simp [make], fun _ => rfl, by simp [make], by simp [make]⟩
  intro s action t settled stepped final
  cases action with
  | storeState caller =>
      intro between
      simp only [interleaving, Shared.step, between, Option.some.injEq] at stepped
      subst stepped
      have closed := settled.tested caller true between
      exact absurd (final.state closed) (by simp [act, Session.setState])
  | _ => trivial

def oneByte : Chunk := ⟨fun _ => 97, 1, by decide⟩

/-- Thread 1 is between the test and the store of `shutdown()` while the loop thread
closes the connection; a queued `sendinLoop` comes last. -/
def closedWhileShuttingDown : List (Action Nat) :=
  [.establish, .connectionCallback, .testState (some 1), .beginClose, .connectionCallback,
    .closeCallback, .storeState (some 1), .sendinLoop oneByte ⟨0, 0⟩]

instance (s : Shared Tid Ptr) : Decidable (Final s) :=
  decidable_of_iff (s.closed = true → s.session.connection.state = .kDisconnected)
    ⟨.of_state, fun final => final.state⟩

/-- `state_` leaves `kDisconnected`, and `sendinLoop` writes, buffers the byte and has
the closed descriptor monitored again. -/
theorem shutdown_reopens_closed_connection :
    ¬ interleaving.Always Final (make () (Connection.make 5 false false) Epoller.make)
        closedWhileShuttingDown ∧
    (interleaving.exec (make () (Connection.make 5 false false) Epoller.make)
        closedWhileShuttingDown).map (fun s => (s.closed, s.session.connection.state,
          s.session.connection.outputBuffer.readable, s.session.epoller.interest 5)) =
      some (true, .kDisconnecting, [97], some ⟨EPOLLOUT, ()⟩) := by
  decide +kernel

end Shared

end Lucky
