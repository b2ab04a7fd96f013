import Lucky.Connection.Interest
import Lucky.EventLoop.TaskQueue
import Mathlib.Data.Fintype.Option

/-!
# Nothing is sent on a half closed connection

`send()` and `shutdown()` on any threads: both test `state_`, `shutdown()` then
stores `kDisconnecting`, and both hand the rest to `runinLoop`, which the loop
thread runs on the spot and any other thread queues.  A caller is `none` for the
loop thread, which makes its calls from handlers and functors.

`sendinLoop` tests only for `kDisconnected`.  A send that has passed the test of
`send()` is therefore not stopped by a `shutdown()` that overtakes it.
-/

namespace Lucky

open Systems

/-- `::write`, or an append to `outputBuffer_`. -/
def Call.sends : Call → Bool
  | .write _ _ | .append _ _ _ => true
  | .queueinLoop _ | .shutdownWrite | .connectionCallback _ | .messageCallback
  | .closeCallback => false

/-- No call sends after a `shutdownWrite`. -/
def Ended (calls : List Call) : Prop :=
  calls.Pairwise fun first later => first = .shutdownWrite → later.sends = false

instance : DecidablePred Ended := fun calls => inferInstanceAs (Decidable (calls.Pairwise _))

theorem ended_append {first second : List Call} :
    Ended (first ++ second) ↔ Ended first ∧ Ended second ∧
      (.shutdownWrite ∈ first → ∀ call ∈ second, call.sends = false) := by
  unfold Ended
  rw [List.pairwise_append]
  refine and_congr_right fun _ => and_congr_right fun _ => ?_
  constructor
  · exact fun each shuts call membership => each _ shuts call membership rfl
  · intro silent call shuts later membership same
    exact silent (same ▸ shuts) later membership

theorem ended_of_not_mem {calls : List Call} (never : .shutdownWrite ∉ calls) : Ended calls := by
  apply List.pairwise_of_forall_mem_list
  intro call membership _ _ same
  exact absurd (same ▸ membership) never

/-- The place of a caller in `send` or `shutdown`. -/
inductive SenderPc where
  | idle
  /-- In `send`, after its test. -/
  | sending (len : Nat)
  /-- In `shutdown`, between its test and its store. -/
  | shutting
  /-- In `shutdown`, before `runinLoop`. -/
  | stored
  deriving DecidableEq, Repr

def SenderPc.isSending : SenderPc → Bool
  | .sending _ => true
  | .idle | .shutting | .stored => false

/-- A functor queued by `send` or `shutdown`. -/
inductive Posted where
  | sendinLoop (len : Nat)
  | shutdownInLoop
  deriving DecidableEq, Repr

def Posted.isSend : Posted → Bool
  | .sendinLoop _ => true
  | .shutdownInLoop => false

/-- A connection and its loop, with the callers of `send` and `shutdown`. -/
structure HalfClose (Tid Ptr : Type) where
  session : Session Ptr
  callers : Option Tid → SenderPc
  queue : TaskQueue Posted
  /-- The loop thread is in `doPendFunc`. -/
  running : Bool

namespace HalfClose

variable {Tid Ptr : Type}

inductive Action (Tid : Type) where
  /-- `connectEstablished` up to its callback. -/
  | establish
  | testSend (caller : Option Tid) (len : Nat)
  | testShutdown (caller : Option Tid)
  | storeState (caller : Option Tid)
  /-- The `runinLoop` of `send` or `shutdown`; `data` and `answer` are for a
  `sendinLoop` that runs on the spot. -/
  | runinLoop (caller : Option Tid) (data : Chunk) (answer : WriteResult)
  | swap
  /-- The next functor of the batch. -/
  | runNext (data : Chunk) (answer : WriteResult)
  | finish
  | handleWrite (answer : WriteResult)

def make (session : Session Ptr) : HalfClose Tid Ptr := ⟨session, fun _ => .idle, .empty, false⟩

def act (s : HalfClose Tid Ptr) (session : Session Ptr) : HalfClose Tid Ptr :=
  { s with session := session }

section Step

variable [DecidableEq Tid] [DecidableEq Ptr]

def setCaller (s : HalfClose Tid Ptr) (caller : Option Tid) (place : SenderPc) :
    HalfClose Tid Ptr :=
  { s with callers := Function.update s.callers caller place }

def queueinLoop (s : HalfClose Tid Ptr) (posted : Posted) : HalfClose Tid Ptr :=
  { s with queue := s.queue.push posted }

/-- `sendinLoop` on `len` bytes that are now `data`. -/
def sendinLoop (s : HalfClose Tid Ptr) (len : Nat) (data : Chunk) (answer : WriteResult) :
    Option (HalfClose Tid Ptr) :=
  if data.len = len ∧ answer.Valid len then
    (s.session.sendinLoop data answer).toOption.map s.act
  else none

def step (s : HalfClose Tid Ptr) : Action Tid → Option (HalfClose Tid Ptr)
  | .establish =>
      if s.callers none = .idle ∧ s.session.connection.state = .kConnecting then
        s.session.establish.toOption.map s.act
      else none
  | .testSend caller len =>
      if s.callers caller = .idle then
        some (if s.session.isConnect then s.setCaller caller (.sending len) else s)
      else none
  | .testShutdown caller =>
      if s.callers caller = .idle then
        some (if s.session.isConnect then s.setCaller caller .shutting else s)
      else none
  | .storeState caller =>
      match s.callers caller with
      | .shutting => some ((s.setCaller caller .stored).act (s.session.setState .kDisconnecting))
      | .idle | .sending _ | .stored => none
  | .runinLoop caller data answer =>
      let returned := s.setCaller caller .idle
      match s.callers caller with
      | .sending len =>
          if caller.isNone then returned.sendinLoop len data answer
          else some (returned.queueinLoop (.sendinLoop len))
      | .stored =>
          some (if caller.isNone then returned.act s.session.shutdownInLoop
            else returned.queueinLoop .shutdownInLoop)
      | .idle | .shutting => none
  | .swap =>
      if s.callers none = .idle ∧ s.running = false then
        some { s with queue := s.queue.swap, running := true }
      else none
  | .runNext data answer =>
      if s.callers none = .idle ∧ s.running = true then
        let started := { s with queue := s.queue.advance }
        s.queue.next?.bind fun
          | .sendinLoop len => started.sendinLoop len data answer
          | .shutdownInLoop => some (started.act s.session.shutdownInLoop)
      else none
  | .finish =>
      if s.callers none = .idle ∧ s.running = true ∧ s.queue.next?.isNone then
        some { s with queue := s.queue.finish, running := false }
      else none
  | .handleWrite answer =>
      if s.callers none = .idle ∧ s.running = false then
        (s.session.handleWrite answer).toOption.map s.act
      else none

/-- Every interleaving of the loop thread with the callers. -/
def interleaving : Machine (HalfClose Tid Ptr) (Action Tid) := ⟨step⟩

end Step

/-- A send has passed its test of `state_`, and its `sendinLoop` has not been run. -/
def SendInFlight (s : HalfClose Tid Ptr) : Prop :=
  (∃ caller, (s.callers caller).isSending = true) ∨
    ∃ posted ∈ s.queue.contents, posted.isSend = true

instance [Fintype Tid] (s : HalfClose Tid Ptr) : Decidable s.SendInFlight :=
  inferInstanceAs (Decidable (_ ∨ _))

/-- The step calls `shutdownWrite`. -/
def ShutsDown (s : HalfClose Tid Ptr) : Action Tid → Prop
  | .runinLoop caller _ _ =>
      caller = none ∧ s.callers none = .stored ∧ s.session.isWriting = false
  | .runNext _ _ => s.queue.next? = some .shutdownInLoop ∧ s.session.isWriting = false
  | .handleWrite answer => s.session.isWriting = true ∧ s.session.Drains answer ∧
      s.session.connection.state = .kDisconnecting
  | .establish | .testSend _ _ | .testShutdown _ | .storeState _ | .swap | .finish => False

instance [DecidableEq Tid] (s : HalfClose Tid Ptr) : DecidablePred s.ShutsDown
  | .runinLoop _ _ _ | .runNext _ _ | .handleWrite _ => inferInstanceAs (Decidable (_ ∧ _))
  | .establish | .testSend _ _ | .testShutdown _ | .storeState _ | .swap | .finish => isFalse id

/-- The write side is shut down only while no send is in flight. -/
def ShutsLast (s : HalfClose Tid Ptr) (action : Action Tid) : Prop :=
  s.ShutsDown action → ¬ s.SendInFlight

instance [DecidableEq Tid] [Fintype Tid] (s : HalfClose Tid Ptr) (action : Action Tid) :
    Decidable (s.ShutsLast action) :=
  inferInstanceAs (Decidable (_ → _))

/-! ## Runs in which the write side is shut down last -/

/-- What a step may change while the write side may be shut down: the link between
interest and buffer, and the order of the calls. -/
structure Orderly (s : Session Ptr) : Prop where
  wellFormed : s.connection.outputBuffer.WellFormed
  interested : s.Interested
  ended : Ended s.calls

theorem Orderly.sendinLoop [DecidableEq Ptr] {s t : Session Ptr} {data : Chunk}
    {answer : WriteResult} (orderly : Orderly s) (unshut : .shutdownWrite ∉ s.calls)
    (valid : answer.Valid data.len) (returned : s.sendinLoop data answer = .ok t) :
    Orderly t ∧ t.connection.state = s.connection.state ∧ .shutdownWrite ∉ t.calls := by
  have sent := Session.sendinLoop_sent orderly.wellFormed valid returned
  obtain ⟨offset, calls⟩ := sent.calls
  have still : .shutdownWrite ∉ t.calls := by
    rw [calls, List.mem_append, List.mem_append, not_or, not_or]
    exact ⟨unshut, s.not_mem_directCalls data answer, s.not_mem_appending offset _ _⟩
  exact ⟨⟨sent.wellFormed, sent.interested orderly.interested, ended_of_not_mem still⟩,
    by rw [sent.frame], still⟩

theorem Orderly.shutdownInLoop {s : Session Ptr} (orderly : Orderly s) :
    Orderly s.shutdownInLoop ∧ s.shutdownInLoop.connection = s.connection ∧
      (.shutdownWrite ∈ s.shutdownInLoop.calls → .shutdownWrite ∈ s.calls ∨
        s.isWriting = false) := by
  unfold Session.shutdownInLoop
  split
  next idle =>
    refine ⟨⟨orderly.wellFormed, orderly.interested, ?_⟩, rfl, fun _ => .inr ?_⟩
    · exact ended_append.mpr ⟨orderly.ended, List.pairwise_singleton _ _,
        fun _ call membership => List.mem_singleton.mp membership ▸ rfl⟩
    · exact (Bool.not_eq_true' _).mp idle
  next => exact ⟨orderly, rfl, .inl⟩

theorem Orderly.handleWrite [DecidableEq Ptr] {s t : Session Ptr} {answer : WriteResult}
    (orderly : Orderly s) (idle : .shutdownWrite ∈ s.calls → s.isWriting = false)
    (returned : s.handleWrite answer = .ok t) :
    Orderly t ∧ t.connection.state = s.connection.state ∧
      (.shutdownWrite ∈ t.calls → t.isWriting = false ∧
        (.shutdownWrite ∈ s.calls ∨
          s.isWriting = true ∧ s.Drains answer ∧ s.connection.state = .kDisconnecting)) := by
  cases writing : s.isWriting with
  | false =>
      have same := Session.handleWrite_idle writing returned
      subst same
      exact ⟨orderly, rfl, fun shut => ⟨writing, .inl shut⟩⟩
  | true =>
      have unshut : .shutdownWrite ∉ s.calls := by
        intro shut
        have quiet := idle shut
        rw [writing] at quiet
        cases quiet
      have flushed := Session.handleWrite_flushed orderly.wellFormed writing returned
      have interested := flushed.interested (orderly.interested.mp writing)
      have state : t.connection.state = s.connection.state := by rw [flushed.frame]
      have calls := flushed.calls
      by_cases drains : s.Drains answer
      · rw [if_pos drains, Session.drainedCalls, ← List.cons_append,
          ← List.append_assoc] at calls
        have before : .shutdownWrite ∉ s.calls ++
            .write s.connection.outputBuffer.readable answer :: s.completion := by
          simp [unshut, s.not_mem_completion]
        refine ⟨⟨flushed.wellFormed, interested, ?_⟩, state, ?_⟩
        · rw [calls, ended_append]
          refine ⟨ended_of_not_mem before, ?_, fun shut => absurd shut before⟩
          split
          · exact List.pairwise_singleton _ _
          · exact List.Pairwise.nil
        · rw [calls, List.mem_append, flushed.isWriting, decide_eq_true drains]
          rintro (shut | shut)
          · exact absurd shut before
          · split at shut
            next disconnecting => exact ⟨rfl, .inr ⟨rfl, drains, disconnecting⟩⟩
            next => simp at shut
      · rw [if_neg drains] at calls
        have still : .shutdownWrite ∉ t.calls := by simp [calls, unshut]
        exact ⟨⟨flushed.wellFormed, interested, ended_of_not_mem still⟩, state,
          fun shut => absurd shut still⟩

/-- What a run keeps in which the write side is shut down last. -/
structure Halved (s : HalfClose Tid Ptr) : Prop extends Orderly s.session where
  stored : ∀ caller, s.callers caller = .stored → s.session.connection.state = .kDisconnecting
  posted : .shutdownInLoop ∈ s.queue.contents → s.session.connection.state = .kDisconnecting
  shut : .shutdownWrite ∈ s.session.calls → s.session.connection.state = .kDisconnecting ∧
    s.session.isWriting = false ∧ ¬ s.SendInFlight

theorem SendInFlight.mono {s t : HalfClose Tid Ptr}
    (callers : ∀ caller, (t.callers caller).isSending = true →
      (s.callers caller).isSending = true)
    (sends : ∀ posted ∈ t.queue.contents, posted.isSend = true → posted ∈ s.queue.contents)
    (inFlight : t.SendInFlight) : s.SendInFlight := by
  rcases inFlight with ⟨caller, sending⟩ | ⟨posted, membership, send⟩
  · exact .inl ⟨caller, callers caller sending⟩
  · exact .inr ⟨posted, sends posted membership send, send⟩

theorem Halved.open_of_inFlight {s : HalfClose Tid Ptr} (halved : Halved s)
    (inFlight : s.SendInFlight) : .shutdownWrite ∉ s.session.calls :=
  fun shut => (halved.shut shut).2.2 inFlight

/-- Steps of the callers and the queue alone. -/
theorem Halved.move {s t : HalfClose Tid Ptr} (halved : Halved s)
    (session : t.session = s.session)
    (stored : ∀ caller, t.callers caller = .stored → s.callers caller = .stored)
    (posted : .shutdownInLoop ∈ t.queue.contents →
      .shutdownInLoop ∈ s.queue.contents ∨ ∃ caller, s.callers caller = .stored)
    (inFlight : s.session.connection.state = .kDisconnecting →
      t.SendInFlight → s.SendInFlight) :
    Halved t := by
  refine ⟨session ▸ halved.toOrderly, ?_, ?_, ?_⟩
  · rw [session]
    exact fun caller place => halved.stored caller (stored caller place)
  · rw [session]
    intro membership
    rcases posted membership with before | ⟨caller, place⟩
    · exact halved.posted before
    · exact halved.stored caller place
  · rw [session]
    intro shut
    obtain ⟨disconnecting, idle, nothing⟩ := halved.shut shut
    exact ⟨disconnecting, idle, fun later => nothing (inFlight disconnecting later)⟩

/-- `sendinLoop` runs for a send in flight, so the write side is still open. -/
theorem Halved.sendinLoop [DecidableEq Ptr] {s t u : HalfClose Tid Ptr} {len : Nat}
    {data : Chunk} {answer : WriteResult} (halved : Halved s) (inFlight : s.SendInFlight)
    (session : t.session = s.session)
    (stored : ∀ caller, t.callers caller = .stored → s.callers caller = .stored)
    (posted : .shutdownInLoop ∈ t.queue.contents → .shutdownInLoop ∈ s.queue.contents)
    (sent : t.sendinLoop len data answer = some u) : Halved u := by
  simp only [HalfClose.sendinLoop, Option.ite_none_right_eq_some, Option.map_eq_some_iff,
    toOption_eq_some, session] at sent
  obtain ⟨⟨rfl, valid⟩, after, returned, rfl⟩ := sent
  obtain ⟨orderly, state, unshut⟩ :=
    halved.toOrderly.sendinLoop (halved.open_of_inFlight inFlight) valid returned
  refine ⟨orderly, ?_, ?_, fun shut => absurd shut unshut⟩
  · exact fun caller place => state.trans (halved.stored caller (stored caller place))
  · exact fun membership => state.trans (halved.posted (posted membership))

/-- `shutdownInLoop` runs after `kDisconnecting` has been stored, and last. -/
theorem Halved.shutdownInLoop {s t : HalfClose Tid Ptr} (halved : Halved s)
    (disconnecting : s.session.connection.state = .kDisconnecting)
    (session : t.session = s.session.shutdownInLoop)
    (inFlight : t.SendInFlight → s.SendInFlight)
    (last : s.session.isWriting = false → ¬ s.SendInFlight) : Halved t := by
  obtain ⟨orderly, same, shuts⟩ := halved.toOrderly.shutdownInLoop
  have state : t.session.connection.state = .kDisconnecting := by
    rw [session, same]
    exact disconnecting
  refine ⟨session ▸ orderly, fun _ _ => state, fun _ => state, ?_⟩
  intro shut
  rw [session] at shut
  have quiet : s.session.isWriting = false ∧ ¬ s.SendInFlight := by
    rcases shuts shut with before | idle
    · exact (halved.shut before).2
    · exact ⟨idle, last idle⟩
  refine ⟨state, ?_, fun later => quiet.2 (inFlight later)⟩
  rw [session, Session.isWriting, same]
  exact quiet.1

section Runs

variable [DecidableEq Tid]

theorem stored_setCaller {s : HalfClose Tid Ptr} {caller other : Option Tid} {place : SenderPc}
    (elsewhere : place ≠ .stored) (stored : (s.setCaller caller place).callers other = .stored) :
    s.callers other = .stored := by
  by_cases same : other = caller
  · subst same
    simp [setCaller] at stored
    exact absurd stored elsewhere
  · simpa [setCaller, same] using stored

theorem isSending_setCaller {s : HalfClose Tid Ptr} {caller other : Option Tid}
    {place : SenderPc} (elsewhere : place.isSending = false)
    (sending : ((s.setCaller caller place).callers other).isSending = true) :
    (s.callers other).isSending = true := by
  by_cases same : other = caller
  · subst same
    simp [setCaller, elsewhere] at sending
  · simpa [setCaller, same] using sending

variable [DecidableEq Ptr]

theorem Halved.step {s t : HalfClose Tid Ptr} {action : Action Tid} (halved : Halved s)
    (last : s.ShutsLast action) (stepped : s.step action = some t) : Halved t := by
  cases action with
  | establish =>
      simp only [HalfClose.step, Option.ite_none_right_eq_some, Option.map_eq_some_iff,
        toOption_eq_some] at stepped
      obtain ⟨⟨_, connecting⟩, session, returned, rfl⟩ := stepped
      have early : s.session.connection.state ≠ .kDisconnecting := by simp [connecting]
      obtain ⟨_, calls, connection⟩ := Session.onFiled_setEvents rfl returned
      have unshut : .shutdownWrite ∉ session.calls := by
        rw [calls]
        exact fun shut => early (halved.shut shut).1
      refine ⟨⟨?_, ?_, ended_of_not_mem unshut⟩,
        fun caller place => absurd (halved.stored caller place) early,
        fun membership => absurd (halved.posted membership) early, fun shut => absurd shut unshut⟩
      · rw [act, connection]
        exact halved.wellFormed
      · have interested := halved.interested
        unfold Session.Interested Session.isWriting Session.unread at *
        rw [act, connection, Filed.isWriting_enableReading]
        exact interested
  | testSend caller len =>
      simp only [HalfClose.step, Option.ite_none_right_eq_some, Option.some.injEq] at stepped
      obtain ⟨_, rfl⟩ := stepped
      split
      next connected =>
        have undisturbed : s.session.connection.state ≠ .kDisconnecting := by
          simp only [Session.isConnect, beq_iff_eq] at connected
          simp [connected]
        exact halved.move rfl (fun _ => stored_setCaller (by simp)) .inl
          (fun disconnecting => absurd disconnecting undisturbed)
      next => exact halved
  | testShutdown caller =>
      simp only [HalfClose.step, Option.ite_none_right_eq_some, Option.some.injEq] at stepped
      obtain ⟨_, rfl⟩ := stepped
      split
      next =>
        exact halved.move rfl (fun _ => stored_setCaller (by simp)) .inl
          (fun _ => .mono (fun _ => isSending_setCaller rfl) (fun _ membership _ => membership))
      next => exact halved
  | storeState caller =>
      simp only [HalfClose.step] at stepped
      split at stepped <;> cases stepped
      have inFlight : (s.setCaller caller .stored).SendInFlight → s.SendInFlight :=
        .mono (fun _ => isSending_setCaller rfl) (fun _ membership _ => membership)
      refine ⟨⟨halved.wellFormed, halved.interested, halved.ended⟩,
        fun _ _ => rfl, fun _ => rfl,
        fun shut => ⟨rfl, (halved.shut shut).2.1, fun later => ?_⟩⟩
      exact (halved.shut shut).2.2 (inFlight later)
  | runinLoop caller data answer =>
      have callers (other : Option Tid) :
          (s.setCaller caller .idle).callers other = .stored → s.callers other = .stored :=
        stored_setCaller (by simp)
      have quiet (other : Option Tid) :
          ((s.setCaller caller .idle).callers other).isSending = true →
            (s.callers other).isSending = true :=
        isSending_setCaller rfl
      simp only [HalfClose.step] at stepped
      split at stepped
      next len place =>
        have sending : s.SendInFlight := .inl ⟨caller, by rw [place]; rfl⟩
        split at stepped
        · exact halved.sendinLoop (t := s.setCaller caller .idle) sending rfl callers id stepped
        · cases stepped
          refine halved.move rfl callers ?_ (fun _ _ => sending)
          intro membership
          rw [queueinLoop, TaskQueue.contents_push, List.mem_append] at membership
          exact .inl (membership.resolve_right (by simp))
      next place =>
        cases stepped
        have disconnecting := halved.stored caller place
        split
        next own =>
          rw [Option.isNone_iff_eq_none] at own
          subst own
          exact halved.shutdownInLoop disconnecting rfl
            (.mono quiet (fun _ membership _ => membership))
            (fun idle => last ⟨rfl, place, idle⟩)
        next =>
          refine halved.move rfl callers (fun _ => .inr ⟨caller, place⟩) (fun _ later => ?_)
          refine SendInFlight.mono
            (t := (s.setCaller caller .idle).queueinLoop .shutdownInLoop) quiet ?_ later
          intro posted membership send
          rw [queueinLoop, TaskQueue.contents_push, List.mem_append] at membership
          rcases membership with before | pushed
          · exact before
          · rw [List.mem_singleton.mp pushed] at send
            cases send
      next => cases stepped
      next => cases stepped
  | swap =>
      simp only [HalfClose.step, Option.ite_none_right_eq_some, Option.some.injEq] at stepped
      obtain ⟨_, rfl⟩ := stepped
      exact halved.move rfl (fun _ => id)
        (fun membership => .inl (TaskQueue.mem_of_mem_swap membership))
        (fun _ => .mono (fun _ => id) (fun _ membership _ => TaskQueue.mem_of_mem_swap membership))
  | runNext data answer =>
      simp only [HalfClose.step, Option.ite_none_right_eq_some, Option.bind_eq_some_iff] at stepped
      obtain ⟨_, posted, found, run⟩ := stepped
      have head := TaskQueue.mem_contents_of_next found
      have rest : ∀ later ∈ s.queue.advance.contents, later ∈ s.queue.contents :=
        fun _ => TaskQueue.mem_of_mem_advance found
      cases posted with
      | sendinLoop len =>
          exact halved.sendinLoop (t := { s with queue := s.queue.advance })
            (.inr ⟨_, head, rfl⟩) rfl (fun _ => id) (rest _) run
      | shutdownInLoop =>
          cases run
          exact halved.shutdownInLoop (halved.posted head) rfl
            (.mono (fun _ => id) (fun later membership _ => rest later membership))
            (fun idle => last ⟨found, idle⟩)
  | finish =>
      simp only [HalfClose.step, Option.ite_none_right_eq_some, Option.some.injEq] at stepped
      obtain ⟨_, rfl⟩ := stepped
      exact halved.move rfl (fun _ => id)
        (fun membership => .inl (TaskQueue.mem_of_mem_finish membership))
        (fun _ => .mono (fun _ => id)
          (fun _ membership _ => TaskQueue.mem_of_mem_finish membership))
  | handleWrite answer =>
      simp only [HalfClose.step, Option.ite_none_right_eq_some, Option.map_eq_some_iff,
        toOption_eq_some] at stepped
      obtain ⟨_, session, returned, rfl⟩ := stepped
      obtain ⟨orderly, state, shuts⟩ :=
        halved.toOrderly.handleWrite (fun shut => (halved.shut shut).2.1) returned
      refine ⟨orderly, fun caller place => state.trans (halved.stored caller place),
        fun membership => state.trans (halved.posted membership), fun shut => ?_⟩
      obtain ⟨idle, before | ⟨writing, drains, disconnecting⟩⟩ := shuts shut
      · obtain ⟨disconnecting, _, nothing⟩ := halved.shut before
        exact ⟨state.trans disconnecting, idle, nothing⟩
      · exact ⟨state.trans disconnecting, idle, last ⟨writing, drains, disconnecting⟩⟩

/-- In every run in which the write side is shut down only while no send is in flight,
nothing is sent afterwards. -/
theorem nothing_sent_after_shutdown (ptr : Ptr) (fd mark : Nat)
    (writeCompleteCallback highWaterMarkCallback : Bool) (epoller : Epoller Ptr)
    (actions : List (Action Tid))
    (last : interleaving.Guarded ShutsLast
      (make (.constructed ptr fd mark writeCompleteCallback highWaterMarkCallback epoller))
      actions) :
    interleaving.Always (fun s => Ended s.session.calls)
      (make (.constructed ptr fd mark writeCompleteCallback highWaterMarkCallback epoller))
      actions := by
  obtain ⟨wellFormed, _, interested⟩ := Session.constructed_idle ptr fd mark
    writeCompleteCallback highWaterMarkCallback epoller
  have initially : Halved (make
      (.constructed ptr fd mark writeCompleteCallback highWaterMarkCallback epoller) :
        HalfClose Tid Ptr) := by
    refine ⟨⟨wellFormed, interested, List.Pairwise.nil⟩, ?_, ?_, ?_⟩
    · simp [make]
    · simp [make, TaskQueue.empty, TaskQueue.contents, TaskQueue.remaining]
    · simp [make, Session.constructed, Session.make]
  exact Machine.always_of_guarded (fun _ _ _ halved last stepped => Halved.step halved last stepped)
    (fun _ halved => (Halved.toOrderly halved).ended) initially last

end Runs

def fresh : HalfClose (Fin 2) Unit := make (.constructed () 5 64 false false Epoller.make)

/-- A send has been queued when the loop thread calls `shutdown`, which `runinLoop`
runs on the spot. -/
def overtaken : List (Action (Fin 2)) :=
  [.establish, .testSend (some 0) 1, .runinLoop (some 0) (.single 97) ⟨0, 0⟩,
    .testShutdown none, .storeState none, .runinLoop none (.single 97) ⟨0, 0⟩, .swap,
    .runNext (.single 97) ⟨1, 0⟩]

/-- A send has been tested when another thread queues the functor of `shutdown`. -/
def tested : List (Action (Fin 2)) :=
  [.establish, .testSend (some 0) 1, .testShutdown (some 1), .storeState (some 1),
    .runinLoop (some 1) (.single 97) ⟨0, 0⟩, .runinLoop (some 0) (.single 97) ⟨0, 0⟩, .swap,
    .runNext (.single 97) ⟨0, 0⟩, .runNext (.single 97) ⟨0, 0⟩]

/-- Both times `sendinLoop` writes to the socket after its write side has been shut
down, the second time also appending to `outputBuffer_`. -/
theorem overtaken_send_is_written :
    ¬ interleaving.Always (fun s => Ended s.session.calls) fresh overtaken ∧
    ¬ interleaving.Always (fun s => Ended s.session.calls) fresh tested ∧
    (interleaving.exec fresh tested).map (fun s => s.session.calls) =
      some [.shutdownWrite, .write [97] ⟨0, 0⟩, .append 0 1 1] := by
  decide +kernel

/-- A queued send is run and buffered before the loop thread calls `shutdown`; the last
write shuts down. -/
theorem nothing_sent_after_shutdown_drained :
    interleaving.Always (fun s => Ended s.session.calls) fresh
      [.establish, .testSend (some 0) 1, .runinLoop (some 0) (.single 97) ⟨0, 0⟩, .swap,
        .runNext (.single 97) ⟨0, 0⟩, .finish, .testShutdown none, .storeState none,
        .runinLoop none (.single 97) ⟨0, 0⟩, .handleWrite ⟨1, 0⟩] :=
  nothing_sent_after_shutdown () 5 64 false false Epoller.make _ (by decide +kernel)

end HalfClose

end Lucky
