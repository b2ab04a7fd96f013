import Lucky.Connection.Quiet

/-!
# Establishing, closing and destroying

What `connectEstablished`, `handleClose`, `handleRead`, `handleEvent` and
`connectDestroyed` do to the notifications, to `state_` and to `filed_`.  A
connection is `Up` or `Down` by what the user has been told; one report takes it
from the one to the other, or, when it hangs up and then reads 0 bytes, closes it
a second time.
-/

namespace Lucky

open Systems

/-- `n` of `readFd`. -/
def ReadvResult.count : ReadvResult → Int
  | .failed _ => -1
  | .received bytes => bytes.length

theorem Buffer.readFd_count {b input : Buffer} {saveErrno errno : Nat} {answer : ReadvResult}
    {n : Int} (returned : b.readFd saveErrno answer = .ok (input, n, errno)) :
    n = answer.count := by
  cases answer with
  | failed errno =>
      cases returned
      rfl
  | received bytes =>
      obtain ⟨filled, _, finished⟩ := bind_eq_ok.mp returned
      split at finished
      · cases finished
        rfl
      · obtain ⟨appended, _, ended⟩ := bind_eq_ok.mp finished
        cases ended
        rfl

namespace Session

variable {Ptr : Type} [DecidableEq Ptr]

theorem beginClose_law {s t : Session Ptr} (returned : s.beginClose = .ok t) :
    Local s t ∧ t.calls = s.calls ∧ t.connection = { s.connection with
      state := .kDisconnected
      filed := s.connection.filed.withEvents Filed.kNoneEvent } := by
  obtain ⟨frame, calls, connection⟩ := onFiled_setEvents rfl returned
  exact ⟨⟨frame.ptr, frame.fd, frame.sound⟩, calls, connection⟩

/-- A callback that reports the connection down leaves it closed, whatever the user
calls in it. -/
theorem notifyDown {s t : Session Ptr} {calls : List UserCall}
    (disconnected : s.connection.state = .kDisconnected)
    (returned : s.connectionCallback calls = .ok t) :
    Local s t ∧ notices t.calls = notices s.calls ++ [.connectionCallback false] ∧
      t.connection.state = .kDisconnected ∧
      (s.connection.filed.events = Filed.kNoneEvent →
        t.connection.filed = s.connection.filed) := by
  have quiet := Quiet.userCalls returned
  have told : Local s (s.record (.connectionCallback s.isConnect)) := .of_same rfl rfl rfl
  refine ⟨told.trans quiet.toLocal, ?_, quiet.disconnected disconnected,
    fun silenced => quiet.silenced disconnected silenced⟩
  have down : s.isConnect = false := by simp [isConnect, disconnected]
  rw [quiet.notices, record, notices_append, down]
  rfl

theorem handleClose_law {s t : Session Ptr} {calls : List UserCall}
    (returned : s.handleClose calls = .ok t) :
    Local s t ∧
      notices t.calls = notices s.calls ++ [.connectionCallback false, .closeCallback] ∧
      t.connection.state = .kDisconnected ∧
      (s.connection.filed.Monitored → t.connection.filed.Silenced) := by
  obtain ⟨closed, began, rest⟩ := bind_eq_ok.mp returned
  obtain ⟨notified, told, finished⟩ := bind_eq_ok.mp rest
  cases finished
  obtain ⟨frame, sameCalls, connection⟩ := beginClose_law began
  obtain ⟨later, heard, state, filed⟩ := notifyDown (by rw [connection]) told
  refine ⟨frame.trans ⟨later.ptr, later.fd, later.sound⟩, ?_, state, fun monitored => ?_⟩
  · simp only [record, notices_append, heard, sameCalls, List.append_assoc]
    rfl
  · have silenced : closed.connection.filed.Silenced := by
      rw [connection]
      exact monitored.disableAll
    rw [show (notified.record .closeCallback).connection.filed = closed.connection.filed from
      filed silenced.events]
    exact silenced

theorem handleRead_law {s t : Session Ptr} {answer : ReadvResult} {calls : List UserCall}
    (returned : s.handleRead answer calls = .ok t) :
    (answer.count ≠ 0 → Quiet s t) ∧
      (answer.count = 0 → ∃ input, (s.setInput input).handleClose calls = .ok t) := by
  obtain ⟨⟨input, n, errno⟩, read, rest⟩ := bind_eq_ok.mp returned
  have count : n = answer.count := Buffer.readFd_count (mapError_eq_ok.mp read)
  dsimp only at rest
  rw [count] at rest
  have received : Quiet s (s.setInput input) := .setInput s input
  split at rest
  next positive =>
    refine ⟨fun _ => ?_, fun zero => by omega⟩
    exact (received.trans (.record _ rfl)).trans (.userCalls rest)
  next nonpositive =>
    split at rest
    next zero => exact ⟨fun nonzero => absurd zero nonzero, fun _ => ⟨input, rest⟩⟩
    next nonzero =>
      cases rest
      exact ⟨fun _ => received, fun zero => absurd zero nonzero⟩

theorem establish_law {s t : Session Ptr} (returned : s.establish = .ok t) :
    Local s t ∧ t.calls = s.calls ∧ t.connection.state = .kConnected ∧
      t.connection.filed = { s.connection.filed with tied := true }.withEvents
        (s.connection.filed.events ||| Filed.kReadEvent) := by
  obtain ⟨frame, calls, connection⟩ := onFiled_setEvents rfl returned
  refine ⟨⟨frame.ptr, frame.fd, frame.sound⟩, calls, ?_, ?_⟩ <;>
    · rw [connection]
      rfl

theorem connectEstablished_law {s t : Session Ptr} {calls : List UserCall}
    (returned : s.connectEstablished calls = .ok t) :
    ∃ established, s.establish = .ok established ∧
      Quiet (established.record (.connectionCallback true)) t := by
  obtain ⟨established, began, told⟩ := bind_eq_ok.mp returned
  have up : established.isConnect = true := by
    rw [isConnect, (establish_law began).2.2.1]
    rfl
  refine ⟨established, began, ?_⟩
  rw [← up]
  exact Quiet.userCalls told

/-- `connectDestroyed` reports a connected connection down, and removes `filed_` from
the loop in any case. -/
theorem connectDestroyed_law {s t : Session Ptr} {calls : List UserCall}
    (returned : s.connectDestroyed calls = .ok t) :
    Local s t ∧ t.connection.filed.index = .kNew ∧
      (s.connection.state = .kConnected → t.connection.state = .kDisconnected ∧
        notices t.calls = notices s.calls ++ [.connectionCallback false]) ∧
      (s.connection.state ≠ .kConnected →
        t.connection.state = s.connection.state ∧ t.calls = s.calls) := by
  dsimp only [connectDestroyed] at returned
  split at returned
  next connected =>
    obtain ⟨disabled, began, rest⟩ := bind_eq_ok.mp returned
    obtain ⟨closed, told, removed⟩ := bind_eq_ok.mp rest
    obtain ⟨frame, sameCalls, connection⟩ := beginClose_law began
    obtain ⟨later, heard, state, _⟩ := notifyDown (by rw [connection]) told
    obtain ⟨last, finalCalls, final⟩ := onFiled_remove removed
    refine ⟨(frame.trans later).trans last, by rw [final], fun _ => ⟨?_, ?_⟩,
      fun other => absurd connected other⟩
    · rw [final]
      exact state
    · rw [finalCalls, heard, sameCalls]
  next other =>
    obtain ⟨same, unchanged, removed⟩ := bind_eq_ok.mp returned
    cases unchanged
    obtain ⟨last, finalCalls, final⟩ := onFiled_remove removed
    exact ⟨last, by rw [final], fun connected => absurd connected other,
      fun _ => ⟨by rw [final], finalCalls⟩⟩

/-! ## Up and down -/

/-- The user has been told the connection is up. -/
structure Up (s : Session Ptr) : Prop where
  notices : notices s.calls = [.connectionCallback true]
  state : s.connection.state = .kConnected ∨ s.connection.state = .kDisconnecting
  monitored : s.connection.filed.Monitored

/-- The user has been told the connection is down, and the `Server` too. -/
structure Down (s : Session Ptr) : Prop where
  notices : notices s.calls =
    [.connectionCallback true, .connectionCallback false, .closeCallback]
  state : s.connection.state = .kDisconnected
  silenced : s.connection.filed.Silenced

omit [DecidableEq Ptr] in
theorem Up.quiet {s t : Session Ptr} (up : Up s) (quiet : Quiet s t) : Up t := by
  refine ⟨quiet.notices.trans up.notices, ?_, quiet.monitored up.monitored⟩
  rcases quiet.state with same | ⟨_, closing⟩
  · rw [same]
    exact up.state
  · exact .inr closing

omit [DecidableEq Ptr] in
theorem Down.quiet {s t : Session Ptr} (down : Down s) (quiet : Quiet s t) : Down t := by
  refine ⟨quiet.notices.trans down.notices, quiet.disconnected down.state, ?_⟩
  rw [quiet.silenced down.state down.silenced.events]
  exact down.silenced

omit [DecidableEq Ptr] in
theorem Down.unmonitored {s : Session Ptr} (down : Down s) (sound : s.Sound) :
    s.epoller.interest s.connection.filed.fd = none := by
  rw [sound.monitored, down.silenced.index]
  rfl

theorem Up.handleClose {s t : Session Ptr} (up : Up s) {calls : List UserCall}
    (returned : s.handleClose calls = .ok t) : Down t := by
  obtain ⟨_, heard, state, silenced⟩ := handleClose_law returned
  exact ⟨by simp [heard, up.notices], state, silenced up.monitored⟩

def setRevents (s : Session Ptr) (revents : Mask) : Session Ptr :=
  { s with connection.filed := { s.connection.filed with revents := revents } }

/-- The report hangs up without input, so that `closeCallback_` runs. -/
def hangsUp (revents : Mask) : Bool :=
  revents &&& EPOLLHUP != 0 && revents &&& (EPOLLHUP ||| EPOLLIN) == EPOLLHUP

def readable (revents : Mask) : Bool := revents &&& (EPOLLIN ||| EPOLLPRI) != 0

/-- A report hangs up and, in its read callback, finds the end of the stream. -/
def ClosesTwice (revents : Mask) (inputs : EventInputs) : Prop :=
  hangsUp revents = true ∧ readable revents = true ∧ inputs.readv.count = 0

instance (revents : Mask) (inputs : EventInputs) : Decidable (ClosesTwice revents inputs) :=
  inferInstanceAs (Decidable (_ ∧ _ ∧ _))

/-- `handleEvent` of a connection, callback by callback; `handleError` changes
nothing. -/
theorem handleEvent_eq (s : Session Ptr) (inputs : EventInputs) :
    s.handleEvent true inputs =
      (if hangsUp s.connection.filed.revents then s.handleClose inputs.closeCalls
        else pure s) >>= fun closed =>
      (if readable s.connection.filed.revents then
        closed.handleRead inputs.readv inputs.readCalls else pure closed) >>= fun received =>
      if s.connection.filed.revents &&& EPOLLOUT != 0 then received.handleWrite inputs.write
        else pure received := by
  have dispatched : s.connection.filed.handleEvent (fun _ => true) true =
      (if hangsUp s.connection.filed.revents then [.close] else []) ++
      (if s.connection.filed.revents &&& EPOLLERR != 0 then [.error] else []) ++
      (if readable s.connection.filed.revents then [.read] else []) ++
      (if s.connection.filed.revents &&& EPOLLOUT != 0 then [.write] else []) := by
    simp only [Filed.handleEvent, Filed.callbacks, hangsUp, readable, Bool.and_true, if_true,
      ite_self]
    rfl
  rw [handleEvent, dispatched]
  cases hangsUp s.connection.filed.revents <;>
    cases s.connection.filed.revents &&& EPOLLERR != 0 <;>
    cases readable s.connection.filed.revents <;>
    cases s.connection.filed.revents &&& EPOLLOUT != 0 <;>
    simp [runCallback, handleError]

/-- The close and the read callback, when they run, and then a quiet rest. -/
theorem handleEvent_stages {s t : Session Ptr} {inputs : EventInputs}
    (returned : s.handleEvent true inputs = .ok t) :
    ∃ closed received,
      (if hangsUp s.connection.filed.revents then s.handleClose inputs.closeCalls
        else pure s) = .ok closed ∧
      (if readable s.connection.filed.revents then
        closed.handleRead inputs.readv inputs.readCalls else pure closed) = .ok received ∧
      Quiet received t := by
  rw [handleEvent_eq] at returned
  obtain ⟨closed, closing, rest⟩ := bind_eq_ok.mp returned
  obtain ⟨received, reading, writing⟩ := bind_eq_ok.mp rest
  refine ⟨closed, received, closing, reading, ?_⟩
  split at writing
  · exact .handleWrite writing
  · cases writing
    exact .refl t

theorem handleRead_local {s t : Session Ptr} {answer : ReadvResult} {calls : List UserCall}
    (returned : s.handleRead answer calls = .ok t) : Local s t := by
  obtain ⟨received, ended⟩ := handleRead_law returned
  by_cases zero : answer.count = 0
  · obtain ⟨input, closed⟩ := ended zero
    exact (Quiet.setInput s input).toLocal.trans (handleClose_law closed).1
  · exact (received zero).toLocal

theorem handleEvent_local {s t : Session Ptr} {inputs : EventInputs}
    (returned : s.handleEvent true inputs = .ok t) : Local s t := by
  obtain ⟨closed, received, closing, reading, rest⟩ := handleEvent_stages returned
  have first : Local s closed := by
    split at closing
    · exact (handleClose_law closing).1
    · cases closing
      exact .refl s
  have second : Local closed received := by
    split at reading
    · exact handleRead_local reading
    · cases reading
      exact .refl closed
  exact (first.trans second).trans rest.toLocal

theorem Up.handleRead {s t : Session Ptr} (up : Up s) {answer : ReadvResult}
    {calls : List UserCall} (returned : s.handleRead answer calls = .ok t) : Up t ∨ Down t := by
  obtain ⟨received, ended⟩ := handleRead_law returned
  by_cases zero : answer.count = 0
  · obtain ⟨input, closed⟩ := ended zero
    exact .inr ((up.quiet (.setInput s input)).handleClose closed)
  · exact .inl (up.quiet (received zero))

theorem Up.handleEvent {s t : Session Ptr} (up : Up s) {inputs : EventInputs}
    (returned : s.handleEvent true inputs = .ok t) :
    (¬ ClosesTwice s.connection.filed.revents inputs → Up t ∨ Down t) ∧
    (ClosesTwice s.connection.filed.revents inputs → Lucky.notices t.calls =
      [.connectionCallback true, .connectionCallback false, .closeCallback,
        .connectionCallback false, .closeCallback]) := by
  obtain ⟨closed, received, closing, reading, rest⟩ := handleEvent_stages returned
  by_cases hangs : hangsUp s.connection.filed.revents = true
  · rw [if_pos hangs] at closing
    have down := up.handleClose closing
    by_cases reads : readable s.connection.filed.revents = true
    · rw [if_pos reads] at reading
      obtain ⟨quiet, ended⟩ := handleRead_law reading
      by_cases zero : inputs.readv.count = 0
      · refine ⟨fun once => absurd ⟨hangs, reads, zero⟩ once, fun _ => ?_⟩
        obtain ⟨input, again⟩ := ended zero
        rw [rest.notices, (handleClose_law again).2.1, setInput, down.notices]
        rfl
      · exact ⟨fun _ => .inr ((down.quiet (quiet zero)).quiet rest),
          fun twice => absurd twice.2.2 zero⟩
    · rw [if_neg reads] at reading
      cases reading
      exact ⟨fun _ => .inr (down.quiet rest), fun twice => absurd twice.2.1 reads⟩
  · rw [if_neg hangs] at closing
    cases closing
    refine ⟨fun _ => ?_, fun twice => absurd twice.1 hangs⟩
    by_cases reads : readable s.connection.filed.revents = true
    · rw [if_pos reads] at reading
      rcases up.handleRead reading with still | down
      · exact .inl (still.quiet rest)
      · exact .inr (down.quiet rest)
    · rw [if_neg reads] at reading
      cases reading
      exact .inl (up.quiet rest)

end Session

end Lucky
