import Lucky.Connection.Laws
import Lucky.Epoller.Registration

/-!
# Functions that neither establish nor close a connection

Sending, draining, `shutdown` and user code leave the notifications alone, take
`state_` at most from `kConnected` to `kDisconnecting`, keep a monitored `filed_`
monitored and leave the one of a closed connection unmonitored.  `Quiet` relates
the connection before and after such a function.  `handleClose` and
`connectDestroyed` are the functions it does not cover.
-/

namespace Lucky

open Systems

/-- The calls that tell the user or the `Server` that a connection is up or down. -/
def Call.isNotice : Call → Bool
  | .connectionCallback _ | .closeCallback => true
  | .write _ _ | .append _ _ _ | .queueinLoop _ | .shutdownWrite | .messageCallback => false

def notices (calls : List Call) : List Call := calls.filter Call.isNotice

@[simp]
theorem notices_append (first second : List Call) :
    notices (first ++ second) = notices first ++ notices second := by
  simp [notices]

namespace Filed

/-- The `Filed` after new events have been stored and `update` has returned. -/
def withEvents (f : Filed) (events : Mask) : Filed :=
  { f with events := events, index := { f with events := events }.updatedIndex }

/-- Monitored for reading, and perhaps for writing. -/
structure Monitored (f : Filed) : Prop where
  index : f.index = .kAdded
  events : f.events = kReadEvent ∨ f.events = kReadEvent ||| kWriteEvent

/-- Deleted from the interest list, with no events. -/
structure Silenced (f : Filed) : Prop where
  index : f.index = .kDeleted
  events : f.events = kNoneEvent

theorem Monitored.withEvents {f : Filed} (monitored : f.Monitored) {events : Mask}
    (reads : events = kReadEvent ∨ events = kReadEvent ||| kWriteEvent) :
    (f.withEvents events).Monitored := by
  refine ⟨?_, reads⟩
  have interested : (events == kNoneEvent) = false := by
    rcases reads with rfl | rfl <;> rfl
  simp [Filed.withEvents, updatedIndex, monitored.index, isNoneEvent, interested]

theorem Monitored.enableReading {f : Filed} (new : f.index = .kNew)
    (silent : f.events = kNoneEvent) : (f.withEvents (f.events ||| kReadEvent)).Monitored := by
  refine ⟨?_, .inl ?_⟩
  · rw [Filed.withEvents, updatedIndex, new]
  · rw [Filed.withEvents, silent]
    rfl

theorem Monitored.enableWriting {f : Filed} (monitored : f.Monitored) :
    (f.withEvents (f.events ||| kWriteEvent)).Monitored := by
  refine monitored.withEvents (.inr ?_)
  rcases monitored.events with events | events
  · rw [events]
  · rw [events]
    rfl

theorem Monitored.disableWriting {f : Filed} (monitored : f.Monitored) :
    (f.withEvents (f.events &&& ~~~kWriteEvent)).Monitored := by
  refine monitored.withEvents (.inl ?_)
  rcases monitored.events with events | events
  · rw [events]
    rfl
  · rw [events]
    rfl

theorem Monitored.disableAll {f : Filed} (monitored : f.Monitored) :
    (f.withEvents kNoneEvent).Silenced :=
  ⟨by simp [Filed.withEvents, updatedIndex, monitored.index, isNoneEvent], rfl⟩

theorem isWriting_of_none {f : Filed} (silent : f.events = kNoneEvent) : f.isWriting = false := by
  rw [isWriting, silent]
  rfl

theorem setEvents_filed {Ptr : Type} [DecidableEq Ptr] {epoller after : Epoller Ptr} {ptr : Ptr}
    {events : Mask} {f g : Filed} (returned : f.setEvents events epoller ptr = .ok (after, g)) :
    g = f.withEvents events :=
  Epoller.update_filed returned

end Filed

namespace Session

variable {Ptr : Type}

/-- `filed_` is registered with its own events on the loop. -/
def Sound (s : Session Ptr) : Prop :=
  Registered s.epoller s.ptr s.connection.filed.fd s.connection.filed.index
    s.connection.filed.events

/-- The frame of every function of a connection: it keeps `filed_` registered and
touches no other descriptor of the loop. -/
structure Local (s t : Session Ptr) : Prop where
  ptr : t.ptr = s.ptr
  fd : t.connection.filed.fd = s.connection.filed.fd
  sound : s.Sound → t.Sound ∧ AgreeOff s.connection.filed.fd s.epoller t.epoller

theorem Local.refl (s : Session Ptr) : Local s s :=
  ⟨rfl, rfl, fun sound => ⟨sound, .refl _ _⟩⟩

theorem Local.trans {s t u : Session Ptr} (first : Local s t) (second : Local t u) :
    Local s u := by
  refine ⟨second.ptr.trans first.ptr, second.fd.trans first.fd, ?_⟩
  intro sound
  obtain ⟨middle, agree⟩ := first.sound sound
  obtain ⟨after, agreeAfter⟩ := second.sound middle
  exact ⟨after, agree.trans (first.fd ▸ agreeAfter)⟩

theorem Local.of_same {s t : Session Ptr} (ptr : t.ptr = s.ptr)
    (filed : t.connection.filed = s.connection.filed) (epoller : t.epoller = s.epoller) :
    Local s t := by
  refine ⟨ptr, by rw [filed], fun sound => ?_⟩
  rw [Sound, ptr, filed, epoller]
  exact ⟨sound, .refl _ _⟩

/-- What a function that is no establishing or closing one may change. -/
structure Quiet (s t : Session Ptr) : Prop extends Local s t where
  notices : notices t.calls = notices s.calls
  state : t.connection.state = s.connection.state ∨
    s.connection.state = .kConnected ∧ t.connection.state = .kDisconnecting
  monitored : s.connection.filed.Monitored → t.connection.filed.Monitored
  silenced : s.connection.state = .kDisconnected →
    s.connection.filed.events = Filed.kNoneEvent → t.connection.filed = s.connection.filed

theorem Quiet.refl (s : Session Ptr) : Quiet s s :=
  ⟨.refl s, rfl, .inl rfl, id, fun _ _ => rfl⟩

theorem Quiet.disconnected {s t : Session Ptr} (quiet : Quiet s t)
    (closed : s.connection.state = .kDisconnected) : t.connection.state = .kDisconnected := by
  rcases quiet.state with same | ⟨connected, _⟩
  · exact same.trans closed
  · rw [closed] at connected
    cases connected

theorem Quiet.trans {s t u : Session Ptr} (first : Quiet s t) (second : Quiet t u) :
    Quiet s u := by
  refine ⟨first.toLocal.trans second.toLocal, second.notices.trans first.notices, ?_,
    fun monitored => second.monitored (first.monitored monitored), ?_⟩
  · rcases first.state with same | ⟨connected, closing⟩ <;>
      rcases second.state with sameAfter | ⟨connectedAfter, closingAfter⟩
    · exact .inl (sameAfter.trans same)
    · exact .inr ⟨same.symm.trans connectedAfter, closingAfter⟩
    · exact .inr ⟨connected, sameAfter.trans closing⟩
    · exact .inr ⟨connected, closingAfter⟩
  · intro disconnected silenced
    have same := first.silenced disconnected silenced
    exact (second.silenced (first.disconnected disconnected) (same ▸ silenced)).trans same

theorem Quiet.of_same {s t : Session Ptr} (ptr : t.ptr = s.ptr)
    (filed : t.connection.filed = s.connection.filed) (epoller : t.epoller = s.epoller)
    (state : t.connection.state = s.connection.state)
    (notices : Lucky.notices t.calls = Lucky.notices s.calls) : Quiet s t :=
  ⟨.of_same ptr filed epoller, notices, .inl state, fun monitored => filed ▸ monitored,
    fun _ _ => filed⟩

theorem Quiet.record (s : Session Ptr) {call : Call} (silent : call.isNotice = false) :
    Quiet s (s.record call) :=
  .of_same rfl rfl rfl rfl (by simp [Session.record, Lucky.notices, silent])

theorem Quiet.setOutput (s : Session Ptr) (output : Buffer) : Quiet s (s.setOutput output) :=
  .of_same rfl rfl rfl rfl rfl

theorem Quiet.setInput (s : Session Ptr) (input : Buffer) : Quiet s (s.setInput input) :=
  .of_same rfl rfl rfl rfl rfl

theorem Quiet.notify (s : Session Ptr) : Quiet s
    (if s.connection.writeCompleteCallback then
      s.record (.queueinLoop .writeCompleteCallback) else s) := by
  split
  · exact .record s rfl
  · exact .refl s

theorem Quiet.writeDirectly (s : Session Ptr) (data : Chunk) (answer : WriteResult) :
    Quiet s (s.writeDirectly data answer).1 := by
  have written : Quiet s (s.record (.write data.data answer)) := .record s rfl
  unfold Session.writeDirectly
  dsimp only
  split
  · split
    · exact written.trans (.record _ rfl)
    · exact written
  · exact written

theorem Quiet.checkHighWaterMark (s : Session Ptr) (remaining : Nat) :
    Quiet s (s.checkHighWaterMark remaining) := by
  unfold Session.checkHighWaterMark
  dsimp only
  split
  · exact .record s rfl
  · exact .refl s

theorem Quiet.shutdownInLoop (s : Session Ptr) : Quiet s s.shutdownInLoop := by
  unfold Session.shutdownInLoop
  split
  · exact .record s rfl
  · exact .refl s

theorem Quiet.shutdown (s : Session Ptr) : Quiet s s.shutdown := by
  unfold Session.shutdown
  split
  next connected =>
    have closing : Quiet s (s.setState .kDisconnecting) :=
      ⟨.of_same rfl rfl rfl, rfl, .inr ⟨connected, rfl⟩, id, fun _ _ => rfl⟩
    exact closing.trans (.shutdownInLoop _)
  next => exact .refl s

theorem onFiled_remove {s t : Session Ptr} (returned : s.onFiled Filed.remove = .ok t) :
    Local s t ∧ t.calls = s.calls ∧
      t.connection =
        { s.connection with filed := { s.connection.filed with index := .kNew } } := by
  obtain ⟨epoller, filed, called, rfl⟩ := onFiled_eq_ok.mp returned
  have stored := Epoller.remove_filed called
  subst stored
  refine ⟨⟨rfl, rfl, fun sound => ?_⟩, rfl, rfl⟩
  obtain ⟨after, removed, registered, agree⟩ := Epoller.remove_registered sound
  have same := congrArg Prod.fst (Except.ok.inj (called.symm.trans removed))
  simp only at same
  subst same
  exact ⟨registered, agree⟩

variable [DecidableEq Ptr]

theorem onFiled_setEvents {s t : Session Ptr}
    {call : Epoller Ptr → Ptr → Filed → Except Fault (Epoller Ptr × Filed)} {events : Mask}
    (sets : call s.epoller s.ptr s.connection.filed =
      s.connection.filed.setEvents events s.epoller s.ptr)
    (returned : s.onFiled call = .ok t) :
    Local s t ∧ t.calls = s.calls ∧
      t.connection = { s.connection with filed := s.connection.filed.withEvents events } := by
  obtain ⟨epoller, filed, called, rfl⟩ := onFiled_eq_ok.mp returned
  rw [sets] at called
  have stored := Filed.setEvents_filed called
  subst stored
  refine ⟨⟨rfl, rfl, fun sound => ?_⟩, rfl, rfl⟩
  rcases Epoller.update_registered (f := { s.connection.filed with events := events }) sound with
    ⟨after, updated, registered, agree⟩
  have same := congrArg Prod.fst (Except.ok.inj (called.symm.trans updated))
  simp only at same
  subst same
  exact ⟨registered, agree⟩

theorem Quiet.enableWriting {s t : Session Ptr} (live : s.connection.state ≠ .kDisconnected)
    (returned : s.onFiled Filed.enableWriting = .ok t) : Quiet s t := by
  obtain ⟨frame, calls, connection⟩ := onFiled_setEvents rfl returned
  refine ⟨frame, by rw [calls], .inl (by rw [connection]), ?_,
    fun disconnected => absurd disconnected live⟩
  rw [connection]
  exact fun monitored => monitored.enableWriting

theorem Quiet.disableWriting {s t : Session Ptr} (writing : s.connection.filed.isWriting = true)
    (returned : s.onFiled Filed.disableWriting = .ok t) : Quiet s t := by
  obtain ⟨frame, calls, connection⟩ := onFiled_setEvents rfl returned
  refine ⟨frame, by rw [calls], .inl (by rw [connection]), ?_, ?_⟩
  · rw [connection]
    exact fun monitored => monitored.disableWriting
  · intro _ silenced
    rw [Filed.isWriting_of_none silenced] at writing
    cases writing

/-! ## Sending -/

theorem Quiet.bufferRemaining {s t : Session Ptr} {data : Chunk} {progress : Progress}
    (live : s.connection.state ≠ .kDisconnected)
    (returned : s.bufferRemaining data progress = .ok t) : Quiet s t := by
  unfold Session.bufferRemaining at returned
  split at returned
  · obtain ⟨output, _, finished⟩ := bind_eq_ok.mp returned
    have marked := Quiet.checkHighWaterMark s progress.remaining
    have appended := (marked.trans (.setOutput _ output)).trans
      (.record _ (rfl : (Call.append progress.nwrote progress.remaining data.len).isNotice = false))
    dsimp only at finished
    split at finished
    · refine appended.trans (.enableWriting ?_ finished)
      have state := (s.checkHighWaterMark_frame progress.remaining).1
      simpa [Session.record, Session.setOutput, state] using live
    · cases finished
      exact appended
  · cases returned
    exact .refl s

theorem Quiet.sendinLoop {s t : Session Ptr} {data : Chunk} {answer : WriteResult}
    (returned : s.sendinLoop data answer = .ok t) : Quiet s t := by
  unfold Session.sendinLoop at returned
  split at returned
  next =>
    cases returned
    exact .refl s
  next live =>
    split at returned
    · have written := Quiet.writeDirectly s data answer
      refine written.trans (.bufferRemaining ?_ returned)
      rcases written.state with same | ⟨_, closing⟩
      · rw [same]
        exact live
      · simp [closing]
    · exact .bufferRemaining live returned

/-! ## User code -/

theorem Quiet.userCall {s t : Session Ptr} {call : UserCall}
    (returned : s.userCall call = .ok t) : Quiet s t := by
  cases call with
  | send data answer =>
      simp only [Session.userCall, Session.send] at returned
      split at returned
      · exact .sendinLoop returned
      · cases returned
        exact .refl s
  | shutdown =>
      cases returned
      exact .shutdown s
  | retrieve len =>
      cases returned
      exact .setInput s _

theorem Quiet.userCalls {s t : Session Ptr} {calls : List UserCall}
    (returned : s.userCalls calls = .ok t) : Quiet s t :=
  foldlM_ok_related Quiet.refl (fun _ _ _ => Quiet.trans) (fun _ _ _ => Quiet.userCall) returned

/-! ## Draining -/

theorem Quiet.outputDrained {s t : Session Ptr} (writing : s.connection.filed.isWriting = true)
    (returned : s.outputDrained = .ok t) : Quiet s t := by
  obtain ⟨disabled, called, finished⟩ := bind_eq_ok.mp returned
  have notified := (Quiet.disableWriting writing called).trans (.notify disabled)
  dsimp only at finished
  generalize (if disabled.connection.writeCompleteCallback then
    disabled.record (.queueinLoop .writeCompleteCallback) else disabled) = after
    at notified finished
  cases finished
  split
  · exact notified.trans (.shutdownInLoop _)
  · exact notified

theorem Quiet.handleWrite {s t : Session Ptr} {answer : WriteResult}
    (returned : s.handleWrite answer = .ok t) : Quiet s t := by
  unfold Session.handleWrite at returned
  split at returned
  next writing =>
    have written : Quiet s (s.record (.write s.connection.outputBuffer.readable answer)) :=
      .record s rfl
    dsimp only at returned
    split at returned
    · have retrieved := written.trans (.setOutput _ (s.connection.outputBuffer.retrieve
        (s.connection.outputBuffer.writeFd 0 answer).1.toNat))
      split at returned
      · exact retrieved.trans (.outputDrained writing returned)
      · cases returned
        exact retrieved
    · cases returned
      exact written
  next =>
    cases returned
    exact .refl s

end Session

end Lucky
